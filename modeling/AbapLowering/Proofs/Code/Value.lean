import AbapLowering.Proofs.Code.Script

/-!
# The values of literals

What the literals of emitted code say, by the rules of JavaScript: between its marks every character
says itself, and after a backslash what it stands for then.

- `Script.unescape?`: what some characters between marks say;
- `Script.value?`: what some code says that is one literal, from its first character to its last. Code
  that goes on after the mark that ends the literal has no value, nor has a template with a
  substitution or one of several lines.
-/

namespace AbapLowering

namespace Script

variable {c : Char} {cs rest : List Char} {quote : Quote}

/-- What a character stands for after a backslash. Numbers of characters and lines that are continued
are left out. -/
def escaped? (c : Char) : Option Char :=
  if c = 'n' then some '\n'
  else if c = 't' then some '\t'
  else if c = 'r' then some '\r'
  else if c = 'b' then some '\x08'
  else if c = 'v' then some '\x0b'
  else if c = 'f' then some '\x0c'
  else if c = 'x' ∨ c = 'u' ∨ c.isDigit ∨ isBreak c ∨ c = '\u2028' ∨ c = '\u2029' then none
  else some c

/-- What some characters say that stand between the marks of a literal. -/
def unescape? : List Char → Option (List Char)
  | [] => some []
  | ['\\'] => none
  | '\\' :: c :: rest => (escaped? c).bind fun x => (unescape? rest).map (x :: ·)
  | c :: rest => (unescape? rest).map (c :: ·)

/-- The marks that begin with a character. -/
def Quote.ofChar? (c : Char) : Option Quote :=
  [Quote.single, .double, .back].find? fun quote => c = quote.char

/-- What some code says that is one literal. -/
def value? (code : String) : Option String :=
  if code.toList.any isBreak then none
  else match code.toList with
    | [] => none
    | mark :: rest =>
      (Quote.ofChar? mark).bind fun quote =>
        (Text.beforeEnd? [quote.char] rest).bind fun body =>
          ((Mode.text quote).within? body).bind fun _ => (unescape? body).map String.ofList

/-! ## Between the marks -/

theorem unescape?_cons (h : c ≠ '\\') :
    unescape? (c :: rest) = (unescape? rest).map (c :: ·) := by
  rw [unescape?.eq_4]
  all_goals simp [h]

theorem unescape?_backslash (c : Char) (rest : List Char) :
    unescape? ('\\' :: c :: rest) =
      (escaped? c).bind fun x => (unescape? rest).map (x :: ·) := by
  rw [unescape?]

/-- What is no escape says itself. -/
theorem unescape?_of_not_mem (h : '\\' ∉ cs) : unescape? cs = some cs := by
  induction cs with
  | nil => rfl
  | cons c rest ih =>
    rw [List.mem_cons, not_or] at h
    rw [unescape?_cons (Ne.symm h.1), ih h.2, Option.map_some]

theorem eq_backslash_of_escaped? (h : escaped? c = some '\\') : c = '\\' := by
  unfold escaped? at h
  repeat' split at h
  all_goals first | exact Option.some.inj h | cases h

/-- Reading escapes takes backslashes away. -/
theorem count_unescape? {value : List Char} (h : unescape? cs = some value) :
    value.count '\\' ≤ cs.count '\\' ∧ ('\\' ∈ cs → value.count '\\' < cs.count '\\') := by
  fun_induction unescape? cs generalizing value with
  | case1 =>
    cases h
    simp
  | case2 => cases h
  -- an escape loses its backslash, and stands for another only if that was escaped
  | case3 c rest ih =>
    obtain ⟨x, hx, h⟩ := Option.bind_eq_some_iff.mp h
    obtain ⟨others, hothers, rfl⟩ := Option.map_eq_some_iff.mp h
    have hle := (ih hothers).1
    have hfirst : [x].count '\\' ≤ [c].count '\\' := by
      by_cases hslash : x = '\\'
      · subst hslash
        obtain rfl := eq_backslash_of_escaped? hx
        exact Nat.le_refl _
      · simp [hslash]
    have hlt : (x :: others).count '\\' < ('\\' :: c :: rest).count '\\' := by
      rw [← List.singleton_append, List.count_append, List.count_cons_self,
        ← List.singleton_append (l := rest), List.count_append]
      omega
    exact ⟨Nat.le_of_lt hlt, fun _ => hlt⟩
  -- not an escape, so no backslash
  | case4 c rest hlast hescape ih =>
    obtain ⟨others, hothers, rfl⟩ := Option.map_eq_some_iff.mp h
    obtain ⟨hle, hlt⟩ := ih hothers
    have hc : c ≠ '\\' := by
      rintro rfl
      cases rest with
      | nil => exact hlast rfl rfl
      | cons d rest => exact hescape d rest rfl rfl
    rw [List.count_cons_of_ne hc, List.count_cons_of_ne hc]
    refine ⟨hle, fun hmem => hlt ?_⟩
    exact (List.mem_cons.mp hmem).resolve_left (Ne.symm hc)

/-! ## Literals -/

/-- The value of a literal is what stands between its marks, if no mark and no substitution is
there. -/
theorem value?_marked (quote : Quote) {body : List Char} (h : ∀ c ∈ body, isBreak c = false) :
    value? (String.ofList (quote.char :: (body ++ [quote.char]))) =
      ((Mode.text quote).within? body).bind fun _ => (unescape? body).map String.ofList := by
  have hquote : Quote.ofChar? quote.char = some quote := by cases quote <;> rfl
  have hmark : isBreak quote.char = false := by cases quote <;> rfl
  have hunbroken : (quote.char :: (body ++ [quote.char])).any isBreak = false := by
    simpa [hmark] using h
  rw [value?, String.toList_ofList, hunbroken, if_neg Bool.false_ne_true]
  dsimp only
  rw [hquote, Option.bind_some, Text.beforeEnd?_append, Option.bind_some]

/-- A literal that is read to its end says what stands between its marks. -/
theorem value?_of_within {body value : List Char} {m : Mode} (h : ∀ c ∈ body, isBreak c = false)
    (hwithin : (Mode.text quote).within? body = some m) (hvalue : unescape? body = some value) :
    value? (String.ofList (quote.char :: (body ++ [quote.char]))) = some (String.ofList value) := by
  rw [value?_marked quote h, hwithin, hvalue]
  rfl

end Script

end AbapLowering
