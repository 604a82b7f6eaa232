import AbapLowering.Proofs.Code.CaseMapping
import AbapLowering.Proofs.Code.Spelling
import AbapLowering.Proofs.Code.Words

/-!
# Terms of code

The grammar of operands in emitted code, as far as it matters for what a member access written after
an operand applies to: member accesses, calls and the like bind stronger than the operator `await`
before an operand. Main facts:

- a term that binds like a member access does not begin with `await` (`Term.not_await`), so a member
  access after some code applies to one part of it only (`Accesses.unique`);
- the index of a term tells whether the word `await` stands in it (`Term.found`).
-/

namespace AbapLowering

namespace Script

open Reading

/-! ## Names -/

/-- The words of the language that are no operands and no names of variables. -/
def reservedWords : List String :=
  ["await", "break", "case", "catch", "class", "const", "continue", "debugger", "default", "delete",
    "do", "else", "enum", "export", "extends", "finally", "for", "function", "if", "import", "in",
    "instanceof", "new", "return", "switch", "throw", "try", "typeof", "var", "void", "while", "with",
    "yield"]

/-- What can stand after a dot or before a colon; `await` is left out, which is looked for. -/
structure IsWord (s : String) : Prop where
  chars : ∀ c ∈ s.toList, isWordChar c = true
  start : s.toList.head?.any (!·.isDigit) = true
  ne_await : s ≠ "await"

/-- What can stand as an operand: a name, or one of the words that stand for a value. -/
structure IsIdentifier (s : String) : Prop extends IsWord s where
  free : s ∉ reservedWords

instance (s : String) : Decidable (IsWord s) :=
  decidable_of_iff (s.toList.all isWordChar = true ∧
      s.toList.head?.any (!·.isDigit) = true ∧ s ≠ "await")
    ⟨fun ⟨hchars, hstart, hne⟩ => ⟨List.all_eq_true.mp hchars, hstart, hne⟩,
      fun h => ⟨List.all_eq_true.mpr h.chars, h.start, h.ne_await⟩⟩

instance (s : String) : Decidable (IsIdentifier s) :=
  decidable_of_iff (IsWord s ∧ s ∉ reservedWords)
    ⟨fun ⟨hword, hfree⟩ => ⟨hword, hfree⟩, fun h => ⟨h.toIsWord, h.free⟩⟩

/-! ## Terms -/

/-- What a piece of code is. -/
inductive Form where
  /-- An operand that binds at least like a member access. -/
  | access
  /-- An operand, perhaps after `await`. -/
  | operand
  /-- Operands between commas. -/
  | list
  /-- Operands under names, between commas. -/
  | fields
  /-- What stands in a template from some place on up to its end. -/
  | pieces (m : Mode)

/-- Code of some form; it is marked whether an `await` stands in it. -/
inductive Term : Form → Bool → String → Prop
  | name {s} : IsIdentifier s → Term .access false s
  | text {s} : (Mode.text .single).within? s.toList = some (.text .single) →
      Term .access false ("'" ++ s ++ "'")
  | template {b s} : Term (.pieces (.text .back)) b s → Term .access b ("\x60" ++ s ++ "\x60")
  | parens {b s} : Term .operand b s → Term .access b ("(" ++ s ++ ")")
  | member {b s name} : Term .access b s → IsWord name → Term .access b (s ++ "." ++ name)
  | index {b c s t} : Term .access b s → Term .operand c t →
      Term .access (b || c) (s ++ "[" ++ t ++ "]")
  | call {b c s t} : Term .access b s → Term .list c t →
      Term .access (b || c) (s ++ "(" ++ t ++ ")")
  /-- An instance of a class, which is named by a path. -/
  | create {b path t} : (∀ word ∈ path, IsWord word) → Term .list b t →
      Term .access b ("new " ++ ".".intercalate path ++ "(" ++ t ++ ")")
  | plain {b s} : Term .access b s → Term .operand b s
  | await {b s} : Term .operand b s → Term .operand true ("await " ++ s)
  | number (n : Nat) : Term .operand false (toString n)
  | object {b s} : Term .fields b s → Term .operand b ("\x7b" ++ s ++ "\x7d")
  | nothing : Term .list false ""
  | single {b s} : Term .operand b s → Term .list b s
  | more {b c s t} (separator : String) : Term .operand b s → Term .list c t →
      separator ∈ [",", ", "] → Term .list (b || c) (s ++ separator ++ t)
  | field {b s key} : IsWord key → Term .operand b s → Term .fields b (key ++ ": " ++ s)
  | fields {b c s t key} : IsWord key → Term .operand b s → Term .fields c t →
      Term .fields (b || c) (key ++ ": " ++ s ++ ", " ++ t)
  | finish {m} : m.IsTemplate → Term (.pieces m) false ""
  | literal {m m' b s t} : m.within? s.toList = some m' → Term (.pieces m') b t →
      Term (.pieces m) b (s ++ t)
  | substitution {m b c s t} : m.IsTemplate → Term .operand b s → Term (.pieces (.text .back)) c t →
      Term (.pieces m) (b || c) ("$\x7b" ++ s ++ "\x7d" ++ t)

/-! ## What an access applies to -/

/-- A word contains no separator. -/
theorem not_mem_of_isWordChar {s : String} (h : ∀ c ∈ s.toList, isWordChar c = true) {x : Char}
    (hx : isWordChar x = false) : x ∉ s.toList := fun hmem => by
  rw [h x hmem] at hx
  cases hx

/-- Code that begins like `p` begins so before each character that `p` lacks. -/
theorem prefix_of_prefix_append_cons {p cs ds : List Char} {c : Char} (h : p <+: cs ++ c :: ds)
    (hc : c ∉ p) : p <+: cs := by
  rcases List.prefix_or_prefix_of_prefix h (List.prefix_append cs (c :: ds)) with hp | ⟨ps, rfl⟩
  · exact hp
  · cases ps with
    | nil => simp
    | cons x ps =>
      rw [List.prefix_append_right_inj, List.cons_prefix_cons] at h
      exact absurd (h.1 ▸ List.mem_append_right cs List.mem_cons_self) hc

/-- An operand that binds like a member access does not begin with the operator. -/
theorem Term.not_await {b : Bool} {s : String} (h : Term .access b s) :
    ¬ "await ".toList <+: s.toList := by
  -- the form is kept apart, since the induction goes through terms of all forms
  generalize hform : Form.access = form at h
  induction h with
  | name h =>
    exact fun hbegins =>
      not_mem_of_isWordChar h.chars (x := ' ') rfl (List.IsPrefix.subset hbegins (by decide))
  | text | template | parens | create => simp
  | member _ _ ih | index _ _ ih | call _ _ ih =>
    -- the operator has no dot and no bracket in it, so it would stand before the first of them
    intro hbegins
    simp only [String.toList_append, List.append_assoc] at hbegins
    exact ih hform (prefix_of_prefix_append_cons hbegins (by decide))
  | _ => cases hform

/-- A member access after the first code applies to the second, which is what follows the operators
before it. -/
inductive Accesses : String → String → Prop
  | whole {b s} : Term .access b s → Accesses s s
  | await {s operand} : Accesses s operand → Accesses ("await " ++ s) operand

/-- A member access applies to one part of some code only. -/
theorem Accesses.unique {s p q : String} (h : Accesses s p) (h' : Accesses s q) : p = q := by
  induction h with
  | whole h =>
    cases h' with
    | whole => rfl
    | await => exact absurd (by simp) h.not_await
  | @await s p h ih =>
    generalize hs : "await " ++ s = whole at h'
    cases h' with
    | whole h' => exact absurd (by simp [← hs]) h'.not_await
    | await h' => exact ih ((String.append_right_inj _).mp hs ▸ h')

/-! ## Where terms await -/

namespace Awaiting

/-- A word other than `await` has none. -/
theorem of_chars {s : String} (h : ∀ c ∈ s.toList, isWordChar c = true) (hne : s ≠ "await") :
    Awaiting false s := by
  have hplain : ∀ c, isWordChar c = true → isPlain c = true := by
    intro c hc
    by_contra hmark
    have hcases : c ∈ ['\x7b', '\x7d', '\x27', '\x22', '\x60', '/'] := by
      simpa [isPlain, ← or_assoc, or_iff_not_imp_left] using hmark
    simp only [List.mem_cons, List.not_mem_nil, or_false] at hcases
    rcases hcases with rfl | rfl | rfl | rfl | rfl | rfl <;> cases hc
  refine .of_silent (.plain (List.all_eq_true.mpr fun c hc => hplain c (h c hc)) ?_)
  rw [wordsOf_of_word h, List.mem_singleton]
  exact fun heq => hne (String.toList_inj.mp heq.symm)

theorem word {s : String} (h : IsWord s) : Awaiting false s := of_chars h.chars h.ne_await

/-- A path of names has no `await`. -/
theorem path {words : List String} (h : ∀ word ∈ words, IsWord word) :
    Awaiting false (".".intercalate words) := by
  induction words with
  | nil => exact .fixed ""
  | cons first rest ih =>
    obtain ⟨hfirst, hrest⟩ := List.forall_mem_cons.mp h
    cases rest with
    | nil =>
      rw [String.intercalate_singleton]
      exact .word hfirst
    | cons second rest =>
      rw [String.intercalate_cons_cons]
      exact (word hfirst).joined "." (ih hrest)

/-- A number has no `await`. -/
theorem number (n : Nat) : Awaiting false (toString n) := by
  have hdigit : ∀ c ∈ (toString n).toList, c.isDigit = true := fun c hc =>
    Nat.isDigit_of_mem_toDigits (b := 10) (by decide) (by decide) (by simpa using hc)
  refine of_chars (fun c hc => ?_) fun heq => ?_
  · simp [isWordChar, Char.isAlphanum, hdigit c hc]
  · have ha := hdigit 'a' (heq ▸ by decide)
    cases ha

end Awaiting

/-- What the reader finds in a piece of some form. -/
def Form.Found : Form → Bool → String → Prop
  | .pieces m, b, s => ∀ opened, ∃ cs m', m'.IsTemplate ∧ Shows ⟨m, opened⟩ s cs ⟨m', opened⟩ ∧
      (awaitWord ∈ wordsOf cs ↔ b = true)
  | _, b, s => Awaiting b s

/-- A text between quotation marks. -/
theorem Awaiting.text {quote : Quote} (hquote : quote ≠ .back) {s : String}
    (h : (Mode.text quote).within? s.toList = some (.text quote)) :
    Awaiting false (String.ofList [quote.char] ++ s ++ String.ofList [quote.char]) := by
  intro opened
  have hopen : Shows ⟨.code, opened⟩ (String.ofList [quote.char]) [quote.char]
      ⟨.text quote, opened⟩ := by cases quote <;> exact ⟨rfl, rfl⟩
  have hclose : Shows ⟨.text quote, opened⟩ (String.ofList [quote.char]) [' ']
      ⟨.code, opened⟩ := by cases quote <;> exact ⟨rfl, rfl⟩
  have hmark : awaitWord ∉ wordsOf [quote.char] := by cases quote <;> decide
  have hends : endsApart [quote.char] = true := by cases quote <;> rfl
  refine ⟨_, (hopen.append (.within h opened)).append hclose, ?_⟩
  rw [mem_wordsOf_append awaitWord_ne_nil (.of_startsApart rfl),
    mem_wordsOf_append awaitWord_ne_nil (.of_endsApart hends)]
  simp [hmark, show awaitWord ∉ wordsOf [' '] by decide, not_mem_wordsOf_blanks awaitWord_ne_nil]

/-- A template has an `await` if one of its pieces has one. -/
theorem Awaiting.template {b : Bool} {s : String} (h : Form.Found (.pieces (.text .back)) b s) :
    Awaiting b ("\x60" ++ s ++ "\x60") := by
  intro opened
  obtain ⟨cs, m', hm', hshows, hiff⟩ := h opened
  have hopen : Shows ⟨.code, opened⟩ "\x60" ['\x60'] ⟨.text .back, opened⟩ := ⟨rfl, rfl⟩
  have hclose : Shows ⟨m', opened⟩ "\x60" [' '] ⟨.code, opened⟩ := by
    rcases hm' with rfl | rfl <;> exact ⟨rfl, rfl⟩
  refine ⟨_, (hopen.append hshows).append hclose, ?_⟩
  rw [mem_wordsOf_append awaitWord_ne_nil (.of_startsApart rfl),
    mem_wordsOf_append awaitWord_ne_nil (.of_endsApart rfl), hiff]
  simp [show awaitWord ∉ wordsOf ['\x60'] by decide, show awaitWord ∉ wordsOf [' '] by decide]

/-- An `await` before something. -/
theorem Awaiting.await {b : Bool} {s : String} (h : Awaiting b s) :
    Awaiting true ("await " ++ s) := by
  intro opened
  obtain ⟨cs, hshows, -⟩ := h opened
  refine ⟨_, (Shows.plain rfl opened).append hshows, ?_⟩
  have hfirst : awaitWord ∈ wordsOf "await ".toList := by decide
  rw [mem_wordsOf_append awaitWord_ne_nil (.of_endsApart rfl)]
  exact iff_of_true (.inl hfirst) rfl

/-- The texts of a template do not count. -/
theorem Form.Found.literal {m m' : Mode} {b : Bool} {s t : String}
    (h : m.within? s.toList = some m') (ht : Form.Found (.pieces m') b t) :
    Form.Found (.pieces m) b (s ++ t) := by
  intro opened
  obtain ⟨cs, m'', hm'', hshows, hiff⟩ := ht opened
  refine ⟨_, m'', hm'', (Shows.within h opened).append hshows, ?_⟩
  have hends : endsApart (List.replicate s.toList.length ' ') = true := by
    cases s.toList.length with
    | zero => rfl
    | succ n => rw [List.replicate_succ', endsApart, List.getLast?_concat]; rfl
  rw [mem_wordsOf_append awaitWord_ne_nil (.of_endsApart hends), hiff]
  simp [not_mem_wordsOf_blanks awaitWord_ne_nil]

/-- The code in a template does. -/
theorem Form.Found.substitution {m : Mode} {b c : Bool} {s t : String} (hm : m.IsTemplate)
    (h : Awaiting b s) (ht : Form.Found (.pieces (.text .back)) c t) :
    Form.Found (.pieces m) (b || c) ("$\x7b" ++ s ++ "\x7d" ++ t) := by
  intro opened
  obtain ⟨cs, hshows, hiff⟩ := h (.substitution :: opened)
  obtain ⟨ds, m', hm', hshows', hiff'⟩ := ht opened
  have hopen : Shows ⟨m, opened⟩ "$\x7b" [' ', ' '] ⟨.code, .substitution :: opened⟩ := by
    rcases hm with rfl | rfl <;> exact ⟨rfl, rfl⟩
  have hclose : Shows ⟨.code, .substitution :: opened⟩ "\x7d" ['\x7d'] ⟨.text .back, opened⟩ :=
    ⟨rfl, rfl⟩
  refine ⟨_, m', hm', ((hopen.append hshows).append hclose).append hshows', ?_⟩
  have hends : endsApart ([' ', ' '] ++ cs ++ ['\x7d']) = true := by
    rw [endsApart, List.getLast?_concat]
    rfl
  rw [mem_wordsOf_append awaitWord_ne_nil (.of_endsApart hends),
    mem_wordsOf_append awaitWord_ne_nil (.of_startsApart rfl),
    mem_wordsOf_append awaitWord_ne_nil (.of_endsApart rfl), hiff, hiff']
  simp [show awaitWord ∉ wordsOf [' ', ' '] by decide, show awaitWord ∉ wordsOf ['\x7d'] by decide]

/-- The index of a term tells whether an `await` stands in it. -/
theorem Term.found {form : Form} {b : Bool} {s : String} (h : Term form b s) : form.Found b s := by
  induction h with
  | name h => exact .word h.toIsWord
  | text h => exact .text (show Quote.single ≠ .back by decide) h
  | template _ ih => exact .template ih
  | parens _ ih => exact (ih.afterPlain "(").beforePlain ")"
  | member _ hname ih =>
    have h := ih.joined "." (.word hname)
    rwa [Bool.or_false] at h
  | index _ _ ih ih' => exact (ih.joined "[" ih').beforePlain "]"
  | call _ _ ih ih' => exact (ih.joined "(" ih').beforePlain ")"
  | create hpath _ ih =>
    exact (((Awaiting.path hpath).afterPlain "new ").joined "(" ih).beforePlain ")"
  | plain _ ih | single _ ih => exact ih
  | await _ ih => exact .await ih
  | number n => exact .number n
  | object _ ih => exact .braces ih
  | nothing => exact .fixed ""
  | @more b c s t separator _ _ hseparator ih ih' =>
    have hseparator : separator = "," ∨ separator = ", " := by simpa using hseparator
    rcases hseparator with rfl | rfl
    · exact ih.joined "," ih'
    · exact ih.joined ", " ih'
  | field hkey _ ih => exact (Awaiting.word hkey).joined ": " ih
  | fields hkey _ _ ih ih' => exact ((Awaiting.word hkey).joined ": " ih).joined ", " ih'
  -- nothing is left of the template
  | finish hm =>
    exact fun opened => ⟨[], _, hm, ⟨rfl, rfl⟩, by simp [show awaitWord ∉ wordsOf [] by decide]⟩
  | literal h _ ih => exact .literal h ih
  | substitution hm _ _ ih ih' => exact .substitution hm ih ih'

end Script

end AbapLowering
