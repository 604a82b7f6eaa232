import AbapLowering.Proofs.Code.Reads
import AbapLowering.Proofs.Code.Value

/-!
# What literals say

The literals of the source are written as literals of the emitted code, each kind by its own rules.
Main facts:

- a text, a string and a piece of an SQL command say what the source says, whatever it is, and each
  literal ends only at its last mark; an initial value is the same, given as a constant or as it is
  written (`Literal.value?_and_initialValue`);
- a part of a template says what the source says iff no escaped brace follows a dollar in it; the
  brace then opens a substitution (`Literal.value?_template`).
-/

namespace AbapLowering

open Script Text

variable {q c : Char} {cs : List Char} {raw value : String}

/-! ## Trimming what has no blank at its ends -/

namespace Text

/-- What stands in quotation marks is not trimmed. -/
theorem trimChars_marked (hq : isBlank q = false) (cs : List Char) :
    trimChars (q :: (cs ++ [q])) = q :: (cs ++ [q]) := by
  rw [trimChars_cons hq, dropEnd, List.reverse_append]
  simp [hq]

/-- Without blanks there is nothing to trim. -/
theorem trimChars_of_forall (h : ∀ c ∈ cs, isBlank c = false) : trimChars cs = cs := by
  have hdrop : ∀ {l : List Char}, (∀ c ∈ l, isBlank c = false) → l.dropWhile isBlank = l := by
    intro l hl
    cases l with
    | nil => rfl
    | cons c rest => rw [List.dropWhile_cons_of_neg (by simp [hl c])]
  rw [trimChars, hdrop h, dropEnd, hdrop fun c hc => h c (List.mem_reverse.mp hc),
    List.reverse_reverse]

/-- Without marks there is nothing to collapse. -/
theorem collapseDoubled_of_not_mem (h : q ∉ cs) : collapseDoubled q cs = cs := by
  induction cs with
  | nil => rfl
  | cons c rest ih =>
    rw [List.mem_cons, not_or] at h
    cases rest with
    | nil => rfl
    | cons d others => rw [collapseDoubled.eq_1, if_neg fun hq => h.1 hq.1.symm, ih h.2]

/-- A text in which every mark is doubled is read as the text itself. -/
theorem collapseDoubled_doubled (q : Char) (cs : List Char) :
    collapseDoubled q (cs.flatMap fun c => if c = q then [q, q] else [c]) = cs := by
  induction cs with
  | nil => rfl
  | cons c rest ih =>
    rw [List.flatMap_cons]
    split
    next h =>
      rw [List.cons_append, List.cons_append, List.nil_append, collapseDoubled.eq_1,
        if_pos ⟨rfl, rfl⟩, ih, h]
    next h =>
      rw [List.singleton_append]
      cases hdoubled : rest.flatMap fun c => if c = q then [q, q] else [c] with
      | nil =>
        rw [hdoubled] at ih
        rw [← ih]
        rfl
      | cons d others => rw [collapseDoubled.eq_1, if_neg fun hq => h hq.1, ← hdoubled, ih]

end Text

namespace Literal

/-! ## Texts, strings and SQL -/

/-- What stands between the marks of a literal of the source, with doubled marks written once. -/
def collapsed (q : Char) (raw : String) : String :=
  String.ofList (collapseDoubled q raw.toList)

/-- What is written between the marks of a literal of the source: each mark twice. -/
def doubled (q : Char) (value : String) : String :=
  String.ofList (value.toList.flatMap fun c => if c = q then [q, q] else [c])

/-- Marks that were doubled collapse to what they were. -/
theorem collapsed_doubled (q : Char) (value : String) : collapsed q (doubled q value) = value := by
  rw [collapsed, doubled, String.toList_ofList, collapseDoubled_doubled, String.ofList_toList]

theorem collapsed_of_not_mem (h : q ∉ raw.toList) : collapsed q raw = raw := by
  rw [collapsed, collapseDoubled_of_not_mem h, String.ofList_toList]

/-- What is escaped is read again. -/
theorem unescape?_escape (hq : escaped? q = some q) (cs : List Char) :
    unescape? (escape q cs) = some cs := by
  induction cs with
  | nil => rfl
  | cons c rest ih =>
    rw [escape, List.flatMap_cons, ← escape]
    split
    next hspecial =>
      have hc : escaped? c = some c := by
        rcases hspecial with rfl | rfl
        · rfl
        · exact hq
      rw [List.cons_append, List.singleton_append, unescape?_backslash, hc, Option.bind_some, ih,
        Option.map_some]
    next hplain =>
      rw [not_or] at hplain
      rw [List.singleton_append, unescape?_cons hplain.1, ih, Option.map_some]

/-- What is escaped for backticks is read again. -/
theorem unescape?_escapeBackticked (cs : List Char) :
    unescape? (escapeBackticked cs) = some cs := by
  induction cs with
  | nil => rfl
  | cons c rest ih =>
    rw [escapeBackticked]
    split
    next hspecial =>
      have hc : escaped? c = some c := by
        rcases hspecial with rfl | rfl | ⟨rfl, -⟩ <;> rfl
      rw [List.cons_append, List.singleton_append, unescape?_backslash, hc, Option.bind_some, ih,
        Option.map_some]
    next hplain =>
      rw [not_or] at hplain
      rw [List.singleton_append, unescape?_cons hplain.1, ih, Option.map_some]

theorem isBreak_of_mem_collapseDoubled (h : IsUnbroken raw) :
    ∀ c ∈ collapseDoubled q raw.toList, isBreak c = false :=
  fun c hc => h c (mem_of_mem_collapseDoubled hc)

/-- Escaped characters between marks say the characters. -/
theorem value?_escaped (quote : Quote) (hquote : quote ≠ .back) (h : ∀ c ∈ cs, isBreak c = false) :
    value? (String.ofList (quote.char :: (escape quote.char cs ++ [quote.char]))) =
      some (String.ofList cs) := by
  refine value?_of_within (fun c hc => ?_) (within?_escape hquote h)
    (unescape?_escape (by cases quote <;> rfl) cs)
  rcases mem_of_mem_escape hc with rfl | hc
  · rfl
  · exact h c hc

/-- A quoted text says what stands in the source between single marks. -/
theorem value?_quoted (h : IsUnbroken raw) :
    value? (quoted raw) = some (collapsed '\x27' raw) := by
  have hchars : (quoted raw).toList = Quote.single.char ::
      (escape Quote.single.char (collapseDoubled '\x27' raw.toList) ++ [Quote.single.char]) := by
    simp [quoted, Quote.char]
  rw [← String.ofList_toList (s := quoted raw), hchars]
  exact value?_escaped .single (by decide) (isBreak_of_mem_collapseDoubled h)

/-- A string says what stands in the source between backticks. -/
theorem value?_string (h : IsUnbroken raw) :
    value? (string raw) = some (collapsed '\x60' raw) := by
  have hchars : (string raw).toList = Quote.back.char ::
      (escapeBackticked (collapseDoubled '\x60' raw.toList) ++ [Quote.back.char]) := by
    simp [string, backticked, Quote.char]
  obtain ⟨m, -, hwithin⟩ :=
    @within?_escapeBackticked (collapseDoubled '\x60' raw.toList) (.text .back) (.inl rfl) nofun
  rw [← String.ofList_toList (s := string raw), hchars]
  refine value?_of_within (fun c hc => ?_) hwithin (unescape?_escapeBackticked _)
  rcases mem_of_mem_escapeBackticked hc with rfl | hc
  · rfl
  · exact isBreak_of_mem_collapseDoubled h c hc

/-- A text for the database says what was written, marks and all. -/
theorem value?_sql (h : IsUnbroken raw) : value? ("\"" ++ sql raw ++ "\"") = some raw := by
  have hchars : ("\"" ++ sql raw ++ "\"").toList =
      Quote.double.char :: (escape Quote.double.char raw.toList ++ [Quote.double.char]) := by
    simp [sql, Quote.char]
  rw [← String.ofList_toList (s := "\"" ++ sql raw ++ "\""), hchars,
    value?_escaped .double (by decide) h, String.ofList_toList]

end Literal

/-! ## Initial values -/

/-- A constant as it is written in the source. -/
def Constant.written : Constant → String
  | .integer value => toString value.toInt
  | .text value => "'" ++ value ++ "'"
  | .backtick value => "\x60" ++ value ++ "\x60"

namespace Literal

/-- What stands between marks is found. -/
theorem between?_marked (q : Char) (cs : List Char) :
    between? q (q :: (cs ++ [q])) = some cs := by
  rw [between?, afterStart?, if_pos rfl, afterStart?, Option.bind_some, beforeEnd?_append]

/-- Another first character is no mark. -/
theorem between?_cons_of_ne {first : Char} (h : q ≠ first) : between? q (first :: cs) = none := by
  rw [between?, afterStart?, if_neg h, Option.bind_none]

theorem between?_of_not_mem (h : q ∉ cs) : between? q cs = none := by
  cases cs with
  | nil => rfl
  | cons first rest => exact between?_cons_of_ne (List.ne_of_not_mem_cons h)

/-- Integers are written in digits with a sign. -/
theorem mem_toString_int {n : Int} (h : c ∈ (toString n).toList) :
    c.isAlphanum = true ∨ c = '-' := by
  cases n with
  | ofNat n => exact .inl (Template.isAlphanum_of_mem_digits h)
  | negSucc n =>
    have hsign : toString (Int.negSucc n) = "-" ++ toString (n + 1) := rfl
    rw [hsign, String.toList_append, List.mem_append] at h
    exact h.elim (fun h => .inr (List.mem_singleton.mp h))
      fun h => .inl (Template.isAlphanum_of_mem_digits h)

/-- A constant gives the same initial value as what is written for it. -/
theorem initialValueOfText_written (constant : Constant) :
    initialValueOfText constant.written = initialValue constant := by
  cases constant with
  | text value =>
    have hchars : (Constant.text value).written.toList = '\x27' :: (value.toList ++ ['\x27']) := by
      simp [Constant.written]
    rw [initialValueOfText, hchars]
    rw [trimChars_marked rfl, between?_marked, initialValue]
    simp
  | backtick value =>
    have hchars : (Constant.backtick value).written.toList =
        '\x60' :: (value.toList ++ ['\x60']) := by
      simp [Constant.written]
    rw [initialValueOfText, hchars]
    rw [trimChars_marked rfl, between?_cons_of_ne (by decide), between?_marked, initialValue]
    simp
  -- an integer holds no mark, so no quotes are taken off
  | integer value =>
    have hblank : ∀ c ∈ (toString value.toInt).toList, isBlank c = false := fun c hc => by
      rcases mem_toString_int hc with hc | rfl
      · exact Template.isBlank_of_isAlphanum hc
      · rfl
    have hmark : ∀ q : Char, q.isAlphanum = false → q ≠ '-' → q ∉ (toString value.toInt).toList :=
      fun q halphanum hne hmem => by
        rcases mem_toString_int hmem with h | h
        · rw [halphanum] at h
          cases h
        · exact hne h
    rw [initialValueOfText, Constant.written]
    rw [trimChars_of_forall hblank, between?_of_not_mem (hmark _ (by decide) (by decide)),
      between?_of_not_mem (hmark _ (by decide) (by decide)), initialValue, String.ofList_toList]

/-- Literals say what the source says: a text, a string and a piece of an SQL command are each one
literal with the value they have in the source, and the length of a text is the number of its
characters. The value is what was written with its marks doubled. The initial value is the same for
a constant and for what is written for it. -/
theorem value?_and_initialValue :
    (∀ raw, IsUnbroken raw →
      value? (quoted raw) = some (collapsed '\x27' raw) ∧
        length raw = (collapsed '\x27' raw).length ∧
        value? (string raw) = some (collapsed '\x60' raw) ∧
        value? ("\"" ++ sql raw ++ "\"") = some raw) ∧
      (∀ (mark : Char) (value : String), collapsed mark (doubled mark value) = value) ∧
      ∀ constant : Constant, initialValueOfText constant.written = initialValue constant := by
  refine ⟨fun raw h => ⟨value?_quoted h, ?_, value?_string h, value?_sql h⟩,
    collapsed_doubled, initialValueOfText_written⟩
  rw [length, collapsed, String.length_ofList]

/-- A text with a doubled mark and what would open a substitution, and a negative number. -/
theorem value?_and_initialValue_doubled :
    IsUnbroken "it\x27\x27s $\x7b" ∧ value? (quoted "it\x27\x27s $\x7b") = some "it\x27s $\x7b" ∧
      length "it\x27\x27s $\x7b" = 7 ∧
      value? (string "it\x27\x27s $\x7b") = some "it\x27\x27s $\x7b" ∧
      initialValueOfText "-3" = "-3" := by
  have hunbroken : IsUnbroken "it\x27\x27s $\x7b" := by simp [IsUnbroken, isBreak]
  obtain ⟨hquoted, hlength, hstring, -⟩ := value?_and_initialValue.1 _ hunbroken
  exact ⟨hunbroken, hquoted, hlength, hstring, value?_and_initialValue.2.2 (.integer (-3))⟩

/-! ## Templates -/

/-- What the escapes of a string template stand for. -/
def templateEscapes : List (Char × Char) :=
  [('|', '|'), ('\x7b', '\x7b'), ('\x7d', '\x7d'), ('\\', '\\'), ('n', '\n'), ('t', '\t'), ('r', '\r')]

/-- What a part of a string template says: every character says itself, and after a backslash what
it stands for then. -/
inductive TemplateSays : List Char → List Char → Prop
  | nil : TemplateSays [] []
  | plain {c : Char} {raw value : List Char} :
      c ≠ '\\' → TemplateSays raw value → TemplateSays (c :: raw) (c :: value)
  | escape {c x : Char} {raw value : List Char} :
      (c, x) ∈ templateEscapes → TemplateSays raw value →
        TemplateSays ('\\' :: c :: raw) (x :: value)

/-- Whether a brace after these characters opens a substitution, for a reader in some place of a
template. -/
def Opens (m : Mode) (cs : List Char) : Prop :=
  ∃ before after, cs = before ++ '\x7b' :: after ∧ m.within? before = some .dollar

/-- Whether an escaped brace follows a dollar. -/
def EscapesAfterDollar (m : Mode) (raw : List Char) : Prop :=
  (m = .dollar ∧ ['\\', '\x7b'] <+: raw) ∨ ['$', '\\', '\x7b'] <:+: raw

instance (m : Mode) (raw : List Char) : Decidable (EscapesAfterDollar m raw) :=
  inferInstanceAs (Decidable (_ ∨ _))

section

variable {m m' : Mode} {raw value cs ds : List Char}

/-- A substitution that is opened later is opened. -/
theorem Opens.append_of (h : m.within? cs = some m') (hds : Opens m' ds) : Opens m (cs ++ ds) := by
  obtain ⟨before, after, rfl, hbefore⟩ := hds
  exact ⟨cs ++ before, after, (List.append_assoc ..).symm,
    (Mode.within?_append_of h before).trans hbefore⟩

/-- No literal ends in what opens a substitution. -/
theorem Opens.within? (h : Opens m cs) : m.within? cs = none := by
  obtain ⟨before, after, rfl, hbefore⟩ := h
  rw [Mode.within?_append_of hbefore]
  rfl

/-! ### Characters of a part -/

/-- A character of a template is escaped if it would end or open something. -/
theorem templateChars_plain (h : c ≠ '\\') (raw : List Char) :
    templateChars (c :: raw) =
      (if c = '\x60' ∨ (c = '$' ∧ raw.head? = some '\x7b') then ['\\', c] else [c])
        ++ templateChars raw := by
  rw [templateChars.eq_4]
  all_goals simp [h]

/-- A backslash is kept but for the characters that only the source has to escape. -/
theorem templateChars_escape (c : Char) (raw : List Char) :
    templateChars ('\\' :: c :: raw) =
      (if c = '|' ∨ c = '\x7b' ∨ c = '\x7d' then [c] else ['\\', c]) ++ templateChars raw := by
  rw [templateChars]
  split <;> rfl

/-- The escapes that are left say what those of the source say. -/
theorem unescape?_templateChars (h : TemplateSays raw value) :
    unescape? (templateChars raw) = some value := by
  induction h with
  | nil => rfl
  | @plain c raw value hc _ ih =>
    rw [templateChars_plain hc]
    split
    next hspecial =>
      have hself : escaped? c = some c := by rcases hspecial with rfl | ⟨rfl, -⟩ <;> rfl
      rw [List.cons_append, List.singleton_append, unescape?_backslash, hself, Option.bind_some,
        ih, Option.map_some]
    next => rw [List.singleton_append, unescape?_cons hc, ih, Option.map_some]
  | @escape c x raw value hescape _ ih =>
    rw [templateChars_escape]
    simp only [templateEscapes, List.mem_cons, Prod.mk.injEq, List.not_mem_nil, or_false]
      at hescape
    rcases hescape with ⟨rfl, rfl⟩ | ⟨rfl, rfl⟩ | ⟨rfl, rfl⟩ | ⟨rfl, rfl⟩ | ⟨rfl, rfl⟩ | ⟨rfl, rfl⟩
      | ⟨rfl, rfl⟩
    all_goals simp [unescape?, escaped?, isBreak, ih]

/-! ### Reading a part -/

/-- Whether a dollar sign stands right before an escape is decided one character at a time. -/
theorem escapesAfterDollar_plain (hc : c ≠ '\\') :
    EscapesAfterDollar m (c :: raw) ↔
      EscapesAfterDollar (if c = '$' then .dollar else .text .back) raw := by
  rw [EscapesAfterDollar, EscapesAfterDollar, List.infix_cons_iff]
  by_cases hdollar : c = '$'
  · simp [List.cons_prefix_cons, hdollar]
  · simp [List.cons_prefix_cons, hc.symm, Ne.symm hdollar, hdollar]

theorem escapesAfterDollar_escape (hdollar : c ≠ '$') (hbrace : m = .dollar → c ≠ '\x7b') :
    EscapesAfterDollar m ('\\' :: c :: raw) ↔ EscapesAfterDollar (.text .back) raw := by
  rw [EscapesAfterDollar, EscapesAfterDollar, List.infix_cons_iff, List.infix_cons_iff]
  have hprefix : ¬ (m = .dollar ∧ '\x7b' = c) := fun h => hbrace h.1 h.2.symm
  simp [List.cons_prefix_cons, Ne.symm hdollar, hprefix]

/-- A part of a template either has an escaped brace after a dollar and opens a substitution, or is
read to its end. -/
def Settled (m : Mode) (raw : List Char) : Prop :=
  if EscapesAfterDollar m raw then Opens m (templateChars raw)
  else ∃ m', m.within? (templateChars raw) = some m'

/-- One character and the rest. -/
theorem Settled.step {raw' first : List Char} (h : Settled m' raw)
    (hchars : templateChars raw' = first ++ templateChars raw)
    (hfirst : m.within? first = some m')
    (hiff : EscapesAfterDollar m raw' ↔ EscapesAfterDollar m' raw) : Settled m raw' := by
  unfold Settled at h ⊢
  rw [hchars]
  by_cases hescapes : EscapesAfterDollar m' raw
  · rw [if_pos hescapes] at h
    rw [if_pos (hiff.mpr hescapes)]
    exact Opens.append_of hfirst h
  · rw [if_neg hescapes] at h
    rw [if_neg (mt hiff.mp hescapes), Mode.within?_append_of hfirst]
    exact h

/-- After a backslash any character belongs to the template. -/
theorem within?_backslash (hm : m.IsTemplate) (c : Char) :
    m.within? ['\\', c] = some (.text .back) := by
  rw [Mode.within?, List.foldlM_cons, next?_of_isTemplate hm fun _ => by decide]
  rfl

/-- A character that is not a backslash settles what follows. -/
theorem settled_plain (hc : c ≠ '\\') (hm : m.IsTemplate) (hne : m = .dollar → c ≠ '\x7b')
    (hrest : ∀ {m' : Mode}, m'.IsTemplate → (m' = .dollar → raw.head? ≠ some '\x7b') →
      Settled m' raw) : Settled m (c :: raw) := by
  have hchars := templateChars_plain hc raw
  split at hchars
  next hspecial =>
    refine (hrest (.inl rfl) (by simp)).step hchars (within?_backslash hm c)
      ((escapesAfterDollar_plain hc).trans ?_)
    rcases hspecial with rfl | ⟨rfl, hhead⟩
    · exact Iff.rfl
    · -- after the dollar a brace stands as it is, so no escape does
      obtain ⟨others, rfl⟩ := List.head?_eq_some_iff.mp hhead
      simp [EscapesAfterDollar, List.cons_prefix_cons]
  next hplain =>
    rw [not_or, not_and] at hplain
    obtain ⟨(hmark : c ≠ Quote.back.char), hdollar⟩ := hplain
    have hfirst : m.within? [c] = some (if c = '$' then .dollar else .text .back) := by
      rw [Mode.within?, List.foldlM_cons, next?_of_isTemplate hm hne, modeInText, if_neg hc,
        if_neg hmark, if_pos rfl]
      split <;> rfl
    refine Settled.step (hrest ?_ ?_) hchars hfirst (escapesAfterDollar_plain hc)
    · split
      · exact .inr rfl
      · exact .inl rfl
    · split
      next h => exact fun _ => hdollar h
      next => simp

/-- An escaped character settles what follows, unless a dollar sign stands before it. -/
theorem settled_escape (hdollar : c ≠ '$') (hm : m.IsTemplate)
    (hrest : Settled (.text .back) raw) : Settled m ('\\' :: c :: raw) := by
  by_cases hopens : m = .dollar ∧ c = '\x7b'
  · -- the brace that is left without its backslash opens a substitution
    obtain ⟨rfl, rfl⟩ := hopens
    rw [Settled, if_pos (.inl ⟨rfl, by simp [List.cons_prefix_cons]⟩), templateChars_escape,
      if_pos (by simp)]
    exact ⟨[], templateChars raw, rfl, rfl⟩
  rw [not_and] at hopens
  have hfirst : m.within? (if c = '|' ∨ c = '\x7b' ∨ c = '\x7d' then [c] else ['\\', c]) =
      some (.text .back) := by
    split
    next hdropped =>
      rw [Mode.within?, List.foldlM_cons, next?_of_isTemplate hm hopens]
      rcases hdropped with rfl | rfl | rfl <;> rfl
    next => exact within?_backslash hm c
  exact hrest.step (templateChars_escape c raw) hfirst (escapesAfterDollar_escape hdollar hopens)

/-- Where a template has a value it is read with this value, or opens a substitution. -/
theorem TemplateSays.settled (h : TemplateSays raw value) (hm : m.IsTemplate)
    (hbrace : m = .dollar → raw.head? ≠ some '\x7b') : Settled m raw := by
  induction h generalizing m with
  | nil =>
    rw [Settled, if_neg (by simp [EscapesAfterDollar])]
    exact ⟨m, rfl⟩
  | plain hc _ ih => exact settled_plain hc hm (fun h => by simpa using hbrace h) ih
  | @escape c x raw value hescape _ ih =>
    have hmem : c ∈ templateEscapes.map Prod.fst := List.mem_map_of_mem hescape
    have hdollar : c ≠ '$' := fun heq => absurd (heq ▸ hmem) (by decide)
    exact settled_escape hdollar hm (ih (.inl rfl) (by simp))

end

/-- What a part of a template says is what the emitted template says, from its first mark to its
last, iff no escaped brace follows a dollar in the part. In that case the brace opens a
substitution. -/
theorem value?_template {raw value : String} (hunbroken : IsUnbroken raw)
    (h : TemplateSays raw.toList value.toList) :
    (¬ ['$', '\\', '\x7b'] <:+: raw.toList → value? (backticked (template raw)) = some value) ∧
      (['$', '\\', '\x7b'] <:+: raw.toList →
        Opens (.text .back) (template raw).toList ∧ value? (backticked (template raw)) = none) := by
  have hiff : EscapesAfterDollar (.text .back) raw.toList ↔
      ['$', '\\', '\x7b'] <:+: raw.toList := by
    simp [EscapesAfterDollar]
  have hsettled := h.settled (.inl rfl : (Mode.text .back).IsTemplate) nofun
  have hbody : ∀ c ∈ templateChars raw.toList, isBreak c = false := fun c hc =>
    hunbroken.template c (by rwa [template, String.toList_ofList])
  have hchars : backticked (template raw) =
      String.ofList (Quote.back.char :: (templateChars raw.toList ++ [Quote.back.char])) :=
    String.toList_inj.mp (by simp [backticked, template, Quote.char])
  rw [Settled] at hsettled
  refine ⟨fun hno => ?_, fun hyes => ?_⟩
  · rw [if_neg (mt hiff.mp hno)] at hsettled
    obtain ⟨m, hm⟩ := hsettled
    rw [hchars, value?_of_within hbody hm (unescape?_templateChars h), String.ofList_toList]
  · rw [if_pos (hiff.mpr hyes)] at hsettled
    refine ⟨by rwa [template, String.toList_ofList], ?_⟩
    rw [hchars, value?_marked .back hbody, hsettled.within?, Option.bind_none]

/-- A dollar sign apart from the escaped brace does no harm. -/
theorem value?_template_separateDollar :
    TemplateSays "$a\\\x7b\\n".toList "$a\x7b\n".toList ∧
      value? (backticked (template "$a\\\x7b\\n")) = some "$a\x7b\n" := by
  have hunbroken : IsUnbroken "$a\\\x7b\\n" := by simp [IsUnbroken, isBreak]
  have hmeant : TemplateSays "$a\\\x7b\\n".toList "$a\x7b\n".toList :=
    .plain (by decide) (.plain (by decide) (.escape (by decide) (.escape (by decide) .nil)))
  exact ⟨hmeant, (value?_template hunbroken hmeant).1 (by decide)⟩

/-- After a dollar an escaped brace opens a substitution: the emitted template has no value. -/
theorem value?_template_dollar :
    IsUnbroken "$\\\x7b" ∧ TemplateSays "$\\\x7b".toList "$\x7b".toList ∧
      template "$\\\x7b" = "$\x7b" ∧ Opens (.text .back) (template "$\\\x7b").toList ∧
      value? (backticked (template "$\\\x7b")) ≠ some "$\x7b" := by
  have hunbroken : IsUnbroken "$\\\x7b" := by simp [IsUnbroken, isBreak]
  have hopens : Opens (.text .back) (template "$\\\x7b").toList := ⟨['$'], [], rfl, rfl⟩
  exact ⟨hunbroken, .plain (by decide) (.escape (by decide) .nil), by decide, hopens, by decide⟩

end Literal

end AbapLowering
