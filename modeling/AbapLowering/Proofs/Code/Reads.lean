import AbapLowering.Emission
import AbapLowering.Proofs.Code.CaseMapping
import AbapLowering.Proofs.Code.Script
import AbapLowering.Proofs.Code.Spelling
import Mathlib.Data.List.TakeWhile

/-!
# Reading what a line is put together from

A line is put together from pieces that are fixed, and from names, parts of templates and initial
values that come from the source. `Reads w r s r'`: the line's piece `s` leads the reader from `r`
to `r'`, as far as that can be said from its fixed pieces, where the rest is worded as `w` says.
Main facts:

- no piece breaks the line (`Reads.isUnbroken`);
- a piece that leads from code to code, with nothing open in between but what it opens itself,
  neither starts with a closing brace nor ends with an opening one (`Reads.head?_ne`,
  `Reads.getLast?_ne`);
- with strict wording the reader really gets there (`Reads.readLine_eq`).
-/

namespace AbapLowering

namespace Script

open Reading Text

/-! ## Wording -/

/-- How texts and names of the source are worded: without line breaks, names also without braces, or
strictly, so that no name ends a text or the code around it either. -/
inductive Wording where
  | loose
  | strict
  deriving DecidableEq

namespace Wording

/-- The characters that no name contains. -/
def bars : Wording → List Char
  | loose => ['\x7b', '\x7d', '\n', '\r']
  | strict => ['\x7b', '\x7d', '\n', '\r', '\x27', '\x22', '\x60', '\\', '/']

/-- Whether a name is worded so. -/
def Word (w : Wording) (s : String) : Prop := ∀ x ∈ w.bars, x ∉ s.toList

instance (w : Wording) (s : String) : Decidable (w.Word s) :=
  List.decidableBAll (fun x => x ∉ s.toList) w.bars

/-- Whether the literal part of a template, from one place of the template to another, is worded so;
strictly, what is emitted for it neither opens a substitution nor ends the template. -/
def Part : Wording → Mode → String → Mode → Prop
  | loose, _, raw, m' => IsUnbroken raw ∧ m' = .text .back
  | strict, m, raw, m' => IsUnbroken raw ∧ m'.IsTemplate ∧
    read ⟨m, []⟩ (Literal.template raw).toList = some ⟨m', []⟩

/-- Whether an initial value is worded so; strictly, what stands outside of quotation marks is
worded like a name. -/
def Value (w : Wording) (written : String) : Prop :=
  IsUnbroken written ∧
    (w = strict → Literal.between? '\x27' (trimChars written.toList) = none →
      Literal.between? '\x60' (trimChars written.toList) = none → w.Word written)

variable {w : Wording} {s t : String}

/-- What no name contains marks the start or the end of something. -/
theorem isMark_of_mem_bars {x : Char} (h : x ∈ w.bars) : IsMark x := by
  have hall : w.bars.all (IsMark ·) := by cases w <;> decide
  exact of_decide_eq_true (List.all_eq_true.mp hall x h)

/-- No name contains braces, however loosely it is worded. -/
theorem braces_mem_bars (w : Wording) : '\x7b' ∈ w.bars ∧ '\x7d' ∈ w.bars := by
  cases w <;> decide

/-- A part of a template leads to another place of the template. -/
theorem Part.isTemplate {m m' : Mode} (h : w.Part m s m') : m'.IsTemplate := by
  cases w with
  | loose => exact .inl h.2
  | strict => exact h.2.1

/-- A part of a template has no line breaks. -/
theorem Part.isUnbroken {m m' : Mode} (h : w.Part m s m') : IsUnbroken s := by
  cases w with
  | loose => exact h.1
  | strict => exact h.1

/-- Strict wording is loose wording. -/
theorem Word.of_strict (h : strict.Word s) : w.Word s := by
  have hbars : w.bars ⊆ strict.bars := by cases w <;> simp [bars]
  exact fun x hx => h x (hbars hx)

/-- A name has no line breaks. -/
theorem Word.isUnbroken (h : w.Word s) : IsUnbroken s := by
  have hfeed : '\n' ∈ w.bars := by cases w <;> decide
  have hreturn : '\r' ∈ w.bars := by cases w <;> decide
  intro c hc
  have hne : c ≠ '\n' := fun heq => h _ hfeed (heq ▸ hc)
  have hne' : c ≠ '\r' := fun heq => h _ hreturn (heq ▸ hc)
  simp [isBreak, hne, hne']

/-! ### Names made of names -/

/-- Names behind each other are a name. -/
theorem Word.append (hs : w.Word s) (ht : w.Word t) : w.Word (s ++ t) := by
  intro x hx hmem
  rw [String.toList_append, List.mem_append] at hmem
  exact hmem.elim (hs x hx) (ht x hx)

/-- Only what stands in a name can stand in what is made of it. -/
theorem Word.of_mem (hs : w.Word s) (h : ∀ x ∈ w.bars, x ∈ t.toList → x ∈ s.toList) : w.Word t :=
  fun x hx hmem => hs x hx (h x hx hmem)

/-- Letters, digits and underscores are in no way. -/
theorem word_of_alphanum (h : ∀ x ∈ s.toList, x.isAlphanum = true ∨ x = '_') : w.Word s := by
  have hbars : w.bars.all (fun x => !x.isAlphanum && x != '_') := by cases w <;> decide
  intro x hx hmem
  have hbar := List.all_eq_true.mp hbars x hx
  simp only [Bool.and_eq_true, Bool.not_eq_true', bne_iff_ne] at hbar
  obtain ⟨halphanum, hne⟩ := hbar
  rcases h x hmem with hx | hx
  · rw [halphanum] at hx
    cases hx
  · exact hne hx

/-- Names are names in lower case, as case mapping makes none of the marks. -/
theorem Word.toLower (h : w.Word s) : w.Word (toLower s) :=
  h.of_mem fun _ hx hmem => mem_of_mem_toLower (isMark_of_mem_bars hx) hmem

theorem Word.toUpper (h : w.Word s) : w.Word (toUpper s) :=
  h.of_mem fun _ hx hmem => mem_of_mem_toUpper (isMark_of_mem_bars hx) hmem

theorem Word.trim (h : w.Word s) : w.Word (trim s) :=
  h.of_mem fun _ _ hmem => by
    rw [Text.trim, String.toList_ofList] at hmem
    exact mem_of_mem_trimChars hmem

/-- The plain spelling of a name puts it in lower case and adds `$` at most. -/
theorem Word.plain (h : w.Word s) : w.Word (Identifier.plain s) := by
  have hdollar : '$' ∉ w.bars := by cases w <;> decide
  refine h.toLower.of_mem fun x hx hmem => ?_
  rw [Identifier.plain_eq_dollared, Identifier.dollared, String.toList_ofList] at hmem
  obtain ⟨c, hc, rfl⟩ := List.mem_map.mp hmem
  unfold Identifier.dollaredChar at hx ⊢
  split at hx
  next => exact absurd hx hdollar
  next hne => rwa [if_neg hne]

/-- The spelling of a field symbol adds letters and underscores. -/
theorem Word.fieldSymbol (h : w.Word s) : w.Word (Identifier.fieldSymbol s) := by
  have hbare : w.Word (dropTrailing '>' (dropLeading '<' s)) := by
    refine h.of_mem fun x _ hmem => ?_
    rw [dropTrailing, dropLeading, String.toList_ofList, String.toList_ofList, dropEnd,
      List.mem_reverse] at hmem
    exact (List.dropWhile_sublist _).mem
      (List.mem_reverse.mp ((List.dropWhile_sublist _).mem hmem))
  exact (Word.append (.of_strict (by decide)) hbare.plain).append (.of_strict (by decide))

/-- The name of a member with its interface is a name. -/
theorem Word.interfaceMember (hs : w.Word s) (ht : w.Word t) :
    w.Word (Identifier.interfaceMember s t) :=
  (hs.toLower.append (.of_strict (by decide))).append ht.plain

theorem Word.method (h : w.Word s) : w.Word (Identifier.method s) := by
  unfold Identifier.method
  dsimp only
  split
  · exact .of_strict (by decide)
  · exact h.plain

/-- Numbers are names. -/
theorem word_toString (n : Nat) : w.Word (toString n) :=
  word_of_alphanum fun _ hx => .inl (Template.isAlphanum_of_mem_digits hx)

theorem word_toString_int (n : Int) : w.Word (toString n) := by
  cases n with
  | ofNat n => exact word_toString n
  | negSucc n => exact Word.append (.of_strict (by decide)) (word_toString (n + 1))

/-- The constant of an integer is a name. -/
theorem word_integer (value : Int64) : w.Word (Identifier.integer value) :=
  word_of_alphanum fun _ hx => Identifier.mem_integer hx

/-- A temporary is a name. -/
theorem word_temporary (n : Nat) : w.Word (Identifier.temporary n) :=
  word_of_alphanum fun _ hx => .inl (Template.isAlphanum_of_mem_temporary hx)

/-- The key of a class is a name, with the object it belongs to. -/
theorem Word.ofOwner {owner : Option ObjectRef} (howner : ∀ object ∈ owner, w.Word object.name)
    (h : w.Word s) : w.Word (ClassKey.ofOwner owner s) := by
  cases owner with
  | none => exact Word.append (.of_strict (by decide)) h.toUpper
  | some object =>
    have hkeyword : w.Word object.type.keyword := by
      cases object.type <;> exact .of_strict (by decide)
    have hdash : w.Word "-" := .of_strict (by decide)
    exact (((hkeyword.append hdash).append (howner object rfl).toUpper).append hdash).append
      h.toUpper

end Wording

/-! ## Pieces of lines -/

/-- Where a name is read as a whole: between texts, or in a text between quotation marks. -/
def Mode.takesNames : Mode → Bool
  | .code | .text .single | .text .double => true
  | _ => false

/-- Whether a piece of a line leads from one place to another, with names, parts of templates and
initial values worded as `w` says. -/
inductive Reads (w : Wording) : Reading → String → Reading → Prop
  | fixed {r r' : Reading} {s : String} : readLine r s = some r' → Reads w r s r'
  | name {r : Reading} {s : String} : w.Word s → r.mode.takesNames = true → Reads w r s r
  | part {m m' : Mode} {opened : List Bracket} {raw : String} : m.IsTemplate → w.Part m raw m' →
    Reads w ⟨m, opened⟩ (Literal.template raw) ⟨m', opened⟩
  /-- An initial value stands alone between the parentheses of a call. -/
  | value {opened : List Bracket} {written : String} : w.Value written →
    Reads w ⟨.code, opened⟩ (".set(" ++ (Literal.initialValueOfText written ++ ");"))
      ⟨.code, opened⟩
  | append {r r' r'' : Reading} {s t : String} : Reads w r s r' → Reads w r' t r'' →
    Reads w r (s ++ t) r''

/-- Whether a piece of a line leads from code to code, with the same brackets open. -/
abbrev Inline (w : Wording) (s : String) : Prop := Reads w .start s .start

variable {w : Wording} {r r' r'' : Reading} {s t : String}

namespace Reads

/-- What is open around a piece does not matter. -/
theorem above (h : Reads w r s r') (base : List Bracket) :
    Reads w (r.above base) s (r'.above base) := by
  induction h with
  | fixed h => exact fixed (readLine_above h base)
  | name h hmode => exact name h hmode
  | part hm h => exact part hm h
  | value h => exact value h
  | append _ _ ihs iht => exact ihs.append iht

/-- A fixed piece behind a line is read where the line has led to. -/
theorem andFixed (h : Reads w r s r') (ht : readLine r' t = some r'') :
    Reads w r (s ++ t) r'' := h.append (fixed ht)

/-- A name behind a line stays where the line has led to, if names may stand there. -/
theorem andName (h : Reads w r s r') (ht : w.Word t) (hmode : r'.mode.takesNames = true) :
    Reads w r (s ++ t) r' := h.append (name ht hmode)

/-- A piece that closes what it opens leads back to where it starts. -/
theorem andInline {opened : List Bracket} (h : Reads w r s ⟨.code, opened⟩) (ht : Inline w t) :
    Reads w r (s ++ t) ⟨.code, opened⟩ := h.append (ht.above opened)

end Reads

/-- A name stands within a line. -/
theorem Wording.Word.inline (h : w.Word s) : Inline w s := .name h rfl

/-- A name after code. -/
theorem Inline.andWord (h : Inline w s) (ht : w.Word t) : Inline w (s ++ t) := h.andName ht rfl

/-- Parts that each lead from code to code. -/
def InlineAll (w : Wording) (parts : List String) : Prop := ∀ s ∈ parts, Inline w s

namespace InlineAll

variable {separator : String} {parts others : List String}

theorem nil : InlineAll w [] := nofun

theorem cons (hs : Inline w s) (h : InlineAll w parts) : InlineAll w (s :: parts) :=
  List.forall_mem_cons.mpr ⟨hs, h⟩

theorem single (hs : Inline w s) : InlineAll w [s] := cons hs nil

/-- Pieces of two lists. -/
theorem append (h : InlineAll w parts) (h' : InlineAll w others) : InlineAll w (parts ++ others) :=
  List.forall_mem_append.mpr ⟨h, h'⟩

/-- Pieces of all groups. -/
theorem flatten {groups : List (List String)} (h : ∀ group ∈ groups, InlineAll w group) :
    InlineAll w groups.flatten := by
  intro s hs
  obtain ⟨group, hgroup, hs⟩ := List.mem_flatten.mp hs
  exact h group hgroup s hs

/-- A part that is there under a condition. -/
theorem partIf {condition : Bool} (hs : Inline w s) :
    InlineAll w (AbapLowering.partIf condition s) := by
  cases condition with
  | false => exact nil
  | true => exact single hs

/-- Pieces with something between them that closes what it opens. -/
theorem intercalate (h : InlineAll w parts) (hseparator : Inline w separator) :
    Inline w (separator.intercalate parts) := by
  induction parts with
  | nil => exact .fixed rfl
  | cons s rest ih =>
    obtain ⟨hs, hrest⟩ := List.forall_mem_cons.mp h
    cases rest with
    | nil => simpa using hs
    | cons t rest =>
      rw [String.intercalate_cons_cons]
      exact (hs.append hseparator).append (ih hrest)

/-- Pieces right behind each other. -/
theorem join (h : InlineAll w parts) : Inline w (String.join parts) := by
  induction parts with
  | nil => exact .fixed rfl
  | cons s rest ih =>
    obtain ⟨hs, hrest⟩ := List.forall_mem_cons.mp h
    rw [String.join_cons]
    exact hs.append (ih hrest)

/-- Braces around pieces are closed where they are opened. -/
theorem braced (h : InlineAll w parts) (hseparator : Inline w separator) :
    Inline w (AbapLowering.braced separator parts) :=
  ((Reads.fixed rfl).andInline (h.intercalate hseparator)).andFixed rfl

theorem bracedIfAny (h : InlineAll w parts) (hseparator : Inline w separator) :
    Inline w (if parts.isEmpty then "" else AbapLowering.braced separator parts) := by
  split
  · exact .fixed rfl
  · exact h.braced hseparator

end InlineAll

/-- A call of the runtime closes its parentheses and ends with a semicolon. -/
theorem Inline.runtimeCall {function : String} (h : Inline w s)
    (hfunction : readLine .start function = some .start) :
    Inline w (AbapLowering.runtimeCall function s) :=
  ((((Reads.fixed rfl).andFixed hfunction).andFixed rfl).andInline h).andFixed rfl

/-- The address of a class. -/
theorem Wording.Word.inline_lookup (h : w.Word s) : Inline w (ClassKey.lookup s) :=
  ((Reads.fixed rfl).andName h rfl).andFixed rfl

/-! ## What the source brings in -/

/-- A text without breaks behind another. -/
theorem IsUnbroken.append (hs : IsUnbroken s) (ht : IsUnbroken t) : IsUnbroken (s ++ t) := by
  intro c hc
  rw [String.toList_append, List.mem_append] at hc
  exact hc.elim (hs c) (ht c)

theorem IsUnbroken.trim (h : IsUnbroken s) : IsUnbroken (Text.trim s) := by
  intro c hc
  rw [Text.trim, String.toList_ofList] at hc
  exact h c (mem_of_mem_trimChars hc)

/-- Escaping a template adds nothing but backslashes. -/
theorem mem_of_mem_templateChars {x : Char} {cs : List Char} (h : x ∈ Literal.templateChars cs) :
    x = '\\' ∨ x ∈ cs := by
  fun_induction Literal.templateChars cs with
  | case1 => exact .inr h
  | case2 => exact .inl (by simpa using h)
  | case3 c rest _ ih =>
    rcases List.mem_cons.mp h with rfl | h
    · simp
    · exact (ih h).imp_right fun hx => by simp [hx]
  -- escaped by a backslash of its own
  | case4 c rest _ ih =>
    rcases List.mem_cons.mp h with rfl | h
    · exact .inl rfl
    rcases List.mem_cons.mp h with rfl | h
    · simp
    · exact (ih h).imp_right fun hx => by simp [hx]
  | case5 c rest _ _ ih =>
    rcases List.mem_append.mp h with h | h
    · split at h
      next =>
        rcases List.mem_cons.mp h with rfl | h
        · exact .inl rfl
        · exact .inr (List.mem_singleton.mp h ▸ List.mem_cons_self)
      next => exact .inr (List.mem_singleton.mp h ▸ List.mem_cons_self)
    · exact (ih h).imp_right (List.mem_cons_of_mem c)

theorem IsUnbroken.template {raw : String} (h : IsUnbroken raw) :
    IsUnbroken (Literal.template raw) := by
  intro c hc
  rw [Literal.template, String.toList_ofList] at hc
  rcases mem_of_mem_templateChars hc with rfl | hc
  · decide
  · exact h c hc

/-- What stands between quotation marks has no breaks if the whole has none. -/
theorem IsUnbroken.between {written : String} (h : IsUnbroken written) {q : Char}
    {inner : List Char} (hinner : Literal.between? q (trimChars written.toList) = some inner) :
    IsUnbroken (String.ofList inner) := by
  obtain ⟨rest, hrest, hinner⟩ := Option.bind_eq_some_iff.mp hinner
  obtain ⟨stem, hstem, rfl⟩ := Option.map_eq_some_iff.mp hinner
  have hwritten := eq_append_of_afterStart? hrest
  have hreverse := eq_append_of_afterStart? hstem
  intro c hc
  rw [String.toList_ofList, List.mem_reverse] at hc
  refine h c (mem_of_mem_trimChars ?_)
  have hmem : c ∈ rest := List.mem_reverse.mp (hreverse ▸ List.mem_append_right _ hc)
  exact hwritten ▸ List.mem_append_right _ hmem

/-- An initial value is read as one text, or stands outside of quotation marks. -/
theorem readLine_initialValue {written : String} (h : IsUnbroken written) :
    (∀ opened, readLine ⟨.code, opened⟩ (Literal.initialValueOfText written) =
      some ⟨.code, opened⟩) ∨
    (Literal.between? '\x27' (trimChars written.toList) = none ∧
      Literal.between? '\x60' (trimChars written.toList) = none ∧
      Literal.initialValueOfText written = trim written) := by
  unfold Literal.initialValueOfText
  dsimp only
  split
  next inner hinner => exact .inl fun opened => readLine_quoted (h.between hinner)
  next hsingle =>
    split
    next inner hinner => exact .inl fun opened => readLine_string (h.between hinner)
    next hback => exact .inr ⟨hsingle, hback, rfl⟩

/-- An initial value has no breaks if it is written without any. -/
theorem IsUnbroken.initialValue {written : String} (h : IsUnbroken written) :
    IsUnbroken (Literal.initialValueOfText written) := by
  rcases readLine_initialValue h with hread | ⟨-, -, htrim⟩
  · exact (readLine_eq_some_iff.mp (hread [])).1
  · exact htrim ▸ h.trim

namespace Reads

/-- No piece of a line breaks it. -/
theorem isUnbroken (h : Reads w r s r') : IsUnbroken s := by
  induction h with
  | fixed h => exact (readLine_eq_some_iff.mp h).1
  | name h _ => exact h.isUnbroken
  | part _ h => exact h.isUnbroken.template
  | value h =>
    have hfixed : IsUnbroken ".set(" ∧ IsUnbroken ");" := by simp [IsUnbroken, isBreak]
    exact hfixed.1.append (h.1.initialValue.append hfixed.2)
  | append _ _ ihs iht => exact ihs.append iht

end Reads

/-! ## Strict wording -/

/-- A strictly worded name leads the reader nowhere. -/
theorem readLine_of_word (h : Wording.strict.Word s) (hmode : r.mode.takesNames = true) :
    readLine r s = some r := by
  refine readLine_eq_some_iff.mpr ⟨h.isUnbroken, ?_⟩
  have hchars : ∀ c ∈ s.toList, c ∉ Wording.strict.bars := fun c hc hbar => h c hbar hc
  have hunbroken := h.isUnbroken
  rw [IsUnbroken] at hunbroken
  generalize s.toList = cs at hchars hunbroken
  induction cs with
  | nil => rfl
  | cons c rest ih =>
    obtain ⟨hc, hrest⟩ := List.forall_mem_cons.mp hchars
    obtain ⟨hbreak, hbreaks⟩ := List.forall_mem_cons.mp hunbroken
    simp only [Wording.bars, List.mem_cons, List.not_mem_nil, or_false, not_or] at hc
    obtain ⟨hopen, hclose, -, -, hsingle, hdouble, hback, hslash, hdivide⟩ := hc
    -- none of its characters means anything in code or between quotes
    have hstep : r.step c = some r := by
      obtain ⟨mode, opened⟩ := r
      cases mode with
      | code =>
        rw [step, if_neg hopen, if_neg hclose, modeInCode, if_neg hsingle, if_neg hdouble,
          if_neg hback, if_neg hdivide]
        rfl
      | text quote =>
        have hquote : quote ≠ .back ∧ c ≠ quote.char := by
          cases quote
          · exact ⟨by decide, hsingle⟩
          · exact ⟨by decide, hdouble⟩
          · cases hmode
        rw [step, modeInText_of_ne hquote.1 hslash hquote.2 hbreak]
        rfl
      | escaped => cases hmode
      | dollar => cases hmode
    rw [Reading.read, hstep, Option.bind_some]
    exact ih hrest hbreaks

/-- With strict wording the reader gets there. -/
theorem Reads.readLine_eq (h : Reads .strict r s r') : readLine r s = some r' := by
  induction h with
  | fixed h => exact h
  | name h hmode => exact readLine_of_word h hmode
  | @part m m' opened raw _ h =>
    obtain ⟨hraw, -, hread⟩ := h
    exact readLine_eq_some_iff.mpr ⟨hraw.template, read_above hread opened⟩
  | @value opened written h =>
    have hvalue : readLine ⟨.code, opened⟩ (Literal.initialValueOfText written) =
        some ⟨.code, opened⟩ := by
      rcases readLine_initialValue h.1 with hread | ⟨hsingle, hback, htrim⟩
      · exact hread opened
      · rw [htrim]
        exact readLine_of_word (h.2 rfl hsingle hback).trim rfl
    exact readLine_append rfl (readLine_append hvalue rfl)
  | append _ _ ihs iht => exact readLine_append ihs iht

/-! ## Ends of lines -/

theorem ne_of_isBlank {c x : Char} (h : isBlank c = true) (hx : isBlank x = false) : c ≠ x := by
  rintro rfl
  rw [h] at hx
  cases hx

/-- A trimmed text begins with the first character that is not blank. -/
theorem head?_trimChars (cs : List Char) :
    (trimChars cs).head? = (cs.dropWhile isBlank).head? := by
  rw [trimChars]
  cases hcs : cs.dropWhile isBlank with
  | nil => rfl
  | cons x rest =>
    have hx := List.head?_dropWhile_not isBlank cs
    rw [hcs, List.head?_cons] at hx
    rw [dropEnd_cons (by simpa using hx), List.head?_cons, List.head?_cons]

/-- A trimmed text ends with the last character that is not blank. -/
theorem getLast?_trimChars (cs : List Char) :
    (trimChars cs).getLast? = (cs.reverse.dropWhile isBlank).head? := by
  have hblank : (cs.takeWhile isBlank).reverse.dropWhile isBlank = [] := by
    refine List.dropWhile_eq_nil_iff.mpr fun x hx => ?_
    exact List.all_eq_true.mp List.all_takeWhile x (List.mem_reverse.mp hx)
  rw [trimChars, dropEnd, List.getLast?_reverse]
  conv => rhs; rw [← List.takeWhile_append_dropWhile (p := isBlank) (l := cs)]
  rw [List.reverse_append, List.dropWhile_append, hblank]
  split
  next h => rw [List.isEmpty_iff.mp h]
  next h =>
    rw [List.isEmpty_iff] at h
    rw [List.head?_append_of_ne_nil _ h]

/-- A text is not left, nor entered, through blanks. -/
theorem mode_ne_of_isBlank {cs : List Char} (h : ∀ c ∈ cs, isBlank c = true)
    (hread : r.read cs = some r') (hmode : r.mode ≠ .code) : r'.mode ≠ .code := by
  induction cs generalizing r with
  | nil =>
    cases hread
    exact hmode
  | cons c rest ih =>
    obtain ⟨hc, hrest⟩ := List.forall_mem_cons.mp h
    obtain ⟨next, hnext, hread⟩ := Option.bind_eq_some_iff.mp hread
    refine ih hrest hread ?_
    -- a blank is no mark, so a text stays open
    have htext : ∀ quote opened, (modeInText quote c).map (⟨·, opened⟩) = some next →
        next.mode ≠ .code := by
      intro quote opened hnext
      have hmark : c ≠ quote.char := ne_of_isBlank hc (by cases quote <;> decide)
      obtain ⟨m, hm, rfl⟩ := Option.map_eq_some_iff.mp hnext
      rw [modeInText, if_neg (ne_of_isBlank hc (by decide)), if_neg hmark] at hm
      rintro rfl
      split at hm
      next =>
        have := Option.some.inj hm
        split at this <;> cases this
      next => split at hm <;> cases hm
    obtain ⟨mode, opened⟩ := r
    cases mode with
    | code => exact absurd rfl hmode
    | text quote => exact htext quote opened hnext
    | escaped quote =>
      cases hnext
      rintro ⟨⟩
    | dollar =>
      rw [step, if_neg (ne_of_isBlank hc (by decide))] at hnext
      exact htext .back opened hnext

/-- Blanks around code change nothing. -/
theorem eq_of_read_blanks {cs : List Char} (h : ∀ c ∈ cs, isBlank c = true)
    (hread : r.read cs = some r') (hmode : r.mode = .code ∨ r'.mode = .code) : r' = r := by
  have hcode : r.mode = .code := by
    by_cases hcode : r.mode = .code
    · exact hcode
    · exact hmode.resolve_right (mode_ne_of_isBlank h hread hcode)
  obtain ⟨mode, opened⟩ := r
  obtain rfl : mode = .code := hcode
  rw [read_of_isBlank h] at hread
  exact (Option.some.inj hread).symm

/-- An opening brace does not lead to where the reader starts. -/
theorem step_opening_ne (r : Reading) : r.step '\x7b' ≠ some .start := by
  obtain ⟨mode, opened⟩ := r
  cases mode with
  | text quote => cases quote <;> nofun
  | _ => nofun

namespace Reads

/-- Blanks between code and code lead nowhere. -/
theorem eq_of_isBlank (h : Reads w r s r') (hblank : ∀ c ∈ s.toList, isBlank c = true)
    (hmode : r.mode = .code ∨ r'.mode = .code) : r' = r := by
  induction h with
  | fixed h => exact eq_of_read_blanks hblank (readLine_eq_some_iff.mp h).2 hmode
  | name => rfl
  | part hm h => exact absurd hmode (not_or.mpr ⟨hm.ne_code, h.isTemplate.ne_code⟩)
  | value => rfl
  | @append r r' r'' s t _ _ ihs iht =>
    simp only [String.toList_append, List.mem_append] at hblank
    have hs := ihs fun c hc => hblank c (.inl hc)
    have ht := iht fun c hc => hblank c (.inr hc)
    rcases hmode with hmode | hmode
    · have heq := hs (.inl hmode)
      rw [ht (.inl (heq ▸ hmode)), heq]
    · have heq := ht (.inr hmode)
      rw [heq, hs (.inr (heq ▸ hmode))]

/-- Code with nothing open does not start with a closing brace. -/
theorem head?_ne (h : Reads w r s r') (hr : r = .start) :
    (s.toList.dropWhile isBlank).head? ≠ some '\x7d' := by
  intro hhead
  have hmem : '\x7d' ∈ s.toList := (List.dropWhile_sublist _).mem (List.mem_of_head? hhead)
  -- at the start the reader is in code with nothing open, where a brace could not be closed
  induction h with
  | @fixed r r' s h =>
    obtain ⟨-, hread⟩ := readLine_eq_some_iff.mp h
    obtain ⟨rest, hrest⟩ := List.head?_eq_some_iff.mp hhead
    have hblank : ∀ c ∈ s.toList.takeWhile isBlank, isBlank c = true :=
      List.all_eq_true.mp List.all_takeWhile
    rw [← List.takeWhile_append_dropWhile (p := isBlank) (l := s.toList), hrest, hr, start,
      read_append_of (read_of_isBlank hblank [])] at hread
    cases hread
  | name h _ => exact h _ w.braces_mem_bars.2 hmem
  | part hm _ => exact hm.ne_code (congrArg Reading.mode hr)
  | value h => simp [isBlank] at hhead
  | @append r r' r'' s t hs _ ihs iht =>
    rw [String.toList_append, List.dropWhile_append] at hhead
    split at hhead
    next hempty =>
      have hblank := List.dropWhile_eq_nil_iff.mp (List.isEmpty_iff.mp hempty)
      have heq := hs.eq_of_isBlank hblank (.inl (congrArg Reading.mode hr))
      exact iht (heq.trans hr) hhead ((List.dropWhile_sublist _).mem (List.mem_of_head? hhead))
    next hne =>
      rw [List.isEmpty_iff] at hne
      rw [List.head?_append_of_ne_nil _ hne] at hhead
      exact ihs hr hhead ((List.dropWhile_sublist _).mem (List.mem_of_head? hhead))

/-- Code that leaves nothing open does not end with an opening brace. -/
theorem getLast?_ne (h : Reads w r s r') (hr : r' = .start) :
    (s.toList.reverse.dropWhile isBlank).head? ≠ some '\x7b' := by
  intro hlast
  have hmem : '\x7b' ∈ s.toList :=
    List.mem_reverse.mp ((List.dropWhile_sublist _).mem (List.mem_of_head? hlast))
  induction h with
  | @fixed r r' s h =>
    obtain ⟨-, hread⟩ := readLine_eq_some_iff.mp h
    obtain ⟨front, hfront⟩ := List.head?_eq_some_iff.mp hlast
    have hblank : ∀ c ∈ (s.toList.reverse.takeWhile isBlank).reverse, isBlank c = true :=
      fun c hc => List.all_eq_true.mp List.all_takeWhile c (List.mem_reverse.mp hc)
    have hs : s.toList =
        front.reverse ++ '\x7b' :: (s.toList.reverse.takeWhile isBlank).reverse := by
      have hall := List.takeWhile_append_dropWhile (p := isBlank) (l := s.toList.reverse)
      rw [hfront] at hall
      simpa using (congrArg List.reverse hall).symm
    rw [hs, read_append] at hread
    -- after the brace the reader only meets blanks, so it stood at the end already
    obtain ⟨before, -, hread⟩ := Option.bind_eq_some_iff.mp hread
    obtain ⟨after, hstep, hread⟩ := Option.bind_eq_some_iff.mp hread
    have heq := eq_of_read_blanks hblank hread (.inr (congrArg Reading.mode hr))
    exact step_opening_ne before (hstep.trans (congrArg some (heq.symm.trans hr)))
  | name h _ => exact h _ w.braces_mem_bars.1 hmem
  | part _ h => exact h.isTemplate.ne_code (congrArg Reading.mode hr)
  | value h => simp [isBlank] at hlast
  | @append r r' r'' s t _ ht ihs iht =>
    rw [String.toList_append, List.reverse_append, List.dropWhile_append] at hlast
    split at hlast
    next hempty =>
      have hblank := List.dropWhile_eq_nil_iff.mp (List.isEmpty_iff.mp hempty)
      have heq := ht.eq_of_isBlank (fun c hc => hblank c (List.mem_reverse.mpr hc))
        (.inr (congrArg Reading.mode hr))
      exact ihs (heq ▸ hr) hlast
        (List.mem_reverse.mp ((List.dropWhile_sublist _).mem (List.mem_of_head? hlast)))
    next hne =>
      rw [List.isEmpty_iff] at hne
      rw [List.head?_append_of_ne_nil _ hne] at hlast
      exact iht hr hlast
        (List.mem_reverse.mp ((List.dropWhile_sublist _).mem (List.mem_of_head? hlast)))

end Reads

end Script

end AbapLowering
