import AbapLowering.Json.Reader
import AbapLowering.Json.Writer
import Mathlib.Data.List.Forall2
import Mathlib.Data.List.TakeDrop
import Mathlib.Data.List.TakeWhile
import Mathlib.Tactic.IntervalCases

/-!
# JSON that is written is read again

What is written for a value, without blanks (`parse?_compact`) or over several lines
(`parse?_pretty`), is read as this value, if all its numbers are integers and it is not nested deeper
than the reader goes (`Fits`).

- `CutsInto`, `CutsClosed`: the symbols that some characters are cut into, wherever they stand. A word
  at their end may still be open, and is closed by a text that `StartsApart`.
- `symbolsOf`: the symbols of a value, which both layouts are cut into;
- `foldlM_symbolsOf`: from these symbols the value is built.
-/

namespace AbapLowering.Json

/-! ## Values that are read again -/

mutual

/-- Whether the numbers of a value are integers and its arrays and objects are nested at most `room`
deep. -/
def Fits : Json → Nat → Prop
  | .real _, _ => False
  | .arr items, room => 0 < room ∧ ItemsFit items (room - 1)
  | .obj fields, room => 0 < room ∧ FieldsFit fields (room - 1)
  | .null, _ | .bool _, _ | .int _, _ | .str _, _ => True

/-- Whether this holds of all items of an array. -/
def ItemsFit : List Json → Nat → Prop
  | [], _ => True
  | item :: rest, room => item.Fits room ∧ ItemsFit rest room

/-- Whether this holds of the values of all fields of an object. -/
def FieldsFit : List (String × Json) → Nat → Prop
  | [], _ => True
  | (_, value) :: rest, room => value.Fits room ∧ FieldsFit rest room

end

attribute [simp] Fits ItemsFit FieldsFit

/-- Symbols of several values or fields, with commas between them. -/
def separated (parts : List (List Symbol)) : List Symbol := [Symbol.comma].intercalate parts

mutual

/-- The symbols of a value. -/
def symbolsOf : Json → List Symbol
  | .arr items => [.leftBracket] ++ separated (symbolsOfItems items) ++ [.rightBracket]
  | .obj fields => [.leftBrace] ++ separated (symbolsOfFields fields) ++ [.rightBrace]
  | .null => [.scalar .null]
  | .bool b => [.scalar (.bool b)]
  | .int n => [.scalar (.int n)]
  | .real text => [.scalar (.real text)]
  | .str s => [.scalar (.str s)]

/-- The symbols of each item of an array. -/
def symbolsOfItems : List Json → List (List Symbol)
  | [] => []
  | item :: rest => symbolsOf item :: symbolsOfItems rest

/-- The symbols of each field of an object. -/
def symbolsOfFields : List (String × Json) → List (List Symbol)
  | [] => []
  | (key, value) :: rest => ([.scalar (.str key), .colon] ++ symbolsOf value) :: symbolsOfFields rest

end

/-! ## Words -/

/-- An integer other than zero is not written with a zero in front. -/
theorem head?_toDigits {n : Nat} (h : n ≠ 0) : (Nat.toDigits 10 n).head? ≠ some '0' := by
  induction n using Nat.strong_induction_on with
  | _ n ih =>
    by_cases hsmall : n < 10
    · interval_cases n <;> first | contradiction | decide
    · have hhead : (Nat.toDigits 10 n).head? = (Nat.toDigits 10 (n / 10)).head? := by
        rw [Nat.toDigits_of_base_le (by decide) (by omega)]
        obtain ⟨d, ds, hds⟩ := List.exists_cons_of_ne_nil (Nat.toDigits_ne_nil (b := 10) (n := n / 10))
        simp [hds]
      rw [hhead]
      exact ih (n / 10) (by omega) (by omega)

theorem isDigit_of_mem_toDigits {n : Nat} {c : Char} (hc : c ∈ Nat.toDigits 10 n) :
    c.isDigit = true :=
  Nat.isDigit_of_mem_toDigits (b := 10) (by decide) (by decide) hc

theorem digitsValue_toDigits (n : Nat) : digitsValue (Nat.toDigits 10 n) = n := by
  have hvalue := Nat.ofDigitChars_ten_toDigits (n := n)
  rwa [Nat.ofDigitChars_eq_foldl] at hvalue

/-- A number is written with some digits, which have its value, and only zero starts with a zero. -/
theorem exists_toDigits (n : Nat) : ∃ d ds, Nat.toDigits 10 n = d :: ds ∧
    (∀ c ∈ d :: ds, c.isDigit = true) ∧ digitsValue (d :: ds) = n ∧ (n ≠ 0 → d ≠ '0') := by
  obtain ⟨d, ds, hds⟩ := List.exists_cons_of_ne_nil (Nat.toDigits_ne_nil (b := 10) (n := n))
  refine ⟨d, ds, hds, fun c hc => isDigit_of_mem_toDigits (hds ▸ hc),
    hds ▸ digitsValue_toDigits n, fun hzero hd => head?_toDigits hzero ?_⟩
  rw [hds, hd]
  rfl

/-- Nothing is left after digits that nothing follows. -/
theorem spanDigits_of_digits {ds : List Char} (hdigits : ∀ c ∈ ds, c.isDigit = true) :
    spanDigits ds = (ds, []) := by
  rw [spanDigits, List.span_eq_takeWhile_dropWhile, List.takeWhile_eq_self_iff.mpr hdigits,
    List.dropWhile_eq_nil_iff.mpr hdigits]

/-- Zero is read from its digit. -/
theorem number?_zero : number? ['0'] = some (.int 0) := rfl

section

variable {d : Char} {ds : List Char}

/-- Digits without a zero in front are read as a number. -/
theorem number?_of_digits (hdigits : ∀ c ∈ d :: ds, c.isDigit = true) (hzero : d ≠ '0') :
    number? (d :: ds) = some (.int (digitsValue (d :: ds))) := by
  have hsign : d ≠ '-' := by
    rintro rfl
    exact absurd (hdigits _ List.mem_cons_self) (by decide)
  simp [number?, hsign, spanDigits_of_digits hdigits, hzero, isNumberTail, isExponent]

/-- The same after a sign. -/
theorem number?_of_signed (hdigits : ∀ c ∈ d :: ds, c.isDigit = true) (hzero : d ≠ '0') :
    number? ('-' :: d :: ds) = some (.int (-digitsValue (d :: ds))) := by
  simp [number?, spanDigits_of_digits hdigits, hzero, isNumberTail, isExponent]

end

/-- Text of an integer: its digits, after a sign if it is negative. -/
theorem toList_toString (n : Int) :
    (toString n).toList = (if n < 0 then ['-'] else []) ++ Nat.toDigits 10 n.natAbs := by
  rw [Int.toString_eq_repr, Int.repr_eq_if]
  split
  next h =>
    have habs : n.toNat = n.natAbs := by omega
    simp [Nat.repr_eq_ofList_toDigits, habs, show ¬ n < 0 by omega]
  next h =>
    have habs : (-n).toNat = n.natAbs := by omega
    simp [Nat.repr_eq_ofList_toDigits, habs, show n < 0 by omega]

/-- The text of an integer is read as this integer. -/
theorem number?_toString (n : Int) : number? (toString n).toList = some (.int n) := by
  rw [toList_toString]
  -- only zero may start with its digit
  by_cases hzero : n.natAbs = 0
  · obtain rfl := Int.natAbs_eq_zero.mp hzero
    exact number?_zero
  · obtain ⟨d, ds, hds, hdigits, hvalue, hd⟩ := exists_toDigits n.natAbs
    rw [hds]
    split
    next hneg =>
      rw [List.singleton_append, number?_of_signed hdigits (hd hzero), hvalue]
      congr 2
      omega
    next hpos =>
      rw [List.nil_append, number?_of_digits hdigits (hd hzero), hvalue]
      congr 2
      omega

/-- A sign or a digit starts none of the three names. -/
theorem word?_eq_number? {word : List Char} (h : ∀ c ∈ word.head?, c ≠ 'n' ∧ c ≠ 't' ∧ c ≠ 'f') :
    word? word = number? word := by
  have hne : ∀ name : List Char, name.head? = some 'n' ∨ name.head? = some 't' ∨
      name.head? = some 'f' → word ≠ name := by
    rintro name hname rfl
    obtain hname | hname | hname := hname <;> simp_all
  simp [word?, hne]

theorem endsWord_of_isDigit {c : Char} (h : c.isDigit = true) : endsWord c = false := by
  by_contra hends
  simp only [endsWord, Bool.not_eq_false, Bool.or_eq_true, beq_iff_eq] at hends
  obtain (((((((((rfl | rfl) | rfl) | rfl) | rfl) | rfl) | rfl) | rfl) | rfl) | rfl) | rfl := hends
  all_goals exact absurd h (by decide)

/-- The text of an integer is a word with this integer as its value. -/
theorem word?_toString (n : Int) : word? (toString n).toList = some (.int n) := by
  obtain ⟨d, ds, hds, hdigits, -⟩ := exists_toDigits n.natAbs
  have hd := hdigits d List.mem_cons_self
  refine (word?_eq_number? fun c hc => ?_).trans (number?_toString n)
  rw [toList_toString, hds] at hc
  split at hc
  next =>
    obtain rfl := Option.some.inj hc
    decide
  next =>
    obtain rfl := Option.some.inj hc
    refine ⟨?_, ?_, ?_⟩ <;> (rintro rfl; exact absurd hd (by decide))

/-- No character of an integer ends a word. -/
theorem endsWord_of_mem_toString {n : Int} {c : Char} (hc : c ∈ (toString n).toList) :
    endsWord c = false := by
  rw [toList_toString, List.mem_append] at hc
  obtain hc | hc := hc
  · split at hc
    · obtain rfl := List.mem_singleton.mp hc
      rfl
    · cases hc
  · exact endsWord_of_isDigit (isDigit_of_mem_toDigits hc)

/-! ## Texts that are cut into symbols -/

/-- The symbols read so far when a word that is open ends here, last one first. -/
def Cut.closed? (cut : Cut) : Option (List Symbol) :=
  match cut.place with
  | .between => some cut.symbols
  | .word read => (word? read.reverse).map fun value => .scalar value :: cut.symbols
  | _ => none

/-- Wherever it stands between two symbols, a text is cut into some symbols, the last of which may
be a word still open. -/
def CutsInto (text : List Char) (symbols : List Symbol) : Prop :=
  ∀ before, ∃ cut, text.foldlM cutChar ⟨before, .between⟩ = some cut ∧
    cut.closed? = some (symbols.reverse ++ before)

/-- The same, and no word is open at the end. -/
def CutsClosed (text : List Char) (symbols : List Symbol) : Prop :=
  ∀ before, text.foldlM cutChar ⟨before, .between⟩ = some ⟨symbols.reverse ++ before, .between⟩

/-- A text whose first character ends a word. -/
def StartsApart (text : List Char) : Prop := ∃ c rest, text = c :: rest ∧ endsWord c = true

theorem StartsApart.append {first : List Char} (h : StartsApart first) (second : List Char) :
    StartsApart (first ++ second) := by
  obtain ⟨c, rest, rfl, hc⟩ := h
  exact ⟨c, rest ++ second, rfl, hc⟩

/-- What ends a word reads on as if the word had ended before. -/
theorem cutChar_of_closed? {cut : Cut} {symbols : List Symbol} {c : Char}
    (h : cut.closed? = some symbols) (hc : endsWord c = true) :
    cutChar cut c = cutChar ⟨symbols, .between⟩ c := by
  obtain ⟨before, place⟩ := cut
  cases place with
  | between =>
    obtain rfl := Option.some.inj h
    rfl
  | word read =>
    obtain ⟨value, hvalue, rfl⟩ := Option.map_eq_some_iff.mp h
    simp [cutChar, hc, hvalue]
  | _ => cases h

section

variable {first second : List Char} {xs ys : List Symbol}

theorem CutsClosed.cutsInto (h : CutsClosed first xs) : CutsInto first xs := fun before =>
  ⟨_, h before, rfl⟩

theorem CutsClosed.append (h : CutsClosed first xs) (h' : CutsClosed second ys) :
    CutsClosed (first ++ second) (xs ++ ys) := by
  intro before
  rw [List.foldlM_append, h before]
  simpa using h' (xs.reverse ++ before)

theorem CutsClosed.append_cutsInto (h : CutsClosed first xs) (h' : CutsInto second ys) :
    CutsInto (first ++ second) (xs ++ ys) := by
  intro before
  rw [List.foldlM_append, h before]
  simpa using h' (xs.reverse ++ before)

/-- Reading goes on behind an open word when the next character ends it. -/
theorem foldlM_append_of_cut {before : List Symbol} (h : CutsInto first xs)
    (hapart : StartsApart second) :
    (first ++ second).foldlM cutChar ⟨before, .between⟩ =
      second.foldlM cutChar ⟨xs.reverse ++ before, .between⟩ := by
  obtain ⟨cut, hcut, hclosed⟩ := h before
  obtain ⟨c, rest, rfl, hc⟩ := hapart
  rw [List.foldlM_append, hcut]
  simp only [Option.bind_eq_bind, Option.bind_some, List.foldlM_cons,
    cutChar_of_closed? hclosed hc]

theorem CutsInto.append (h : CutsInto first xs) (hapart : StartsApart second)
    (h' : CutsInto second ys) : CutsInto (first ++ second) (xs ++ ys) := by
  intro before
  rw [foldlM_append_of_cut h hapart]
  simpa using h' (xs.reverse ++ before)

theorem CutsInto.append_closed (h : CutsInto first xs) (hapart : StartsApart second)
    (h' : CutsClosed second ys) : CutsClosed (first ++ second) (xs ++ ys) := by
  intro before
  rw [foldlM_append_of_cut h hapart]
  simpa using h' (xs.reverse ++ before)

end

/-- The symbols of a text, as they are read. -/
theorem symbols?_of_cutsInto {text : List Char} {xs : List Symbol} (h : CutsInto text xs) :
    symbols? text = some xs := by
  obtain ⟨⟨symbols, place⟩, hcut, hclosed⟩ := h []
  rw [List.append_nil] at hclosed
  simp only [symbols?, hcut, Option.bind_eq_bind, Option.bind_some]
  cases place with
  | between =>
    obtain rfl := Option.some.inj hclosed
    simp
  | word read =>
    obtain ⟨value, hvalue, hsymbols⟩ := Option.map_eq_some_iff.mp hclosed
    have hreversed : (Symbol.scalar value :: symbols).reverse = xs := by simp [hsymbols]
    rw [Option.map_eq_some_iff]
    exact ⟨value, hvalue, hreversed⟩
  | _ => cases hclosed

/-- Blanks and line feeds separate, and are nothing themselves. -/
theorem cutsClosed_blanks {text : List Char} (h : ∀ c ∈ text, c = ' ' ∨ c = '\n') :
    CutsClosed text [] := by
  intro before
  induction text with
  | nil => rfl
  | cons c rest ih =>
    have hc : cutChar ⟨before, .between⟩ c = some ⟨before, .between⟩ := by
      obtain rfl | rfl := h c List.mem_cons_self <;> rfl
    rw [List.foldlM_cons, hc]
    exact ih fun d hd => h d (List.mem_cons_of_mem _ hd)

theorem cutsClosed_replicate (n : Nat) : CutsClosed (List.replicate n ' ') [] :=
  cutsClosed_blanks fun _ hc => .inl (List.eq_of_mem_replicate hc)

/-- Characters that do not end a word are read into it. -/
theorem foldlM_word {before : List Symbol} {word : List Char} (read : List Char)
    (h : ∀ c ∈ word, endsWord c = false) :
    word.foldlM cutChar ⟨before, .word read⟩ = some ⟨before, .word (word.reverse ++ read)⟩ := by
  induction word generalizing read with
  | nil => rfl
  | cons c rest ih =>
    simp only [List.foldlM_cons, cutChar, h c List.mem_cons_self]
    simpa using ih (c :: read) fun d hd => h d (List.mem_cons_of_mem _ hd)

/-- A word is cut into its value. -/
theorem cutsInto_word {word : List Char} {value : Json} (hvalue : word? word = some value)
    (hne : word ≠ []) (h : ∀ c ∈ word, endsWord c = false) : CutsInto word [.scalar value] := by
  intro before
  obtain ⟨c, rest, rfl⟩ := List.exists_cons_of_ne_nil hne
  have hc := h c List.mem_cons_self
  have hstart : cutChar ⟨before, .between⟩ c = some ⟨before, .word [c]⟩ := by
    simp only [endsWord, Bool.or_eq_false_iff, beq_eq_false_iff_ne] at hc
    simp [cutChar, startSymbol, hc]
  refine ⟨⟨before, .word (rest.reverse ++ [c])⟩, ?_, ?_⟩
  · rw [List.foldlM_cons, hstart]
    exact foldlM_word [c] fun d hd => h d (List.mem_cons_of_mem _ hd)
  · simp [Cut.closed?, hvalue]

theorem hexValue?_hexDigit : ∀ n < 16, hexValue? (hexDigit n) = some n := by decide

/-- The escaped form of a character is read as this character. -/
theorem foldlM_escapeChar (before : List Symbol) (read : List Char) (c : Char) :
    (escapeChar c).foldlM cutChar ⟨before, .text read⟩ = some ⟨before, .text (c :: read)⟩ := by
  unfold escapeChar
  split_ifs with hquote hslash hfeed hreturn htab hback hform hcontrol
  · subst hquote; rfl
  · subst hslash; rfl
  · subst hfeed; rfl
  · subst hreturn; rfl
  · subst htab; rfl
  · subst hback; rfl
  · subst hform; rfl
  -- written by its number
  · have hhigh := hexValue?_hexDigit (c.toNat / 16) (by omega)
    have hlow := hexValue?_hexDigit (c.toNat % 16) (by omega)
    have hvalue : 16 * (c.toNat / 16) + c.toNat % 16 = c.toNat := Nat.div_add_mod _ _
    have hafter : afterCode read none c.toNat = some (.text (c :: read)) := by
      simp [afterCode, show ¬ 0xd800 ≤ c.toNat by omega, show ¬ 0xdc00 ≤ c.toNat by omega,
        Char.ofNat_toNat]
    have hzero : hexValue? '0' = some 0 := rfl
    simp [List.foldlM_cons, cutChar, hzero, hhigh, hlow, hvalue, hafter]
  · simp [List.foldlM_cons, cutChar, hquote, hslash, hcontrol]

/-- A string is cut into its value. -/
theorem cutsClosed_quote (s : String) : CutsClosed (quote s).toList [.scalar (.str s)] := by
  intro before
  have hbody : ∀ (cs read : List Char), (cs.flatMap escapeChar).foldlM cutChar ⟨before, .text read⟩ =
      some ⟨before, .text (cs.reverse ++ read)⟩ := by
    intro cs
    induction cs with
    | nil => exact fun read => rfl
    | cons c rest ih =>
      intro read
      rw [List.flatMap_cons, List.foldlM_append, foldlM_escapeChar]
      simpa using ih (c :: read)
  have hopen : cutChar ⟨before, .between⟩ '\x22' = some ⟨before, .text []⟩ := rfl
  have htext : (quote s).toList = '\x22' :: (s.toList.flatMap escapeChar ++ ['\x22']) := by
    simp [quote]
  rw [htext, List.foldlM_cons, hopen, Option.bind_eq_bind, Option.bind_some, List.foldlM_append,
    hbody, Option.bind_eq_bind, Option.bind_some, List.append_nil]
  simp [cutChar]

/-! ## The two layouts -/

/-- A value that is neither array nor object is cut into itself. -/
theorem cutsInto_scalarText {j : Json} {room : Nat} (h : j.Fits room)
    (harr : ∀ items, j ≠ .arr items) (hobj : ∀ fields, j ≠ .obj fields) :
    CutsInto (scalarText j).toList [.scalar j] := by
  cases j with
  | null => exact cutsInto_word rfl (by decide) (by simp [scalarText, endsWord])
  | bool b => cases b <;> exact cutsInto_word rfl (by decide) (by simp [scalarText, endsWord])
  | int n =>
    have hne : (toString n).toList ≠ [] := by
      rw [toList_toString]
      simp [Nat.toDigits_ne_nil]
    exact cutsInto_word (word?_toString n) hne fun c => endsWord_of_mem_toString
  | real text => exact h.elim
  | str s => exact (cutsClosed_quote s).cutsInto
  | arr items => exact absurd rfl (harr items)
  | obj fields => exact absurd rfl (hobj fields)

/-- Texts of several values or fields, with commas between them. -/
theorem cutsInto_intercalate {sep : List Char} (hsep : CutsClosed sep [.comma])
    (hapart : StartsApart sep) {texts : List (List Char)} {parts : List (List Symbol)}
    (h : List.Forall₂ CutsInto texts parts) :
    CutsInto (sep.intercalate texts) (separated parts) := by
  induction h with
  | nil => exact fun before => ⟨_, rfl, rfl⟩
  | @cons text symbols rest restParts hfirst hrest ih =>
    cases hrest with
    | nil => simpa [separated] using hfirst
    | cons hsecond hmore =>
      -- the separator ends the word that may be open before it
      simp only [separated, List.intercalate_cons_cons] at ih ⊢
      simpa using (hfirst.append_closed hapart hsep).append_cutsInto ih

/-- Whether texts are cut into the symbols of as many parts. -/
abbrev AllCutInto (texts : List String) (parts : List (List Symbol)) : Prop :=
  List.Forall₂ (fun text symbols => CutsInto text.toList symbols) texts parts

section

variable {opening closing : String} {first last : Symbol} {texts : List String}
  {parts : List (List Symbol)}

theorem cutsInto_enclosed (hopening : CutsClosed opening.toList [first])
    (hclosing : CutsClosed closing.toList [last]) (hapart : StartsApart closing.toList)
    (htexts : AllCutInto texts parts) :
    CutsInto (opening ++ ",".intercalate texts ++ closing).toList
      ([first] ++ separated parts ++ [last]) := by
  have hbody : CutsInto (",".intercalate texts).toList (separated parts) := by
    rw [String.toList_intercalate]
    exact cutsInto_intercalate (fun _ => rfl) ⟨_, _, rfl, rfl⟩
      (List.forall₂_map_left_iff.mpr htexts)
  rw [String.toList_append, String.toList_append]
  exact ((hopening.append_cutsInto hbody).append_closed hapart hclosing).cutsInto

/-- Blanks in front of a line are nothing. -/
theorem cutsInto_indented {level : Nat} {line : String} {symbols : List Symbol}
    (h : CutsInto line.toList symbols) : CutsInto (indented level line).toList symbols := by
  simpa [indented] using (cutsClosed_replicate (2 * level)).append_cutsInto h

theorem cutsInto_bracketed {level : Nat} (hopening : CutsClosed opening.toList [first])
    (hclosing : CutsClosed closing.toList [last]) (htexts : AllCutInto texts parts) :
    CutsInto (bracketed level opening closing texts).toList
      ([first] ++ separated parts ++ [last]) := by
  unfold bracketed
  split
  -- nothing between the brackets, and no line of its own
  next hempty =>
    obtain rfl := List.isEmpty_iff.mp hempty
    cases htexts
    rw [String.toList_append]
    exact (hopening.append hclosing).cutsInto
  next =>
    have hbody : CutsInto (",\n".intercalate (texts.map (indented (level + 1)))).toList
        (separated parts) := by
      rw [String.toList_intercalate, List.map_map]
      exact cutsInto_intercalate (fun _ => rfl) ⟨_, _, rfl, rfl⟩
        (List.forall₂_map_left_iff.mpr (htexts.imp fun _ _ h => cutsInto_indented h))
    have hfeed : CutsClosed "\n".toList [] := cutsClosed_blanks (by simp)
    have hend : CutsClosed ("\n".toList ++ (indented level closing).toList) [last] := by
      simpa [indented] using hfeed.append ((cutsClosed_replicate (2 * level)).append hclosing)
    have hstart := (hopening.append hfeed).append_cutsInto hbody
    simpa using (hstart.append_closed ⟨'\n', _, rfl, rfl⟩ hend).cutsInto

end

/-- A field is cut into its name, a colon and its value. -/
theorem cutsInto_field (key : String) {sep value : String} {symbols : List Symbol}
    (hsep : CutsClosed sep.toList [.colon]) (hvalue : CutsInto value.toList symbols) :
    CutsInto (quote key ++ sep ++ value).toList ([.scalar (.str key), .colon] ++ symbols) := by
  simpa using ((cutsClosed_quote key).append hsep).append_cutsInto hvalue

mutual

/-- Without blanks a value is cut into its symbols. -/
theorem cutsInto_compact : ∀ (j : Json) {room : Nat}, j.Fits room →
    CutsInto j.compact.toList (symbolsOf j)
  | .arr items, _, h => cutsInto_enclosed (fun _ => rfl) (fun _ => rfl) ⟨_, _, rfl, rfl⟩
      (cutsInto_compactItems items h.2)
  | .obj fields, _, h => cutsInto_enclosed (fun _ => rfl) (fun _ => rfl) ⟨_, _, rfl, rfl⟩
      (cutsInto_compactFields fields h.2)
  | .null, _, h | .bool _, _, h | .int _, _, h | .real _, _, h | .str _, _, h =>
    cutsInto_scalarText h nofun nofun

theorem cutsInto_compactItems : ∀ (items : List Json) {room : Nat}, ItemsFit items room →
    AllCutInto (compactItems items) (symbolsOfItems items)
  | [], _, _ => .nil
  | item :: rest, _, h => .cons (cutsInto_compact item h.1) (cutsInto_compactItems rest h.2)

theorem cutsInto_compactFields : ∀ (fields : List (String × Json)) {room : Nat},
    FieldsFit fields room → AllCutInto (compactFields fields) (symbolsOfFields fields)
  | [], _, _ => .nil
  | (key, value) :: rest, _, h =>
    .cons (cutsInto_field key (fun _ => rfl) (cutsInto_compact value h.1))
      (cutsInto_compactFields rest h.2)

end

mutual

/-- Over several lines a value is cut into the same symbols. -/
theorem cutsInto_pretty : ∀ (level : Nat) (j : Json) {room : Nat}, j.Fits room →
    CutsInto (j.pretty level).toList (symbolsOf j)
  | level, .arr items, _, h => cutsInto_bracketed (fun _ => rfl) (fun _ => rfl)
      (cutsInto_prettyItems (level + 1) items h.2)
  | level, .obj fields, _, h => cutsInto_bracketed (fun _ => rfl) (fun _ => rfl)
      (cutsInto_prettyFields (level + 1) fields h.2)
  | _, .null, _, h | _, .bool _, _, h | _, .int _, _, h | _, .real _, _, h | _, .str _, _, h =>
    cutsInto_scalarText h nofun nofun

theorem cutsInto_prettyItems : ∀ (level : Nat) (items : List Json) {room : Nat},
    ItemsFit items room → AllCutInto (prettyItems level items) (symbolsOfItems items)
  | _, [], _, _ => .nil
  | level, item :: rest, _, h =>
    .cons (cutsInto_pretty level item h.1) (cutsInto_prettyItems level rest h.2)

theorem cutsInto_prettyFields : ∀ (level : Nat) (fields : List (String × Json)) {room : Nat},
    FieldsFit fields room → AllCutInto (prettyFields level fields) (symbolsOfFields fields)
  | _, [], _, _ => .nil
  | level, (key, value) :: rest, _, h =>
    .cons (cutsInto_field key (fun _ => rfl) (cutsInto_pretty level value h.1))
      (cutsInto_prettyFields level rest h.2)

end

/-! ## Values that are built from their symbols -/

/-- After the first part a comma stands in front of each. -/
theorem separated_cons (first : List Symbol) (rest : List (List Symbol)) :
    separated (first :: rest) = first ++ rest.flatMap (Symbol.comma :: ·) := by
  induction rest generalizing first with
  | nil => simp [separated]
  | cons second rest ih =>
    have hrest := ih second
    simp only [separated] at hrest ⊢
    simp [hrest]

/-- Where the end of an array may come, a value is read like any other. -/
theorem foldlM_symbolsOf_valueOrEnd (j : Json) (rest : List Symbol) (stack : List Open) :
    (symbolsOf j ++ rest).foldlM buildSymbol ⟨stack, .valueOrEnd⟩ =
      (symbolsOf j ++ rest).foldlM buildSymbol ⟨stack, .value⟩ := by
  cases j <;> rfl

theorem buildSymbol_leftBracket (stack : List Open) (h : stack.length < maxDepth) :
    buildSymbol ⟨stack, .value⟩ .leftBracket = some ⟨.array [] :: stack, .valueOrEnd⟩ :=
  if_pos h

theorem buildSymbol_leftBrace (stack : List Open) (h : stack.length < maxDepth) :
    buildSymbol ⟨stack, .value⟩ .leftBrace = some ⟨.object [] "" :: stack, .keyOrEnd⟩ :=
  if_pos h

mutual

/-- The symbols of a value complete this value. -/
theorem foldlM_symbolsOf : ∀ (j : Json) {room : Nat} (stack : List Open), j.Fits room →
    stack.length + room ≤ maxDepth →
    (symbolsOf j).foldlM buildSymbol ⟨stack, .value⟩ = some (complete stack j)
  | .arr items, room, stack, ⟨hpos, hfit⟩, hroom => by
    have hopen := buildSymbol_leftBracket stack (by omega)
    rw [symbolsOf, List.append_assoc, List.singleton_append, List.foldlM_cons, hopen]
    cases items with
    | nil => rfl
    | cons item rest =>
      have hitem := foldlM_symbolsOf item (.array [] :: stack) hfit.1
        (by rw [List.length_cons]; omega)
      have hrest := foldlM_moreItems rest [item] stack hfit.2 (by omega)
      rw [symbolsOfItems, separated_cons, List.append_assoc, Option.bind_eq_bind, Option.bind_some,
        foldlM_symbolsOf_valueOrEnd, List.foldlM_append, hitem]
      exact hrest
  | .obj fields, room, stack, ⟨hpos, hfit⟩, hroom => by
    have hopen := buildSymbol_leftBrace stack (by omega)
    rw [symbolsOf, List.append_assoc, List.singleton_append, List.foldlM_cons, hopen]
    cases fields with
    | nil => rfl
    | cons field rest =>
      obtain ⟨key, value⟩ := field
      have hvalue := foldlM_symbolsOf value (.object [] key :: stack) hfit.1
        (by rw [List.length_cons]; omega)
      have hrest := foldlM_moreFields rest [(key, value)] stack hfit.2 (by omega)
      rw [symbolsOfFields, separated_cons, List.append_assoc, List.append_assoc]
      -- the name and the colon lead to the place where the value is expected
      change (symbolsOf value ++ _).foldlM buildSymbol ⟨.object [] key :: stack, .value⟩ = _
      rw [List.foldlM_append, hvalue]
      exact hrest
  | .null, _, _, _, _ | .bool _, _, _, _, _ | .int _, _, _, _, _ | .str _, _, _, _, _ => rfl
  | .real _, _, _, h, _ => h.elim

/-- Further items and the end complete the array they belong to. -/
theorem foldlM_moreItems : ∀ (items read : List Json) {room : Nat} (outer : List Open),
    ItemsFit items room → outer.length + 1 + room ≤ maxDepth →
    ((symbolsOfItems items).flatMap (Symbol.comma :: ·) ++ [Symbol.rightBracket]).foldlM buildSymbol
      ⟨.array read :: outer, .commaOrEnd⟩ = some (complete outer (.arr (read.reverse ++ items)))
  | [], read, _, outer, _, _ => by simp [symbolsOfItems, buildSymbol, closeOne]
  | item :: rest, read, _, outer, ⟨hfirst, hfit⟩, hroom => by
    have hitem := foldlM_symbolsOf item (.array read :: outer) hfirst hroom
    have hrest := foldlM_moreItems rest (item :: read) outer hfit hroom
    rw [symbolsOfItems, List.flatMap_cons, List.append_assoc]
    change (symbolsOf item ++ _).foldlM buildSymbol ⟨.array read :: outer, .value⟩ = _
    rw [List.foldlM_append, hitem]
    simpa [complete] using hrest

/-- The same for the fields of an object. -/
theorem foldlM_moreFields : ∀ (fields read : List (String × Json)) {room : Nat}
    (outer : List Open), FieldsFit fields room → outer.length + 1 + room ≤ maxDepth →
    ((symbolsOfFields fields).flatMap (Symbol.comma :: ·) ++ [Symbol.rightBrace]).foldlM buildSymbol
      ⟨.object read "" :: outer, .commaOrEnd⟩ =
        some (complete outer (.obj (read.reverse ++ fields)))
  | [], read, _, outer, _, _ => by simp [symbolsOfFields, buildSymbol, closeOne]
  | (key, value) :: rest, read, _, outer, ⟨hfirst, hfit⟩, hroom => by
    have hvalue := foldlM_symbolsOf value (.object read key :: outer) hfirst hroom
    have hrest := foldlM_moreFields rest ((key, value) :: read) outer hfit hroom
    rw [symbolsOfFields, List.flatMap_cons, List.append_assoc]
    change (symbolsOf value ++ _).foldlM buildSymbol ⟨.object read key :: outer, .value⟩ = _
    rw [List.foldlM_append, hvalue]
    simpa [complete] using hrest

end

/-! ## Reading what was written -/

/-- A text that is cut into the symbols of a value is read as this value. -/
theorem parse?_of_cutsInto {text : String} {j : Json} (hcut : CutsInto text.toList (symbolsOf j))
    (hfits : j.Fits maxDepth) : parse? text = some j := by
  have hbuild := foldlM_symbolsOf j [] hfits (by simp)
  simp [parse?, symbols?_of_cutsInto hcut, hbuild, complete]

/-- What is written without blanks is read again. -/
theorem parse?_compact {j : Json} (hfits : j.Fits maxDepth) : parse? j.compact = some j :=
  parse?_of_cutsInto (cutsInto_compact j hfits) hfits

/-- What is written over several lines is read again. -/
theorem parse?_pretty {j : Json} (level : Nat) (hfits : j.Fits maxDepth) :
    parse? (j.pretty level) = some j :=
  parse?_of_cutsInto (cutsInto_pretty level j hfits) hfits

end AbapLowering.Json
