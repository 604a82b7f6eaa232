import AbapLowering.Proofs.Code.Template
import Mathlib.Data.List.Forall2

/-!
# Spellings

A plain name is written in lower case with `$` for `~`, so two names
that differ in these two characters only are spelled alike (`Identifier.dollared_eq_iff`). A word
without these characters is the spelling of just the names that read so in lower case
(`Identifier.dollared_eq_iff_eq`).
-/

namespace AbapLowering

namespace Identifier

/-- How one character of a name in lower case is written. -/
def dollaredChar (x : Char) : Char := if x = '~' then '$' else x

/-- A name in lower case with `$` for `~`. -/
def dollared (s : String) : String := String.ofList (s.toList.map dollaredChar)

/-- Characters that are written alike. -/
def AlikeChar (x y : Char) : Prop := x = y ∨ x ∈ ['~', '$'] ∧ y ∈ ['~', '$']

/-- Names in lower case that agree character by character, with no difference between `~` and
`$`. -/
def Alike (s t : String) : Prop := List.Forall₂ AlikeChar s.toList t.toList

/-- Two characters are spelled alike if they are the same up to a tilde for a dollar sign. -/
theorem dollaredChar_eq_iff {x y : Char} : dollaredChar x = dollaredChar y ↔ AlikeChar x y := by
  simp only [dollaredChar, AlikeChar, List.mem_cons, List.not_mem_nil, or_false]
  grind

/-- Two names are spelled alike if they are character by character. -/
theorem dollared_eq_iff {s t : String} : dollared s = dollared t ↔ Alike s t := by
  calc dollared s = dollared t
      ↔ s.toList.map dollaredChar = t.toList.map dollaredChar := String.ofList_inj
    _ ↔ List.Forall₂ (· = ·) (s.toList.map dollaredChar) (t.toList.map dollaredChar) := by
        rw [List.forall₂_eq_eq_eq]
    _ ↔ Alike s t := by
        simp only [List.forall₂_map_left_iff, List.forall₂_map_right_iff, dollaredChar_eq_iff]
        rfl

/-- A name without a tilde is spelled as it is. -/
theorem dollared_of_not_mem {s : String} (h : '~' ∉ s.toList) : dollared s = s := by
  have hmap : s.toList.map dollaredChar = s.toList := by
    refine (List.map_congr_left fun x hx => ?_).trans (List.map_id _)
    have hne : x ≠ '~' := ne_of_mem_of_not_mem hx h
    exact if_neg hne
  rw [dollared, hmap, String.ofList_toList]

/-- A word without `~` and `$` spells itself only. -/
theorem dollared_eq_iff_eq {s word : String} (htilde : '~' ∉ word.toList)
    (hdollar : '$' ∉ word.toList) : dollared s = word ↔ s = word := by
  constructor
  · intro h
    -- a tilde in the name would be written as a dollar
    have hs : '~' ∉ s.toList := by
      intro hmem
      apply hdollar
      rw [← h, dollared, String.toList_ofList]
      exact List.mem_map.mpr ⟨'~', hmem, rfl⟩
    rwa [dollared_of_not_mem hs] at h
  · rintro rfl
    exact dollared_of_not_mem htilde

@[simp] theorem dollared_append (s t : String) : dollared (s ++ t) = dollared s ++ dollared t := by
  simp [dollared, String.ofList_append]

/-- The plain spelling of a name is in lower case and has dollar signs for tildes. -/
theorem plain_eq_dollared (name : String) : plain name = dollared (Text.toLower name) := by
  rw [plain, dollared, Text.replaceChar]
  congr 1
  induction (Text.toLower name).toList with
  | nil => rfl
  | cons x rest ih =>
    rw [List.flatMap_cons, ih, List.map_cons, dollaredChar]
    split <;> rfl

/-- A field symbol without its angle brackets. -/
def bare (name : String) : String := Text.dropTrailing '>' (Text.dropLeading '<' name)

/-- So is that of a field symbol, between its marks. -/
theorem fieldSymbol_eq_dollared (name : String) :
    fieldSymbol name = dollared ("fs_" ++ Text.toLower (bare name) ++ "_") := by
  rw [fieldSymbol, plain_eq_dollared, dollared_append, dollared_append,
    dollared_of_not_mem (by decide : '~' ∉ "fs_".toList),
    dollared_of_not_mem (by decide : '~' ∉ "_".toList), bare]

/-! ## Names that code makes up -/

/-- The constant of an integer is a word. -/
theorem mem_integer {value : Int64} {x : Char} (h : x ∈ (integer value).toList) :
    x.isAlphanum = true ∨ x = '_' := by
  have hword : "constant_minus_".toList.all (fun x => x.isAlphanum || x == '_') = true := by decide
  have hminus : x ∈ "constant_minus_".toList → x.isAlphanum = true ∨ x = '_' :=
    fun hx => by simpa using List.all_eq_true.mp hword x hx
  have hplus : x ∈ "constant_".toList → x.isAlphanum = true ∨ x = '_' :=
    fun hx => hminus (List.mem_of_mem_take (i := 9) hx)
  rw [integer] at h
  split at h
  · rw [String.toList_append, List.mem_append] at h
    exact h.elim hminus fun hdigit => .inl (Template.isAlphanum_of_mem_digits hdigit)
  next hnonneg =>
    -- no sign is written for a value that is not negative
    have hvalue : toString value.toInt = toString value.toInt.toNat := by
      rw [← Int.toNat_of_nonneg (Int.not_lt.mp hnonneg)]
      rfl
    rw [hvalue, String.toList_append, List.mem_append] at h
    exact h.elim hplus fun hdigit => .inl (Template.isAlphanum_of_mem_digits hdigit)

/-- Constants of integers begin with a `c`. -/
theorem head?_integer (value : Int64) : (integer value).toList.head? = some 'c' := by
  rw [integer]
  split <;> simp

/-- Temporaries begin with a `u`. -/
theorem head?_temporary (n : Nat) : (temporary n).toList.head? = some 'u' := by
  simp [temporary]

/-- The digits of a number tell the number. -/
theorem toString_nat_inj {m n : Nat} : toString m = toString n ↔ m = n := by
  refine ⟨fun h => ?_, fun h => congrArg toString h⟩
  rw [Nat.toString_eq_ofList_toDigits, Nat.toString_eq_ofList_toDigits] at h
  have hdigits : Nat.toDigits 10 m = Nat.toDigits 10 n := String.ofList_injective h
  rw [← Nat.ofDigitChars_ten_toDigits (n := m), hdigits, Nat.ofDigitChars_ten_toDigits]

/-- Two temporaries have one name just if the counter has come to the same number again. -/
theorem temporary_eq_iff {m n : Nat} :
    temporary m = temporary n ↔ m % UInt32.size = n % UInt32.size := by
  have hname : ∀ k, temporary k = "unique" ++ toString (k % UInt32.size) := fun _ => rfl
  rw [hname, hname, String.append_right_inj, toString_nat_inj]

end Identifier

end AbapLowering
