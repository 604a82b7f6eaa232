import AbapLowering.Code.Identifier

/-!
# What changing case brings in

Lower and upper case are made character by character from tables. Main facts:

- no ASCII character but letters is brought in: a mark in the lower or upper case of a text stands
  in the text itself (`mem_of_mem_toLower`, `mem_of_mem_toUpper`), and as often
  (`count_toLower`, `count_toUpper`);
- ASCII texts agree in upper case iff they do in lower case (`toUpper_eq_iff`).
-/

namespace AbapLowering

namespace Text

/-- Whether a character is an ASCII character, but no letter and not the very first. -/
def IsMark (x : Char) : Prop := 0 < x.toNat ∧ x.toNat < 128 ∧ x.isAlpha = false

instance (x : Char) : Decidable (IsMark x) :=
  inferInstanceAs (Decidable (_ ∧ _ ∧ _))

/-! ## The tables -/

/-- Whether the number of a character is that of an ASCII letter or beyond ASCII. -/
def leavesMarks (n : Nat) : Bool := (Char.ofNat n).isAlpha || 128 ≤ n

/-- Whether all characters of a range are mapped to letters or beyond ASCII. -/
def CaseRange.leavesMarks (r : CaseRange) : Bool :=
  if r.first = r.last then Text.leavesMarks (r.first + r.shift).toNat else 128 ≤ r.first + r.shift

/-- A code point among letters is not a mark. -/
theorem ofNat_ne_of_leavesMarks {x : Char} (hx : IsMark x) {n : Nat} (h : leavesMarks n = true) :
    Char.ofNat n ≠ x := by
  rintro rfl
  obtain ⟨hpos, hascii, hletter⟩ := hx
  rw [leavesMarks, hletter, Bool.false_or, decide_eq_true_eq] at h
  -- beyond ASCII a number is that of its character, unless there is no such character
  by_cases hvalid : n.isValidChar
  · have hsame : (Char.ofNat n).toNat = n := by
      rw [Char.ofNat, dif_pos hvalid]
      rfl
    omega
  · rw [Char.ofNat, dif_neg hvalid] at hpos
    exact absurd hpos (by decide)

/-- No range of letters is mapped to a mark. -/
theorem leavesMarks_mapByRanges {ranges : List CaseRange} (h : ∀ r ∈ ranges, r.leavesMarks = true)
    {n : Nat} (hn : 128 ≤ n) : leavesMarks (mapByRanges ranges n) = true := by
  unfold mapByRanges
  split
  next r hfound =>
    have hrange := h r (List.mem_of_find?_eq_some hfound)
    have hin := List.find?_some hfound
    simp only [Bool.and_eq_true, decide_eq_true_eq] at hin
    rw [CaseRange.leavesMarks] at hrange
    split at hrange
    next hsingle =>
      obtain rfl : n = r.first := by omega
      exact hrange
    next =>
      rw [decide_eq_true_eq] at hrange
      rw [leavesMarks, Bool.or_eq_true, decide_eq_true_eq]
      exact .inr (by omega)
  next => simp [leavesMarks, hn]

/-! ## Characters -/

/-- Only the mark itself is a mark in lower case. -/
theorem eq_of_mem_lowerChar {x c : Char} (hx : IsMark x) (h : x ∈ lowerChar c) : x = c := by
  unfold lowerChar at h
  split at h
  next hc =>
    rw [List.mem_singleton] at h
    unfold lowerAscii at h
    split at h
    next hupper =>
      have hletter : ∀ n < 26, (Char.ofNat (65 + n + 32)).isAlpha = true := by decide
      have := hletter (c.toNat - 65) (by omega)
      rw [Nat.add_sub_cancel' hupper.1, ← h] at this
      rw [hx.2.2] at this
      cases this
    next => exact h
  next hc =>
    split at h
    next =>
      obtain ⟨hpos, hascii, hletter⟩ := hx
      rcases List.mem_cons.mp h with rfl | h
      · exact absurd hletter (by decide)
      · rw [List.mem_singleton] at h
        subst h
        exact absurd hascii (by decide)
    next =>
      rw [List.mem_singleton] at h
      have hranges : ∀ r ∈ lowerRanges, r.leavesMarks = true := by decide +kernel
      have hmapped := leavesMarks_mapByRanges hranges (Nat.le_of_not_lt hc)
      exact absurd h.symm (ofNat_ne_of_leavesMarks hx hmapped)

/-- Only the mark itself is a mark in upper case. -/
theorem eq_of_mem_upperChar {x c : Char} (hx : IsMark x) (h : x ∈ upperChar c) : x = c := by
  unfold upperChar at h
  split at h
  next hc =>
    rw [List.mem_singleton] at h
    unfold upperAscii at h
    split at h
    next hlower =>
      have hletter : ∀ n < 26, (Char.ofNat (97 + n - 32)).isAlpha = true := by decide
      have := hletter (c.toNat - 97) (by omega)
      rw [Nat.add_sub_cancel' hlower.1, ← h, hx.2.2] at this
      cases this
    next => exact h
  next hc =>
    split at h
    -- no expansion holds a mark
    next several hseveral =>
      obtain ⟨n, hn, rfl⟩ := List.mem_map.mp h
      have hall : ∀ e ∈ upperExpansions, ∀ n ∈ e.2, leavesMarks n = true := by decide +kernel
      obtain ⟨before, after, hsplit, -⟩ := List.lookup_eq_some_iff.mp hseveral
      have hmem : (c.toNat, several) ∈ upperExpansions := by simp [hsplit]
      exact absurd rfl (ofNat_ne_of_leavesMarks hx (hall _ hmem n hn))
    next =>
      rw [List.mem_singleton] at h
      have hranges : ∀ r ∈ upperRanges, r.leavesMarks = true := by decide +kernel
      have hmapped := leavesMarks_mapByRanges hranges (Nat.le_of_not_lt hc)
      exact absurd h.symm (ofNat_ne_of_leavesMarks hx hmapped)

/-! ## Texts -/

/-- The sigma is no mark in either of its forms. -/
theorem eq_of_mem_lowerFirst {x c : Char} (hx : IsMark x) {before rest : List Char}
    (h : x ∈ if c = 'Σ' then [if casedNext before && !casedNext rest then 'ς' else 'σ']
      else lowerChar c) : x = c := by
  split at h
  next hsigma =>
    -- neither form of the small sigma is an ASCII character
    rw [List.mem_singleton] at h
    have hascii := hx.2.1
    rw [h] at hascii
    split at hascii <;> exact absurd hascii (by decide)
  next => exact eq_of_mem_lowerChar hx h

theorem mem_of_mem_lowerFrom {x : Char} (hx : IsMark x) {before cs : List Char}
    (h : x ∈ lowerFrom before cs) : x ∈ cs := by
  induction cs generalizing before with
  | nil => exact absurd h (by simp [lowerFrom])
  | cons c rest ih =>
    rw [lowerFrom, List.mem_append] at h
    rcases h with h | h
    · exact List.mem_cons.mpr (.inl (eq_of_mem_lowerFirst hx h))
    · exact List.mem_cons_of_mem c (ih h)

/-- Lower case makes no new marks. -/
theorem mem_of_mem_toLower {x : Char} (hx : IsMark x) {s : String}
    (h : x ∈ (toLower s).toList) : x ∈ s.toList := by
  rw [toLower, String.toList_ofList] at h
  exact mem_of_mem_lowerFrom hx h

/-- Upper case makes no new marks. -/
theorem mem_of_mem_toUpper {x : Char} (hx : IsMark x) {s : String}
    (h : x ∈ (toUpper s).toList) : x ∈ s.toList := by
  rw [toUpper, String.toList_ofList, List.mem_flatMap] at h
  obtain ⟨c, hc, hmem⟩ := h
  rwa [eq_of_mem_upperChar hx hmem]

/-! ### How often a mark stands in a text -/

/-- A mark is kept in lower case. -/
theorem lowerChar_of_isMark {x : Char} (hx : IsMark x) : lowerChar x = [x] := by
  obtain ⟨-, hascii, hletter⟩ := hx
  have hall : ∀ n < 128, (Char.ofNat n).isAlpha = false →
      lowerAscii (Char.ofNat n) = Char.ofNat n := by decide
  have hsame : lowerAscii x = x := by simpa using hall x.toNat hascii (by simpa using hletter)
  rw [lowerChar, if_pos hascii, hsame]

theorem upperChar_of_isMark {x : Char} (hx : IsMark x) : upperChar x = [x] := by
  obtain ⟨-, hascii, hletter⟩ := hx
  have hall : ∀ n < 128, (Char.ofNat n).isAlpha = false →
      upperAscii (Char.ofNat n) = Char.ofNat n := by decide
  have hsame : upperAscii x = x := by simpa using hall x.toNat hascii (by simpa using hletter)
  rw [upperChar, if_pos hascii, hsame]

/-- What a character is mapped to holds a mark as often as the character, if marks stay as they are
and none is brought in. -/
theorem count_mapped {x c : Char} {mapped : List Char} (hself : c = x → mapped = [x])
    (hmem : x ∈ mapped → x = c) : mapped.count x = [c].count x := by
  by_cases hcx : c = x
  · rw [hself hcx, hcx]
  · rw [List.count_eq_zero.mpr fun h => hcx (hmem h).symm,
      List.count_eq_zero.mpr (by simpa using Ne.symm hcx)]

/-- A text has as many marks in lower case. -/
theorem count_lowerFrom {x : Char} (hx : IsMark x) (before cs : List Char) :
    (lowerFrom before cs).count x = cs.count x := by
  induction cs generalizing before with
  | nil => rfl
  | cons c rest ih =>
    have hsigma : x ≠ 'Σ' := by
      rintro rfl
      exact absurd hx.2.1 (by decide)
    rw [lowerFrom, List.count_append, ih, ← List.singleton_append (l := rest), List.count_append]
    congr 1
    refine count_mapped (fun hc => ?_) (eq_of_mem_lowerFirst hx)
    rw [if_neg (hc ▸ hsigma), hc, lowerChar_of_isMark hx]

/-- A mark stands in the lower case of a text as often as in the text. -/
theorem count_toLower {x : Char} (hx : IsMark x) (s : String) :
    (toLower s).toList.count x = s.toList.count x := by
  rw [toLower, String.toList_ofList, count_lowerFrom hx]

/-- A mark stands in the upper case of a text as often as in the text. -/
theorem count_toUpper {x : Char} (hx : IsMark x) (s : String) :
    (toUpper s).toList.count x = s.toList.count x := by
  rw [toUpper, String.toList_ofList]
  induction s.toList with
  | nil => rfl
  | cons c rest ih =>
    rw [List.flatMap_cons, List.count_append, ih, ← List.singleton_append (l := rest),
      List.count_append]
    congr 1
    exact count_mapped (fun hc => by rw [hc, upperChar_of_isMark hx]) (eq_of_mem_upperChar hx)

/-! ## ASCII texts -/

/-- Whether a text holds only ASCII characters. -/
def IsAscii (s : String) : Prop := ∀ c ∈ s.toList, c.toNat < 128

instance (s : String) : Decidable (IsAscii s) :=
  List.decidableBAll (fun c : Char => c.toNat < 128) s.toList

/-- In ASCII upper case does not see lower case. -/
theorem upperAscii_lowerAscii {c : Char} (h : c.toNat < 128) :
    upperAscii (lowerAscii c) = upperAscii c := by
  have hall : ∀ n < 128, upperAscii (lowerAscii (Char.ofNat n)) = upperAscii (Char.ofNat n) := by
    decide
  simpa using hall c.toNat h

theorem lowerAscii_upperAscii {c : Char} (h : c.toNat < 128) :
    lowerAscii (upperAscii c) = lowerAscii c := by
  have hall : ∀ n < 128, lowerAscii (upperAscii (Char.ofNat n)) = lowerAscii (Char.ofNat n) := by
    decide
  simpa using hall c.toNat h

/-- In ASCII each character is put in lower case by itself. -/
theorem lowerFrom_of_ascii {before cs : List Char} (h : ∀ c ∈ cs, c.toNat < 128) :
    lowerFrom before cs = cs.map lowerAscii := by
  induction cs generalizing before with
  | nil => rfl
  | cons c rest ih =>
    obtain ⟨hc, hrest⟩ := List.forall_mem_cons.mp h
    have hsigma : c ≠ 'Σ' := by
      rintro rfl
      exact absurd hc (by decide)
    rw [lowerFrom, if_neg hsigma, lowerChar, if_pos hc, ih hrest]
    rfl

/-- The characters of an ASCII text in lower case. -/
theorem toList_toLower {s : String} (h : IsAscii s) :
    (toLower s).toList = s.toList.map lowerAscii := by
  rw [toLower, String.toList_ofList, lowerFrom_of_ascii h]

theorem flatMap_upperChar_of_ascii {cs : List Char} (h : ∀ c ∈ cs, c.toNat < 128) :
    cs.flatMap upperChar = cs.map upperAscii := by
  induction cs with
  | nil => rfl
  | cons c rest ih =>
    obtain ⟨hc, hrest⟩ := List.forall_mem_cons.mp h
    rw [List.flatMap_cons, upperChar, if_pos hc, ih hrest]
    rfl

/-- The characters of an ASCII text in upper case. -/
theorem toList_toUpper {s : String} (h : IsAscii s) :
    (toUpper s).toList = s.toList.map upperAscii := by
  rw [toUpper, String.toList_ofList, flatMap_upperChar_of_ascii h]

/-- ASCII texts agree in upper case iff they do in lower case. -/
theorem toUpper_eq_iff {s t : String} (hs : IsAscii s) (ht : IsAscii t) :
    toUpper s = toUpper t ↔ toLower s = toLower t := by
  have hlower : ∀ {r : String}, IsAscii r → (r.toList.map upperAscii).map lowerAscii =
      r.toList.map lowerAscii := fun hr => by
    rw [List.map_map]
    exact List.map_congr_left fun c hc => lowerAscii_upperAscii (hr c hc)
  have hupper : ∀ {r : String}, IsAscii r → (r.toList.map lowerAscii).map upperAscii =
      r.toList.map upperAscii := fun hr => by
    rw [List.map_map]
    exact List.map_congr_left fun c hc => upperAscii_lowerAscii (hr c hc)
  rw [← String.toList_inj, ← String.toList_inj, toList_toUpper hs, toList_toUpper ht,
    toList_toLower hs, toList_toLower ht]
  constructor
  · intro h
    rw [← hlower hs, h, hlower ht]
  · intro h
    rw [← hupper hs, h, hupper ht]

end Text

end AbapLowering
