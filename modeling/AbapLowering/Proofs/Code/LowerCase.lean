import AbapLowering.Proofs.Code.CaseMapping
import AbapLowering.Proofs.Code.Spelling
import AbapLowering.Proofs.Caseless.Text

/-!
# Lower case of names with parts

Lower case is final: a text in lower case stays as it is (`Text.toLower_toLower`). And it is made
part by part: what stands on one side of a tilde does not see what stands on the other side, although
a capital sigma looks at the letters around it (`Text.toLower_append_tilde`). So a member that is
written with its interface is spelled like the member of the interface
(`Identifier.plain_append_tilde`). Almost all ASCII characters are the lower case of ASCII characters
only, so most words are spelled by names that differ from them in the case of letters A to Z
(`Identifier.plain_eq_iff`).
-/

namespace AbapLowering

namespace Text

/-! ## What the tables lead to -/

/-- Whether a range holds a number. -/
def CaseRange.holds (r : CaseRange) (n : Nat) : Bool :=
  r.first ≤ n && n ≤ r.last && (n - r.first) % r.step == 0

/-- The number that the first number of a range is mapped to. -/
def CaseRange.target (r : CaseRange) : Nat := (r.first + r.shift).toNat

/-- What is reached from `first` in `count` steps at most, as the bits of a number. -/
def stepBits (first step : Nat) : Nat → Nat
  | 0 => 1 <<< first
  | count + 1 => 1 <<< (first + step * (count + 1)) ||| stepBits first step count

/-- The numbers of some ranges as the bits of a number, each range moved to `start`. -/
def bitsOf (start : CaseRange → Nat) (ranges : List CaseRange) : Nat :=
  ranges.foldr (fun r bits => stepBits (start r) r.step ((r.last - r.first) / r.step) ||| bits) 0

/-- Whether a number is that of an ASCII character that is its own lower case form. -/
def isLowerAscii (n : Nat) : Bool := n < 128 && lowerAscii (Char.ofNat n) == Char.ofNat n

/-- Whether a range leads beyond ASCII, or holds one character and leads to one in lower case. -/
def CaseRange.lowers (r : CaseRange) : Bool :=
  128 ≤ r.first + r.shift || r.first == r.last && isLowerAscii r.target

/-- Whether a range leads beyond ASCII, or holds one character and leads to `k`. -/
def CaseRange.leadsBeyond (r : CaseRange) : Bool :=
  128 ≤ r.first + r.shift || r.first == r.last && r.target == 'k'.toNat

/-- The ranges of all characters beyond ASCII that have a lower case form. -/
def loweredRanges : List CaseRange := ⟨0x130, 0x130, 1, 0⟩ :: lowerRanges

/-- All ranges of letters with lower case lead out of letters with lower case. -/
theorem lowers_lowerRanges : ∀ r ∈ lowerRanges, r.lowers = true ∧ r.leadsBeyond = true := by
  decide +kernel

theorem holds_sigma : lowerRanges.any (·.holds 'Σ'.toNat) = true := by decide

/-- A tilde is not ignored for case, and has none. -/
theorem inRuns_tilde :
    inRuns caseIgnorableRuns '~'.toNat = false ∧ inRuns casedRuns '~'.toNat = false := by
  decide +kernel

/-- No range leads to a number that has a lower case form. -/
theorem disjoint_lowerRanges :
    bitsOf CaseRange.target lowerRanges &&& bitsOf CaseRange.first loweredRanges = 0 := by
  decide +kernel

theorem CaseRange.le_of_holds {r : CaseRange} {n : Nat} (h : r.holds n = true) :
    r.first ≤ n ∧ n ≤ r.last := by
  simp only [holds, Bool.and_eq_true, decide_eq_true_eq] at h
  exact h.1

theorem testBit_stepBits {first step count k : Nat} (h : k ≤ count) :
    (stepBits first step count).testBit (first + step * k) = true := by
  induction count with
  | zero =>
    obtain rfl := Nat.le_zero.mp h
    simp [stepBits]
  | succ count ih =>
    rw [stepBits, Nat.testBit_or, Bool.or_eq_true]
    rcases Nat.le_succ_iff.mp h with h | rfl
    · exact .inr (ih h)
    · exact .inl (by simp)

/-- What a range holds is marked in a bit set. -/
theorem testBit_bitsOf (start : CaseRange → Nat) {ranges : List CaseRange} {r : CaseRange}
    (hr : r ∈ ranges) {n : Nat} (h : r.holds n = true) :
    (bitsOf start ranges).testBit (start r + (n - r.first)) = true := by
  induction ranges with
  | nil => cases hr
  | cons q rest ih =>
    rw [bitsOf, List.foldr_cons, Nat.testBit_or, Bool.or_eq_true]
    rcases List.mem_cons.mp hr with rfl | hr
    · simp only [CaseRange.holds, Bool.and_eq_true, decide_eq_true_eq, beq_iff_eq] at h
      obtain ⟨⟨-, hlast⟩, hstep⟩ := h
      rw [← Nat.mul_div_cancel' (Nat.dvd_of_mod_eq_zero hstep)]
      exact .inl (testBit_stepBits (Nat.div_le_div_right (Nat.sub_le_sub_right hlast _)))
    · exact .inr (ih hr)

/-- What a range leads to is in no range. -/
theorem not_holds_of_holds {r q : CaseRange} (hr : r ∈ lowerRanges) (hq : q ∈ loweredRanges)
    (hpos : 0 ≤ r.first + r.shift) {n : Nat} (hn : r.holds n = true) :
    q.holds (n + r.shift).toNat = false := by
  by_contra hholds
  replace hholds := Bool.not_eq_false _ ▸ hholds
  have hto := testBit_bitsOf CaseRange.target hr hn
  have hfrom := testBit_bitsOf CaseRange.first hq hholds
  have hn := CaseRange.le_of_holds hn
  have htarget : r.target + (n - r.first) = (n + r.shift).toNat := by
    rw [CaseRange.target]
    omega
  rw [htarget] at hto
  rw [Nat.add_sub_cancel' (CaseRange.le_of_holds hholds).1] at hfrom
  have hboth := congrArg (Nat.testBit · (n + r.shift).toNat) disjoint_lowerRanges
  simp only [Nat.testBit_and, hto, hfrom, Nat.zero_testBit] at hboth
  cases hboth

/-- Whether a character is its own lower case form. -/
def IsLowered (c : Char) : Prop := c ≠ 'Σ' ∧ lowerChar c = [c]

theorem isLowered_of_mem_special {c : Char} (h : c ∈ ['i', '\u0307', 'σ', 'ς']) :
    IsLowered c := by
  have hall : (['i', '\u0307', 'σ', 'ς'].all fun x => x != 'Σ' && lowerChar x == [x]) = true := by
    decide
  have hone := List.all_eq_true.mp hall c h
  rwa [Bool.and_eq_true, bne_iff_ne, beq_iff_eq] at hone

theorem isLowered_lowerAscii {c : Char} (h : c.toNat < 128) : IsLowered (lowerAscii c) := by
  have hlower : lowerChar (lowerAscii c) = [lowerAscii c] := by
    rw [lowerChar_lowerAscii, lowerChar, if_pos h]
  refine ⟨?_, hlower⟩
  rw [Ne, lowerAscii_eq_iff (by decide)]
  rintro rfl
  exact absurd h (by decide)

/-- A number is mapped by the first range that holds it. -/
theorem mapByRanges_cases (ranges : List CaseRange) (n : Nat) :
    (∃ r ∈ ranges, r.holds n = true ∧ mapByRanges ranges n = (n + r.shift).toNat) ∨
      (∀ r ∈ ranges, r.holds n = false) ∧ mapByRanges ranges n = n := by
  unfold mapByRanges
  split
  next r hfound =>
    exact .inl ⟨r, List.mem_of_find?_eq_some hfound,
      List.find?_some (p := fun r : CaseRange => r.holds n) hfound, rfl⟩
  next hnone =>
    exact .inr ⟨fun r hr => Bool.not_eq_true _ ▸ List.find?_eq_none.mp hnone r hr, rfl⟩

/-- Beyond ASCII, what no range holds is in lower case. -/
theorem isLowered_of_not_holds {c : Char} (hascii : 128 ≤ c.toNat)
    (h : ∀ q ∈ loweredRanges, q.holds c.toNat = false) : IsLowered c := by
  obtain ⟨hdotted, hranges⟩ := List.forall_mem_cons.mp h
  have hne : c.toNat ≠ 0x130 := by
    intro heq
    rw [heq] at hdotted
    exact absurd hdotted (by decide)
  refine ⟨?_, ?_⟩
  · rintro rfl
    obtain ⟨q, hq, hholds⟩ := List.any_eq_true.mp holds_sigma
    rw [hranges q hq] at hholds
    cases hholds
  · rw [lowerChar, if_neg (by omega), if_neg hne]
    rcases mapByRanges_cases lowerRanges c.toNat with ⟨q, hq, hholds, -⟩ | ⟨-, hmap⟩
    · rw [hranges q hq] at hholds
      cases hholds
    · rw [hmap, Char.ofNat_toNat]

/-- What a range leads to is in lower case. -/
theorem isLowered_of_holds {r : CaseRange} (hr : r ∈ lowerRanges) {n : Nat}
    (hn : r.holds n = true) : IsLowered (Char.ofNat (n + r.shift).toNat) := by
  obtain ⟨hfirst, hlast⟩ := CaseRange.le_of_holds hn
  by_cases hvalid : (n + r.shift).toNat.isValidChar
  · have hnumber : (Char.ofNat (n + r.shift).toNat).toNat = (n + r.shift).toNat := by
      rw [Char.ofNat, dif_pos hvalid]
      rfl
    have hlowers := (lowers_lowerRanges r hr).1
    simp only [CaseRange.lowers, isLowerAscii, Bool.or_eq_true, Bool.and_eq_true,
      decide_eq_true_eq, beq_iff_eq] at hlowers
    rcases hlowers with hbeyond | ⟨hsingle, hascii, hlower⟩
    · refine isLowered_of_not_holds (by omega) fun q hq => ?_
      rw [hnumber]
      exact not_holds_of_holds hr hq (by omega) hn
    · obtain rfl : n = r.first := by omega
      rw [CaseRange.target] at hascii hlower
      rw [← hlower]
      exact isLowered_lowerAscii (by omega)
  · rw [Char.ofNat, dif_neg hvalid]
    exact ⟨by decide, by decide⟩

/-- A letter in lower case has no lower case of its own. -/
theorem isLowered_of_mem_lowerChar {x c : Char} (h : x ∈ lowerChar c) : IsLowered x := by
  unfold lowerChar at h
  split at h
  next hascii =>
    cases List.mem_singleton.mp h
    exact isLowered_lowerAscii hascii
  next hascii =>
    split at h
    next =>
      exact isLowered_of_mem_special (List.mem_of_mem_take (i := 2) h)
    next hdotted =>
      cases List.mem_singleton.mp h
      rcases mapByRanges_cases lowerRanges c.toNat with ⟨r, hr, hholds, hmap⟩ | ⟨hnone, hmap⟩
      · rw [hmap]
        exact isLowered_of_holds hr hholds
      · rw [hmap, Char.ofNat_toNat]
        refine isLowered_of_not_holds (by omega) (List.forall_mem_cons.mpr ⟨?_, hnone⟩)
        by_contra hholds
        obtain ⟨hfirst, hlast⟩ := CaseRange.le_of_holds (Bool.not_eq_false _ ▸ hholds)
        exact hdotted (Nat.le_antisymm hlast hfirst)

/-! ## Lower case is final -/

/-- Nor has any character of a text in lower case. -/
theorem isLowered_of_mem_lowerFrom {x : Char} {before cs : List Char}
    (h : x ∈ lowerFrom before cs) : IsLowered x := by
  induction cs generalizing before with
  | nil => cases h
  | cons c rest ih =>
    rw [lowerFrom, List.mem_append] at h
    rcases h with h | h
    · split at h
      · refine isLowered_of_mem_special ?_
        split at h <;> simp [List.mem_singleton.mp h]
      · exact isLowered_of_mem_lowerChar h
    · exact ih h

/-- So a text in lower case is kept. -/
theorem lowerFrom_of_isLowered {before cs : List Char} (h : ∀ c ∈ cs, IsLowered c) :
    lowerFrom before cs = cs := by
  induction cs generalizing before with
  | nil => rfl
  | cons c rest ih =>
    obtain ⟨⟨hsigma, hlower⟩, hrest⟩ := List.forall_mem_cons.mp h
    rw [lowerFrom, if_neg hsigma, hlower, ih hrest, List.singleton_append]

/-- A text in lower case stays as it is. -/
@[simp] theorem toLower_toLower (s : String) : toLower (toLower s) = toLower s := by
  have hlowered : ∀ c ∈ (toLower s).toList, IsLowered c := fun c hc => by
    rw [toLower, String.toList_ofList] at hc
    exact isLowered_of_mem_lowerFrom hc
  rw [toLower, lowerFrom_of_isLowered hlowered, String.ofList_toList]

/-- A mark stands in the lower case of a text iff it stands in the text. -/
theorem mem_toLower_iff {x : Char} (hx : IsMark x) {s : String} :
    x ∈ (toLower s).toList ↔ x ∈ s.toList := by
  rw [← List.count_pos_iff, count_toLower hx, List.count_pos_iff]

/-! ## Lower case goes part by part -/

theorem casedNext_cons (c : Char) (rest : List Char) :
    casedNext (c :: rest) =
      if inRuns caseIgnorableRuns c.toNat then casedNext rest else inRuns casedRuns c.toNat := by
  unfold casedNext
  rw [List.dropWhile_cons]
  cases inRuns caseIgnorableRuns c.toNat <;> rfl

/-- What follows a tilde does not count for what comes before it. -/
theorem casedNext_append_tilde (cs ds : List Char) :
    casedNext (cs ++ '~' :: ds) = casedNext cs := by
  induction cs with
  | nil =>
    rw [List.nil_append, casedNext_cons, inRuns_tilde.1, inRuns_tilde.2]
    rfl
  | cons c rest ih => rw [List.cons_append, casedNext_cons, casedNext_cons, ih]

/-- A tilde is not cased and ends what a sigma looks back to. -/
theorem lowerFrom_after_tilde (before outer cs : List Char) :
    lowerFrom (before ++ '~' :: outer) cs = lowerFrom before cs := by
  induction cs generalizing before with
  | nil => rfl
  | cons c rest ih =>
    rw [lowerFrom, lowerFrom, casedNext_append_tilde]
    exact congrArg _ (ih (c :: before))

theorem lowerFrom_append_tilde (before cs ds : List Char) :
    lowerFrom before (cs ++ '~' :: ds) = lowerFrom before cs ++ '~' :: lowerFrom [] ds := by
  induction cs generalizing before with
  | nil =>
    have htilde : lowerChar '~' = ['~'] := by decide
    have hrest : lowerFrom ('~' :: before) ds = lowerFrom [] ds :=
      lowerFrom_after_tilde [] before ds
    show (if '~' = 'Σ' then _ else lowerChar '~') ++ lowerFrom ('~' :: before) ds = _
    rw [if_neg (by decide), htilde, hrest]
    rfl
  | cons c rest ih =>
    rw [List.cons_append, lowerFrom, lowerFrom, casedNext_append_tilde, ih, List.append_assoc]

/-- The two sides of a tilde are put in lower case one by one. -/
theorem toLower_append_tilde (s t : String) :
    toLower (s ++ "~" ++ t) = toLower s ++ "~" ++ toLower t := by
  refine String.toList_inj.mp ?_
  simp [toLower, lowerFrom_append_tilde]

/-! ## Characters that are the lower case of nothing beyond ASCII -/

/-- Whether a character is an ASCII character that comes into a text in lower case from ASCII only:
`k` is also the lower case of the Kelvin sign, and `i` comes from a capital I with a dot. -/
def isOwn (x : Char) : Bool := 0 < x.toNat && x.toNat < 128 && x != 'k' && x != 'i'

theorem lt_of_isOwn {c : Char} (h : (lowerChar c).all isOwn = true) : c.toNat < 128 := by
  by_contra hbeyond
  rw [lowerChar, if_neg hbeyond] at h
  split at h
  · exact absurd h (by decide)
  · simp only [List.all_cons, List.all_nil, Bool.and_true, isOwn, Bool.and_eq_true,
      decide_eq_true_eq, bne_iff_ne] at h
    obtain ⟨⟨⟨hpos, hascii⟩, hkelvin⟩, -⟩ := h
    -- a range leads beyond ASCII, or from the Kelvin sign to `k`, which is left out
    rcases mapByRanges_cases lowerRanges c.toNat with ⟨r, hr, hholds, hmap⟩ | ⟨-, hmap⟩
    · rw [hmap] at hpos hascii hkelvin
      obtain ⟨hfirst, hlast⟩ := CaseRange.le_of_holds hholds
      have hleads := (lowers_lowerRanges r hr).2
      simp only [CaseRange.leadsBeyond, CaseRange.target, Bool.or_eq_true, Bool.and_eq_true,
        decide_eq_true_eq, beq_iff_eq] at hleads
      by_cases hvalid : (c.toNat + r.shift).toNat.isValidChar
      · have hnumber : (Char.ofNat (c.toNat + r.shift).toNat).toNat = (c.toNat + r.shift).toNat := by
          rw [Char.ofNat, dif_pos hvalid]
          rfl
        rcases hleads with hleads | ⟨hsingle, hk⟩
        · omega
        · have hc : c.toNat = r.first := by omega
          rw [hc, hk, Char.ofNat_toNat] at hkelvin
          exact hkelvin rfl
      · rw [Char.ofNat, dif_neg hvalid] at hpos
        exact absurd hpos (by decide)
    · rw [hmap, Char.ofNat_toNat] at hascii
      exact hbeyond hascii

theorem lowerFrom_of_isOwn {before cs : List Char} (h : (lowerFrom before cs).all isOwn = true) :
    lowerFrom before cs = cs.map lowerAscii := by
  induction cs generalizing before with
  | nil => rfl
  | cons c rest ih =>
    rw [lowerFrom, List.all_append, Bool.and_eq_true] at h
    obtain ⟨hfirst, hrest⟩ := h
    rw [lowerFrom]
    have hsigma : c ≠ 'Σ' := by
      rintro rfl
      rw [if_pos rfl] at hfirst
      split at hfirst <;> exact absurd hfirst (by decide)
    rw [if_neg hsigma] at hfirst ⊢
    rw [ih hrest, lowerChar, if_pos (lt_of_isOwn hfirst), List.map_cons, List.singleton_append]

/-- A text whose lower case has no other characters is only folded. -/
theorem toLower_of_isOwn {s : String} (h : (toLower s).toList.all isOwn = true) :
    toLower s = caseless s := by
  rw [toLower, String.toList_ofList] at h
  rw [toLower, lowerFrom_of_isOwn h, caseless]

end Text

namespace Identifier

/-- A word without marks and special letters is the spelling of those names that agree with it but
for the case of letters A to Z. -/
theorem plain_eq_iff {word : String} (hown : word.toList.all Text.isOwn = true)
    (htilde : '~' ∉ word.toList) (hdollar : '$' ∉ word.toList) (hlower : Text.toLower word = word)
    (name : String) : plain name = word ↔ Text.sameIgnoringCase name word = true := by
  rw [plain_eq_dollared, dollared_eq_iff_eq htilde hdollar, Text.sameIgnoringCase_iff]
  constructor
  · intro h
    have hname : Text.toLower name = Text.caseless name := Text.toLower_of_isOwn (by rwa [h])
    have hword : Text.toLower word = Text.caseless word := Text.toLower_of_isOwn (by rwa [hlower])
    rw [← hname, ← hword, h, hlower]
  · intro h
    rw [← Text.toLower_caseless, h, Text.toLower_caseless, hlower]

/-- A name without tildes is spelled in lower case. -/
theorem plain_of_not_mem {name : String} (h : '~' ∉ name.toList) :
    plain name = Text.toLower name := by
  rw [plain_eq_dollared]
  exact dollared_of_not_mem fun hmem => h (Text.mem_of_mem_toLower (by decide) hmem)

/-- A tilde is written as a dollar. -/
theorem dollar_mem_plain {name : String} (h : '~' ∈ name.toList) :
    '$' ∈ (plain name).toList := by
  rw [plain_eq_dollared, dollared, String.toList_ofList]
  exact List.mem_map.mpr ⟨'~', (Text.mem_toLower_iff (by decide)).mpr h, rfl⟩

/-- The case of an interface does not matter for the spelling of its members. -/
@[simp] theorem interfaceMember_toLower (owner member : String) :
    interfaceMember (Text.toLower owner) member = interfaceMember owner member := by
  rw [interfaceMember, Text.toLower_toLower, interfaceMember]

/-- A member that is written with its interface is spelled like the member of the interface. -/
theorem plain_append_tilde {owner : String} (h : '~' ∉ owner.toList) (member : String) :
    plain (owner ++ "~" ++ member) = interfaceMember owner member := by
  rw [plain_eq_dollared, Text.toLower_append_tilde, dollared_append, dollared_append,
    ← plain_eq_dollared, ← plain_eq_dollared, plain_of_not_mem h, interfaceMember]
  rfl

end Identifier

end AbapLowering
