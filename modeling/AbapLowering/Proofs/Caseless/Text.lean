import AbapLowering.Code.Identifier

/-!
# Texts without the case of their letters

`Text.caseless` writes the letters A to Z in lower case. Lower case, upper case and the comparison
that ignores case do not see whether this was done before, and neither do the spellings that names
get in emitted code.
-/

namespace AbapLowering

namespace Text

/-- A text with the letters A to Z in lower case. -/
def caseless (s : String) : String := String.ofList (s.toList.map lowerAscii)

/-- Each letter of ASCII is put in lower case by itself. -/
theorem toList_caseless (s : String) : (caseless s).toList = s.toList.map lowerAscii := by
  rw [caseless, String.toList_ofList]

/-! ## Characters -/

/-- A character is kept or is one of the 26 upper case letters of ASCII. -/
theorem lowerAscii_eq_or (c : Char) :
    lowerAscii c = c ∨ ∃ n < 26, c = Char.ofNat (65 + n) ∧ lowerAscii c = Char.ofNat (97 + n) := by
  by_cases h : 65 ≤ c.toNat ∧ c.toNat ≤ 90
  · refine .inr ⟨c.toNat - 65, by omega, ?_, ?_⟩
    · rw [Nat.add_sub_cancel' h.1, Char.ofNat_toNat]
    · rw [lowerAscii, if_pos h]
      congr 1
      omega
  · exact .inl (if_neg h)

/-- What tells no letter A to Z from its lower case form does not see whether they are folded. -/
theorem apply_lowerAscii {β : Type} {f : Char → β}
    (h : ∀ n < 26, f (Char.ofNat (97 + n)) = f (Char.ofNat (65 + n))) (c : Char) :
    f (lowerAscii c) = f c := by
  rcases lowerAscii_eq_or c with hc | ⟨n, hn, hc, hlower⟩
  · rw [hc]
  · rw [hlower, hc]
    exact h n hn

/-- Twice is as once. -/
theorem lowerAscii_lowerAscii (c : Char) : lowerAscii (lowerAscii c) = lowerAscii c :=
  apply_lowerAscii (by decide) c

/-- Lower case of all of Unicode does not see what was done in ASCII. -/
theorem lowerChar_lowerAscii (c : Char) : lowerChar (lowerAscii c) = lowerChar c :=
  apply_lowerAscii (by decide) c

/-- Upper case of all of Unicode does not see what was done in ASCII. -/
theorem upperChar_lowerAscii (c : Char) : upperChar (lowerAscii c) = upperChar c :=
  apply_lowerAscii (by decide) c

/-- Folding makes no other character of a letter, nor of another character a letter. -/
theorem lowerAscii_eq_iff {x : Char} (hx : x.isAlpha = false) (c : Char) :
    lowerAscii c = x ↔ c = x := by
  have hupper : ∀ n < 26, (Char.ofNat (65 + n)).isAlpha = true := by decide
  have hlower : ∀ n < 26, (Char.ofNat (97 + n)).isAlpha = true := by decide
  rcases lowerAscii_eq_or c with hc | ⟨n, hn, hc, hfold⟩
  · rw [hc]
  · constructor
    · intro h
      rw [← h, hfold, hlower n hn] at hx
      cases hx
    · intro h
      rw [← h, hc, hupper n hn] at hx
      cases hx

/-- A character that is no letter is told from others without case. -/
theorem lowerAscii_beq {x : Char} (hx : x.isAlpha = false) (c : Char) :
    (lowerAscii c == x) = (c == x) := by
  rw [Bool.eq_iff_iff, beq_iff_eq, beq_iff_eq]
  exact lowerAscii_eq_iff hx c

/-! ## Case -/

/-- An ASCII character lies in no runs but those that start in ASCII. -/
theorem inRuns_filter_ascii {n : Nat} (h : n < 128) (runs : List (Nat × Nat)) :
    inRuns (runs.filter (·.1 < 128)) n = inRuns runs n := by
  rw [inRuns, inRuns, List.any_filter]
  congr 1
  funext run
  by_cases hstart : run.1 ≤ n
  · have hascii : run.1 < 128 := by omega
    simp [hascii]
  · simp [hstart]

/-- A letter lies in the same runs as its lower case form, if it does so in those that start in
ASCII. -/
theorem inRuns_lowerAscii {runs : List (Nat × Nat)}
    (h : ∀ n < 26, inRuns (runs.filter (·.1 < 128)) (97 + n) =
      inRuns (runs.filter (·.1 < 128)) (65 + n)) (c : Char) :
    inRuns runs (lowerAscii c).toNat = inRuns runs c.toNat := by
  have hlower : ∀ n < 26, (Char.ofNat (97 + n)).toNat = 97 + n := by decide
  have hupper : ∀ n < 26, (Char.ofNat (65 + n)).toNat = 65 + n := by decide
  refine apply_lowerAscii (f := fun c => inRuns runs c.toNat) (fun n hn => ?_) c
  have hfold := h n hn
  rw [inRuns_filter_ascii (by omega), inRuns_filter_ascii (by omega)] at hfold
  rw [hlower n hn, hupper n hn, hfold]

/-- Whether a cased letter follows does not depend on case; this decides on the final sigma. -/
theorem casedNext_map (cs : List Char) : casedNext (cs.map lowerAscii) = casedNext cs := by
  have hignored : ∀ c, inRuns caseIgnorableRuns (lowerAscii c).toNat =
      inRuns caseIgnorableRuns c.toNat := inRuns_lowerAscii (by decide +kernel)
  have hcased : ∀ c, inRuns casedRuns (lowerAscii c).toNat = inRuns casedRuns c.toNat :=
    inRuns_lowerAscii (by decide +kernel)
  induction cs with
  | nil => rfl
  | cons c rest ih =>
    unfold casedNext at ih ⊢
    by_cases hc : inRuns caseIgnorableRuns c.toNat = true
    · simpa [hignored, hc] using ih
    · simp [hignored, hc, hcased]

/-- Letters are put in lower case alike, with what stands before them also without case. -/
theorem lowerFrom_map (before cs : List Char) :
    lowerFrom (before.map lowerAscii) (cs.map lowerAscii) = lowerFrom before cs := by
  induction cs generalizing before with
  | nil => rfl
  | cons c rest ih =>
    have hsigma : lowerAscii c = 'Σ' ↔ c = 'Σ' := lowerAscii_eq_iff (by decide) c
    have hrest := ih (c :: before)
    rw [List.map_cons] at hrest
    rw [List.map_cons, lowerFrom, lowerFrom, hrest]
    simp only [hsigma, casedNext_map, lowerChar_lowerAscii]

/-- Lower case can be taken after the case of ASCII was dropped. -/
@[simp] theorem toLower_caseless (s : String) : toLower (caseless s) = toLower s := by
  rw [toLower, toList_caseless]
  exact congrArg String.ofList (lowerFrom_map [] s.toList)

/-- Upper case can be taken after the case of ASCII was dropped. -/
@[simp] theorem toUpper_caseless (s : String) : toUpper (caseless s) = toUpper s := by
  rw [toUpper, toList_caseless, List.flatMap_map]
  simp only [upperChar_lowerAscii, toUpper]

@[simp] theorem caseless_caseless (s : String) : caseless (caseless s) = caseless s := by
  have hfold : lowerAscii ∘ lowerAscii = lowerAscii := funext lowerAscii_lowerAscii
  rw [caseless, toList_caseless, List.map_map, hfold, caseless]

/-- Texts are the same without case just if they are compared as the same. -/
theorem sameIgnoringCase_iff (s t : String) : sameIgnoringCase s t ↔ caseless s = caseless t := by
  rw [sameIgnoringCase, beq_iff_eq, caseless, caseless, String.ofList_inj]

/-- Two names are the same without case if one of them has lost its case before. -/
@[simp] theorem sameIgnoringCase_caseless (s t : String) :
    sameIgnoringCase (caseless s) t = sameIgnoringCase s t := by
  rw [Bool.eq_iff_iff, sameIgnoringCase_iff, sameIgnoringCase_iff, caseless_caseless]

/-- A qualified name is qualified without case. -/
@[simp] theorem tilde_mem_caseless (s : String) : '~' ∈ (caseless s).toList ↔ '~' ∈ s.toList := by
  have htilde : ∀ c, lowerAscii c = '~' ↔ c = '~' := lowerAscii_eq_iff (by decide)
  simp [toList_caseless, htilde]

/-- What is dropped from the start of a name is no letter. -/
theorem dropLeading_caseless {x : Char} (hx : x.isAlpha = false) (s : String) :
    dropLeading x (caseless s) = caseless (dropLeading x s) := by
  simp [dropLeading, caseless, List.dropWhile_map, Function.comp_def, lowerAscii_beq hx]

theorem dropTrailing_caseless {x : Char} (hx : x.isAlpha = false) (s : String) :
    dropTrailing x (caseless s) = caseless (dropTrailing x s) := by
  simp [dropTrailing, dropEnd, caseless, ← List.map_reverse, List.dropWhile_map, Function.comp_def,
    lowerAscii_beq hx]

end Text

/-! ## Spellings -/

namespace Identifier

open Text (caseless)

/-- A plain name is spelled in lower case anyway. -/
@[simp] theorem plain_caseless (name : String) : plain (caseless name) = plain name := by
  rw [plain, Text.toLower_caseless, plain]

@[simp] theorem fieldSymbol_caseless (name : String) :
    fieldSymbol (caseless name) = fieldSymbol name := by
  rw [fieldSymbol, Text.dropLeading_caseless (by decide), Text.dropTrailing_caseless (by decide),
    plain_caseless, fieldSymbol]

/-- So is the name of a member of an interface. -/
@[simp] theorem interfaceMember_caseless (interfaceName member : String) :
    interfaceMember interfaceName (caseless member) = interfaceMember interfaceName member := by
  rw [interfaceMember, plain_caseless, interfaceMember]

/-- Also the name of a constructor is known without case. -/
@[simp] theorem method_caseless (name : String) : method (caseless name) = method name := by
  rw [method, plain_caseless, method]

end Identifier

namespace ClassKey

@[simp] theorem global_caseless (name : String) : global (Text.caseless name) = global name :=
  Text.toUpper_caseless name

/-- Keys are registered under names in lower case. -/
@[simp] theorem registration_caseless (key name : String) :
    registration key (Text.caseless name) = registration key name := by
  rw [registration, Text.toLower_caseless, registration]

end ClassKey

end AbapLowering
