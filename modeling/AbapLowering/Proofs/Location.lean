import AbapLowering.Location

/-!
# The order of positions

Positions are in a linear order, so of two of them one is the earlier, and the span around two spans
covers both. Main facts: a span covers what is covered by a span it covers (`Span.Covers.trans`), and
the smallest span around two covers both (`Span.covers_merge_left`, `Span.covers_merge_right`).
-/

namespace AbapLowering

namespace Position

variable {p q r : Position}

/-- Positions are ordered by row and then by column. -/
theorem le_iff : p ≤ q ↔ p.row.toNat < q.row.toNat ∨
    (p.row.toNat = q.row.toNat ∧ p.col.toNat ≤ q.col.toNat) := by
  change p.row < q.row ∨ (p.row = q.row ∧ p.col ≤ q.col) ↔ _
  rw [UInt32.lt_iff_toNat_lt, UInt32.le_iff_toNat_le, UInt32.toNat_inj]

/-- The strict order goes by row and then by column, too. -/
theorem lt_iff : p < q ↔ p.row.toNat < q.row.toNat ∨
    (p.row.toNat = q.row.toNat ∧ p.col.toNat < q.col.toNat) := by
  change p.row < q.row ∨ (p.row = q.row ∧ p.col < q.col) ↔ _
  rw [UInt32.lt_iff_toNat_lt, UInt32.lt_iff_toNat_lt, UInt32.toNat_inj]

theorem le_refl (p : Position) : p ≤ p := le_iff.mpr (.inr ⟨rfl, Nat.le_refl _⟩)

/-- The order of positions is transitive. -/
theorem le_trans (hpq : p ≤ q) (hqr : q ≤ r) : p ≤ r := by
  rw [le_iff] at *
  omega

/-- Of two positions one is not after the other. -/
theorem le_of_not_le (h : ¬ p ≤ q) : q ≤ p := by
  rw [le_iff] at *
  omega

/-- A position before one that is before another. -/
theorem lt_of_le_of_lt (hpq : p ≤ q) (hqr : q < r) : p < r := by
  rw [le_iff] at hpq
  rw [lt_iff] at *
  omega

theorem not_le_of_lt (h : p < q) : ¬ q ≤ p := by
  rw [le_iff]
  rw [lt_iff] at h
  omega

/-- The smaller of two positions is before both. -/
theorem min_le_left (p q : Position) : min p q ≤ p := by
  change (if p ≤ q then p else q) ≤ p
  split
  · exact le_refl p
  · next h => exact le_of_not_le h

theorem min_le_right (p q : Position) : min p q ≤ q := by
  change (if p ≤ q then p else q) ≤ q
  split
  · next h => exact h
  · exact le_refl q

/-- The greater of two positions is after both. -/
theorem le_max_left (p q : Position) : p ≤ max p q := by
  change p ≤ if p ≤ q then q else p
  split
  · next h => exact h
  · exact le_refl p

theorem le_max_right (p q : Position) : q ≤ max p q := by
  change q ≤ if p ≤ q then q else p
  split
  · exact le_refl q
  · next h => exact le_of_not_le h

end Position

namespace Span

variable {s t u : Span} {p : Position}

/-- A span contains its ends and what lies between. -/
theorem contains_iff : s.contains p = true ↔ s.start ≤ p ∧ p ≤ s.stop := by
  simp only [contains, Position.isBetween, Bool.and_eq_true, decide_eq_true_eq]

/-- A span that starts no earlier and ends no later than another lies in it. -/
theorem contains_of_contains (hstart : s.start ≤ t.start) (hstop : t.stop ≤ s.stop)
    (h : t.contains p = true) : s.contains p = true := by
  rw [contains_iff] at h ⊢
  exact ⟨Position.le_trans hstart h.1, Position.le_trans h.2 hstop⟩

/-- One span starts no later and ends no earlier than another. -/
def Covers (s t : Span) : Prop := s.start ≤ t.start ∧ t.stop ≤ s.stop

/-- Both ends of a span, and with them all between, lie in another. -/
def Surrounds (s t : Span) : Prop := s.contains t.start = true ∧ s.contains t.stop = true

/-- Two spans have no position in common. -/
def Apart (s t : Span) : Prop := ∀ p, ¬ (s.contains p = true ∧ t.contains p = true)

theorem Covers.refl (s : Span) : s.Covers s := ⟨Position.le_refl _, Position.le_refl _⟩

/-- A span covers what is covered by a span that it covers. -/
theorem Covers.trans (hst : s.Covers t) (htu : t.Covers u) : s.Covers u :=
  ⟨Position.le_trans hst.1 htu.1, Position.le_trans htu.2 hst.2⟩

/-- A span that covers another in order contains both its ends. -/
theorem Covers.surrounds (h : s.Covers t) (ht : t.start ≤ t.stop) : s.Surrounds t :=
  ⟨contains_iff.mpr ⟨h.1, Position.le_trans ht h.2⟩,
    contains_iff.mpr ⟨Position.le_trans h.1 ht, h.2⟩⟩

/-- Spans are apart if one ends before the other begins. -/
theorem apart_of_lt (h : s.stop < t.start) : s.Apart t := by
  rintro p ⟨hs, ht⟩
  have hle : t.start ≤ s.stop :=
    Position.le_trans (contains_iff.mp ht).1 (contains_iff.mp hs).2
  exact Position.not_le_of_lt h hle

/-- The span around two spans covers the first. -/
theorem covers_merge_left (s t : Span) : (s.merge t).Covers s :=
  ⟨Position.min_le_left .., Position.le_max_left ..⟩

/-- It covers the second as well. -/
theorem covers_merge_right (s t : Span) : (s.merge t).Covers t :=
  ⟨Position.min_le_right .., Position.le_max_right ..⟩

end Span

end AbapLowering
