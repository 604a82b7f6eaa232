import AbapLowering.Code

/-!
# Code made of lines

Emitted code is put together line by line: each fragment is followed by a line feed, which it may
contain itself (`Code.Linewise`). So every fragment starts a line, and where it stands in the text
depends only on the line feeds before it (`mappingsFrom_of_linewise`).
-/

namespace AbapLowering

/-- Whether a text ends with a line feed. -/
def EndsLine (text : String) : Prop := text.toList.getLast? = some '\n'

instance (text : String) : Decidable (EndsLine text) :=
  inferInstanceAs (Decidable (text.toList.getLast? = some '\n'))

theorem endsLine_feed : EndsLine "\n" := rfl

theorem endsLine_append (s : String) {t : String} (h : EndsLine t) : EndsLine (s ++ t) := by
  simp only [EndsLine, String.toList_append] at h ⊢
  rw [List.getLast?_append, h]
  rfl

namespace Place

/-- The start of a line. -/
def ofLine (line : Nat) : Place := ⟨UInt32.ofNat line, 1⟩

theorem ofLine_add (line n : Nat) :
    ofLine (line + n) = ⟨(ofLine line).line + UInt32.ofNat n, 1⟩ := by
  rw [ofLine, UInt32.ofNat_add]
  rfl

/-- Each line feed leads one line on, up to the range of the counter. -/
theorem line_afterText (p : Place) (text : String) :
    (p.afterText text).line = p.line + UInt32.ofNat (text.toList.count '\n') := by
  unfold afterText
  induction text.toList generalizing p with
  | nil => simp
  | cons c rest ih =>
    rw [List.foldl_cons, ih, after]
    by_cases h : c = '\n'
    · simp [h, UInt32.ofNat_add, UInt32.add_assoc, UInt32.add_comm]
    · simp [h]

/-- After a line feed the next line starts. -/
theorem afterText_of_endsLine (line : Nat) {text : String} (h : EndsLine text) :
    (ofLine line).afterText text = ofLine (line + text.toList.count '\n') := by
  have hline := line_afterText (ofLine line) text
  obtain ⟨cs, hcs⟩ := List.getLast?_eq_some_iff.mp h
  have hcolumn : ((ofLine line).afterText text).column = 1 := by
    rw [afterText, hcs, List.foldl_append]
    rfl
  rw [ofLine_add, ← hline, ← hcolumn]

end Place

namespace Code

/-- Fragments that are blocks of whole lines, or lines followed by their line feed. -/
inductive Linewise : List Fragment → Prop
  | nil : Linewise []
  | block {f rest} : EndsLine f.text → Linewise rest → Linewise (f :: rest)
  | line {f rest} : Linewise rest → Linewise (f :: ⟨"\n", none⟩ :: rest)

theorem Linewise.append {fs gs : List Fragment} (hf : Linewise fs) (hg : Linewise gs) :
    Linewise (fs ++ gs) := by
  induction hf with
  | nil => exact hg
  | block hends _ ih => exact .block hends ih
  | line _ ih => exact .line ih

/-- A text that ends a line, if there is one, is a block of lines. -/
theorem linewise_ofText {text : String} (origin : Option Position)
    (h : text ≠ "" → EndsLine text) : Linewise (ofText text origin).fragments := by
  unfold ofText
  split
  · exact .nil
  next hne => exact .block (h (by simpa using hne)) .nil

/-- A text and a line feed are a line. -/
theorem linewise_line (text : String) (origin : Option Position) :
    Linewise (ofText text origin ++ plain "\n").fragments := by
  rw [fragments_append]
  unfold ofText
  split
  · exact .block endsLine_feed .nil
  · exact .line .nil

theorem append_assoc (a b c : Code) : a ++ b ++ c = a ++ (b ++ c) :=
  congrArg Code.mk (List.append_assoc a.fragments b.fragments c.fragments)

theorem append_empty (a : Code) : a ++ empty = a := congrArg Code.mk (List.append_nil a.fragments)

/-! ## Places -/

/-- The lines of the fragments that have an origin, if each fragment starts a line and has some number
of line feeds. -/
def taggedLines (line : Nat) : List (Option Position × Nat) → List (Nat × Position)
  | [] => []
  | (origin, feeds) :: rest =>
    (origin.map fun p => (line, p)).toList ++ taggedLines (line + feeds) rest

/-- A fragment's place at the start of its line, and its origin. -/
def lineMapping (tagged : Nat × Position) : Mapping := ⟨.ofLine tagged.1, tagged.2⟩

/-- The origin of a fragment and the number of its line feeds. -/
def feeds (f : Fragment) : Option Position × Nat := (f.origin, f.text.toList.count '\n')

/-- In code made of lines the line feeds tell where each fragment stands. -/
theorem mappingsFrom_of_linewise {fs : List Fragment} (h : Linewise fs) (line : Nat) :
    mappingsFrom (.ofLine line) fs = (taggedLines line (fs.map feeds)).map lineMapping := by
  have horigin : ∀ (line : Nat) (origin : Option Position),
      (origin.map fun p => (⟨.ofLine line, p⟩ : Mapping)).toList =
        (origin.map fun p => (line, p)).toList.map lineMapping := by
    intro line origin
    cases origin <;> rfl
  induction h generalizing line with
  | nil => rfl
  | @block f rest hends _ ih =>
    rw [mappingsFrom, Place.afterText_of_endsLine _ hends, ih, horigin, ← List.map_append]
    rfl
  | @line f rest _ ih =>
    -- the text alone may end anywhere; its line feed brings it back to the first column
    have hnext : ((Place.ofLine line).afterText f.text).afterText "\n" =
        .ofLine (line + f.text.toList.count '\n' + 1) := by
      have hfeed : ∀ p : Place, p.afterText "\n" = ⟨p.line + 1, 1⟩ := fun _ => rfl
      rw [hfeed, Place.line_afterText, Place.ofLine_add, Place.ofLine_add]
      rfl
    rw [mappingsFrom, mappingsFrom, hnext, ih, horigin]
    simp only [List.map_cons, feeds, taggedLines, List.map_append, Option.map_none,
      Option.toList_none, List.nil_append]
    rfl

end Code

end AbapLowering
