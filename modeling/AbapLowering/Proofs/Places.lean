import AbapLowering.Proofs.PositionMap

/-!
# Where fragments stand

Places in emitted text are counted while the fragments are gone through, character by character, and
a reader who splits the text into lines finds each fragment at its place.

- `Place.endOf`: what the counters of lines and columns show behind a text. They have 32 bits, so this
  is where the text ends as long as it is `Text.Addressable`, and up to the range of the counters
  otherwise;
- `Place.textFrom?`: what is read from a place on;
- `Place.behind`: where a place of a text is found when the text is put behind another
  (`Place.endOf_append`), so the places of code put together are those of its parts
  (`Code.mappings_append`);
- `Code.build_exact`: all of this for code that is put together in any way.
-/

namespace AbapLowering

open Text

/-! ## Lines of texts put together -/

namespace Text

/-- The characters behind the last line feed. -/
def lastLine (cs : List Char) : List Char := (splitLines cs).getLast (splitLines_ne_nil cs)

/-- The last line of a text and the first line of what is put behind it are one line. -/
theorem splitLines_append_of_eq (before : List Char) {rest first : List Char}
    {others : List (List Char)} (h : splitLines rest = first :: others) :
    splitLines (before ++ rest) =
      (splitLines before).dropLast ++ (lastLine before ++ first) :: others := by
  induction before with
  | nil => exact h
  | cons x before ih =>
    by_cases hx : x = '\n'
    · obtain ⟨piece, pieces, hpieces⟩ := List.exists_cons_of_ne_nil (splitLines_ne_nil before)
      simp only [List.cons_append, splitLines, if_pos hx, lastLine, ih, hpieces]
      rfl
    · obtain ⟨piece, pieces, hpieces⟩ := List.exists_cons_of_ne_nil (splitLines_ne_nil before)
      simp only [List.cons_append, splitLines, if_neg hx, lastLine, ih, hpieces]
      cases pieces <;> rfl

theorem lastLine_concat (before : List Char) (c : Char) :
    lastLine (before ++ [c]) = if c = '\n' then [] else lastLine before ++ [c] := by
  by_cases hc : c = '\n'
  · have hsplit : splitLines ['\n'] = [[], []] := rfl
    simp [lastLine, hc, splitLines_append_of_eq before hsplit]
  · have hsplit : splitLines [c] = [[c]] := by simp [splitLines, hc]
    simp [lastLine, splitLines_append_of_eq before hsplit, hc]

/-- Without a line feed everything goes on the last line. -/
theorem lastLine_append_of_not_mem (before : List Char) {text : List Char} (h : '\n' ∉ text) :
    lastLine (before ++ text) = lastLine before ++ text := by
  have hsplit : splitLines text = [text] := by
    have hend := splitLines_append h (show splitLines [] = [[]] from rfl)
    rwa [List.append_nil] at hend
  simp [lastLine, splitLines_append_of_eq before hsplit]

/-- Behind a line feed the last line is the one of the text behind. -/
theorem lastLine_append_of_mem (before : List Char) {text : List Char} (h : '\n' ∈ text) :
    lastLine (before ++ text) = lastLine text := by
  obtain ⟨first, others, hsplit⟩ := List.exists_cons_of_ne_nil (splitLines_ne_nil text)
  have hlength := length_splitLines text
  have hcount : 0 < text.count '\n' := List.count_pos_iff.mpr h
  have hothers : others ≠ [] := by
    rintro rfl
    rw [hsplit, List.length_singleton] at hlength
    omega
  simp [lastLine, splitLines_append_of_eq before hsplit, hsplit, List.getLast_cons hothers]

namespace Addressable

/-- What comes before in a text that can be counted can be counted too. -/
theorem of_append {before rest : List Char} (h : Addressable (before ++ rest)) :
    Addressable before := by
  obtain ⟨first, others, hrest⟩ := List.exists_cons_of_ne_nil (splitLines_ne_nil rest)
  have hsplit := splitLines_append_of_eq before hrest
  have hsplitBefore := List.dropLast_append_getLast (splitLines_ne_nil before)
  refine ⟨?_, fun line hline => ?_⟩
  · have hlines := h.lines
    rw [length_splitLines, List.count_append] at hlines
    rw [length_splitLines]
    omega
  · rw [← hsplitBefore, List.mem_append, List.mem_singleton] at hline
    obtain hline | rfl := hline
    · exact h.columns line (hsplit ▸ List.mem_append_left _ hline)
    · have hlast := h.columns (lastLine before ++ first)
        (hsplit ▸ List.mem_append_right _ List.mem_cons_self)
      rw [List.length_append] at hlast
      change (lastLine before).length + 1 < UInt32.size
      omega

theorem count_lt {cs : List Char} (h : Addressable cs) : cs.count '\n' + 1 < UInt32.size :=
  length_splitLines cs ▸ h.lines

theorem length_lastLine_lt {cs : List Char} (h : Addressable cs) :
    (lastLine cs).length + 1 < UInt32.size :=
  h.columns _ (List.getLast_mem _)

end Addressable

end Text

/-! ## Places -/

namespace Place

/-- Lines decide, then columns. -/
instance : LT Place where
  lt p q := p.line < q.line ∨ (p.line = q.line ∧ p.column < q.column)

instance (p q : Place) : Decidable (p < q) :=
  inferInstanceAs (Decidable (p.line < q.line ∨ (p.line = q.line ∧ p.column < q.column)))

theorem lt_trans {p q r : Place} (hpq : p < q) (hqr : q < r) : p < r := by
  obtain hpq | ⟨hline, hpq⟩ := hpq <;> obtain hqr | ⟨hline', hqr⟩ := hqr
  · exact .inl (UInt32.lt_trans hpq hqr)
  · exact .inl (hline' ▸ hpq)
  · exact .inl (hline ▸ hqr)
  · exact .inr ⟨hline.trans hline', UInt32.lt_trans hpq hqr⟩

/-- What the counters show behind a text: one more than the line feeds in it, and one more than the
characters on its last line. -/
def endOf (before : List Char) : Place :=
  ⟨UInt32.ofNat (before.count '\n' + 1), UInt32.ofNat ((lastLine before).length + 1)⟩

theorem after_endOf (before : List Char) (c : Char) :
    (endOf before).after c = endOf (before ++ [c]) := by
  by_cases hc : c = '\n'
  · simp [after, endOf, lastLine_concat, hc, UInt32.ofNat_add]
  · simp [after, endOf, lastLine_concat, hc, UInt32.ofNat_add]

/-- Counting goes on where the text before has ended. -/
theorem afterText_endOf (before : List Char) (text : String) :
    (endOf before).afterText text = endOf (before ++ text.toList) := by
  unfold afterText
  induction text.toList generalizing before with
  | nil => simp
  | cons c rest ih =>
    rw [List.foldl_cons, after_endOf, ih, List.append_assoc]
    rfl

section

variable {before text rest : List Char}

theorem toNat_line_endOf (h : Addressable before) :
    (endOf before).line.toNat = before.count '\n' + 1 :=
  UInt32.toNat_ofNat_of_lt' h.count_lt

theorem toNat_column_endOf (h : Addressable before) :
    (endOf before).column.toNat = (lastLine before).length + 1 :=
  UInt32.toNat_ofNat_of_lt' h.length_lastLine_lt

/-- A text that is not empty takes a reader on, if it can be counted. -/
theorem endOf_lt (h : Addressable (before ++ text)) (hne : text ≠ []) :
    endOf before < endOf (before ++ text) := by
  have hbefore := h.of_append
  by_cases hfeed : '\n' ∈ text
  · have hcount : 0 < text.count '\n' := List.count_pos_iff.mpr hfeed
    refine .inl ?_
    rw [UInt32.lt_iff_toNat_lt, toNat_line_endOf hbefore, toNat_line_endOf h, List.count_append]
    omega
  · have hlength := List.length_pos_iff.mpr hne
    refine .inr ⟨?_, ?_⟩
    · simp [endOf, List.count_append, List.count_eq_zero.mpr hfeed]
    · rw [UInt32.lt_iff_toNat_lt, toNat_column_endOf hbefore, toNat_column_endOf h,
        lastLine_append_of_not_mem before hfeed, List.length_append]
      omega

end

/-- A place of a text, once the text is put behind another: as many lines further down as the other
has line feeds, and on the first line as many columns further right as the other's last line is
long. -/
def behind (before : List Char) (p : Place) : Place :=
  ⟨p.line + UInt32.ofNat (before.count '\n'),
    if p.line = 1 then p.column + UInt32.ofNat (lastLine before).length else p.column⟩

/-- The end of two texts is the end of the second, put behind the first. -/
theorem endOf_append (before : List Char) {text : List Char} (h : text.count '\n' + 1 < UInt32.size) :
    endOf (before ++ text) = (endOf text).behind before := by
  have hline : (endOf text).line = 1 ↔ '\n' ∉ text := by
    rw [← UInt32.toNat_inj, endOf, UInt32.toNat_ofNat_of_lt' h, ← List.count_eq_zero]
    change _ + 1 = 1 ↔ _
    omega
  by_cases hfeed : '\n' ∈ text
  · have hnot := fun hfirst => hline.mp hfirst hfeed
    rw [behind, if_neg hnot]
    simp only [endOf, lastLine_append_of_mem before hfeed, List.count_append]
    rw [Nat.add_assoc, Nat.add_comm, UInt32.ofNat_add]
  · have hlast : lastLine text = text := by
      have hend := lastLine_append_of_not_mem [] hfeed
      rwa [List.nil_append] at hend
    rw [behind, if_pos (hline.mpr hfeed)]
    simp only [endOf, lastLine_append_of_not_mem before hfeed, List.count_append,
      List.length_append, hlast]
    congr 1
    · rw [Nat.add_assoc, Nat.add_comm, UInt32.ofNat_add]
    · rw [Nat.add_assoc, Nat.add_comm, UInt32.ofNat_add]

/-- What a reader finds from a place on: the rest of its line, then the lines below. -/
def textFrom? (p : Place) (whole : List Char) : Option (List Char) :=
  match (splitLines whole).drop (p.line.toNat - 1) with
  | [] => none
  | line :: below =>
    if 1 ≤ p.line.toNat ∧ 1 ≤ p.column.toNat ∧ p.column.toNat ≤ line.length + 1 then
      some (joinLines (line.drop (p.column.toNat - 1) :: below))
    else none

/-- Behind a text that can be counted a reader finds what was put there. -/
theorem textFrom?_endOf {before : List Char} (h : Addressable before) (rest : List Char) :
    (endOf before).textFrom? (before ++ rest) = some rest := by
  obtain ⟨first, others, hrest⟩ := List.exists_cons_of_ne_nil (splitLines_ne_nil rest)
  have hline : before.count '\n' + 1 - 1 = (splitLines before).dropLast.length := by
    rw [List.length_dropLast, length_splitLines]
  have hbounds : 1 ≤ before.count '\n' + 1 ∧ 1 ≤ (lastLine before).length + 1 ∧
      (lastLine before).length + 1 ≤ (lastLine before ++ first).length + 1 := by
    rw [List.length_append]
    omega
  rw [textFrom?, toNat_line_endOf h, toNat_column_endOf h, splitLines_append_of_eq before hrest,
    hline, List.drop_left]
  simp only [if_pos hbounds, Nat.add_sub_cancel, List.drop_left, ← hrest, joinLines_splitLines]

end Place

/-- A fragment's place, once the code is put behind a text. -/
def Mapping.behind (before : List Char) (m : Mapping) : Mapping :=
  { m with place := m.place.behind before }

/-! ## Fragments -/

/-- Whether there is something to a fragment. -/
def Fragment.hasText (f : Fragment) : Bool := !f.text.isEmpty

namespace Code

theorem mappingsFrom_append (before : List Char) (fs gs : List Fragment) :
    mappingsFrom (.endOf before) (fs ++ gs) =
      mappingsFrom (.endOf before) fs ++ mappingsFrom (.endOf (before ++ (textOf fs).toList)) gs := by
  induction fs generalizing before with
  | nil => simp [mappingsFrom, textOf]
  | cons f rest ih =>
    rw [List.cons_append, mappingsFrom, mappingsFrom, Place.afterText_endOf, ih, textOf,
      List.append_assoc, String.toList_append, List.append_assoc]

/-- Fragments that are put behind a text have their places behind it. -/
theorem mappingsFrom_behind (text before : List Char) {fs : List Fragment}
    (h : (before ++ (textOf fs).toList).count '\n' + 1 < UInt32.size) :
    mappingsFrom (.endOf (text ++ before)) fs =
      (mappingsFrom (.endOf before) fs).map (.behind text) := by
  induction fs generalizing before with
  | nil => rfl
  | cons f rest ih =>
    have hbefore : before.count '\n' + 1 < UInt32.size := by
      rw [List.count_append] at h
      omega
    have hrest : (before ++ f.text.toList ++ (textOf rest).toList).count '\n' + 1 < UInt32.size := by
      rwa [textOf, String.toList_append, ← List.append_assoc] at h
    rw [mappingsFrom, mappingsFrom, Place.afterText_endOf, Place.afterText_endOf, List.append_assoc,
      ih _ hrest, List.map_append, Place.endOf_append text hbefore]
    congr 1
    cases f.origin <;> rfl

/-- The places of code put together: those of the first part, and those of the second behind it. -/
theorem mappings_append (a : Code) {b : Code} (h : Addressable b.text.toList) :
    (a ++ b).mappings = a.mappings ++ b.mappings.map (.behind a.text.toList) := by
  have hstart : Place.start = .endOf [] := rfl
  have hbehind : mappingsFrom (.endOf (a.text.toList ++ [])) b.fragments =
      (mappingsFrom (.endOf []) b.fragments).map (.behind a.text.toList) :=
    mappingsFrom_behind a.text.toList [] h.count_lt
  rw [List.append_nil] at hbehind
  rw [mappings, mappings, mappings, fragments_append, hstart, mappingsFrom_append, ← hbehind]
  rfl

/-- Fragments with texts stand one behind the other, if they can be counted. -/
theorem pairwise_mappingsFrom {fs : List Fragment} (h : ∀ f ∈ fs, f.text ≠ "") {before : List Char}
    (hcounted : Addressable (before ++ (textOf fs).toList)) :
    (mappingsFrom (.endOf before) fs).Pairwise (·.place < ·.place) ∧
      ∀ m ∈ mappingsFrom (.endOf before) fs, m.place = .endOf before ∨ .endOf before < m.place := by
  induction fs generalizing before with
  | nil => exact ⟨.nil, by simp [mappingsFrom]⟩
  | cons f rest ih =>
    obtain ⟨hf, hrest⟩ := List.forall_mem_cons.mp h
    rw [textOf, String.toList_append, ← List.append_assoc] at hcounted
    have hne : f.text.toList ≠ [] := fun hnil => hf (String.toList_inj.mp hnil)
    have hlt := Place.endOf_lt hcounted.of_append hne
    obtain ⟨hpairwise, hlater⟩ := ih hrest hcounted
    have hbehind : ∀ m ∈ mappingsFrom (.endOf (before ++ f.text.toList)) rest,
        .endOf before < m.place := by
      intro m hm
      rcases hlater m hm with heq | hlater
      · exact heq ▸ hlt
      · exact Place.lt_trans hlt hlater
    obtain ⟨text, origin⟩ := f
    rw [mappingsFrom, Place.afterText_endOf]
    cases origin with
    | none => exact ⟨hpairwise, fun m hm => .inr (hbehind m hm)⟩
    | some origin =>
      refine ⟨List.pairwise_cons.mpr ⟨hbehind, hpairwise⟩, ?_⟩
      exact List.forall_mem_cons.mpr ⟨.inl rfl, fun m hm => .inr (hbehind m hm)⟩

/-- A mapping belongs to a fragment of a text: it has its origin, and shows what the counters show
behind the text that comes before the fragment. -/
def CountedFor (whole : List Char) (fragment : String × Position) (m : Mapping) : Prop :=
  m.origin = fragment.2 ∧
    ∃ before after, whole = before ++ fragment.1.toList ++ after ∧ m.place = .endOf before

/-- A mapping belongs to a fragment of a text: it has its origin, and a reader finds it there. -/
def LeadsTo (whole : List Char) (fragment : String × Position) (m : Mapping) : Prop :=
  m.origin = fragment.2 ∧ ∃ after, m.place.textFrom? whole = some (fragment.1.toList ++ after)

/-- In a text that can be counted, counting leads to the fragment. -/
theorem CountedFor.leadsTo {whole : List Char} {fragment : String × Position} {m : Mapping}
    (h : CountedFor whole fragment m) (hcounted : Addressable whole) : LeadsTo whole fragment m := by
  obtain ⟨horigin, before, after, rfl, hplace⟩ := h
  refine ⟨horigin, after, ?_⟩
  rw [List.append_assoc] at hcounted ⊢
  rw [hplace, Place.textFrom?_endOf hcounted.of_append]

theorem countedFor_mappingsFrom (before : List Char) (fs : List Fragment) :
    List.Forall₂ (CountedFor (before ++ (textOf fs).toList)) (taggedOf fs)
      (mappingsFrom (.endOf before) fs) := by
  -- the place at hand is always the end of what was gone through
  induction fs generalizing before with
  | nil => exact .nil
  | cons f rest ih =>
    obtain ⟨text, origin⟩ := f
    have hwhole : before ++ (textOf (⟨text, origin⟩ :: rest)).toList =
        before ++ text.toList ++ (textOf rest).toList := by
      simp [textOf]
    have hrest := ih (before ++ text.toList)
    rw [hwhole, mappingsFrom, Place.afterText_endOf]
    cases origin with
    | none => exact hrest
    | some origin => exact .cons ⟨rfl, before, _, rfl, rfl⟩ hrest

/-! ## Putting code together -/

/-- What can be added to code. -/
inductive Addition where
  | plain (text : String)
  | tagged (origin : Position) (text : String)
  /-- Code that was put together on its own. -/
  | code (additions : List Addition)

mutual

/-- Code after an addition. -/
def Addition.onto (code : Code) : Addition → Code
  | .plain text => code ++ .plain text
  | .tagged origin text => code ++ .tagged origin text
  | .code additions => code ++ buildOnto .empty additions

/-- Code after some additions. -/
def buildOnto (code : Code) : List Addition → Code
  | [] => code
  | addition :: rest => buildOnto (addition.onto code) rest

end

/-- Code that was put together from nothing. -/
def build (additions : List Addition) : Code := buildOnto .empty additions

mutual

/-- What is added, piece by piece. -/
def Addition.pieces : Addition → List Fragment
  | .plain text => [⟨text, none⟩]
  | .tagged origin text => [⟨text, some origin⟩]
  | .code additions => piecesOf additions

/-- What is added by some additions, piece by piece. -/
def piecesOf : List Addition → List Fragment
  | [] => []
  | addition :: rest => addition.pieces ++ piecesOf rest

end

theorem fragments_ofText (text : String) (origin : Option Position) :
    (ofText text origin).fragments = [(⟨text, origin⟩ : Fragment)].filter (·.hasText) := by
  unfold ofText Fragment.hasText
  cases h : text.isEmpty <;> simp [empty, h]

mutual

theorem Addition.fragments_onto (code : Code) : ∀ addition : Addition,
    (addition.onto code).fragments = code.fragments ++ addition.pieces.filter (·.hasText)
  | .plain text => by
    rw [Addition.onto, Addition.pieces, fragments_append, Code.plain, fragments_ofText]
  | .tagged origin text => by
    rw [Addition.onto, Addition.pieces, fragments_append, Code.tagged, fragments_ofText]
  | .code additions => by
    rw [Addition.onto, Addition.pieces, fragments_append, fragments_buildOnto .empty additions]
    rfl

theorem fragments_buildOnto (code : Code) : ∀ additions : List Addition,
    (buildOnto code additions).fragments =
      code.fragments ++ (piecesOf additions).filter (·.hasText)
  | [] => by simp [buildOnto, piecesOf]
  | addition :: rest => by
    rw [buildOnto, fragments_buildOnto _ rest, addition.fragments_onto code, piecesOf,
      List.filter_append, List.append_assoc]

end

theorem textOf_filter_hasText (fs : List Fragment) :
    textOf (fs.filter (·.hasText)) = String.join (fs.map (·.text)) := by
  induction fs with
  | nil => rfl
  | cons f rest ih =>
    rw [List.map_cons, String.join_cons, ← ih]
    cases h : f.hasText with
    | true => rw [List.filter_cons_of_pos h, textOf]
    | false =>
      have hempty : f.text = "" := by simpa [Fragment.hasText] using h
      rw [List.filter_cons_of_neg (by simp [h]), hempty, String.empty_append]

theorem writeTo_eq (written : String) (code : Code) :
    code.writeTo written = written ++ code.text := by
  unfold writeTo text
  induction code.fragments generalizing written with
  | nil => simp [textOf]
  | cons f rest ih => rw [List.foldl_cons, ih, textOf, String.append_assoc]

/-- Places are exact, in whatever way code is put together. Its fragments are the pieces that were
added, in order, less the empty ones; its text is the texts of all pieces one behind the other, and
this is also what is written. There is one mapping for each fragment that has an origin, in order,
with what the counters show where the fragment starts.

If the text can be counted in 32 bits, then each mapping is further on than the one before, and a
reader who splits the text into lines finds the fragment at its place. To add further code that can
be counted keeps the mappings and adds those of the further code, moved behind the text. -/
theorem build_exact (additions : List Addition) :
    let code := build additions
    code.fragments = (piecesOf additions).filter (·.hasText) ∧
    (∀ f ∈ code.fragments, f.text ≠ "") ∧
    code.text = String.join ((piecesOf additions).map (·.text)) ∧
    (∀ written, code.writeTo written = written ++ code.text) ∧
    List.Forall₂ (CountedFor code.text.toList) code.taggedFragments code.mappings ∧
    (Addressable code.text.toList →
      List.Forall₂ (LeadsTo code.text.toList) code.taggedFragments code.mappings ∧
      code.mappings.Pairwise (·.place < ·.place)) ∧
    ∀ others, Addressable (build others).text.toList →
      ((Addition.code others).onto code).mappings =
        code.mappings ++ (build others).mappings.map (.behind code.text.toList) := by
  intro code
  have hfragments : code.fragments = (piecesOf additions).filter (·.hasText) :=
    fragments_buildOnto .empty additions
  have htexts : ∀ f ∈ code.fragments, f.text ≠ "" := by
    intro f hf
    rw [hfragments] at hf
    simpa [Fragment.hasText] using (List.mem_filter.mp hf).2
  -- nothing is assumed on the length of the text here
  have hcounted : List.Forall₂ (CountedFor code.text.toList) code.taggedFragments code.mappings :=
    countedFor_mappingsFrom [] code.fragments
  refine ⟨hfragments, htexts, ?_, fun written => writeTo_eq written code, hcounted,
    fun haddressable => ⟨hcounted.imp fun _ _ h => h.leadsTo haddressable, ?_⟩,
    fun others hothers => ?_⟩
  · rw [text, hfragments, textOf_filter_hasText]
  · have hwhole : Addressable ([] ++ (textOf code.fragments).toList) := haddressable
    exact (pairwise_mappingsFrom htexts hwhole).1
  · exact mappings_append code hothers

/-- Two pieces on two lines, the second one from code put together on its own. -/
def nested : List Addition :=
  [.tagged ⟨3, 1⟩ "foo.set(bar);", .code [.plain "\n", .plain "  "], .plain "",
    .code [.code [.tagged ⟨4, 5⟩ "x;"]]]

/-- Both are found where they stand, and once more when the code is put behind itself. -/
theorem mappings_nested :
    Addressable (build nested).text.toList ∧
    (build nested).mappings = [⟨⟨1, 1⟩, ⟨3, 1⟩⟩, ⟨⟨2, 3⟩, ⟨4, 5⟩⟩] ∧
    List.Forall₂ (LeadsTo (build nested).text.toList) (build nested).taggedFragments
      (build nested).mappings ∧
    (build nested).mappings.Pairwise (·.place < ·.place) ∧
    ((Addition.code nested).onto (build nested)).mappings =
      [⟨⟨1, 1⟩, ⟨3, 1⟩⟩, ⟨⟨2, 3⟩, ⟨4, 5⟩⟩, ⟨⟨2, 5⟩, ⟨3, 1⟩⟩, ⟨⟨3, 3⟩, ⟨4, 5⟩⟩] := by
  have haddressable : Addressable (build nested).text.toList := by decide
  have hmappings : (build nested).mappings = [⟨⟨1, 1⟩, ⟨3, 1⟩⟩, ⟨⟨2, 3⟩, ⟨4, 5⟩⟩] := by decide
  obtain ⟨-, -, -, -, -, hexact, happend⟩ := build_exact nested
  obtain ⟨hleads, hpairwise⟩ := hexact haddressable
  refine ⟨haddressable, hmappings, hleads, hpairwise, (happend nested haddressable).trans ?_⟩
  rw [hmappings]
  decide

end Code

end AbapLowering
