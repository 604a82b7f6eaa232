import AbapLowering.Proofs.Code.Lines
import AbapLowering.Proofs.Code.Spelling
import AbapLowering.Proofs.Codec.Lawful
import AbapLowering.Proofs.Dispatch
import AbapLowering.Proofs.Emission.Linewise
import AbapLowering.Proofs.Json

/-!
# What position maps point at

The entries of the position map of a unit are the fragments of its code that have an origin, and
point at them in the file (`SourceUnit.lower_positionMap`).

- the text of a map holds the map (`PositionMap.ofText?_text`), so what is said of a map is said of
  the text that is emitted for it;
- `StandsAt`: a text starts a line of another. Each fragment of code made of lines does
  (`Code.places_of_linewise`), and fragments with an origin start different lines;
- indentation moves the first character of such a line and the declarations before the code move the
  line (`PositionMap.pointsAt_entry`), and the entry moves with both.
-/

namespace AbapLowering

open Text

/-! ## Places of fragments -/

/-- A text stands in another at the start of a line. -/
def StandsAt (whole : List Char) (line : Nat) (text : String) : Prop :=
  ∃ before after, whole = before ++ text.toList ++ after ∧ BeforeLine before ∧
    line = before.count '\n' + 1

theorem StandsAt.append {whole : List Char} {line : Nat} {text : String}
    (h : StandsAt whole line text) (tail : List Char) : StandsAt (whole ++ tail) line text := by
  obtain ⟨before, after, hwhole, hbefore, hline⟩ := h
  exact ⟨before, after ++ tail, by simp [hwhole], hbefore, hline⟩

/-- The line on which a text stands starts with the first character of the text. -/
theorem StandsAt.getElem? {whole : List Char} {line : Nat} {text : String}
    (h : StandsAt whole line text) {x : Char} {rest : List Char} (htext : text.toList = x :: rest)
    (hx : x ≠ '\n') :
    ∃ rest', (splitLines whole)[line - 1]? = some (x :: rest') := by
  obtain ⟨before, after, rfl, hbefore, rfl⟩ := h
  obtain ⟨piece, pieces, -, hsplit⟩ := splitLines_cons_of_ne hx (rest ++ after)
  refine ⟨piece, ?_⟩
  have hline := getElem?_splitLines_append hbefore (text.toList ++ after) 0
  rw [htext, List.cons_append, hsplit, List.getElem?_cons_zero] at hline
  rw [htext, List.append_assoc, List.cons_append, Nat.add_sub_cancel]
  exact hline

namespace Code

/-- Fragments that have an origin, with it. -/
def taggedOf (fragments : List Fragment) : List (String × Position) :=
  fragments.filterMap fun f => f.origin.map fun origin => (f.text, origin)

/-- The fragments of code that have an origin, with it. -/
def taggedFragments (code : Code) : List (String × Position) := taggedOf code.fragments

@[simp] theorem taggedFragments_append (a b : Code) :
    (a ++ b).taggedFragments = a.taggedFragments ++ b.taggedFragments := List.filterMap_append

theorem taggedFragments_tagged (origin : Position) {text : String} (h : text ≠ "") :
    (tagged origin text).taggedFragments = [(text, origin)] := by
  have hempty : text.isEmpty = false := by simpa using h
  rw [taggedFragments, tagged, ofText, hempty]
  rfl

/-- The lines of some fragments from a line of a text on: they stand there, each on a line of its
own. -/
structure Places (whole : List Char) (line : Nat) (fragments : List (String × Position))
    (spots : List (Nat × Position)) : Prop where
  points : List.Forall₂ (fun fragment spot => spot.2 = fragment.2 ∧
    StandsAt whole spot.1 fragment.1) fragments spots
  increasing : spots.Pairwise (·.1 < ·.1)
  notBefore : ∀ spot ∈ spots, line ≤ spot.1

/-- A line that a fragment starts is a line of the text. -/
theorem Places.line_le {whole : List Char} {line : Nat} {fragments : List (String × Position)}
    {spots : List (Nat × Position)} (h : Places whole line fragments spots) {spot : Nat × Position}
    (hspot : spot ∈ spots) : spot.1 ≤ whole.count '\n' + 1 := by
  obtain ⟨fragment, -, -, before, after, hwhole, -, hline⟩ :=
    exists_mem_of_forall₂ h.points.flip hspot
  rw [hline, hwhole, List.count_append, List.count_append]
  omega

theorem Places.cons {whole : List Char} {line next : Nat} {f : Fragment} {rest : List Fragment}
    {spots : List (Nat × Position)} (hf : StandsAt whole line f.text) (hlt : line < next)
    (hrest : Places whole next (taggedOf rest) spots) :
    Places whole line (taggedOf (f :: rest))
      ((f.origin.map fun p => (line, p)).toList ++ spots) := by
  obtain ⟨text, origin⟩ := f
  cases origin with
  | none =>
    exact ⟨hrest.points, hrest.increasing, fun spot hspot => by
      have hnext := hrest.notBefore spot hspot
      omega⟩
  | some p =>
    refine ⟨.cons ⟨rfl, hf⟩ hrest.points, ?_, ?_⟩
    · refine List.pairwise_cons.mpr ⟨fun spot hspot => ?_, hrest.increasing⟩
      have hnext := hrest.notBefore spot hspot
      change line < spot.1
      omega
    · refine List.forall_mem_cons.mpr ⟨Nat.le_refl line, fun spot hspot => ?_⟩
      have hnext := hrest.notBefore spot hspot
      omega

theorem places_of_linewise {fs : List Fragment} (h : Linewise fs) {before : List Char}
    (hbefore : BeforeLine before) :
    Places (before ++ (textOf fs).toList) (before.count '\n' + 1) (taggedOf fs)
      (taggedLines (before.count '\n' + 1) (fs.map feeds)) := by
  induction h generalizing before with
  | nil => exact ⟨.nil, .nil, by simp [taggedLines]⟩
  | @block f rest hends _ ih =>
    have hnext : BeforeLine (before ++ f.text.toList) := by
      refine .inr ?_
      rw [List.getLast?_append, hends]
      rfl
    have hrest := ih hnext
    have hfeed : 0 < f.text.toList.count '\n' :=
      List.count_pos_iff.mpr (List.mem_of_getLast? hends)
    have hwhole : before ++ (textOf (f :: rest)).toList =
        before ++ f.text.toList ++ (textOf rest).toList := by
      simp [textOf]
    have hcount : (before ++ f.text.toList).count '\n' + 1 =
        before.count '\n' + 1 + f.text.toList.count '\n' := by
      rw [List.count_append]
      omega
    rw [hcount] at hrest
    rw [hwhole]
    exact .cons ⟨before, _, rfl, hbefore, rfl⟩ (by omega) hrest
  | @line f rest _ ih =>
    have hnext : BeforeLine (before ++ f.text.toList ++ ['\n']) := .inr (by simp)
    have hrest := ih hnext
    have hwhole : before ++ (textOf (f :: ⟨"\n", none⟩ :: rest)).toList =
        before ++ f.text.toList ++ ['\n'] ++ (textOf rest).toList := by
      simp [textOf]
    have hcount : (before ++ f.text.toList ++ ['\n']).count '\n' + 1 =
        before.count '\n' + 1 + f.text.toList.count '\n' + "\n".toList.count '\n' := by
      rw [List.count_append, List.count_append]
      change _ + _ + 1 + 1 = _ + 1 + _ + 1
      omega
    have hfeed : "\n".toList.count '\n' = 1 := by decide
    rw [hcount] at hrest
    rw [hwhole]
    -- the line feed has no origin, so it stands in no entry
    exact .cons ⟨before, '\n' :: (textOf rest).toList, by simp, hbefore, rfl⟩ (by omega) hrest

end Code

/-! ## Maps and their texts -/

open FieldForm

instance : LawfulCodec MapEntry where
  formOf e := .record [required "generated_line" (formOf e.generatedLine),
    required "generated_column" (formOf e.generatedColumn),
    required "source_row" (formOf e.sourceRow), required "source_column" (formOf e.sourceColumn)]
  json_formOf e := by simp [encode]
  distinct_formOf e := by simp
  formOf_ne_null e := nofun
  decode?_of_varies h := by
    obtain ⟨members, rfl, hline, hcolumn, hrow, hsourceColumn, -⟩ := h
    simp [decode?, hline.get, hcolumn.get, hrow.get, hsourceColumn.get]

instance : LawfulCodec PositionMap where
  formOf m := .record [required "version" (formOf m.version), required "file" (formOf m.file),
    required "source" (formOf m.source), required "mappings" (formOf m.entries)]
  json_formOf m := by simp [encode]
  distinct_formOf m := by simp
  formOf_ne_null m := nofun
  decode?_of_varies h := by
    obtain ⟨members, rfl, hversion, hfile, hsource, hentries, -⟩ := h
    simp [decode?, hversion.get, hfile.get, hsource.get, hentries.get]

namespace PositionMap

/-- A map has no numbers but integers, in three levels of arrays and objects. -/
theorem fits_encode (m : PositionMap) {room : Nat} (hroom : 3 ≤ room) : (encode m).Fits room := by
  obtain ⟨room, rfl⟩ := Nat.exists_eq_add_of_le' hroom
  have hentries : Json.ItemsFit (m.entries.map encode) (room + 1) := by
    induction m.entries with
    | nil => trivial
    | cons e rest ih => exact ⟨by simp [encode], ih⟩
  simpa [encode] using hentries

/-- The text of a map holds this map and nothing else. -/
theorem ofText?_text (m : PositionMap) : ofText? m.text = some m := by
  rw [ofText?, text, Json.parse?_compact (m.fits_encode (by decide)), Option.bind_some,
    LawfulCodec.decode?_encode m]

end PositionMap

/-! ## Entries -/

/-- Where an entry comes from. -/
def MapEntry.source (e : MapEntry) : Position := ⟨e.sourceRow, e.sourceColumn⟩

/-- An entry points at a character of a text, which only blanks of its line come before. -/
def MapEntry.PointsAt (e : MapEntry) (text : String) (x : Char) : Prop :=
  1 ≤ e.generatedLine.toNat ∧ ∃ k rest,
    (splitLines text.toList)[e.generatedLine.toNat - 1]? =
      some (List.replicate k ' ' ++ x :: rest) ∧
      e.generatedColumn.toNat = k + 1

namespace PositionMap

theorem movedColumn_of_lt {k : Nat} (h : k + 1 < UInt32.size) :
    (movedColumn 1 0 k).toNat = k + 1 := by
  have hmax : max 1 ((1 : UInt32).toNat + k - 0) = k + 1 := by
    change max 1 (1 + k - 0) = k + 1
    omega
  rw [movedColumn, hmax, if_pos h, UInt32.toNat_ofNat_of_lt' h]

/-- A line that can be counted is the one that was counted, and moved by the lines before. -/
theorem toNat_generatedLine (before after : Array Nat) {n : Nat} {spot : Nat × Position}
    (h : spot.1 + n < UInt32.size) :
    (entry before after (lineCount n) (Code.lineMapping spot)).generatedLine.toNat =
      spot.1 + n := by
  have hoffset : min n (UInt32.size - 1) = n := by omega
  change (UInt32.ofNat spot.1 + UInt32.ofNat _).toNat = _
  rw [hoffset, ← UInt32.ofNat_add, UInt32.toNat_ofNat_of_lt' h]

/-- The entry of a fragment points at its first character, if the code keeps its line but for the
blanks before it, and is put after other lines. -/
theorem pointsAt_entry {raw tail code prelude text : String} {spot : Nat × Position} {x : Char}
    {rest : List Char} (hstands : StandsAt raw.toList spot.1 text) (htext : text.toList = x :: rest)
    (hx : isBlank x = false)
    (hcode : ∀ (i : Nat) (rest : List Char),
      (splitLines (raw ++ tail).toList)[i]? = some (x :: rest) →
        ∃ k rest', (splitLines code.toList)[i]? = some (List.replicate k ' ' ++ x :: rest'))
    (hprelude : BeforeLine prelude.toList) (hcounted : Addressable (prelude ++ code).toList) :
    (entry (blankWidths raw) (blankWidths code) (lineCount (prelude.toList.count '\n'))
      (Code.lineMapping spot)).PointsAt (prelude ++ code) x := by
  have hfeed : x ≠ '\n' := by
    rintro rfl
    exact absurd hx (by decide)
  have hline : 1 ≤ spot.1 := by
    obtain ⟨before, after, -, -, hline⟩ := hstands
    omega
  -- the line of the fragment: as it was emitted, with what follows, indented, and in the file
  obtain ⟨rest', hraw⟩ := hstands.getElem? htext hfeed
  have hwidth : (blankWidths raw).getD (spot.1 - 1) 0 = 0 :=
    getD_blankWidths_of_line (k := 0) hx hraw
  obtain ⟨rest', hwhole⟩ := (hstands.append tail.toList).getElem? htext hfeed
  rw [← String.toList_append] at hwhole
  obtain ⟨k, rest', hindented⟩ := hcode _ _ hwhole
  have hwidth' : (blankWidths code).getD (spot.1 - 1) 0 = k :=
    getD_blankWidths_of_line hx hindented
  have hfile := (getElem?_splitLines_append hprelude code.toList (spot.1 - 1)).trans hindented
  rw [← String.toList_append] at hfile
  have hlength : k + 1 < UInt32.size := by
    have hmem := hcounted.columns _ (List.mem_of_getElem? hfile)
    rw [List.length_append, List.length_replicate, List.length_cons] at hmem
    omega
  have hindex : spot.1 + prelude.toList.count '\n' - 1 =
      prelude.toList.count '\n' + (spot.1 - 1) := by omega
  have hcount : spot.1 + prelude.toList.count '\n' < UInt32.size := by
    obtain ⟨hlt, -⟩ := List.getElem?_eq_some_iff.mp hfile
    have hlines := hcounted.lines
    omega
  have hgenerated := toNat_generatedLine (blankWidths raw) (blankWidths code) hcount
  refine ⟨?_, k, rest', ?_, ?_⟩
  · rw [hgenerated]
    omega
  · rw [hgenerated, hindex, hfile]
  · have hspot : (Code.lineMapping spot).place.line.toNat = spot.1 :=
      UInt32.toNat_ofNat_of_lt' (by omega)
    change (movedColumn 1 _ _).toNat = k + 1
    rw [hspot, hwidth, hwidth', movedColumn_of_lt hlength]

end PositionMap

/-! ## Declarations before the code -/

theorem beforeLine_endLines (lines : List String) : BeforeLine (Emit.endLines lines).toList := by
  by_cases hempty : Emit.endLines lines = ""
  · exact .inl (by rw [hempty]; rfl)
  · exact .inr (Emit.endsLine_endLines hempty)

theorem count_endLines {lines : List String} (h : ∀ line ∈ lines, '\n' ∉ line.toList) :
    (Emit.endLines lines).toList.count '\n' = lines.length := by
  induction lines with
  | nil => rfl
  | cons line rest ih =>
    obtain ⟨hline, hrest⟩ := List.forall_mem_cons.mp h
    rw [Emit.endLines_cons, String.toList_append, String.toList_append, List.count_append,
      List.count_append, List.count_eq_zero.mpr hline, ih hrest, List.length_cons]
    change 0 + 1 + _ = _
    omega

theorem not_mem_toString_int (value : Int) : '\n' ∉ (toString value).toList := by
  have hdigits : ∀ n : Nat, '\n' ∉ (toString n).toList := by
    intro n hmem
    exact absurd (Template.isAlphanum_of_mem_digits hmem) (by decide)
  cases value with
  | ofNat n => exact hdigits n
  | negSucc n =>
    have hsign : toString (Int.negSucc n) = "-" ++ toString (n + 1) := rfl
    rw [hsign, String.toList_append, List.mem_append, not_or]
    exact ⟨by decide, hdigits (n + 1)⟩

namespace SourceUnit

theorem not_mem_integerDeclaration (value : Int64) :
    '\n' ∉ (integerDeclaration value).toList := by
  have hname : '\n' ∉ (Identifier.integer value).toList := by
    intro hmem
    rcases Identifier.mem_integer hmem with h | h
    · exact absurd h (by decide)
    · exact absurd h (by decide)
  have hvalue := not_mem_toString_int value.toInt
  simpa [integerDeclaration, hname] using hvalue

theorem not_mem_prelude (config : Config) (integers : List Int64) :
    ∀ line ∈ prelude config integers, '\n' ∉ line.toList := by
  intro line hline
  rw [prelude] at hline
  split at hline
  · obtain ⟨value, -, rfl⟩ := List.mem_map.mp hline
    exact not_mem_integerDeclaration value
  · cases hline

/-! ## Units -/

/-- A unit is lowered by emitting its tree. -/
theorem exists_of_lower_eq_ok {u : SourceUnit} {config : Config} {registry : Registry}
    {issued : Nat} {out : LoweredUnit} (h : (u.lower config registry issued).1 = .ok out) :
    ∃ body state, u.root.emitRoot ⟨u.view registry, config⟩ (.initial issued) = .ok body state ∧
      out = u.assemble config (u.ownerWarning? registry) body state := by
  unfold lower at h
  split at h
  · cases h
  split at h
  next body state hemit =>
    cases h
    exact ⟨body, state, hemit, rfl⟩
  next => cases h

/-- With or without indentation, a line that starts with a character that is not blank stays where
it is, with some blanks before it. -/
theorem getElem?_splitLines_of_indent (indent : Bool) {code : String} {i : Nat} {x : Char}
    {rest : List Char} (hx : isBlank x = false)
    (h : (splitLines code.toList)[i]? = some (x :: rest)) :
    ∃ k rest', (splitLines (if indent then Indentation.indent code else code).toList)[i]? =
      some (List.replicate k ' ' ++ x :: rest') := by
  cases indent with
  | true => exact Indentation.getElem?_splitLines_indent hx h
  | false => exact ⟨0, rest, h⟩

/-- Code that is indented, with other lines behind it, has no fewer lines. -/
theorem count_le_of_indent (indent : Bool) (code tail : String) :
    code.toList.count '\n' ≤
      (if indent then Indentation.indent (code ++ tail) else code ++ tail).toList.count '\n' := by
  have hwhole : code.toList.count '\n' ≤ (code ++ tail).toList.count '\n' := by
    rw [String.toList_append, List.count_append]
    exact Nat.le_add_right _ _
  cases indent with
  | true => exact hwhole.trans (Indentation.count_indent _).ge
  | false => exact hwhole

end SourceUnit

/-- If there is more to the line of a statement than its feed, then there is a fragment that comes
from the start of the statement. -/
theorem StatementNode.HasLine.exists_tagged {node : StatementNode} {context : Context} {line : Code}
    (h : node.HasLine context line) (htext : line.text ≠ "\n") :
    ∃ text, (text, node.span.start) ∈ line.taggedFragments := by
  obtain ⟨s, s', h⟩ := h
  obtain ⟨_, s₁, -, h⟩ := Emit.bind_eq_ok h
  obtain ⟨code, s₂, -, h⟩ := Emit.bind_eq_ok h
  obtain ⟨hoisted, s₃, -, h⟩ := Emit.bind_eq_ok h
  cases h
  by_cases hhoisted : hoisted = ""
  · by_cases hcode : code = ""
    · exact absurd (by rw [hhoisted, hcode]; rfl) htext
    · exact ⟨code, by simp [Code.taggedFragments_tagged _ hcode]⟩
  · exact ⟨hoisted, by simp [Code.taggedFragments_tagged _ hhoisted]⟩

/-- The position map of a unit points at the right characters. Its text holds a map with an entry for
each fragment of the code of the tree that has an origin, in order and each on a line of its own. If
the fragment starts with a character that is not blank, then the entry points at this character in
the file, and only indentation comes before it on its line. Each entry leads to the origin of its
fragment, and each statement that has code is the origin of one.

The lines and columns of the file have to be countable in 32 bits. -/
theorem SourceUnit.lower_positionMap {u : SourceUnit} {config : Config} {registry : Registry}
    {issued : Nat} {out : LoweredUnit} (hmaps : config.sourceMaps = true)
    (hout : (u.lower config registry issued).1 = .ok out)
    (hcounted : Addressable out.code.toList) :
    ∃ (body : Code) (state : EmissionState) (text : String) (map : PositionMap),
      u.root.emitRoot ⟨u.view registry, config⟩ (.initial issued) = .ok body state ∧
      out.positionMap = some text ∧ PositionMap.ofText? text = some map ∧
      map.file = out.file ∧ map.source = u.file ∧
      map.entries.Pairwise (·.generatedLine < ·.generatedLine) ∧
      List.Forall₂ (fun fragment e => e.source = fragment.2 ∧
        ∀ x rest, fragment.1.toList = x :: rest → isBlank x = false → e.PointsAt out.code x)
        body.taggedFragments map.entries ∧
      ∃ lines : List (StatementNode × Code), lines.map Prod.fst = u.root.dispatched ∧
        (∀ line ∈ lines, line.1.HasLine ⟨u.view registry, config⟩ line.2) ∧
        (lines.flatMap (·.2.fragments)).Sublist body.fragments ∧
        ∀ line ∈ lines, line.2.text ≠ "\n" → ∃ e ∈ map.entries, e.source = line.1.span.start := by
  obtain ⟨body, state, hemit, rfl⟩ := exists_of_lower_eq_ok hout
  let declared := prelude config state.integers
  let tail := Emit.endLines (registration config state.registrations)
  let code := if config.indent then Indentation.indent (body.text ++ tail) else body.text ++ tail
  let map := PositionMap.build (outputFile u.file) u.file body.mappings body.text code
    (PositionMap.lineCount declared.length)
  let spots := Code.taggedLines 1 (body.fragments.map Code.feeds)
  have hlinewise : body.IsLinewise := u.root.linewise_emitRoot _ _ _ _ hemit
  have hplaces : Code.Places body.text.toList 1 body.taggedFragments spots :=
    Code.places_of_linewise hlinewise (.inl rfl)
  have hmappings : body.mappings = spots.map Code.lineMapping :=
    Code.mappingsFrom_of_linewise hlinewise 1
  have hmapEntries : map.entries = spots.map fun spot =>
      PositionMap.entry (PositionMap.blankWidths body.text) (PositionMap.blankWidths code)
        (PositionMap.lineCount declared.length) (Code.lineMapping spot) := by
    change body.mappings.map _ = _
    rw [hmappings, List.map_map]
    rfl
  have hcount : (Emit.endLines declared).toList.count '\n' = declared.length :=
    count_endLines (not_mem_prelude config state.integers)
  have hentries : List.Forall₂ (fun fragment e => e.source = fragment.2 ∧
      ∀ x rest, fragment.1.toList = x :: rest → isBlank x = false →
        e.PointsAt (Emit.endLines declared ++ code) x) body.taggedFragments map.entries := by
    rw [hmapEntries, ← hcount]
    refine List.forall₂_map_right_iff.mpr (hplaces.points.imp fun fragment spot hspot => ?_)
    obtain ⟨horigin, hstands⟩ := hspot
    refine ⟨horigin, fun x rest htext hx => ?_⟩
    exact PositionMap.pointsAt_entry hstands htext hx
      (fun i rest => getElem?_splitLines_of_indent config.indent hx)
      (beforeLine_endLines declared) hcounted
  have hincreasing : map.entries.Pairwise (·.generatedLine < ·.generatedLine) := by
    -- each line of the code is a line of the file, so it can be counted too
    have hspots : ∀ spot ∈ spots, spot.1 + declared.length < UInt32.size := by
      intro spot hspot
      have hline := hplaces.line_le hspot
      have hlines := hcounted.lines
      have hcode : body.text.toList.count '\n' ≤ code.toList.count '\n' :=
        count_le_of_indent config.indent body.text tail
      change (splitLines (Emit.endLines declared ++ code).toList).length < _ at hlines
      rw [length_splitLines, String.toList_append, List.count_append, hcount] at hlines
      omega
    rw [hmapEntries, List.pairwise_map]
    refine (hplaces.increasing.imp_of_mem fun {spot spot'} hmem hmem' hlt => ?_)
    rw [UInt32.lt_iff_toNat_lt, PositionMap.toNat_generatedLine _ _ (hspots spot hmem),
      PositionMap.toNat_generatedLine _ _ (hspots spot' hmem')]
    omega
  refine ⟨body, state, map.text, map, hemit, if_pos hmaps, map.ofText?_text, rfl, rfl, hincreasing,
    hentries, ?_⟩
  obtain ⟨-, lines, hnodes, hlines, hsublist⟩ := StructureNode.exists_lines_of_emitRoot hemit
  refine ⟨lines, hnodes, hlines, hsublist, fun line hline htext => ?_⟩
  obtain ⟨text, htagged⟩ := (hlines line hline).exists_tagged htext
  have hmem : (text, line.1.span.start) ∈ body.taggedFragments := by
    refine (hsublist.filterMap _).mem ?_
    rw [List.filterMap_flatMap]
    exact List.mem_flatMap.mpr ⟨line, hline, htagged⟩
  obtain ⟨e, he, hsource, -⟩ := exists_mem_of_forall₂ hentries hmem
  exact ⟨e, he, hsource⟩

/-- The standard choices, but position maps are made. -/
def Config.mapping : Config := { Config.standard with sourceMaps := true }

namespace SourceUnit

/-- A program that does nothing over and over again. -/
def continuingLoop : SourceUnit :=
  let opening : StatementNode := ⟨.doTimes none, ⟨⟨1, 1⟩, ⟨1, 3⟩⟩, "DO."⟩
  let next : StatementNode := ⟨.continueLoop, ⟨⟨2, 3⟩, ⟨2, 11⟩⟩, "CONTINUE."⟩
  let closing : StatementNode := ⟨.endBlock .doBlock, ⟨⟨3, 1⟩, ⟨3, 6⟩⟩, "ENDDO."⟩
  { file := "zfoo.prog.abap"
    object := ⟨.prog, "ZFOO"⟩
    root := ⟨.program, [.branch ⟨.doLoop, [.leaf opening, .leaf next, .leaf closing],
      ⟨⟨1, 1⟩, ⟨3, 6⟩⟩⟩], ⟨⟨1, 1⟩, ⟨3, 6⟩⟩⟩
    scopes := ⟨#[.fresh .program "zfoo" "zfoo.prog.abap" ⟨⟨1, 1⟩, ⟨9, 1⟩⟩ none]⟩ }

/-- The code of the program. -/
def continuingCode : Code :=
  ⟨[⟨"let unique1 = 1;\nwhile (true) \x7b\nabap.builtin.sy.get().index.set(unique1++);", some ⟨1, 1⟩⟩,
    ⟨"\n", none⟩, ⟨"continue;", some ⟨2, 3⟩⟩, ⟨"\n", none⟩, ⟨"\x7d", some ⟨3, 1⟩⟩, ⟨"\n", none⟩]⟩

/-- Where its statements are found. -/
def continuingMap : PositionMap :=
  ⟨1, "zfoo.prog.js", "zfoo.prog.abap", [⟨1, 1, 1, 1⟩, ⟨4, 3, 2, 3⟩, ⟨5, 1, 3, 1⟩]⟩

/-- The program is put on five lines. Its statements are found on the first of them, where a counter
is declared, on the fourth, behind indentation, and on the last. -/
theorem positionMap_continuingLoop :
    ∃ (out : LoweredUnit) (state : EmissionState),
      (continuingLoop.lower .mapping .empty 0).1 = .ok out ∧
      continuingLoop.root.emitRoot ⟨continuingLoop.view .empty, .mapping⟩ (.initial 0) =
        .ok continuingCode state ∧
      out.positionMap.bind PositionMap.ofText? = some continuingMap ∧
      List.Forall₂ (fun (fragment : String × Position) (e : MapEntry) => e.source = fragment.2 ∧
        ∀ x rest, fragment.1.toList = x :: rest → isBlank x = false → e.PointsAt out.code x)
        [("let unique1 = 1;\nwhile (true) \x7b\nabap.builtin.sy.get().index.set(unique1++);", ⟨1, 1⟩),
          ("continue;", ⟨2, 3⟩), ("\x7d", ⟨3, 1⟩)]
        [⟨1, 1, 1, 1⟩, ⟨4, 3, 2, 3⟩, ⟨5, 1, 3, 1⟩] := by
  have hemit : EStateM.run' (continuingLoop.root.emitRoot ⟨continuingLoop.view .empty, .mapping⟩)
      (.initial 0) = some continuingCode := by decide +kernel
  have hlower : (continuingLoop.lower .mapping .empty 0).1.toOption.map
      (fun out => (out.positionMap, decide (Addressable out.code.toList))) =
        some (some continuingMap.text, true) := by decide +kernel
  obtain ⟨out, hout, hparts⟩ := Option.map_eq_some_iff.mp hlower
  obtain ⟨htext, hcounted⟩ := Prod.mk.inj hparts
  have hout := eq_ok_of_toOption hout
  obtain ⟨body, state, text, map, hbody, hmap, hread, -, -, -, hentries, -⟩ :=
    lower_positionMap rfl hout (of_decide_eq_true hcounted)
  delta EStateM.run' EStateM.run at hemit
  rw [hbody] at hemit
  obtain rfl : body = continuingCode := Option.some.inj hemit
  obtain rfl : text = continuingMap.text := Option.some.inj (hmap.symm.trans htext)
  have hheld := PositionMap.ofText?_text continuingMap
  obtain rfl : map = continuingMap := Option.some.inj (hread.symm.trans hheld)
  exact ⟨out, state, hout, hbody, by rw [hmap, Option.bind_some, hread], hentries⟩

end SourceUnit

end AbapLowering
