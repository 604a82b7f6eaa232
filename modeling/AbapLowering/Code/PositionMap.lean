import AbapLowering.Code
import AbapLowering.Json.Reader
import AbapLowering.Json.Writer
import AbapLowering.Text.Blank
import AbapLowering.Text.Lines

/-!
# Position maps

A position map leads from places in a file of emitted code back to the source. It is made from the
places in the code as emitted, which move when lines are indented anew and put after other lines.
-/

namespace AbapLowering

/-- One place in the emitted file and where it comes from, all counted from one. -/
structure MapEntry where
  generatedLine : UInt32
  generatedColumn : UInt32
  sourceRow : UInt32
  sourceColumn : UInt32
  deriving DecidableEq

/-- A position map. -/
structure PositionMap where
  version : UInt32
  file : String
  source : String
  entries : List MapEntry
  deriving DecidableEq

namespace PositionMap

/-- A column after the blank start of its line changed its width. A column that cannot be counted in
32 bits is given as the first. -/
def movedColumn (column : UInt32) (before after : Nat) : UInt32 :=
  let moved := max 1 (column.toNat + after - before)
  if moved < UInt32.size then UInt32.ofNat moved else 1

/-- Widths of the blank starts of the lines of a text. -/
def blankWidths (text : String) : Array Nat :=
  (Text.lines text).toArray.map Text.blankWidth

/-- The entry for a place, given the widths of the blank starts before and after indentation. -/
def entry (before after : Array Nat) (lineOffset : UInt32) (m : Mapping) : MapEntry :=
  let index := m.place.line.toNat - 1
  { generatedLine := m.place.line + lineOffset
    generatedColumn := movedColumn m.place.column (before.getD index 0) (after.getD index 0)
    sourceRow := m.origin.row
    sourceColumn := m.origin.col }

/-- The map of code that was emitted as `raw`, indented into `indented`, and put after `lineOffset`
other lines. -/
def build (file source : String) (mappings : List Mapping) (raw indented : String)
    (lineOffset : UInt32) : PositionMap :=
  let before := blankWidths raw
  let after := blankWidths indented
  ⟨1, file, source, mappings.map (entry before after lineOffset)⟩

/-- A number of lines, or the largest number of 32 bits if there are more. -/
def lineCount (n : Nat) : UInt32 := UInt32.ofNat (min n (UInt32.size - 1))

instance : Codec MapEntry where
  encode e := .obj [("generated_line", encode e.generatedLine),
    ("generated_column", encode e.generatedColumn), ("source_row", encode e.sourceRow),
    ("source_column", encode e.sourceColumn)]
  decode? j := do
    some {
      generatedLine := ← j.get "generated_line"
      generatedColumn := ← j.get "generated_column"
      sourceRow := ← j.get "source_row"
      sourceColumn := ← j.get "source_column" }

instance : Codec PositionMap where
  encode m := .obj [("version", encode m.version), ("file", encode m.file),
    ("source", encode m.source), ("mappings", encode m.entries)]
  decode? j := do
    some {
      version := ← j.get "version"
      file := ← j.get "file"
      source := ← j.get "source"
      entries := ← j.get "mappings" }

/-- The text of a map. -/
def text (m : PositionMap) : String := (encode m).compact

/-- The map that a text holds. -/
def ofText? (text : String) : Option PositionMap := (Json.parse? text).bind decode?

end PositionMap

end AbapLowering
