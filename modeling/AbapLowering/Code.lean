import AbapLowering.Location

/-!
# Emitted code

Code is a sequence of fragments, some of which know the place in the source they were made from. Its
text is that of the fragments one after the other, and each fragment with an origin has a place in
that text. Main facts: text and fragments of code put together (`text_append`,
`fragments_append`), and the text of a single fragment (`text_ofText`).
-/

namespace AbapLowering

/-- A piece of emitted text. -/
structure Fragment where
  text : String
  origin : Option Position
  deriving DecidableEq

/-- A place in emitted text. Line and column are counted from one, in 32 bits: behind the last number
the counters start over at zero. -/
structure Place where
  line : UInt32
  column : UInt32
  deriving DecidableEq

namespace Place

/-- Where a text starts. -/
def start : Place := ⟨1, 1⟩

/-- The place after a character. -/
def after (p : Place) (c : Char) : Place :=
  if c = '\n' then ⟨p.line + 1, 1⟩ else ⟨p.line, p.column + 1⟩

/-- The place after a text. -/
def afterText (p : Place) (text : String) : Place :=
  text.toList.foldl after p

end Place

/-- A fragment's place in the emitted text, and its origin. -/
structure Mapping where
  place : Place
  origin : Position
  deriving DecidableEq

/-- Emitted code. -/
structure Code where
  fragments : List Fragment
  deriving DecidableEq

namespace Code

/-- No code. -/
def empty : Code := ⟨[]⟩

/-- A single fragment; an empty text makes none. -/
def ofText (text : String) (origin : Option Position) : Code :=
  if text.isEmpty then empty else ⟨[⟨text, origin⟩]⟩

/-- A fragment without origin. -/
def plain (text : String) : Code := ofText text none

/-- A fragment made from the source at a position. -/
def tagged (origin : Position) (text : String) : Code := ofText text (some origin)

/-- One piece of code after the other. -/
instance : Append Code where
  append a b := ⟨a.fragments ++ b.fragments⟩

instance : Inhabited Code := ⟨empty⟩

@[simp] theorem fragments_append (a b : Code) :
    (a ++ b).fragments = a.fragments ++ b.fragments := rfl

/-- The texts of some fragments, one after the other. -/
def textOf : List Fragment → String
  | [] => ""
  | fragment :: rest => fragment.text ++ textOf rest

/-- The emitted text. -/
def text (code : Code) : String := textOf code.fragments

/-- Write code behind what is written already, fragment by fragment. -/
def writeTo (written : String) (code : Code) : String :=
  code.fragments.foldl (fun written fragment => written ++ fragment.text) written

/-- The text of fragments behind others. -/
theorem textOf_append (fs gs : List Fragment) : textOf (fs ++ gs) = textOf fs ++ textOf gs := by
  induction fs with
  | nil => simp [textOf]
  | cons f rest ih => simp [textOf, ih, String.append_assoc]

/-- The text of code put together is that of its parts. -/
@[simp] theorem text_append (a b : Code) : (a ++ b).text = a.text ++ b.text :=
  textOf_append a.fragments b.fragments

/-- Code made from a text has this text, also where the text is empty and leaves no fragment. -/
theorem text_ofText (text : String) (origin : Option Position) :
    (ofText text origin).text = text := by
  unfold ofText
  split
  next hempty => exact (String.isEmpty_iff.mp hempty).symm
  next => exact String.append_empty

/-- The fragments that have an origin, with their places in a text that starts at a place. -/
def mappingsFrom (place : Place) : List Fragment → List Mapping
  | [] => []
  | ⟨text, origin⟩ :: rest =>
    (origin.map fun p => ⟨place, p⟩).toList ++ mappingsFrom (place.afterText text) rest

/-- The places of all fragments that have an origin. -/
def mappings (code : Code) : List Mapping := mappingsFrom .start code.fragments

end Code

end AbapLowering
