import AbapLowering.Text.Case
import AbapLowering.Json.Basic

/-!
# Positions, spans and tokens

Where something stands in a source file: a position is a row and a column, both counted from one and
ordered by row first; a span is the stretch between two positions, ends included; a token is a text
with the position of its first character.
-/

namespace AbapLowering

/-- A place in a source file. -/
structure Position where
  row : UInt32
  col : UInt32
  deriving DecidableEq, Inhabited

namespace Position

/-- Rows decide, then columns. -/
instance : LE Position where
  le p q := p.row < q.row ∨ (p.row = q.row ∧ p.col ≤ q.col)

instance : LT Position where
  lt p q := p.row < q.row ∨ (p.row = q.row ∧ p.col < q.col)

instance (p q : Position) : Decidable (p ≤ q) :=
  inferInstanceAs (Decidable (p.row < q.row ∨ (p.row = q.row ∧ p.col ≤ q.col)))

instance (p q : Position) : Decidable (p < q) :=
  inferInstanceAs (Decidable (p.row < q.row ∨ (p.row = q.row ∧ p.col < q.col)))

/-- The earlier of two positions. -/
instance : Min Position where
  min p q := if p ≤ q then p else q

/-- The later of two positions. -/
instance : Max Position where
  max p q := if p ≤ q then q else p

/-- Whether a position comes before, at or after another. -/
def order (p q : Position) : Ordering :=
  if p < q then .lt else if p = q then .eq else .gt

/-- Between two positions, ends included. -/
def isBetween (p first last : Position) : Bool :=
  decide (first ≤ p) && decide (p ≤ last)

/-- A position as row and column. -/
def text (p : Position) : String :=
  toString p.row ++ ":" ++ toString p.col

instance : Codec Position where
  encode p := .obj [("row", encode p.row), ("col", encode p.col)]
  decode? j := do some { row := ← j.get "row", col := ← j.get "col" }

end Position

/-- A stretch of a source file, ends included. -/
structure Span where
  start : Position
  stop : Position
  deriving DecidableEq

namespace Span

/-- The span of a single position. -/
def point (p : Position) : Span := ⟨p, p⟩

instance : Inhabited Span := ⟨point ⟨1, 1⟩⟩

/-- Whether the span holds a position. -/
def contains (s : Span) (p : Position) : Bool :=
  p.isBetween s.start s.stop

/-- The smallest span around both. -/
def merge (s t : Span) : Span :=
  ⟨min s.start t.start, max s.stop t.stop⟩

/-- A span as its two ends. -/
def text (s : Span) : String :=
  s.start.text ++ "-" ++ s.stop.text

instance : Codec Span where
  encode s := .obj [("start", encode s.start), ("end", encode s.stop)]
  decode? j := do some { start := ← j.get "start", stop := ← j.get "end" }

end Span

/-- A word of the source text and where it starts. -/
structure Token where
  text : String
  start : Position
  deriving DecidableEq, Inhabited

namespace Token

/-- The text in lower case. -/
def lower (t : Token) : String := Text.toLower t.text

/-- The text in upper case. -/
def upper (t : Token) : String := Text.toUpper t.text

/-- Position of the last character; of the first for an empty text. -/
def last (t : Token) : Position :=
  ⟨t.start.row, t.start.col + UInt32.ofNat (t.text.length - 1)⟩

/-- From the first to the last character. -/
def span (t : Token) : Span := ⟨t.start, t.last⟩

instance : Codec Token where
  encode t := .obj [("text", encode t.text), ("start", encode t.start)]
  decode? j := do some { text := ← j.get "text", start := ← j.get "start" }

end Token

end AbapLowering
