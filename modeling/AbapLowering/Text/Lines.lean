/-!
# Lines of a text

Two readings of the same text: `splitLines` cuts at every line feed and keeps what follows the last
one, so that joining the pieces gives the text back; `lines` is the list of lines a reader counts,
without line ends and without an empty last line.
-/

namespace AbapLowering.Text

/-- The pieces of a text between its line feeds; there is always one more piece than line feeds. -/
def splitLines : List Char → List (List Char)
  | [] => [[]]
  | c :: rest =>
    if c = '\n' then [] :: splitLines rest
    else match splitLines rest with
      | [] => [[c]]
      | piece :: pieces => (c :: piece) :: pieces

/-- Put line feeds between the pieces. -/
def joinLines : List (List Char) → List Char
  | [] => []
  | [piece] => piece
  | piece :: pieces => piece ++ '\n' :: joinLines pieces

/-- Drop one carriage return at the end of a line. -/
def dropReturn (line : List Char) : List Char :=
  match line.reverse with
  | '\r' :: rest => rest.reverse
  | _ => line

/-- Lines from the pieces between line feeds: a carriage return belongs to the line feed after it,
and an empty last piece is no line. -/
def linesOfPieces : List (List Char) → List (List Char)
  | [] => []
  | [piece] => if piece.isEmpty then [] else [piece]
  | piece :: pieces => dropReturn piece :: linesOfPieces pieces

/-- The lines of a text, without their line ends. -/
def lines (s : String) : List (List Char) :=
  linesOfPieces (splitLines s.toList)

theorem splitLines_ne_nil (cs : List Char) : splitLines cs ≠ [] := by
  cases cs with
  | nil => simp [splitLines]
  | cons c rest =>
    by_cases h : c = '\n'
    · simp [splitLines, h]
    · cases hs : splitLines rest <;> simp [splitLines, h, hs]

/-- Splitting loses nothing. -/
theorem joinLines_splitLines (cs : List Char) : joinLines (splitLines cs) = cs := by
  induction cs with
  | nil => rfl
  | cons c rest ih =>
    match hs : splitLines rest, splitLines_ne_nil rest with
    | piece :: pieces, _ =>
      rw [hs] at ih
      by_cases h : c = '\n'
      · simp [splitLines, h, hs, joinLines, ih]
      · cases pieces with
        | nil => simpa [splitLines, h, hs, joinLines] using ih
        | cons next others => simpa [splitLines, h, hs, joinLines] using ih

end AbapLowering.Text
