import AbapLowering.Text.Blank
import AbapLowering.Text.Lines

/-!
# Indentation

Code is indented by its braces: a line that starts with a closing brace leaves a level, a line that
ends with an opening brace enters one, and each level is two blanks wide.
-/

namespace AbapLowering.Indentation

/-- The level of a line, from the level that the line before left. -/
def levelAt (level : Nat) (line : List Char) : Nat :=
  if line.head? = some '\x7d' then level - 1 else level

/-- The level after a line, from its own level. -/
def levelAfter (level : Nat) (line : List Char) : Nat :=
  if line.getLast? = some '\x7b' then level + 1 else level

/-- A trimmed line at a level; an empty line stays empty. -/
def place (level : Nat) (line : List Char) : List Char :=
  if line.isEmpty then [] else List.replicate (2 * level) ' ' ++ line

/-- Indent lines, the first of which follows a line that left `level`. -/
def indentLines (level : Nat) : List (List Char) → List (List Char)
  | [] => []
  | line :: rest =>
    let line := Text.trimChars line
    let level := levelAt level line
    place level line :: indentLines (levelAfter level line) rest

/-- Indent code. -/
def indent (code : String) : String :=
  String.ofList (Text.joinLines (indentLines 0 (Text.splitLines code.toList)))

end AbapLowering.Indentation
