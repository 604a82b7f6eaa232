import AbapLowering.Expression
import AbapLowering.Text.Blank
import AbapLowering.Text.Replace

/-!
# Literals

The literals of ABAP as literals of the emitted code. In a literal between quotes a doubled quote
stands for one, and nothing else is special; in the emitted literals the backslash is.
-/

namespace AbapLowering.Literal

/-- Write a backslash before every backslash and every `q`. -/
def escape (q : Char) (cs : List Char) : List Char :=
  cs.flatMap fun c => if c = '\\' ∨ c = q then ['\\', c] else [c]

/-- Write a backslash before what is special between backticks: backslashes, backticks and the start
of an embedded expression. -/
def escapeBackticked : List Char → List Char
  | [] => []
  | c :: rest =>
    (if c = '\\' ∨ c = '\x60' ∨ (c = '$' ∧ rest.head? = some '\x7b') then ['\\', c] else [c])
      ++ escapeBackticked rest

/-- A text between single quotes, from what stands between the quotes of a text literal. -/
def quoted (raw : String) : String :=
  "'" ++ String.ofList (escape '\x27' (Text.collapseDoubled '\x27' raw.toList)) ++ "'"

/-- A text between backticks. -/
def backticked (text : String) : String := "\x60" ++ text ++ "\x60"

/-- A text between backticks, from what stands between the backticks of a string literal. -/
def string (raw : String) : String :=
  backticked (String.ofList (escapeBackticked (Text.collapseDoubled '\x60' raw.toList)))

/-- The literal part of a string template. An escape of the template's own delimiters is dropped, any
other escape means the same on both sides. -/
def templateChars : List Char → List Char
  | [] => []
  | ['\\'] => ['\\', '\\']
  | '\\' :: c :: rest =>
    if c = '|' ∨ c = '\x7b' ∨ c = '\x7d' then c :: templateChars rest
    else '\\' :: c :: templateChars rest
  | c :: rest =>
    (if c = '\x60' ∨ (c = '$' ∧ rest.head? = some '\x7b') then ['\\', c] else [c])
      ++ templateChars rest

/-- The literal part of a string template, as text. -/
def template (raw : String) : String := String.ofList (templateChars raw.toList)

/-- Number of characters that a text literal stands for. -/
def length (raw : String) : Nat := (Text.collapseDoubled '\x27' raw.toList).length

/-- A text literal as an operand. -/
def characterOperand (raw : String) : String :=
  "new abap.types.Character(\x7blength: " ++ toString (length raw) ++ "\x7d).set(" ++ quoted raw
    ++ ")"

/-- A string, given as an emitted literal, as an operand. -/
def stringOperand (emitted : String) : String :=
  "new abap.types.String().set(" ++ emitted ++ ")"

/-- A constant as the initial value of a data object. -/
def initialValue : Constant → String
  | .integer value => toString value.toInt
  | .text value => quoted value
  | .backtick value => string value

/-- What stands between two `q` that a text starts and ends with. -/
def between? (q : Char) (cs : List Char) : Option (List Char) :=
  (Text.afterStart? [q] cs).bind (Text.beforeEnd? [q])

/-- A literal, written with its quotes, as the initial value of a data object. -/
def initialValueOfText (written : String) : String :=
  let trimmed := Text.trimChars written.toList
  match between? '\x27' trimmed with
  | some inner => quoted (String.ofList inner)
  | none =>
    match between? '\x60' trimmed with
    | some inner => string (String.ofList inner)
    | none => String.ofList trimmed

/-- A piece of an SQL command, to stand between double quotes. -/
def sql (command : String) : String := String.ofList (escape '\x22' command.toList)

end AbapLowering.Literal
