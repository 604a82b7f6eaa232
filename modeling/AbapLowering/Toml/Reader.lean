import AbapLowering.Toml.Scalar
import AbapLowering.Toml.Symbol

/-!
# Reading TOML

The document is built from the symbols of a text by a fold that stops at the first fault. What was
read of a key and the open arrays and tables in braces, at most `maxDepth` of them, wait in the state
of the fold until they can be entered.
-/

namespace AbapLowering.Toml

/-- Arrays and tables in braces may be nested this deep. -/
def maxDepth : Nat := 79

/-- A key may have this many parts. -/
def maxParts : Nat := 79

/-- What a key is read for. -/
inductive KeyRole where
  /-- A value of the table whose header was met last. -/
  | entry
  /-- A value of the innermost table in braces. -/
  | inner
  | header
  /-- A header in double brackets. -/
  | headers
  deriving DecidableEq

/-- A key that was read: its first part and the others. -/
structure Key where
  first : String
  others : List String

/-- The way to the table of a header, and its own name. -/
def Key.split (key : Key) : List String × String :=
  let parts := key.first :: key.others
  (parts.dropLast, parts.getLast (List.cons_ne_nil _ _))

/-- An open array, last item first, or an open table in braces, which waits for the value of
`key`. -/
inductive Open where
  | array (items : List Toml)
  | table (fields : Fields) (key : Key)

/-- What may come next. Parts of a key are kept last part first. -/
inductive Expected where
  | line
  | lineEnd
  /-- After a bracket at the start of a line a second one may follow at once. -/
  | bracketOrPart
  | part (role : KeyRole) (parts : List String)
  | dotOrEnd (role : KeyRole) (last : String) (parts : List String)
  /-- The second closing bracket of a header. -/
  | secondBracket (key : Key)
  | value
  | valueOrEnd
  | keyOrEnd
  | commaOrEnd
  /-- More of an unquoted value. -/
  | unquoted (read : List Char)
  /-- After a date and a space a time may follow. -/
  | time (read : List Char)

/-- The document so far, the way to the table that is being filled, the key whose value is being
read, what is open inside that value, and what may come next. -/
structure Build where
  document : Fields
  table : List String
  key : Key
  stack : List Open
  expected : Expected

namespace Build

/-- The build before anything is read. -/
def initial : Build := ⟨[], [], ⟨"", []⟩, [], .line⟩

/-- Enter a value in the document or in what is open. -/
def complete (b : Build) (value : Toml) : Option Build :=
  match b.stack with
  | [] =>
    (alterTable (assign value b.key.first b.key.others) b.table b.document).map fun document =>
      { b with document, expected := .lineEnd }
  | .array items :: outer =>
    some { b with stack := .array (value :: items) :: outer, expected := .commaOrEnd }
  | .table fields key :: outer =>
    (assign value key.first key.others fields).map fun fields =>
      { b with stack := .table fields key :: outer, expected := .commaOrEnd }

/-- Open one more array or table in braces unless too many are open. -/
def openOne (b : Build) (next : Open) (expected : Expected) : Option Build :=
  if b.stack.length < maxDepth then some { b with stack := next :: b.stack, expected } else none

/-- A value is expected and a symbol starts it. -/
def startValue (b : Build) : Symbol → Option Build
  | .quoted text _ => b.complete (.str text)
  | .word text => some { b with expected := .unquoted text }
  | .leftBracket => b.openOne (.array []) .valueOrEnd
  | .leftBrace => b.openOne (.table [] ⟨"", []⟩) .keyOrEnd
  | _ => none

/-- Close the innermost array or table in braces. -/
def closeOne (b : Build) : Symbol → Option Build
  | .rightBracket =>
    match b.stack with
    | .array items :: outer => { b with stack := outer }.complete (.arr items.reverse)
    | _ => none
  | .rightBrace =>
    match b.stack with
    | .table fields _ :: outer => { b with stack := outer }.complete (.table .inline fields)
    | _ => none
  | _ => none

/-- Characters of a key that is not quoted. -/
def isKeyChar (c : Char) : Bool := c.isAlphanum || c == '_' || c == '-'

/-- The part of a key that a symbol is. -/
def part? : Symbol → Option String
  | .word text => if text.all isKeyChar then some (String.ofList text) else none
  | .quoted text false => some text
  | _ => none

/-- A part of a key is expected and a symbol is it. -/
def takePart (b : Build) (role : KeyRole) (parts : List String) (symbol : Symbol) : Option Build :=
  (part? symbol).map fun part => { b with expected := .dotOrEnd role part parts }

/-- The parts of a key, unless they are too many. -/
def key? (last : String) (parts : List String) : Option Key :=
  if maxParts ≤ parts.length then none
  else match (last :: parts).reverse with
    | first :: others => some ⟨first, others⟩
    | [] => none

/-- Begin the table of a header. -/
def beginTable (b : Build) (key : Key) : Option Build :=
  (openTable key.split.1 key.split.2 b.document).map fun document =>
    { b with document, table := key.first :: key.others, expected := .lineEnd }

/-- Begin one more of the tables of a header in double brackets. -/
def beginTables (b : Build) (key : Key) : Option Build :=
  (openTables key.split.1 key.split.2 b.document).map fun document =>
    { b with document, table := key.first :: key.others, expected := .lineEnd }

/-- A key is complete and a symbol follows it. -/
def endKey (b : Build) (role : KeyRole) (key : Key) (symbol : Symbol) : Option Build :=
  match role, symbol with
  | .entry, .equals => some { b with key, expected := .value }
  | .inner, .equals =>
    match b.stack with
    | .table fields _ :: outer =>
      some { b with stack := .table fields key :: outer, expected := .value }
    | _ => none
  | .header, .rightBracket => b.beginTable key
  | .headers, .rightBracket => some { b with expected := .secondBracket key }
  | _, _ => none

/-- Whether a symbol separates what is open without meaning: blanks, and in arrays line ends. -/
def isSkipped (b : Build) : Symbol → Bool
  | .blank _ => true
  | .newline =>
    match b.stack with
    | .array _ :: _ => true
    | _ => false
  | _ => false

/-- Read a symbol that is not part of an unquoted value. -/
def takeSymbol (b : Build) (symbol : Symbol) : Option Build :=
  match b.expected with
  | .secondBracket key =>
    match symbol with
    | .rightBracket => b.beginTables key
    | _ => none
  | .bracketOrPart =>
    match symbol with
    | .leftBracket => some { b with expected := .part .headers [] }
    | .blank _ => some { b with expected := .part .header [] }
    | symbol => b.takePart .header [] symbol
  | expected =>
    if b.isSkipped symbol then some b
    else match expected with
      | .line =>
        match symbol with
        | .newline => some b
        | .leftBracket => some { b with expected := .bracketOrPart }
        | symbol => b.takePart .entry [] symbol
      | .lineEnd =>
        match symbol with
        | .newline => some { b with expected := .line }
        | _ => none
      | .part role parts => b.takePart role parts symbol
      | .dotOrEnd role last parts =>
        match symbol with
        | .dot => some { b with expected := .part role (last :: parts) }
        | symbol => (key? last parts).bind fun key => b.endKey role key symbol
      | .value => b.startValue symbol
      | .valueOrEnd => (b.closeOne symbol).or (b.startValue symbol)
      | .keyOrEnd => (b.closeOne symbol).or (b.takePart .inner [] symbol)
      | .commaOrEnd =>
        match symbol, b.stack with
        | .comma, .array _ :: _ => some { b with expected := .valueOrEnd }
        | .comma, .table _ _ :: _ => some { b with expected := .part .inner [] }
        | symbol, _ => b.closeOne symbol
      | _ => none

/-- An unquoted value is complete. -/
def completeUnquoted (b : Build) (read : List Char) : Option Build :=
  (scalar? read).bind b.complete

/-- Read one symbol. -/
def readSymbol (b : Build) (symbol : Symbol) : Option Build :=
  match b.expected with
  | .unquoted read =>
    match symbol with
    | .word text => some { b with expected := .unquoted (read ++ text) }
    | .dot => some { b with expected := .unquoted (read ++ ['.']) }
    | .blank ' ' =>
      if isDate read then some { b with expected := .time read } else b.completeUnquoted read
    | symbol => (b.completeUnquoted read).bind (·.takeSymbol symbol)
  | .time read =>
    match symbol with
    | .word text => some { b with expected := .unquoted (read ++ ' ' :: text) }
    | symbol => (b.completeUnquoted read).bind (·.takeSymbol symbol)
  | _ => b.takeSymbol symbol

/-- The document, if the text may end here. -/
def finish (b : Build) : Option Fields := do
  let b ← match b.expected with
    | .unquoted read | .time read => b.completeUnquoted read
    | _ => some b
  match b.expected with
  | .line | .lineEnd => some b.document
  | _ => none

end Build

/-- A text without the mark that may stand before all else. -/
def dropByteOrderMark : List Char → List Char
  | '\ufeff' :: rest => rest
  | cs => cs

/-- The document that a text denotes, if it is TOML. -/
def parse? (s : String) : Option Fields := do
  let symbols ← symbols? (dropByteOrderMark s.toList)
  let b ← symbols.foldlM Build.readSymbol .initial
  b.finish

end AbapLowering.Toml
