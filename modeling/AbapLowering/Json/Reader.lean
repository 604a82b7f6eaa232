import AbapLowering.Json.Basic

/-!
# Reading JSON

A text is read in two passes, each a fold that stops at the first fault. The first cuts the
characters into symbols: brackets, commas, colons and the values that are neither array nor object.
The second builds the value from the symbols on a stack of open arrays and objects, which may hold
at most `maxDepth` of them.
-/

namespace AbapLowering.Json

/-- Arrays and objects may be nested this deep. -/
def maxDepth : Nat := 127

/-- What the characters of a text are cut into. -/
inductive Symbol where
  | leftBracket
  | rightBracket
  | leftBrace
  | rightBrace
  | comma
  | colon
  | scalar (value : Json)

/-! ## Numbers and words -/

/-- Decimal digits at the start and what follows them. -/
def spanDigits (cs : List Char) : List Char × List Char :=
  cs.span Char.isDigit

/-- Value of decimal digits. -/
def digitsValue (cs : List Char) : Nat :=
  cs.foldl (fun n c => 10 * n + (c.toNat - 48)) 0

/-- An exponent: a mark, an optional sign and at least one digit; or nothing. -/
def isExponent : List Char → Bool
  | [] => true
  | mark :: rest =>
    (mark == 'e' || mark == 'E') &&
      (match rest with
        | '+' :: digits | '-' :: digits => !digits.isEmpty && digits.all Char.isDigit
        | digits => !digits.isEmpty && digits.all Char.isDigit)

/-- What may follow the integer part of a number: a fraction, an exponent, both or none. -/
def isNumberTail : List Char → Bool
  | '.' :: rest =>
    let (digits, exponent) := spanDigits rest
    !digits.isEmpty && isExponent exponent
  | rest => isExponent rest

/-- A number from its text. The integer part has no leading zero; `-0` is no integer. -/
def number? (word : List Char) : Option Json :=
  let (negative, unsigned) := match word with
    | '-' :: rest => (true, rest)
    | rest => (false, rest)
  let (digits, tail) := spanDigits unsigned
  let wellFormed := match digits with
    | [] => false
    | '0' :: _ :: _ => false
    | _ => isNumberTail tail
  if !wellFormed then none
  else if tail.isEmpty && !(negative && digits == ['0']) then
    some (.int (if negative then -(digitsValue digits : Int) else digitsValue digits))
  else some (.real (String.ofList word))

/-- The value of a word: a number or one of the three names. -/
def word? (word : List Char) : Option Json :=
  if word == "null".toList then some .null
  else if word == "true".toList then some (.bool true)
  else if word == "false".toList then some (.bool false)
  else number? word

/-! ## From characters to symbols -/

/-- Where the reader of characters stands. Texts are kept with the last character first. -/
inductive Place where
  | between
  | word (read : List Char)
  | text (read : List Char)
  | escape (read : List Char)
  /-- Inside the four hex digits of an escape; `high` is the first half of a pair. -/
  | code (read : List Char) (high : Option Nat) (digits value : Nat)
  /-- After the first half of a pair the second must follow. -/
  | pair (read : List Char) (high : Nat) (escaped : Bool)

/-- Symbols read so far, last one first, and the place inside the next. -/
structure Cut where
  symbols : List Symbol
  place : Place

/-- The character a letter after a backslash stands for. -/
def escapedChar? (c : Char) : Option Char :=
  if c = '\x22' ∨ c = '\\' ∨ c = '/' then some c
  else if c = 'b' then some '\x08'
  else if c = 'f' then some '\x0c'
  else if c = 'n' then some '\n'
  else if c = 'r' then some '\r'
  else if c = 't' then some '\t'
  else none

/-- Value of a hex digit. -/
def hexValue? (c : Char) : Option Nat :=
  let n := c.toNat
  if 48 ≤ n ∧ n ≤ 57 then some (n - 48)
  else if 97 ≤ n ∧ n ≤ 102 then some (n - 87)
  else if 65 ≤ n ∧ n ≤ 70 then some (n - 55)
  else none

/-- The place after four hex digits: a character is complete, or the first half of a pair is. A half
without its partner is refused. -/
def afterCode (read : List Char) (high : Option Nat) (value : Nat) : Option Place :=
  let isHigh := 0xd800 ≤ value ∧ value ≤ 0xdbff
  let isLow := 0xdc00 ≤ value ∧ value ≤ 0xdfff
  match high with
  | none =>
    if isHigh then some (.pair read value false)
    else if isLow then none
    else some (.text (Char.ofNat value :: read))
  | some h =>
    if isLow then
      some (.text (Char.ofNat (0x10000 + (h - 0xd800) * 0x400 + (value - 0xdc00)) :: read))
    else none

/-- A character between two symbols: it starts the next symbol, is one itself, or separates. -/
def startSymbol (symbols : List Symbol) (c : Char) : Cut :=
  if c = '[' then ⟨.leftBracket :: symbols, .between⟩
  else if c = ']' then ⟨.rightBracket :: symbols, .between⟩
  else if c = '\x7b' then ⟨.leftBrace :: symbols, .between⟩
  else if c = '\x7d' then ⟨.rightBrace :: symbols, .between⟩
  else if c = ',' then ⟨.comma :: symbols, .between⟩
  else if c = ':' then ⟨.colon :: symbols, .between⟩
  else if c = '\x22' then ⟨symbols, .text []⟩
  else if c = ' ' ∨ c = '\t' ∨ c = '\n' ∨ c = '\r' then ⟨symbols, .between⟩
  else ⟨symbols, .word [c]⟩

/-- Characters that end a word. -/
def endsWord (c : Char) : Bool :=
  c == '[' || c == ']' || c == '\x7b' || c == '\x7d' || c == ',' || c == ':' || c == '\x22'
    || c == ' ' || c == '\t' || c == '\n' || c == '\r'

/-- Read one character. -/
def cutChar (cut : Cut) (c : Char) : Option Cut :=
  match cut.place with
  | .between => some (startSymbol cut.symbols c)
  | .word read =>
    if endsWord c then
      (word? read.reverse).map fun value => startSymbol (.scalar value :: cut.symbols) c
    else some ⟨cut.symbols, .word (c :: read)⟩
  | .text read =>
    if c = '\x22' then some ⟨.scalar (.str (String.ofList read.reverse)) :: cut.symbols, .between⟩
    else if c = '\\' then some ⟨cut.symbols, .escape read⟩
    else if c.toNat < 32 then none
    else some ⟨cut.symbols, .text (c :: read)⟩
  | .escape read =>
    if c = 'u' then some ⟨cut.symbols, .code read none 0 0⟩
    else (escapedChar? c).map fun d => ⟨cut.symbols, .text (d :: read)⟩
  | .code read high digits value => do
    let digit ← hexValue? c
    let value := 16 * value + digit
    if digits < 3 then some ⟨cut.symbols, .code read high (digits + 1) value⟩
    else (afterCode read high value).map fun place => ⟨cut.symbols, place⟩
  | .pair read high escaped =>
    if escaped then
      if c = 'u' then some ⟨cut.symbols, .code read (some high) 0 0⟩ else none
    else if c = '\\' then some ⟨cut.symbols, .pair read high true⟩
    else none

/-- The symbols of a text. -/
def symbols? (cs : List Char) : Option (List Symbol) := do
  let cut ← cs.foldlM cutChar ⟨[], .between⟩
  match cut.place with
  | .between => some cut.symbols.reverse
  | .word read => (word? read.reverse).map fun value => (.scalar value :: cut.symbols).reverse
  | _ => none

/-! ## From symbols to a value -/

/-- An open array or object, last entry first; an object waits for the value of `key`. -/
inductive Open where
  | array (items : List Json)
  | object (fields : List (String × Json)) (key : String)

/-- What may come next. -/
inductive Expected where
  | value
  | valueOrEnd
  | keyOrEnd
  | key
  | colon
  | commaOrEnd
  | nothing (result : Json)

/-- The open arrays and objects, innermost first, and what may come next. -/
structure Build where
  stack : List Open
  expected : Expected

/-- A value is complete: it is the result or goes into what is open. -/
def complete (stack : List Open) (value : Json) : Build :=
  match stack with
  | [] => ⟨[], .nothing value⟩
  | .array items :: outer => ⟨.array (value :: items) :: outer, .commaOrEnd⟩
  | .object fields key :: outer => ⟨.object ((key, value) :: fields) "" :: outer, .commaOrEnd⟩

/-- Open one more array or object unless too many are open. -/
def openOne (stack : List Open) (next : Open) (expected : Expected) : Option Build :=
  if stack.length < maxDepth then some ⟨next :: stack, expected⟩ else none

/-- A value is expected and `symbol` starts it. -/
def startValue (stack : List Open) : Symbol → Option Build
  | .scalar value => some (complete stack value)
  | .leftBracket => openOne stack (.array []) .valueOrEnd
  | .leftBrace => openOne stack (.object [] "") .keyOrEnd
  | _ => none

/-- The name of a field has been read. -/
def takeKey (stack : List Open) : Symbol → Option Build
  | .scalar (.str key) =>
    match stack with
    | .object fields _ :: outer => some ⟨.object fields key :: outer, .colon⟩
    | _ => none
  | _ => none

/-- Close the innermost array or object. -/
def closeOne (stack : List Open) : Symbol → Option Build
  | .rightBracket =>
    match stack with
    | .array items :: outer => some (complete outer (.arr items.reverse))
    | _ => none
  | .rightBrace =>
    match stack with
    | .object fields _ :: outer => some (complete outer (.obj fields.reverse))
    | _ => none
  | _ => none

/-- Read one symbol. -/
def buildSymbol (build : Build) (symbol : Symbol) : Option Build :=
  match build.expected with
  | .value => startValue build.stack symbol
  | .valueOrEnd => (closeOne build.stack symbol).or (startValue build.stack symbol)
  | .keyOrEnd => (closeOne build.stack symbol).or (takeKey build.stack symbol)
  | .key => takeKey build.stack symbol
  | .colon =>
    match symbol with
    | .colon => some ⟨build.stack, .value⟩
    | _ => none
  | .commaOrEnd =>
    match symbol, build.stack with
    | .comma, .array _ :: _ => some ⟨build.stack, .value⟩
    | .comma, .object _ _ :: _ => some ⟨build.stack, .key⟩
    | symbol, stack => closeOne stack symbol
  | .nothing _ => none

/-- The value that a text denotes, if it is JSON. -/
def parse? (s : String) : Option Json := do
  let symbols ← symbols? s.toList
  let build ← symbols.foldlM buildSymbol ⟨[], .value⟩
  match build.expected with
  | .nothing result => some result
  | _ => none

end AbapLowering.Json
