import AbapLowering.Toml.Basic

/-!
# Symbols of a TOML text

A text is cut into brackets, separators, line ends, blanks, quoted texts and words by a fold over
its characters that stops at the first fault. Comments vanish. A quoted text comes without its
quotes, its escapes replaced; text in three quotes may run over several lines, of which each ends
with a line feed however it is written.
-/

namespace AbapLowering.Toml

/-- What the characters of a text are cut into. -/
inductive Symbol where
  | leftBracket
  | rightBracket
  | leftBrace
  | rightBrace
  | comma
  | equals
  | dot
  | newline
  | blank (c : Char)
  | word (text : List Char)
  /-- A quoted text, on one line or in three quotes. -/
  | quoted (text : String) (isLong : Bool)

/-- How a text is quoted. -/
inductive Quotation where
  /-- In double quotes; a backslash begins an escape. -/
  | basic
  /-- In single quotes; every character stands for itself. -/
  | literal
  deriving DecidableEq

/-- The quote. -/
def Quotation.mark : Quotation → Char
  | .basic => '\x22'
  | .literal => '\x27'

/-- Where the reader of characters stands. Texts are kept with the last character first. -/
inductive Place where
  | between
  /-- After a carriage return only a line feed may come. -/
  | afterReturn
  | comment
  | word (read : List Char)
  /-- After one or two quotes, with which a text begins. -/
  | opening (q : Quotation) (count : Nat)
  | text (q : Quotation) (read : List Char)
  /-- Inside three quotes; `marks` quotes were just met, which may end the text. -/
  | long (q : Quotation) (read : List Char) (marks : Nat)
  /-- After three quotes a line end is passed over. -/
  | longStart (q : Quotation)
  /-- After a carriage return inside or at the start of three quotes. -/
  | longReturn (q : Quotation) (read : List Char) (atStart : Bool)
  | escape (isLong : Bool) (read : List Char)
  /-- Inside the hex digits of an escape, of which `left` more must come. -/
  | code (isLong : Bool) (read : List Char) (left value : Nat)
  /-- Passing over blanks and line ends after a backslash; `broken` once a line has ended. -/
  | trim (read : List Char) (broken returned : Bool)

/-- Symbols read so far, last one first, and the place inside the next. -/
structure Cut where
  symbols : List Symbol
  place : Place

/-- Characters that stand for themselves in comments and in quotes of all kinds: the tab, and all
that are not control characters of the lowest 128. -/
def isPlain (c : Char) : Bool :=
  c == '\t' || (32 ≤ c.toNat && c.toNat != 127)

/-- Characters of a word. -/
def isWordChar (c : Char) : Bool :=
  c.isAlphanum || c == '_' || c == '-' || c == '+' || c == ':'

/-- Characters that separate without ending a line. -/
def isBlank (c : Char) : Bool := c == ' ' || c == '\t'

/-- A character between two symbols. -/
def startSymbol (symbols : List Symbol) (c : Char) : Option Cut :=
  if c = '[' then some ⟨.leftBracket :: symbols, .between⟩
  else if c = ']' then some ⟨.rightBracket :: symbols, .between⟩
  else if c = '\x7b' then some ⟨.leftBrace :: symbols, .between⟩
  else if c = '\x7d' then some ⟨.rightBrace :: symbols, .between⟩
  else if c = ',' then some ⟨.comma :: symbols, .between⟩
  else if c = '=' then some ⟨.equals :: symbols, .between⟩
  else if c = '.' then some ⟨.dot :: symbols, .between⟩
  else if c = '\n' then some ⟨.newline :: symbols, .between⟩
  else if c = '\r' then some ⟨symbols, .afterReturn⟩
  else if c = '#' then some ⟨symbols, .comment⟩
  else if c = Quotation.basic.mark then some ⟨symbols, .opening .basic 1⟩
  else if c = Quotation.literal.mark then some ⟨symbols, .opening .literal 1⟩
  else if isBlank c then some ⟨.blank c :: symbols, .between⟩
  else if isWordChar c then some ⟨symbols, .word [c]⟩
  else none

/-- A quoted text is complete. -/
def closeText (symbols : List Symbol) (read : List Char) (isLong : Bool) : List Symbol :=
  .quoted (String.ofList read.reverse) isLong :: symbols

/-- The character a letter after a backslash stands for. -/
def escaped? (c : Char) : Option Char :=
  if c = '\x22' ∨ c = '\\' then some c
  else if c = 'b' then some '\x08'
  else if c = 'f' then some '\x0c'
  else if c = 'n' then some '\n'
  else if c = 'r' then some '\r'
  else if c = 't' then some '\t'
  else none

/-- Value of a hex digit. -/
def hexDigit? (c : Char) : Option Nat :=
  let n := c.toNat
  if 48 ≤ n ∧ n ≤ 57 then some (n - 48)
  else if 97 ≤ n ∧ n ≤ 102 then some (n - 87)
  else if 65 ≤ n ∧ n ≤ 70 then some (n - 55)
  else none

/-- The place after characters of a text with escapes. -/
def resume (isLong : Bool) (read : List Char) : Place :=
  if isLong then .long .basic read 0 else .text .basic read

/-- A character of a text on one line. -/
def textChar (symbols : List Symbol) (q : Quotation) (read : List Char) (c : Char) : Option Cut :=
  if c = q.mark then some ⟨closeText symbols read false, .between⟩
  else if q = .basic ∧ c = '\\' then some ⟨symbols, .escape false read⟩
  else if isPlain c then some ⟨symbols, .text q (c :: read)⟩
  else none

/-- A character inside three quotes. Up to two quotes belong to the text; of three to five the last
three end it. -/
def longChar (symbols : List Symbol) (q : Quotation) (read : List Char) (marks : Nat) (c : Char) :
    Option Cut :=
  if c = q.mark then
    if marks < 5 then some ⟨symbols, .long q read (marks + 1)⟩ else none
  else if 3 ≤ marks then
    startSymbol (closeText symbols (List.replicate (marks - 3) q.mark ++ read) true) c
  else
    let read := List.replicate marks q.mark ++ read
    if c = '\n' then some ⟨symbols, .long q (c :: read) 0⟩
    else if c = '\r' then some ⟨symbols, .longReturn q read false⟩
    else if q = .basic ∧ c = '\\' then some ⟨symbols, .escape true read⟩
    else if isPlain c then some ⟨symbols, .long q (c :: read) 0⟩
    else none

/-- A character after a backslash. -/
def escapeChar (symbols : List Symbol) (isLong : Bool) (read : List Char) (c : Char) :
    Option Cut :=
  if c = 'u' then some ⟨symbols, .code isLong read 4 0⟩
  else if c = 'U' then some ⟨symbols, .code isLong read 8 0⟩
  else if isLong && isBlank c then some ⟨symbols, .trim read false false⟩
  else if isLong && c == '\n' then some ⟨symbols, .trim read true false⟩
  else if isLong && c == '\r' then some ⟨symbols, .trim read true true⟩
  else (escaped? c).map fun d => ⟨symbols, resume isLong (d :: read)⟩

/-- A hex digit of an escape; after the last one the number must be that of a character. -/
def codeChar (symbols : List Symbol) (isLong : Bool) (read : List Char) (left value : Nat)
    (c : Char) : Option Cut := do
  let value := 16 * value + (← hexDigit? c)
  if 1 < left then some ⟨symbols, .code isLong read (left - 1) value⟩
  else if value.isValidChar then
    some ⟨symbols, resume isLong (Char.ofNat value :: read)⟩
  else none

/-- A character after a backslash at the end of a line. -/
def trimChar (symbols : List Symbol) (read : List Char) (broken returned : Bool) (c : Char) :
    Option Cut :=
  if returned then
    if c = '\n' then some ⟨symbols, .trim read true false⟩ else none
  else if isBlank c then some ⟨symbols, .trim read broken false⟩
  else if c = '\n' then some ⟨symbols, .trim read true false⟩
  else if c = '\r' then some ⟨symbols, .trim read true true⟩
  else if broken then longChar symbols .basic read 0 c
  else none

/-- Read one character. -/
def cutChar (cut : Cut) (c : Char) : Option Cut :=
  let symbols := cut.symbols
  match cut.place with
  | .between => startSymbol symbols c
  | .afterReturn => if c = '\n' then some ⟨.newline :: symbols, .between⟩ else none
  | .comment =>
    if c = '\n' then some ⟨.newline :: symbols, .between⟩
    else if c = '\r' then some ⟨symbols, .afterReturn⟩
    else if isPlain c then some ⟨symbols, .comment⟩
    else none
  | .word read =>
    if isWordChar c then some ⟨symbols, .word (c :: read)⟩
    else startSymbol (.word read.reverse :: symbols) c
  | .opening q count =>
    if count < 2 then
      if c = q.mark then some ⟨symbols, .opening q 2⟩ else textChar symbols q [] c
    else if c = q.mark then some ⟨symbols, .longStart q⟩
    else startSymbol (closeText symbols [] false) c
  | .text q read => textChar symbols q read c
  | .long q read marks => longChar symbols q read marks c
  | .longStart q =>
    if c = '\n' then some ⟨symbols, .long q [] 0⟩
    else if c = '\r' then some ⟨symbols, .longReturn q [] true⟩
    else longChar symbols q [] 0 c
  | .longReturn q read atStart =>
    if c = '\n' then some ⟨symbols, .long q (if atStart then read else '\n' :: read) 0⟩ else none
  | .escape isLong read => escapeChar symbols isLong read c
  | .code isLong read left value => codeChar symbols isLong read left value c
  | .trim read broken returned => trimChar symbols read broken returned c

/-- The symbols of a text. -/
def symbols? (cs : List Char) : Option (List Symbol) := do
  let cut ← cs.foldlM cutChar ⟨[], .between⟩
  match cut.place with
  | .between | .comment => some cut.symbols.reverse
  | .word read => some (.word read.reverse :: cut.symbols).reverse
  | .opening _ 2 => some (closeText cut.symbols [] false).reverse
  | .long q read marks =>
    if 3 ≤ marks then
      some (closeText cut.symbols (List.replicate (marks - 3) q.mark ++ read) true).reverse
    else none
  | _ => none

end AbapLowering.Toml
