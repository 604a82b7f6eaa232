import AbapLowering.Toml.Basic

/-!
# Unquoted values

A value that is written without quotes and brackets is a truth value, an integer, a float, or a date
or time. Which of them it is, is decided from its whole text.
-/

namespace AbapLowering.Toml

/-! ## Numbers -/

/-- Digits without the underscores, each of which stands between two digits. -/
def plainDigits? (isDigit : Char → Bool) : List Char → Option (List Char)
  | [] => none
  | [c] => if isDigit c then some [c] else none
  | c :: '_' :: rest => if isDigit c then (plainDigits? isDigit rest).map (c :: ·) else none
  | c :: rest => if isDigit c then (plainDigits? isDigit rest).map (c :: ·) else none

/-- Value of a digit, of either case. -/
def digitValue (c : Char) : Nat :=
  let n := c.toNat
  if n ≤ 57 then n - 48 else if n ≤ 70 then n - 55 else n - 87

/-- Value of digits in a base. -/
def digitsValue (base : Nat) (digits : List Char) : Nat :=
  digits.foldl (fun n c => base * n + digitValue c) 0

/-- Whether a character is a hex digit. -/
def isHexDigit (c : Char) : Bool :=
  c.isDigit || ('a' ≤ c && c ≤ 'f') || ('A' ≤ c && c ≤ 'F')

/-- Whether a character is a digit below a base of at most ten. -/
def isDigitBelow (base : Nat) (c : Char) : Bool :=
  c.isDigit && digitValue c < base

/-- A sign before a number: whether it is negative, and the number. -/
def unsigned : List Char → Bool × List Char
  | '-' :: rest => (true, rest)
  | '+' :: rest => (false, rest)
  | rest => (false, rest)

/-- The digits of a decimal integer, which has no leading zero. -/
def decimal? (cs : List Char) : Option (List Char) :=
  match cs with
  | '0' :: _ :: _ => none
  | cs => plainDigits? Char.isDigit cs

/-- The value of an integer without regard to its range. -/
def unbounded? (cs : List Char) : Option Int :=
  match cs with
  | '0' :: 'x' :: rest => (plainDigits? isHexDigit rest).map fun ds => digitsValue 16 ds
  | '0' :: 'o' :: rest => (plainDigits? (isDigitBelow 8) rest).map fun ds => digitsValue 8 ds
  | '0' :: 'b' :: rest => (plainDigits? (isDigitBelow 2) rest).map fun ds => digitsValue 2 ds
  | cs =>
    let (negative, digits) := unsigned cs
    (decimal? digits).map fun ds =>
      if negative then -(digitsValue 10 ds : Int) else digitsValue 10 ds

/-- The value of an integer of 64 bits. -/
def integer? (cs : List Char) : Option Int :=
  (unbounded? cs).filter fun n => Int64.minValue.toInt ≤ n && n ≤ Int64.maxValue.toInt

/-- An exponent behind its mark. -/
def exponent? (cs : List Char) : Option Int :=
  let (negative, digits) := unsigned cs
  (plainDigits? Char.isDigit digits).map fun ds =>
    if negative then -(digitsValue 10 ds : Int) else digitsValue 10 ds

/-- Whether `digits · 10 ^ power` is beyond the largest float of 64 bits, rounding to nearest. -/
def isTooLarge (digits : List Char) (power : Int) : Bool :=
  let digits := digits.dropWhile (· == '0')
  let magnitude := digits.length + power
  if digits.isEmpty || magnitude < 300 then false
  else if 400 < magnitude then true
  else
    let bound := Nat.pow 2 1024 - Nat.pow 2 970
    if 0 ≤ power then decide (bound ≤ digitsValue 10 digits * Nat.pow 10 power.toNat)
    else decide (bound * Nat.pow 10 (-power).toNat ≤ digitsValue 10 digits)

/-- Whether a mark of an exponent. -/
def isExponentMark (c : Char) : Bool := c == 'e' || c == 'E'

/-- Whether a text is a float with digits: an integer, then a fraction or an exponent or both. Only
below zero may it be too large. -/
def isDecimalFloat (cs : List Char) : Bool :=
  let (negative, cs) := unsigned cs
  let (whole, tail) := cs.span fun c => c != '.' && !isExponentMark c
  let (fraction, mark) := tail.span fun c => !isExponentMark c
  let fractionDigits := match fraction with
    | [] => some []
    | _ :: fraction => plainDigits? Char.isDigit fraction
  let power := match mark with
    | [] => some 0
    | _ :: cs => exponent? cs
  match decimal? whole, fractionDigits, power with
  | some whole, some fraction, some power =>
    !tail.isEmpty && (negative || !isTooLarge (whole ++ fraction) (power - fraction.length))
  | _, _, _ => false

/-- Whether a text is a float. -/
def isFloat (cs : List Char) : Bool :=
  let magnitude := (unsigned cs).2
  magnitude == ['i', 'n', 'f'] || magnitude == ['n', 'a', 'n'] || isDecimalFloat cs

/-! ## Dates and times -/

/-- A number of exactly `count` digits within bounds, and what follows it. -/
def spanNumber? (count lowest highest : Nat) (cs : List Char) : Option (Nat × List Char) :=
  let digits := cs.take count
  let value := digitsValue 10 digits
  if digits.length = count && digits.all Char.isDigit && lowest ≤ value && value ≤ highest then
    some (value, cs.drop count)
  else none

/-- What follows a mark. -/
def afterMark? (mark : Char) : List Char → Option (List Char)
  | c :: rest => if c = mark then some rest else none
  | [] => none

/-- Number of days of a month. -/
def daysOfMonth (year month : Nat) : Nat :=
  if month = 2 then
    if year % 4 = 0 && (year % 100 != 0 || year % 400 = 0) then 29 else 28
  else if month = 4 || month = 6 || month = 9 || month = 11 then 30
  else 31

/-- What follows a date. -/
def afterDate? (cs : List Char) : Option (List Char) := do
  let (year, cs) ← spanNumber? 4 0 9999 cs
  let (month, cs) ← spanNumber? 2 1 12 (← afterMark? '-' cs)
  let (_, cs) ← spanNumber? 2 1 (daysOfMonth year month) (← afterMark? '-' cs)
  return cs

/-- What follows a time of day. -/
def afterTime? (cs : List Char) : Option (List Char) := do
  let (_, cs) ← spanNumber? 2 0 23 cs
  let (_, cs) ← spanNumber? 2 0 59 (← afterMark? ':' cs)
  let (_, cs) ← spanNumber? 2 0 60 (← afterMark? ':' cs)
  match cs with
  | '.' :: cs =>
    let (digits, cs) := cs.span Char.isDigit
    if digits.isEmpty then none else return cs
  | cs => return cs

/-- Whether a text is the distance of a time from universal time; none is written for a local
time. -/
def isOffset (cs : List Char) : Bool :=
  match cs with
  | [] | ['Z'] | ['z'] => true
  | sign :: cs =>
    (sign == '+' || sign == '-') &&
      (do
        let (_, cs) ← spanNumber? 2 0 23 cs
        let (_, cs) ← spanNumber? 2 0 59 (← afterMark? ':' cs)
        return cs) == some []

/-- Whether a text is a date. -/
def isDate (cs : List Char) : Bool := afterDate? cs == some []

/-- Whether a text is a date, a time of day, or a date and a time. -/
def isDateTime (cs : List Char) : Bool :=
  match afterDate? cs with
  | some [] => true
  | some (mark :: cs) =>
    (mark == 'T' || mark == 't' || mark == ' ') && (afterTime? cs).any isOffset
  | none => afterTime? cs == some []

/-- The value of an unquoted text. -/
def scalar? (cs : List Char) : Option Toml :=
  if cs == "true".toList then some (.bool true)
  else if cs == "false".toList then some (.bool false)
  else if isDateTime cs then some (.dateTime (String.ofList cs))
  else if isFloat cs then some (.float (String.ofList cs))
  else (integer? cs).map .int

end AbapLowering.Toml
