import AbapLowering.Toml.Basic

/-!
# Writing TOML

A text is written in the first of these forms that can hold it: in double quotes without any escape,
in single quotes, in three double quotes without any escape, in three single quotes, and else in
double quotes with escapes. A tab is written as an escape wherever there are escapes.
-/

namespace AbapLowering.Toml

/-- The longest run of a character. -/
def longestRun (mark : Char) (cs : List Char) : Nat :=
  (cs.foldl (fun (longest, current) c =>
    let current := if c = mark then current + 1 else 0
    (max longest current, current)) (0, 0)).1

/-- Control characters that only an escape can stand for. -/
def needsEscape (c : Char) : Bool :=
  c != '\t' && c != '\n' && (c.toNat < 32 || c.toNat == 127)

/-- A hex digit, letters in upper case. -/
def upperHexDigit (n : Nat) : Char :=
  if n < 10 then Char.ofNat (48 + n) else Char.ofNat (55 + n)

/-- The escape of a character that does not stand for itself in double quotes. -/
def escapeOf? (c : Char) : Option (List Char) :=
  if c = '\x08' then some ['\\', 'b']
  else if c = '\t' then some ['\\', 't']
  else if c = '\n' then some ['\\', 'n']
  else if c = '\x0c' then some ['\\', 'f']
  else if c = '\r' then some ['\\', 'r']
  else if c = '\\' then some ['\\', '\\']
  else if c.toNat < 32 || c.toNat == 127 then
    some ['\\', 'u', '0', '0', upperHexDigit (c.toNat / 16), upperHexDigit (c.toNat % 16)]
  else none

/-- Characters between double quotes. Of a run of quotes each after the first `allowed` is escaped,
and a quote that follows an escape begins a run. -/
def escapeText (isLong : Bool) (allowed : Nat) : Nat → List Char → List Char
  | _, [] => []
  | run, c :: rest =>
    if c = '\x22' then
      if run < allowed then c :: escapeText isLong allowed (run + 1) rest
      else '\\' :: c :: escapeText isLong allowed 0 rest
    else if isLong && c == '\n' then c :: escapeText isLong allowed 0 rest
    else (escapeOf? c).getD [c] ++ escapeText isLong allowed 0 rest

/-- The marks and the line end that begins a text over several lines. -/
def longForm (mark : String) (cs : List Char) (text : List Char) : String :=
  mark ++ (if cs.contains '\n' then "\n" else "") ++ String.ofList text ++ mark

/-- A text as it is written. -/
def quote (s : String) : String :=
  let cs := s.toList
  let hasControl := cs.any needsEscape
  let hasBackslash := cs.contains '\\'
  let hasLineFeed := cs.contains '\n'
  let double := longestRun '\x22' cs
  let single := longestRun '\x27' cs
  if !hasControl && !hasBackslash && double == 0 && !hasLineFeed then
    "\"" ++ String.ofList (escapeText false 0 0 cs) ++ "\""
  else if !hasControl && single == 0 && !hasLineFeed then "'" ++ s ++ "'"
  else if !hasControl && !hasBackslash && double ≤ 2 then
    longForm "\"\"\"" cs (escapeText true 2 0 cs)
  else if !hasControl && single ≤ 2 then longForm "'''" cs cs
  else if hasLineFeed then longForm "\"\"\"" cs (escapeText true 2 0 cs)
  else "\"" ++ String.ofList (escapeText false 0 0 cs) ++ "\""

/-- A value that is neither array nor table, as it is written. -/
def scalarText : Toml → String
  | .str s => quote s
  | .int n => toString n
  | .float text | .dateTime text => text
  | .bool true => "true"
  | .bool false => "false"
  | .arr _ | .table _ _ | .tables _ _ => ""

/-- Lines that give keys their values. -/
def writeLines (fields : Fields) : String :=
  String.join (fields.map fun (key, value) => key ++ " = " ++ scalarText value ++ "\n")

end AbapLowering.Toml
