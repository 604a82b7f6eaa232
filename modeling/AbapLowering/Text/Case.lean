import AbapLowering.Text.Case.Data

/-!
# Upper and lower case

Full case mapping of a text: one character may become several, and a capital sigma at the end of a
word becomes a final sigma. Beside it stands the comparison that folds the letters A to Z only.
-/

namespace AbapLowering.Text

/-- Whether `n` lies in one of the runs. -/
def inRuns (runs : List (Nat × Nat)) (n : Nat) : Bool :=
  runs.any fun run => run.1 ≤ n && n ≤ run.2

/-- The character `n` is mapped to by the first range that holds it, else itself. -/
def mapByRanges (ranges : List CaseRange) (n : Nat) : Nat :=
  match ranges.find? fun r => r.first ≤ n && n ≤ r.last && (n - r.first) % r.step == 0 with
  | some r => (n + r.shift).toNat
  | none => n

/-- A letter A to Z in lower case, any other character unchanged. -/
def lowerAscii (c : Char) : Char :=
  if 65 ≤ c.toNat ∧ c.toNat ≤ 90 then Char.ofNat (c.toNat + 32) else c

/-- A letter a to z in upper case, any other character unchanged. -/
def upperAscii (c : Char) : Char :=
  if 97 ≤ c.toNat ∧ c.toNat ≤ 122 then Char.ofNat (c.toNat - 32) else c

/-- Lower case form of a character, whatever stands around it. -/
def lowerChar (c : Char) : List Char :=
  if c.toNat < 128 then [lowerAscii c]
  else if c.toNat = 0x130 then ['i', '\u0307']
  else [Char.ofNat (mapByRanges lowerRanges c.toNat)]

/-- Upper case form of a character. -/
def upperChar (c : Char) : List Char :=
  if c.toNat < 128 then [upperAscii c]
  else match upperExpansions.lookup c.toNat with
    | some several => several.map Char.ofNat
    | none => [Char.ofNat (mapByRanges upperRanges c.toNat)]

/-- Whether the first character that is not ignored for case has case. -/
def casedNext (cs : List Char) : Bool :=
  match cs.dropWhile fun c => inRuns caseIgnorableRuns c.toNat with
  | c :: _ => inRuns casedRuns c.toNat
  | [] => false

/-- Lower case of the rest of a text; `before` is what came before it, last character first. A
capital sigma with a cased character before it and none after it ends a word. -/
def lowerFrom (before : List Char) : List Char → List Char
  | [] => []
  | c :: rest =>
    (if c = 'Σ' then [if casedNext before && !casedNext rest then 'ς' else 'σ'] else lowerChar c)
      ++ lowerFrom (c :: before) rest

/-- A text in lower case. -/
def toLower (s : String) : String :=
  String.ofList (lowerFrom [] s.toList)

/-- A text in upper case. -/
def toUpper (s : String) : String :=
  String.ofList (s.toList.flatMap upperChar)

/-- Equality of texts up to the case of the letters A to Z. -/
def sameIgnoringCase (s t : String) : Bool :=
  s.toList.map lowerAscii == t.toList.map lowerAscii

end AbapLowering.Text
