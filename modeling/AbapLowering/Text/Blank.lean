/-!
# Blank characters and trimming

The blank characters are those with the property White_Space. Trimming drops them at one or both
ends of a text; the width of the blank start of a line is counted in UTF-8 bytes.
-/

namespace AbapLowering.Text

/-- A character with the property White_Space. U+200B and U+FEFF are not among them. -/
def isBlank (c : Char) : Bool :=
  let n := c.toNat
  (9 ≤ n && n ≤ 13) || n == 0x20 || n == 0x85 || n == 0xa0 || n == 0x1680
    || (0x2000 ≤ n && n ≤ 0x200a) || n == 0x2028 || n == 0x2029 || n == 0x202f || n == 0x205f
    || n == 0x3000

/-- Drop the characters at the end of a text that satisfy `p`. -/
def dropEnd (p : Char → Bool) (cs : List Char) : List Char :=
  (cs.reverse.dropWhile p).reverse

/-- Drop the blank characters at both ends. -/
def trimChars (cs : List Char) : List Char :=
  dropEnd isBlank (cs.dropWhile isBlank)

/-- Drop the blank characters at both ends of a text. -/
def trim (s : String) : String :=
  String.ofList (trimChars s.toList)

/-- Drop every `c` at the start of a text. -/
def dropLeading (c : Char) (s : String) : String :=
  String.ofList (s.toList.dropWhile (· == c))

/-- Drop every `c` at the end of a text. -/
def dropTrailing (c : Char) (s : String) : String :=
  String.ofList (dropEnd (· == c) s.toList)

/-- Number of UTF-8 bytes of a text. -/
def byteLength (cs : List Char) : Nat :=
  cs.foldr (fun c n => c.utf8Size + n) 0

/-- UTF-8 bytes of the blank start of a line. -/
def blankWidth (line : List Char) : Nat :=
  byteLength (line.takeWhile isBlank)

end AbapLowering.Text
