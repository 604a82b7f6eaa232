import AbapLowering.Registry
import AbapLowering.Text.Blank
import AbapLowering.Text.Replace

/-!
# Identifiers and addresses

How names are spelled in emitted code, under which key a class or an interface is kept at run time,
and what the file of a unit is called. Every name goes through these functions, so one name always
has one spelling.
-/

namespace AbapLowering

namespace Identifier

/-- A name in lower case, with `$` for `~`. -/
def plain (name : String) : String :=
  String.ofList (Text.replaceChar '~' ['$'] (Text.toLower name).toList)

/-- A field symbol without its angle brackets, told apart from plain names by `fs_` and `_`. -/
def fieldSymbol (name : String) : String :=
  "fs_" ++ plain (Text.dropTrailing '>' (Text.dropLeading '<' name)) ++ "_"

/-- A member that comes from an interface. -/
def interfaceMember (interfaceName member : String) : String :=
  Text.toLower interfaceName ++ "$" ++ plain member

/-- A method; the constructor goes by another name, since that one has a meaning of its own. -/
def method (name : String) : String :=
  let name := plain name
  if name = "constructor" then "constructor_" else name

/-- The declared operand for an integer. -/
def integer (value : Int64) : String :=
  if value.toInt < 0 then "constant_minus_" ++ toString value.toInt.natAbs
  else "constant_" ++ toString value.toInt

/-- The `n`th temporary. They are counted in 32 bits: behind the last number the counter starts over
at zero. -/
def temporary (n : Nat) : String := "unique" ++ toString (UInt32.ofNat n)

end Identifier

/-! ## Classes at run time -/

namespace ClassKey

/-- The key of a global class or interface. -/
def global (name : String) : String := Text.toUpper name

/-- The key of a local class or interface: its name after that of the object it belongs to. -/
def ofOwner (owner : Option ObjectRef) (name : String) : String :=
  match owner with
  | some object => object.type.keyword ++ "-" ++ Text.toUpper object.name ++ "-" ++ Text.toUpper name
  | none => "NOT_FOUND-" ++ Text.toUpper name

/-- The key of a definition. -/
def ofDefinition (registry : Registry) (d : Definition) : String :=
  if d.isGlobal then global d.name else ofOwner (registry.ownerOf? d.file) d.name

/-- The class kept under a key. -/
def lookup (key : String) : String := "abap.Classes['" ++ key ++ "']"

/-- The line that keeps a class under a key. -/
def registration (key name : String) : String :=
  lookup key ++ " = " ++ Text.toLower name ++ ";"

end ClassKey

/-! ## Files -/

/-- The file for the code of a source file: `.js` in place of `.abap`, or after any other name. -/
def outputFile (file : String) : String :=
  match Text.beforeEnd? ".abap".toList file.toList with
  | some stem => String.ofList stem ++ ".js"
  | none => file ++ ".js"

end AbapLowering
