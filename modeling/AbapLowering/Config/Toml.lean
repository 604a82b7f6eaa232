import AbapLowering.Config
import AbapLowering.Toml.Reader
import AbapLowering.Toml.Writer

/-!
# Configuration files

A configuration is kept as a TOML document with a key for each choice. Keys that are missing stand
for the standard, other keys are passed over, and a key with a value of the wrong type is refused.
-/

namespace AbapLowering

namespace Toml

/-- Whether a value is an array or a table without anything in it. -/
def isEmptyCollection : Toml → Bool
  | .arr items => items.isEmpty
  | .table _ fields => fields.isEmpty
  | _ => false

/-- The variant that a value names: by its text, or as the only key of a table, under which there is
nothing more. -/
def variant? : Toml → Option String
  | .str name => some name
  | .table _ [(name, value)] => if value.isEmptyCollection then some name else none
  | _ => none

/-- A truth value. -/
def bool? : Toml → Option Bool
  | .bool b => some b
  | _ => none

/-- A text. -/
def text? : Toml → Option String
  | .str s => some s
  | _ => none

/-- The value of a key, or a default where there is no such key. -/
def Fields.getD {α : Type} (fields : Fields) (key : String) (default : α)
    (read : Toml → Option α) : Option α :=
  match fields.lookup key with
  | none => some default
  | some value => read value

end Toml

/-- The way to handle unknown types that a value names. -/
def UnknownTypes.ofToml? (value : Toml) : Option UnknownTypes := do
  let name ← value.variant?
  [compileError, runtimeError].find? fun u => u.tag == name

namespace Config

/-- The configuration that a document describes. -/
def ofToml? (fields : Toml.Fields) : Option Config := do
  some {
    unknownTypes := ← fields.getD "unknown_types" standard.unknownTypes UnknownTypes.ofToml?
    indent := ← fields.getD "indent" standard.indent Toml.bool?
    sourceMaps := ← fields.getD "source_maps" standard.sourceMaps Toml.bool?
    constantsPrelude := ← fields.getD "constants_prelude" standard.constantsPrelude Toml.bool?
    checkFallbackExceptions :=
      ← fields.getD "check_fallback_exceptions" standard.checkFallbackExceptions Toml.bool?
    skipRegistration := ← fields.getD "skip_registration" standard.skipRegistration Toml.bool?
    outputDir := ← fields.getD "output_dir" none fun value => value.text?.map some }

/-- The document that describes a configuration. -/
def toToml (c : Config) : Toml.Fields :=
  [("unknown_types", .str c.unknownTypes.tag), ("indent", .bool c.indent),
    ("source_maps", .bool c.sourceMaps), ("constants_prelude", .bool c.constantsPrelude),
    ("check_fallback_exceptions", .bool c.checkFallbackExceptions),
    ("skip_registration", .bool c.skipRegistration)]
    ++ (c.outputDir.map fun dir => ("output_dir", Toml.str dir)).toList

/-- The document that describes a configuration gives it back. -/
@[simp] theorem ofToml?_toToml (c : Config) : ofToml? c.toToml = some c := by
  obtain ⟨unknown, _, _, _, _, _, dir⟩ := c
  cases unknown <;> cases dir <;> rfl

/-- The configuration in the text of a file. -/
def parse? (text : String) : Option Config :=
  (Toml.parse? text).bind ofToml?

/-- The text of the file for a configuration. -/
def text (c : Config) : String := Toml.writeLines c.toToml

end Config

end AbapLowering
