import AbapLowering.Json.Basic

/-!
# Configuration

What can be chosen for a run: how strict it is, what is added to the emitted code, and where it goes.
-/

namespace AbapLowering

/-- How a type that could not be resolved is handled. -/
inductive UnknownTypes where
  /-- The unit is given up. -/
  | compileError
  /-- The type is left open, so that only code that touches the value fails. -/
  | runtimeError
  deriving DecidableEq

/-- The tag of a way to handle unknown types. -/
def UnknownTypes.tag : UnknownTypes → String
  | .compileError => "compile-error"
  | .runtimeError => "runtime-error"

instance : Codec UnknownTypes := .ofNames [.compileError, .runtimeError] UnknownTypes.tag

/-- What can be chosen for a run. -/
structure Config where
  unknownTypes : UnknownTypes
  /-- Indent the code by its braces. -/
  indent : Bool
  /-- Make a position map for each unit. -/
  sourceMaps : Bool
  /-- Declare the integers of a unit at its top. -/
  constantsPrelude : Bool
  /-- Refuse dynamic calls whose exception class is not registered. -/
  checkFallbackExceptions : Bool
  /-- Leave out the lines that register classes. -/
  skipRegistration : Bool
  outputDir : Option String
  deriving DecidableEq

/-- What lowering does to a unit, in this order. -/
inductive Stage where
  | validate
  | traverse
  | prelude
  | register
  | indent
  | positionMap
  deriving DecidableEq

namespace Config

/-- The configuration that holds where nothing is chosen. -/
def standard : Config :=
  { unknownTypes := .compileError
    indent := true
    sourceMaps := false
    constantsPrelude := true
    checkFallbackExceptions := false
    skipRegistration := false
    outputDir := none }

instance : Inhabited Config := ⟨standard⟩

/-- Whether unknown types are left to run time. -/
def isLenient (c : Config) : Bool := c.unknownTypes = .runtimeError

/-- `new` if it differs from the standard, else `old`. -/
def choose {α : Type} [DecidableEq α] (standard old new : α) : α :=
  if new = standard then old else new

/-- The choices of both; where the second differs from the standard it counts. -/
def merge (c other : Config) : Config :=
  { unknownTypes := choose standard.unknownTypes c.unknownTypes other.unknownTypes
    indent := choose standard.indent c.indent other.indent
    sourceMaps := choose standard.sourceMaps c.sourceMaps other.sourceMaps
    constantsPrelude := choose standard.constantsPrelude c.constantsPrelude other.constantsPrelude
    checkFallbackExceptions :=
      choose standard.checkFallbackExceptions c.checkFallbackExceptions
        other.checkFallbackExceptions
    skipRegistration := choose standard.skipRegistration c.skipRegistration other.skipRegistration
    outputDir := other.outputDir.or c.outputDir }

/-- The wording of what is wrong with a configuration. -/
def complaint? (c : Config) : Option String :=
  if c.outputDir = some "" then
    some "Invalid configuration for output_dir: output directory must not be empty"
  else none

/-- What is done to each unit. -/
def stages (c : Config) : List Stage :=
  [.validate, .traverse]
    ++ (if c.constantsPrelude then [.prelude] else [])
    ++ (if c.skipRegistration then [] else [.register])
    ++ (if c.indent then [.indent] else [])
    ++ (if c.sourceMaps then [.positionMap] else [])

instance : Codec Config where
  encode c := .obj [("unknown_types", encode c.unknownTypes), ("indent", encode c.indent),
    ("source_maps", encode c.sourceMaps), ("constants_prelude", encode c.constantsPrelude),
    ("check_fallback_exceptions", encode c.checkFallbackExceptions),
    ("skip_registration", encode c.skipRegistration), ("output_dir", encodeOption c.outputDir)]
  decode? j := do
    j.checkObject
    some {
      unknownTypes := ← j.getD "unknown_types" standard.unknownTypes
      indent := ← j.getD "indent" standard.indent
      sourceMaps := ← j.getD "source_maps" standard.sourceMaps
      constantsPrelude := ← j.getD "constants_prelude" standard.constantsPrelude
      checkFallbackExceptions :=
        ← j.getD "check_fallback_exceptions" standard.checkFallbackExceptions
      skipRegistration := ← j.getD "skip_registration" standard.skipRegistration
      outputDir := ← j.get? "output_dir" }

end Config

end AbapLowering
