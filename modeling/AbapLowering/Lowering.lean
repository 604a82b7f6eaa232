import AbapLowering.Code.Indentation
import AbapLowering.Code.PositionMap
import AbapLowering.Emission.Tree
import AbapLowering.Project

/-!
# Lowering units

A unit is lowered by emitting the code of its tree, which is then put together with the declarations
of the integers it uses, before it, and the lines that register its classes, after it. Temporaries
are numbered on from one unit to the next; a run over a whole project starts from the first again.
-/

namespace AbapLowering

/-- A lowered unit. -/
structure LoweredUnit where
  /-- The file for the code. -/
  file : String
  sourceFile : String
  code : String
  /-- The text of the position map, if one is made. -/
  positionMap : Option String
  diagnostics : List Diagnostic
  /-- Number of statements. -/
  statements : Nat
  /-- Number of integers that are declared. -/
  constants : Nat
  deriving DecidableEq

namespace LoweredUnit

/-- A path below a directory; an absolute path stays as it is. -/
def join (dir file : String) : String :=
  if file.toList.head? = some '/' then file
  else if dir.isEmpty then file
  else if dir.toList.getLast? = some '/' then dir ++ file
  else dir ++ "/" ++ file

/-- Where the code goes. -/
def codePath (u : LoweredUnit) (dir : String) : String := join dir u.file

/-- Where the position map goes. -/
def mapPath (u : LoweredUnit) (dir : String) : String := join dir (u.file ++ ".map")

end LoweredUnit

namespace SourceUnit

/-- The unit among the global objects. -/
def view (u : SourceUnit) (registry : Registry) : View :=
  ⟨u.scopes, registry, u.file, u.object⟩

/-- A unit is refused if its scopes are not linked properly. -/
def validate (u : SourceUnit) : Except Abort Unit :=
  match u.scopes.validate with
  | .ok () => .ok ()
  | .error error => .error (.error (.invalidGraph error))

/-- A warning if the file is known to belong to another object than the unit says. -/
def ownerWarning? (u : SourceUnit) (registry : Registry) : List Diagnostic :=
  match registry.ownerOf? u.file with
  | none => []
  | some owner =>
    if owner = u.object then []
    else [⟨.warning, u.file ++ " is registered to " ++ owner.type.keyword ++ " " ++ owner.name
      ++ ", unit names " ++ u.object.type.keyword ++ " " ++ u.object.name, none⟩]

/-- The declaration of an integer. -/
def integerDeclaration (value : Int64) : String :=
  "const " ++ Identifier.integer value ++ " = new abap.types.Integer().set("
    ++ toString value.toInt ++ ");"

/-- The lines before the code of a tree. -/
def prelude (config : Config) (integers : List Int64) : List String :=
  if config.constantsPrelude then integers.map integerDeclaration else []

/-- The lines after the code of a tree. -/
def registration (config : Config) (registrations : List String) : List String :=
  if config.skipRegistration then [] else registrations

/-- Put together what emitting a tree has given. -/
def assemble (u : SourceUnit) (config : Config) (warnings : List Diagnostic) (body : Code)
    (state : EmissionState) : LoweredUnit :=
  let prelude := prelude config state.integers
  let raw := body.text
  let whole := raw ++ Emit.endLines (registration config state.registrations)
  let code := if config.indent then Indentation.indent whole else whole
  let file := outputFile u.file
  { file
    sourceFile := u.file
    code := Emit.endLines prelude ++ code
    positionMap :=
      if config.sourceMaps then
        let lineOffset := PositionMap.lineCount prelude.length
        some (PositionMap.build file u.file body.mappings raw code lineOffset).text
      else none
    diagnostics := warnings ++ state.diagnostics
    statements := state.statements
    constants := state.integers.length }

/-- Lower a unit after `issued` temporaries were given out; also says how many are given out then,
whether or not the unit can be lowered. -/
def lower (u : SourceUnit) (config : Config) (registry : Registry) (issued : Nat) :
    Except Abort LoweredUnit × Nat :=
  match u.validate with
  | .error why => (.error why, issued)
  | .ok () =>
    match u.root.emitRoot ⟨u.view registry, config⟩ (.initial issued) with
    | .ok body state => (.ok (u.assemble config (u.ownerWarning? registry) body state), state.issued)
    | .error why state => (.error why, state.issued)

end SourceUnit

/-- Lower units one after the other, up to the first that cannot be lowered. -/
def lowerUnits (config : Config) (registry : Registry) (issued : Nat) :
    List SourceUnit → Except Abort (List LoweredUnit) × Nat
  | [] => (.ok [], issued)
  | u :: rest =>
    match u.lower config registry issued with
    | (.error why, issued) => (.error why, issued)
    | (.ok lowered, issued) =>
      match lowerUnits config registry issued rest with
      | (.error why, issued) => (.error why, issued)
      | (.ok others, issued) => (.ok (lowered :: others), issued)

/-! ## Sessions -/

/-- A configuration, and how many temporaries were given out so far. -/
structure Session where
  config : Config
  issued : Nat

namespace Session

/-- A session in which nothing happened yet. -/
def fresh (config : Config) : Session := ⟨config, 0⟩

/-- Lower one unit, numbering temporaries on. -/
def lowerUnit (s : Session) (registry : Registry) (u : SourceUnit) :
    Except Abort LoweredUnit × Session :=
  let (outcome, issued) := u.lower s.config registry s.issued
  (outcome, { s with issued })

/-- Lower a project, numbering temporaries from the first. -/
def run (s : Session) (p : Project) : Except Abort (List LoweredUnit) × Session :=
  let (outcome, issued) := lowerUnits s.config p.registry 0 p.units
  (outcome, { s with issued })

end Session

end AbapLowering
