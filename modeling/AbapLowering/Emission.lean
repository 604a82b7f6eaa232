import AbapLowering.Code
import AbapLowering.Code.Guard
import AbapLowering.Config
import AbapLowering.Scope.View

/-!
# Emission

What code is emitted for depends on the unit and the configuration, and emitting has effects besides
the code: temporaries are numbered, integers are noted for the declarations at the top of the unit,
guards wait in a queue for the statement that they stand before, classes are registered, and warnings
are given. These effects happen in the order in which operands are emitted, and those of an operand
remain when a later one makes the unit fail.
-/

namespace AbapLowering

/-- What does not change while a unit is lowered. -/
structure Context where
  view : View
  config : Config

/-- How serious a finding is. -/
inductive Severity where
  | warning
  | info
  deriving DecidableEq

/-- The tag of a severity. -/
def Severity.tag : Severity → String
  | .warning => "warning"
  | .info => "info"

/-- A finding that does not stop lowering. -/
structure Diagnostic where
  severity : Severity
  message : String
  position : Option Position
  deriving DecidableEq

/-- Enter an integer into an ascending list, unless it is there. -/
def insertAscending (n : Int64) : List Int64 → List Int64
  | [] => [n]
  | m :: rest =>
    if n < m then n :: m :: rest
    else if n = m then m :: rest
    else m :: insertAscending n rest

/-- What emitting has left behind so far. -/
structure EmissionState where
  /-- How many temporaries were given out. -/
  issued : Nat
  /-- The scope that was found last. -/
  slot : Option CacheSlot
  /-- Lines that wait for the statement they stand before. -/
  hoisted : List String
  /-- The integers that operands use, in ascending order. -/
  integers : List Int64
  /-- The lines that register classes, each once. -/
  registrations : List String
  diagnostics : List Diagnostic
  /-- Number of statements met. -/
  statements : Nat

/-- The state before anything is emitted, after `issued` temporaries were given out. -/
def EmissionState.initial (issued : Nat) : EmissionState :=
  ⟨issued, none, [], [], [], [], 0⟩

/-- Emitting an `α`, usually a text. -/
abbrev Emit := ReaderT Context (EStateM Abort EmissionState)

namespace Emit

variable {α : Type}

/-- Stop with a fault of the input. -/
def fail (error : LoweringError) : Emit α := throw (.error error)

/-- Answer a question about the unit. -/
def ask (question : View → Query α) : Emit α := fun context state =>
  match (question context.view).run context.view.graph context.view.file state.slot with
  | .ok a slot => .ok a { state with slot }
  | .error why slot => .error why { state with slot }

/-- Walk through the scopes of the unit. -/
def walk (w : View → Except GraphFault α) : Emit α :=
  ask fun v => Query.ofWalk (w v)

/-- The next temporary. -/
def temporary : Emit String :=
  modifyGet fun state =>
    (Identifier.temporary (state.issued + 1), { state with issued := state.issued + 1 })

/-- The operand for an integer, which is noted. -/
def integer (value : Int64) : Emit String :=
  modifyGet fun state =>
    (Identifier.integer value, { state with integers := insertAscending value state.integers })

/-- Queue a line for the front of the statement. -/
def hoist (line : String) : Emit Unit :=
  modify fun state => { state with hoisted := state.hoisted ++ [line] }

/-- Empty the queue. -/
def drain : Emit (List String) :=
  modifyGet fun state => (state.hoisted, { state with hoisted := [] })

/-- Lines as text, each ended by a line feed. -/
def endLines (lines : List String) : String :=
  String.join (lines.map (· ++ "\n"))

/-- The queued lines as text. -/
def takeHoisted : Emit String := return endLines (← drain)

/-- A condition that first runs the queued lines, so that they run each time it is evaluated. -/
def guarded (condition : String) : Emit String := do
  let lines ← drain
  if lines.isEmpty then return condition
  return "(() => \x7b " ++ " ".intercalate lines ++ " \x7d)(), " ++ condition

/-- Note a line that registers a class. -/
def register (line : String) : Emit Unit :=
  modify fun state =>
    if line ∈ state.registrations then state
    else { state with registrations := state.registrations ++ [line] }

/-- Give a warning. -/
def warn (message : String) (position : Option Position) : Emit Unit :=
  modify fun state =>
    { state with diagnostics := state.diagnostics ++ [⟨.warning, message, position⟩] }

/-- Count a statement. -/
def countStatement : Emit Unit :=
  modify fun state => { state with statements := state.statements + 1 }

/-- The constructor of a type. -/
def typeConstructor (type : DataType) : Emit String := do
  match type.constructor (← read).config.isLenient with
  | .ok text => return text
  | .error unresolved => fail (.unknownType unresolved.name unresolved.reason)

/-- Queue the guard of a name read at run time. -/
def requireTarget (kind : GuardKind) (target : String) : Emit Unit := do
  let context ← read
  if context.config.checkFallbackExceptions && !context.view.registry.contains kind.exception then
    fail (.missingFallback kind.exception)
  let guard : Guard := ⟨kind, target⟩
  hoist guard.fallbackCheck
  hoist guard.targetCheck

/-- The address of a class or interface as seen from a position. -/
def classAddress (name : String) (position : Position) : Emit String :=
  ask fun v => v.classAddress name position

/-- A plain name, qualified by what it is bound to. -/
def qualifiedName (token : Token) : Emit String := do
  let name := Identifier.plain token.text
  match ← ask fun v => v.resolve token with
  | .localName => return name
  | .staticAttribute owner => return owner ++ "." ++ name
  | .superReference => return "super"
  | .instanceAttribute => return "this." ++ name
  | .builtin => return "abap.builtin." ++ name
  | .interfaceAttribute owner =>
    return (← classAddress owner token.start) ++ "." ++ Identifier.interfaceMember owner token.text
  | .foreignAttribute owner => return (← classAddress owner token.start) ++ "." ++ name

end Emit

/-! ## Parts of emitted calls -/

/-- Parts between braces. -/
def braced (separator : String) (parts : List String) : String :=
  "\x7b" ++ separator.intercalate parts ++ "\x7d"

/-- A call of a runtime statement. -/
def runtimeCall (function arguments : String) : String :=
  "abap.statements." ++ function ++ "(" ++ arguments ++ ");"

namespace Emit

variable {α : Type}

/-- A named part. -/
def named (key : String) (value : Emit String) : Emit String :=
  return key ++ ": " ++ (← value)

/-- A named part, if there is a value for it. -/
def namedIfGiven (key : String) (value : Option α) (emit : α → Emit String) :
    Emit (List String) := do
  match value with
  | none => return []
  | some a => return [← named key (emit a)]

/-- A named list in brackets, if it has items. -/
def namedListIfAny (key separator : String) (items : List α) (emit : α → Emit String) :
    Emit (List String) := do
  if items.isEmpty then return []
  return [key ++ ": [" ++ separator.intercalate (← items.mapM emit) ++ "]"]

end Emit

/-- A part that is there under a condition. -/
def partIf (condition : Bool) (part : String) : List String :=
  if condition then [part] else []

end AbapLowering
