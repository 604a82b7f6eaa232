import AbapLowering.Emission.Operand
import AbapLowering.Statement

/-!
# Data objects

Statements that declare data objects, give them values, or make references point to them.
-/

namespace AbapLowering

/-- The operator that an arithmetic statement applies to its target. -/
def ArithmeticVerb.operator : ArithmeticVerb → ArithmeticOperator
  | .add => .add
  | .subtract => .minus
  | .multiply => .multiply
  | .divide => .divide

namespace DataObject

/-- DATA and CONSTANTS: the declaration, then the value if there is one. -/
def declare (name : Token) (type : DataType) (value : Option Constant) : Emit String := do
  let name := Identifier.plain name.text
  let declaration := "let " ++ name ++ " = " ++ (← Emit.typeConstructor type) ++ ";"
  match value with
  | none => return declaration
  | some value =>
    return declaration ++ "\n" ++ name ++ ".set(" ++ Literal.initialValue value ++ ");"

/-- FIELD-SYMBOLS. -/
def declareFieldSymbol (name : Token) : String :=
  "let " ++ Identifier.fieldSymbol name.text ++ " = new abap.types.FieldSymbol();"

/-- An assignment. -/
def move (source : Source) (target : FieldChain) : Emit String := do
  let value ← source.emit
  return (← target.emitTarget) ++ ".set(" ++ value ++ ");"

/-- ADD, SUBTRACT, MULTIPLY and DIVIDE: the target is both operand and result. -/
def arithmetic (verb : ArithmeticVerb) (source : Source) (target : FieldChain) : Emit String := do
  let current ← target.emit .read
  let value ← source.emit
  return (← target.emitTarget) ++ ".set(abap.operators." ++ verb.operator.name ++ "(" ++ current
    ++ "," ++ value ++ "));"

/-- CLEAR and FREE. -/
def clear (target : FieldChain) : Emit String :=
  return runtimeCall "clear" (← target.emitTarget)

/-- MOVE-CORRESPONDING. -/
def moveCorresponding (source : Source) (target : FieldChain) : Emit String := do
  let value ← source.emit
  return runtimeCall "moveCorresponding" (value ++ ", " ++ (← target.emitTarget))

/-- The data that ASSIGN assigns. What stands behind a reference is the reference's own pointer. -/
def assigned : Source → Emit String
  | .field chain =>
    if chain.endsWithDereference then do
      let pointer ← FieldChain.emit .read { chain with segments := chain.segments.dropLast }
      return "(" ++ pointer ++ ").getPointer()"
    else chain.emit .read
  | source => source.emit

/-- ASSIGN. -/
def assign (source : Source) (target : FieldChain) (casting : Bool) : Emit String := do
  let target ← target.emitTarget
  let source ← assigned source
  return runtimeCall "assign"
    (braced ", " (["target: " ++ target, "source: " ++ source] ++ partIf casting "casting: true"))

/-- Whether an operand is a field symbol without further steps. -/
def isFieldSymbol : Source → Bool
  | .field chain => chain.isPlainFieldSymbol
  | _ => false

/-- GET REFERENCE: a field symbol hands over the data it points to. -/
def getReference (source : Source) (target : FieldChain) : Emit String := do
  let value ← source.emit
  let value := if isFieldSymbol source then value ++ ".getPointer()" else value
  return (← target.emitTarget) ++ ".assign(" ++ value ++ ");"

/-- The name of a type that is known at run time. -/
def typeName : DynamicName → Emit String
  | .literal value => return Literal.quoted value
  | .field chain => return (← chain.emit .read) ++ ".get()"

/-- CREATE DATA. -/
def create (target : FieldChain) (spec : CreateDataSpec) : Emit String := do
  let target ← target.emitTarget
  match spec with
  | .type type => return target ++ ".assign(" ++ (← Emit.typeConstructor type) ++ ");"
  | .dynamic name table =>
    let name ← typeName name
    return runtimeCall "createData"
      (target ++ "," ++ braced "," (["\"name\": " ++ name] ++ partIf table "\"table\": true"))
  | .likeLineOf source =>
    return runtimeCall "createData" (target ++ ",\x7b\"likeLineOf\": " ++ (← source.emit) ++ "\x7d")
  | .like source =>
    return runtimeCall "createData" (target ++ ",\x7b\"like\": " ++ (← source.emit) ++ "\x7d")

end DataObject

end AbapLowering
