import AbapLowering.Emission.Condition
import AbapLowering.Emission.Members
import AbapLowering.Statement

/-!
# Flow of control

Branches and loops, and the heads and ends of classes and methods. The end of a method and a return
from it hand back the same: the new instance from a constructor, else the returning parameter.
-/

namespace AbapLowering

namespace Flow

/-- IF. -/
def ifThen (condition : Condition) : Emit String :=
  return "if (" ++ (← condition.emit) ++ ") \x7b"

/-- ELSEIF. -/
def elseIf (condition : Condition) : Emit String := do
  let text ← condition.emit
  return "\x7d else if (" ++ (← Emit.guarded text) ++ ") \x7b"

/-- WHILE. -/
def whileTrue (condition : Condition) : Emit String := do
  let text ← condition.emit
  return "while (" ++ (← Emit.guarded text) ++ ") \x7b"

/-- DO, with the number of the pass in `sy-index`. -/
def doTimes : Option Source → Emit String
  | some times => do
    let count ← Emit.temporary
    let index ← Emit.temporary
    let value ← times.emit
    return "const " ++ count ++ " = " ++ value ++ ".get();\nfor (let " ++ index ++ " = 0; " ++ index
      ++ " < " ++ count ++ "; " ++ index ++ "++) \x7b\nabap.builtin.sy.get().index.set(" ++ index
      ++ " + 1);"
  | none => do
    let index ← Emit.temporary
    return "let " ++ index ++ " = 1;\nwhile (true) \x7b\nabap.builtin.sy.get().index.set(" ++ index
      ++ "++);"

/-- What is done with the current row. -/
def loopOutput (row : String) : LoopOutput → Emit String
  | .into target => return "\n" ++ (← target.emitTarget) ++ ".set(" ++ row ++ ");"
  | .assigning target | .referenceInto target =>
    return "\n" ++ (← target.emitTarget) ++ ".assign(" ++ row ++ ");"
  | .nothing => return ""

/-- LOOP AT. -/
def loopAt (table : Source) (output : LoopOutput) (filter : Option Condition) : Emit String := do
  let row ← Emit.temporary
  let table ← table.emit
  let options ← match filter with
    | some condition => do pure (", \x7bwhere: " ++ (← condition.emitRowFilter) ++ "\x7d")
    | none => pure ""
  return "for (const " ++ row ++ " of abap.statements.loop(" ++ table ++ options ++ ")) \x7b"
    ++ (← loopOutput row output)

/-- ASSERT. -/
def assert (condition : Condition) : Emit String :=
  return runtimeCall "assert" (← condition.emit)

/-! ## Methods -/

/-- What a method hands back at its end. -/
def result? (m : EnclosingMethod) : Option String :=
  if m.isConstructor then some "this"
  else m.returning?.map fun p => Identifier.plain p.name

/-- What is handed back at a position. -/
def resultAt (position : Position) : Emit (Option String) :=
  return (← Emit.ask fun v => v.enclosingMethod position).bind result?

/-- RETURN. -/
def returnAt (position : Position) : Emit String := do
  match ← resultAt position with
  | some value => return "return " ++ value ++ ";"
  | none => return "return;"

/-- ENDMETHOD. -/
def endMethodAt (position : Position) : Emit String := do
  match ← resultAt position with
  | some value => return "return " ++ value ++ ";\n\x7d"
  | none => return "\x7d"

/-- The lines that declare a parameter and, unless it is the result, take what is passed for it. -/
def parameterLines (p : MethodParameter) : Emit (List String) := do
  let name := Identifier.plain p.name
  let declaration := "let " ++ name ++ " = " ++ (← Emit.typeConstructor p.type) ++ ";"
  let taking := "if (INPUT && INPUT." ++ name ++ ") \x7b" ++ name ++ " = INPUT." ++ name ++ ";\x7d"
  return declaration :: partIf (p.direction != .returning) taking

/-- The lines that set up the instance, if the method is the constructor. -/
def setupLines (enclosing : Option EnclosingMethod) (position : Position) (name : Token) :
    Emit (List String) := do
  if enclosing.any (·.isConstructor) then
    match ← Emit.ask fun v => v.classAt position with
    | none => Emit.fail (.unresolved .classLike name.text)
    | some c =>
      let scope ← Emit.ask fun _ => Query.scopeAround position
      Members.constructorLines c scope false
  else return []

/-- METHOD at a position. -/
def methodAt (position : Position) (name : Token) : Emit String := do
  let enclosing ← Emit.ask fun v => v.enclosingMethod position
  let definition := enclosing.bind (·.definition)
  if definition.isNone then
    Emit.warn ("no definition found for method " ++ name.text) (some name.start)
  let reach := if definition.any (·.isStatic) then "static " else ""
  let header := reach ++ "async " ++ Identifier.method name.text ++ "(INPUT) \x7b"
  let parameters ← ((definition.map (·.parameters)).getD []).mapM parameterLines
  let setup ← setupLines enclosing position name
  return "\n".intercalate (header :: parameters.flatten ++ setup)

/-- CLASS ... IMPLEMENTATION. -/
def classHeader (name : Token) : Emit String := do
  let scope ← Emit.ask fun _ => Query.scopeAround name.start
  let definition ← Emit.walk fun v => v.findClass? scope name.text
  match definition.bind (·.superClass) with
  | some superClass =>
    return "class " ++ name.lower ++ " extends " ++ (← Emit.classAddress superClass name.start)
      ++ " \x7b"
  | none => return "class " ++ name.lower ++ " \x7b"

end Flow

end AbapLowering
