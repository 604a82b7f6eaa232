import AbapLowering.Emission.Statement

/-!
# Trees

The code of a tree is that of its statements in order, but for five kinds of structures. Class
definitions only declare. Class implementations and interfaces get the members that their definitions
declare. CASE becomes a chain of branches over a temporary, and TRY one block that catches everything,
tells by the class of the exception which handler is meant, and raises the others again.
-/

namespace AbapLowering

namespace StructureNode

/-- The statement that opens a structure of some kind. -/
def opening (node : StructureNode) (kind : String) : Emit StatementNode := do
  match node.firstStatement? with
  | some statement => return statement
  | none => Emit.fail (.unsupported kind "structure without statements" node.span)

/-- Where the end of a structure comes from: its last statement. -/
def closingPosition (node : StructureNode) : Position :=
  match node.statements.getLast? with
  | some statement => statement.span.start
  | none => node.span.stop

/-- Whether a method below a structure is the constructor. -/
def hasConstructor (node : StructureNode) : Bool :=
  node.allStatements.any fun s => match s.statement with
    | .method name => Text.sameIgnoringCase name.text "constructor"
    | _ => false

/-- The class that a structure implements. -/
def implementedClass (opening : StatementNode) : Emit Token :=
  match opening.statement with
  | .classImplementation name => return name
  | _ => Emit.fail opening.refuse

/-- The interface that a structure declares. -/
def declaredInterface (opening : StatementNode) : Emit Token :=
  match opening.statement with
  | .interfaceHeader name => return name
  | _ => Emit.fail opening.refuse

/-- An interface: its first and last statement, then the values of its constants. What stands between
only declares. -/
def emitInterface (node : StructureNode) : Emit Code := do
  let opening ← node.opening "Interface"
  let name ← declaredInterface opening
  let head ← opening.emitLine
  let tail ← match node.statements.getLast?.filter fun s => s.span != opening.span with
    | some closing => closing.emitLine
    | none => pure .empty
  let i ← Members.interfaceOf name
  let part ← Members.interfacePart name i
  Members.register i.toDefinition name
  return head ++ tail ++ .tagged name.start part

/-- The end of a class implementation: its static part. The class is registered. -/
def emitClassEnd (name : Token) : Emit Code := do
  let part ← Members.staticPart name
  let c ← Members.classOf name
  Members.register c.toDefinition name
  return .tagged name.start part

/-! ## Branches -/

/-- The start of a CASE: its operand goes into a temporary. -/
def emitCaseStart (opening : StatementNode) : Emit (String × Code) := do
  match opening.statement with
  | .caseOf source =>
    let operand ← Emit.temporary
    let value ← source.emit
    let hoisted ← Emit.takeHoisted
    return (operand, .tagged opening.span.start hoisted
      ++ .tagged opening.span.start ("let " ++ operand ++ " = " ++ value ++ ";\n"))
  | _ => Emit.fail opening.refuse

/-- The condition of a WHEN: one of its values equals the operand. WHEN OTHERS has none. -/
def whenCondition (operand : String) (opening : StatementNode) : Emit (Option String) := do
  match opening.statement with
  | .whenOneOf values =>
    let checks ← values.mapM fun value => do
      return "abap.compare.eq(" ++ operand ++ ", " ++ (← value.emit) ++ ")"
    return some (" || ".intercalate checks)
  | .whenOthers => return none
  | _ => Emit.fail opening.refuse

/-- The line that starts a branch. -/
def branchLine (first : Bool) : Option String → Emit String
  | some condition =>
    if first then return "if (" ++ condition ++ ") \x7b\n"
    else return "\x7d else if (" ++ (← Emit.guarded condition) ++ ") \x7b\n"
  | none => return if first then "if (true) \x7b\n" else "\x7d else \x7b\n"

/-- The start of a branch of a CASE. -/
def emitWhenStart (operand : String) (first : Bool) (opening : StatementNode) : Emit Code := do
  let condition ← whenCondition operand opening
  let line ← branchLine first condition
  let hoisted ← Emit.takeHoisted
  return .tagged opening.span.start hoisted ++ .tagged opening.span.start line

/-- The start of a handler: it is meant for the exceptions of some classes. -/
def emitCatchStart (first : Bool) (opening : StatementNode) : Emit Code := do
  match opening.statement with
  | .catchClasses classes into =>
    let checks ← classes.mapM fun name => do
      return "e instanceof " ++ (← Emit.classAddress name.text name.start)
    let keyword := if first then "if" else "\x7d else if"
    let setting ← match into with
      | some target => do pure ((← target.emitTarget) ++ ".set(e);\n")
      | none => pure ""
    let hoisted ← Emit.takeHoisted
    return .tagged opening.span.start hoisted ++ .tagged opening.span.start
      (keyword ++ " (" ++ " || ".intercalate checks ++ ") \x7b\n" ++ setting)
  | _ => Emit.fail opening.refuse

/-- Whether a node is a handler of a TRY. -/
def isCatch : Node → Bool
  | .branch node => node.kind == .catchBranch
  | .leaf _ => false

/-- Whether a statement only marks where a TRY begins or ends. -/
def isTryMark (node : StatementNode) : Bool :=
  match node.statement with
  | .tryBody | .endTry => true
  | _ => false

/-- Whether a node is a structure. -/
def isBranch : Node → Bool
  | .branch _ => true
  | .leaf _ => false

end StructureNode

open StructureNode in
mutual

/-- The code of a node. -/
def Node.emit : Node → Emit Code
  | .leaf node => node.emitLine
  | .branch node => node.emit

/-- The code of a structure. -/
def StructureNode.emit : StructureNode → Emit Code
  | ⟨kind, children, span⟩ =>
    match kind with
    | .classDefinition => return .empty
    | .classImplementation => do
      let opening ← opening ⟨kind, children, span⟩ "ClassImplementation"
      let name ← implementedClass opening
      let inserted :=
        if hasConstructor ⟨kind, children, span⟩ then none else some (opening.span, name)
      let body ← emitClassBody inserted children
      return body ++ (← emitClassEnd name)
    | .interfaceUnit => emitInterface ⟨kind, children, span⟩
    | .caseOf => do
      let opening ← opening ⟨kind, children, span⟩ "Case"
      let (operand, start) ← emitCaseStart opening
      let branches ← emitWhens operand true children
      let stop := if children.any isBranch then
          Code.tagged (closingPosition ⟨kind, children, span⟩) "\x7d\n"
        else .empty
      return start ++ branches ++ stop
    | .tryBlock => do
      let opening ← opening ⟨kind, children, span⟩ "Try"
      let body ← emitTryBody children
      let handlers ← if children.any isCatch then do
          let catches ← emitCatches true children
          pure (Code.plain "\x7d catch (e) \x7b\n" ++ catches
            ++ .plain "\x7d else \x7b\nthrow e;\n\x7d\n")
        else pure .empty
      return .tagged opening.span.start "try \x7b\n" ++ body ++ handlers
        ++ .tagged (closingPosition ⟨kind, children, span⟩) "\x7d\n"
    | _ => emitNodes children

/-- The code of some nodes, in order. -/
def emitNodes : List Node → Emit Code
  | [] => return .empty
  | node :: rest => do
    let first ← node.emit
    return first ++ (← emitNodes rest)

/-- The code of a branch after its opening statement, which is the one with that span. -/
def emitBranchBody (opening : Span) : List Node → Emit Code
  | [] => return .empty
  | .leaf node :: rest =>
    if node.span = opening then emitBranchBody opening rest
    else do
      let first ← node.emitLine
      return first ++ (← emitBranchBody opening rest)
  | .branch node :: rest => do
    let first ← node.emit
    return first ++ (← emitBranchBody opening rest)

/-- The code of a class body. A constructor may have to be inserted after the header. -/
def emitClassBody (inserted : Option (Span × Token)) : List Node → Emit Code
  | [] => return .empty
  | .leaf node :: rest => do
    let first ← node.emitLine
    let constructor ← match inserted.filter fun (header, _) => node.span == header with
      | some (_, name) => do pure (Code.tagged name.start (← Members.defaultConstructor name))
      | none => pure .empty
    return first ++ constructor ++ (← emitClassBody inserted rest)
  | .branch node :: rest => do
    let first ← node.emit
    return first ++ (← emitClassBody inserted rest)

/-- The branches of a CASE, which are its structures. -/
def emitWhens (operand : String) (first : Bool) : List Node → Emit Code
  | [] => return .empty
  | .leaf _ :: rest => emitWhens operand first rest
  | .branch ⟨kind, children, span⟩ :: rest => do
    let opening ← opening ⟨kind, children, span⟩ "When"
    let start ← emitWhenStart operand first opening
    let body ← emitBranchBody opening.span children
    return start ++ body ++ (← emitWhens operand false rest)

/-- The code of a TRY up to its handlers. -/
def emitTryBody : List Node → Emit Code
  | [] => return .empty
  | .leaf node :: rest =>
    if isTryMark node then emitTryBody rest
    else do
      let first ← node.emitLine
      return first ++ (← emitTryBody rest)
  | .branch node :: rest =>
    if node.kind = .catchBranch then emitTryBody rest
    else do
      let first ← node.emit
      return first ++ (← emitTryBody rest)

/-- The handlers of a TRY. -/
def emitCatches (first : Bool) : List Node → Emit Code
  | [] => return .empty
  | .leaf _ :: rest => emitCatches first rest
  | .branch ⟨kind, children, span⟩ :: rest =>
    if kind = .catchBranch then do
      let opening ← opening ⟨kind, children, span⟩ "Catch"
      let start ← emitCatchStart first opening
      let body ← emitBranchBody opening.span children
      return start ++ body ++ (← emitCatches false rest)
    else emitCatches first rest

end

/-- The code of a whole tree: that of its children, whatever the root is. -/
def StructureNode.emitRoot (root : StructureNode) : Emit Code := emitNodes root.children

end AbapLowering
