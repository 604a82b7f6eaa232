import AbapLowering.Proofs.AsyncFunctions
import AbapLowering.Proofs.Guards.Queue

/-!
# Parts of a tree

The code of a tree is made in parts, and with each part the queue is emptied once: its lines are put
ahead of the code of the part or, where a condition is evaluated again and again, into a call in front
of the condition.

- `Node.parts`: the parts of a node in the order of the code, each with the code that is its own and
  the way the queue gets into it;
- `TreePart.Runs`: the parts are emitted one after the other. What a part emits for itself does not
  depend on the queue; just the lines of the guards that are queued meanwhile get into its code, and
  the queue is empty again.
-/

namespace AbapLowering

open Emit (Appends AppendsLines)

/-! ## Parts -/

/-- How the lines of the queue get into the code of a part. -/
inductive Placement where
  /-- On lines of their own, ahead of the code. -/
  | ahead
  /-- In a call in front of the code, after some text. -/
  | folded (opening : String)

/-- The code of a part from the lines of the queue and what is its own. -/
def Placement.code : Placement → List String → String → String
  | ahead, lines, own => Emit.endLines lines ++ own
  | folded opening, lines, own => opening ++ (Emit.guardCall lines ++ own)

/-- A part of the code of a tree. -/
structure TreePart where
  placement : Placement
  /-- What is emitted besides the queue. In a branch of a CASE this needs the number of the temporary
  that the operand is in. -/
  own : Nat → Emit String

namespace TreePart

/-- Parts are emitted one after the other, and the queue is emptied with each. -/
inductive Runs (context : Context) :
    List TreePart → EmissionState → String → EmissionState → Prop
  | nil (s : EmissionState) : Runs context [] s "" s
  | cons {part : TreePart} {parts : List TreePart} {n : Nat} {guards : List Guard}
      {s t s' : EmissionState} {own rest : String} :
    (∀ queue, part.own n context (s.withQueue queue) =
      .ok own (t.withQueue (queue ++ Guard.linesOf guards))) →
    Runs context parts (t.withQueue []) rest s' →
    Runs context (part :: parts) s (part.placement.code (Guard.linesOf guards) own ++ rest) s'

namespace Runs

variable {context : Context} {parts parts' : List TreePart} {part : TreePart}
  {s t s' : EmissionState} {text text' own : String}

theorem append (h : Runs context parts s text t) (h' : Runs context parts' t text' s') :
    Runs context (parts ++ parts') s (text ++ text') s' := by
  induction h with
  | nil s => simpa using h'
  | cons hown _ ih =>
    rw [String.append_assoc]
    exact .cons hown (ih h')

/-- The queue stays empty between the parts. -/
theorem hoisted_eq_nil (h : Runs context parts s text s') (hs : s.hoisted = []) :
    s'.hoisted = [] := by
  induction h with
  | nil s => exact hs
  | cons _ _ ih => exact ih rfl

/-- A single part, whose own code only adds to the queue. -/
theorem single (part : TreePart) {n : Nat} (happends : (part.own n).Appends) (hs : s.hoisted = [])
    (hown : part.own n context s = .ok own t) :
    Runs context [part] s (part.placement.code t.hoisted own) (t.withQueue []) := by
  obtain ⟨guards, hguards, -⟩ := happends context s
  have hlines := hguards.hoisted_of_ok hown
  rw [hs, List.nil_append] at hlines
  rw [hlines, ← String.append_empty (s := part.placement.code _ own)]
  exact .cons (hguards.ok hown) (.nil _)

end Runs

/-! ### Kinds of parts -/

/-- Text that is always the same. -/
def mark (text : String) : TreePart := ⟨.ahead, fun _ => return text⟩

/-- A statement. -/
def line (node : StatementNode) : TreePart :=
  ⟨.ahead, fun _ => do
    Emit.countStatement
    return (← node.emit) ++ "\n"⟩

/-- A statement that is a condition after some text. -/
def guardedLine (opening : String) (condition : Condition) : TreePart :=
  ⟨.folded opening, fun _ => do
    Emit.countStatement
    return (← condition.emit) ++ ") \x7b\n"⟩

/-- The start of a CASE. -/
def caseStart (opening : StatementNode) : TreePart :=
  ⟨.ahead, fun _ => do
    match opening.statement with
    | .caseOf source =>
      let operand ← Emit.temporary
      return "let " ++ operand ++ " = " ++ (← source.emit) ++ ";\n"
    | _ => Emit.fail opening.refuse⟩

/-- The condition of a branch of a CASE. -/
def whenCondition (opening : StatementNode) (n : Nat) : Emit (Option String) :=
  StructureNode.whenCondition (Identifier.temporary n) opening

/-- The start of a branch of a CASE. The condition of a branch but the first is only evaluated where
no branch before was taken. -/
def whenStart (first : Bool) (opening : StatementNode) : TreePart :=
  match first, opening.statement with
  | false, .whenOneOf _ => ⟨.folded "\x7d else if (", fun n =>
      return ((← whenCondition opening n).getD "") ++ ") \x7b\n"⟩
  | _, _ => ⟨.ahead, fun n => do StructureNode.branchLine first (← whenCondition opening n)⟩

/-- The start of a handler. -/
def catchStart (first : Bool) (opening : StatementNode) : TreePart :=
  ⟨.ahead, fun _ => do
    match opening.statement with
    | .catchClasses classes into =>
      let checks ← classes.mapM fun name => do
        return "e instanceof " ++ (← Emit.classAddress name.text name.start)
      let setting ← match into with
        | some target => do pure ((← target.emitTarget) ++ ".set(e);\n")
        | none => pure ""
      return (if first then "if" else "\x7d else if") ++ " (" ++ " || ".intercalate checks
        ++ ") \x7b\n" ++ setting
    | _ => Emit.fail opening.refuse⟩

/-- A constructor that is inserted. -/
def constructor (name : Token) : TreePart := ⟨.ahead, fun _ => Members.defaultConstructor name⟩

/-- What follows the methods of a class. -/
def classEnd (name : Token) : TreePart :=
  ⟨.ahead, fun _ => return (← StructureNode.emitClassEnd name).text⟩

/-- What follows the statements of an interface. -/
def interfaceEnd (name : Token) : TreePart :=
  ⟨.ahead, fun _ => do
    let i ← Members.interfaceOf name
    let part ← Members.interfacePart name i
    Members.register i.toDefinition name
    return part⟩

end TreePart

/-- What stands before a condition in front of which guards are run. -/
def Statement.guardedOpening : Statement → String
  | .whileTrue _ => "while ("
  | _ => "\x7d else if ("

/-- A statement on a line of its own. -/
def StatementNode.part (node : StatementNode) : TreePart :=
  match node.statement.guardedCondition? with
  | some condition => .guardedLine node.statement.guardedOpening condition
  | none => .line node

namespace StructureNode

/-- The statement that a class or interface begins with, and its name. -/
def header? (node : StructureNode) : Option (StatementNode × Token) :=
  node.firstStatement?.bind fun opening => match opening.statement with
    | .classImplementation name | .interfaceHeader name => some (opening, name)
    | _ => none

/-- The parts of an interface: its first and last statement and what follows. -/
def interfaceParts (node : StructureNode) : List TreePart :=
  match node.header? with
  | some (opening, name) =>
    opening.part :: (((node.statements.getLast?.filter fun s => s.span != opening.span).map
      StatementNode.part).toList ++ [.interfaceEnd name])
  | none => []

end StructureNode

open StructureNode in
mutual

/-- The parts of a node. -/
def Node.parts : Node → List TreePart
  | .leaf node => [node.part]
  | .branch node => node.parts

/-- The parts of a structure. -/
def StructureNode.parts : StructureNode → List TreePart
  | ⟨kind, children, span⟩ =>
    match kind with
    | .classDefinition => []
    | .classImplementation =>
      match header? ⟨kind, children, span⟩ with
      | some (opening, name) =>
        partsOfClassBody
          (if hasConstructor ⟨kind, children, span⟩ then none else some (opening.span, name)) children
          ++ [.classEnd name]
      | none => []
    | .interfaceUnit => interfaceParts ⟨kind, children, span⟩
    | .caseOf =>
      match firstStatement? ⟨kind, children, span⟩ with
      | some opening => .caseStart opening :: (partsOfWhens true children
          ++ if children.any isBranch then [.mark "\x7d\n"] else [])
      | none => []
    | .tryBlock =>
      .mark "try \x7b\n" :: (partsOfTryBody children ++ ((if children.any isCatch then
          .mark "\x7d catch (e) \x7b\n" :: (partsOfCatches true children
            ++ [.mark "\x7d else \x7b\nthrow e;\n\x7d\n"])
        else []) ++ [.mark "\x7d\n"]))
    | _ => partsOf children

/-- The parts of some nodes, in order. -/
def partsOf : List Node → List TreePart
  | [] => []
  | node :: rest => node.parts ++ partsOf rest

/-- The parts of a branch after its opening statement. -/
def partsOfBranch (opening : Span) : List Node → List TreePart
  | [] => []
  | .leaf node :: rest =>
    if node.span = opening then partsOfBranch opening rest
    else node.part :: partsOfBranch opening rest
  | .branch node :: rest => node.parts ++ partsOfBranch opening rest

/-- The parts of a class body, with a constructor after the header if one is inserted. -/
def partsOfClassBody (inserted : Option (Span × Token)) : List Node → List TreePart
  | [] => []
  | .leaf node :: rest =>
    node.part :: (((inserted.filter fun (header, _) => node.span == header).map fun (_, name) =>
      TreePart.constructor name).toList ++ partsOfClassBody inserted rest)
  | .branch node :: rest => node.parts ++ partsOfClassBody inserted rest

/-- The parts of the branches of a CASE. -/
def partsOfWhens (first : Bool) : List Node → List TreePart
  | [] => []
  | .leaf _ :: rest => partsOfWhens first rest
  | .branch ⟨kind, children, span⟩ :: rest =>
    match firstStatement? ⟨kind, children, span⟩ with
    | some opening => .whenStart first opening ::
        (partsOfBranch opening.span children ++ partsOfWhens false rest)
    | none => []

/-- The parts of a TRY up to its handlers. -/
def partsOfTryBody : List Node → List TreePart
  | [] => []
  | .leaf node :: rest =>
    if isTryMark node then partsOfTryBody rest else node.part :: partsOfTryBody rest
  | .branch node :: rest =>
    if node.kind = .catchBranch then partsOfTryBody rest else node.parts ++ partsOfTryBody rest

/-- The parts of the handlers of a TRY. -/
def partsOfCatches (first : Bool) : List Node → List TreePart
  | [] => []
  | .leaf _ :: rest => partsOfCatches first rest
  | .branch ⟨kind, children, span⟩ :: rest =>
    if kind = .catchBranch then
      match firstStatement? ⟨kind, children, span⟩ with
      | some opening => .catchStart first opening ::
          (partsOfBranch opening.span children ++ partsOfCatches false rest)
      | none => []
    else partsOfCatches first rest

end

end AbapLowering
