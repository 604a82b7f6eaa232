import AbapLowering.Proofs.Integers.Statement
import AbapLowering.Proofs.Mention.Tree

/-!
# Integers noted by trees

Emitting a tree notes just the integers that the statements it lowers mention
(`StructureNode.notes_emitRoot`): by induction on the tree, with one case for each way in which a
structure lowers its children.
-/

namespace AbapLowering

open Emit (Notes)

/-! ## Statements and the parts of structures -/

/-- A line notes what its statement mentions; the guards before it mention nothing. -/
theorem StatementNode.notes_emitLine (node : StatementNode) : node.emitLine.Notes node.mentions :=
  Notes.countStatement.after fun _ => node.notes.before fun _ => Notes.takeHoisted.give

namespace StructureNode

/-- To find the statement that opens a structure notes nothing. -/
theorem notes_opening (node : StructureNode) (kind : String) : (node.opening kind).Notes [] := by
  unfold opening
  split
  · exact .pure
  · exact .fail _

theorem notes_implementedClass (opening : StatementNode) : (implementedClass opening).Notes [] := by
  unfold implementedClass
  split
  · exact .pure
  · exact .fail _

theorem notes_declaredInterface (opening : StatementNode) :
    (declaredInterface opening).Notes [] := by
  unfold declaredInterface
  split
  · exact .pure
  · exact .fail _

/-- What follows a class mentions no integer. -/
theorem notes_emitClassEnd (name : Token) : (emitClassEnd name).Notes [] :=
  (Members.notes_staticPart name).after fun _ => (Members.notes_classOf name).after fun c =>
    (Members.notes_register c.toDefinition name).give

/-- The members of an interface have texts for values, so their integers are not noted. -/
theorem notes_emitInterface (node : StructureNode) :
    node.emitInterface.Notes node.interfaceMentions := by
  refine (notes_opening node _).after_of (fun _ => node.yields_opening _) fun opening hopening => ?_
  refine (notes_declaredInterface opening).after fun name => ?_
  unfold interfaceMentions
  rw [hopening, Option.elim_some]
  refine opening.notes_emitLine.bind fun head => ?_
  dsimp only
  have hrest : ∀ tail : Code, Notes [] (do
      let i ← Members.interfaceOf name
      let part ← Members.interfacePart name i
      Members.register i.toDefinition name
      return head ++ tail ++ .tagged name.start part) := fun tail =>
    (Members.notes_interfaceOf name).after fun i => (Members.notes_interfacePart name i).after
      fun _ => (Members.notes_register i.toDefinition name).give
  split
  next closing hclosing =>
    rw [hclosing]
    exact closing.notes_emitLine.before hrest
  next hclosing =>
    rw [hclosing]
    exact Notes.pure.after hrest

/-- The operand of a `CASE` is mentioned once. -/
theorem notes_emitCaseStart (opening : StatementNode) :
    (emitCaseStart opening).Notes opening.openingMentions := by
  unfold emitCaseStart
  split
  next source heq =>
    rw [StatementNode.openingMentions, heq]
    exact Notes.temporary.after fun _ => source.notes.before fun _ => Notes.takeHoisted.give
  next => exact .fail _

/-- The alternatives of a `WHEN` are mentioned one by one. -/
theorem notes_whenCondition (operand : String) (opening : StatementNode) :
    (whenCondition operand opening).Notes opening.openingMentions := by
  unfold whenCondition
  split
  next values heq =>
    rw [StatementNode.openingMentions, heq]
    exact (Notes.mapM values fun value => value.notes.give).give
  next heq =>
    rw [StatementNode.openingMentions, heq]
    exact .pure
  next => exact .fail _

/-- The header of a branch notes nothing besides its condition. -/
theorem notes_branchLine (first : Bool) (condition : Option String) :
    (branchLine first condition).Notes [] := by
  unfold branchLine
  split
  · split
    · exact .pure
    · exact (Notes.guarded _).give
  · exact .pure

theorem notes_emitWhenStart (operand : String) (first : Bool) (opening : StatementNode) :
    (emitWhenStart operand first opening).Notes opening.openingMentions :=
  (notes_whenCondition operand opening).before fun condition =>
    (notes_branchLine first condition).after fun _ => Notes.takeHoisted.give

/-- A `CATCH` mentions the target that takes the exception. -/
theorem notes_emitCatchStart (first : Bool) (opening : StatementNode) :
    (emitCatchStart first opening).Notes opening.openingMentions := by
  unfold emitCatchStart
  split
  next classes into heq =>
    rw [StatementNode.openingMentions, heq]
    refine (Notes.mapM_nil _ fun _ => (Notes.classAddress _ _).give).after fun checks => ?_
    cases into with
    | none => exact Notes.pure.after fun _ => Notes.takeHoisted.give
    | some target =>
      exact target.notes_emitTarget.before fun _ => Notes.pure.after fun _ =>
        Notes.takeHoisted.give
  next => exact .fail _

end StructureNode

/-! ## Trees -/

open StructureNode

mutual

/-- A node notes what it mentions. -/
theorem Node.notes : ∀ node : Node, node.emit.Notes node.mentions
  | .leaf node => by
    rw [Node.emit, Node.mentions]
    exact node.notes_emitLine
  | .branch node => by
    rw [Node.emit, Node.mentions]
    exact node.notes

/-- Each kind of structure notes what the parts of it that are emitted mention. -/
theorem StructureNode.notes : ∀ node : StructureNode, node.emit.Notes node.mentions
  | ⟨kind, children, span⟩ => by
    rw [StructureNode.emit.eq_def, StructureNode.mentions.eq_def]
    dsimp only
    match kind with
    | .classDefinition => exact .pure
    | .classImplementation =>
      refine (notes_opening _ _).after fun opening => ?_
      refine (notes_implementedClass opening).after fun name => ?_
      exact (notes_emitClassBody _ children).before fun _ => (notes_emitClassEnd name).give
    | .interfaceUnit => exact notes_emitInterface _
    | .caseOf =>
      refine (notes_opening _ _).after_of (fun _ => yields_opening _ _) fun opening hopening => ?_
      rw [hopening, Option.elim_some]
      exact (notes_emitCaseStart opening).bind fun start =>
        (notes_emitWhens start.1 true children).give
    | .tryBlock =>
      refine (notes_opening _ _).after fun opening => (notes_emitTryBody children).bind fun _ => ?_
      split
      next =>
        exact (notes_emitCatches true children).before (fun _ => Notes.pure.after fun _ => .pure)
          |>.under .caught
      next hnone =>
        rw [mentionsOfCatches_eq_nil (by simpa using hnone)]
        exact Notes.pure.after fun _ => .pure
    | .program | .body | .method | .form | .functionModule | .ifBranch | .elseIfBranch
    | .elseBranch | .doLoop | .whileLoop | .loop | .whenBranch | .catchBranch | .other =>
      exact notes_emitNodes children

/-- Nodes note what they mention, one after the other. -/
theorem notes_emitNodes : ∀ nodes : List Node, (emitNodes nodes).Notes (mentionsOfNodes nodes)
  | [] => .pure
  | node :: rest => by
    rw [emitNodes, mentionsOfNodes]
    exact node.notes.bind fun _ => (notes_emitNodes rest).give

/-- The statement that opens a branch is not mentioned in its body. -/
theorem notes_emitBranchBody (opening : Span) : ∀ nodes : List Node,
    (emitBranchBody opening nodes).Notes (mentionsOfBranchBody opening nodes)
  | [] => .pure
  | .leaf node :: rest => by
    rw [emitBranchBody, mentionsOfBranchBody]
    split
    · exact notes_emitBranchBody opening rest
    · exact node.notes_emitLine.bind fun _ => (notes_emitBranchBody opening rest).give
  | .branch node :: rest => by
    rw [emitBranchBody, mentionsOfBranchBody]
    exact node.notes.bind fun _ => (notes_emitBranchBody opening rest).give

/-- The constructor that is inserted mentions nothing. -/
theorem notes_emitClassBody (inserted : Option (Span × Token)) : ∀ nodes : List Node,
    (emitClassBody inserted nodes).Notes (mentionsOfNodes nodes)
  | [] => .pure
  | .leaf node :: rest => by
    rw [emitClassBody, mentionsOfNodes, Node.mentions]
    refine node.notes_emitLine.bind fun first => ?_
    dsimp only
    split
    · exact (Members.notes_defaultConstructor _).after fun _ => Notes.pure.after fun _ =>
        (notes_emitClassBody inserted rest).give
    · exact Notes.pure.after fun _ => (notes_emitClassBody inserted rest).give
  | .branch node :: rest => by
    rw [emitClassBody, mentionsOfNodes, Node.mentions]
    exact node.notes.bind fun _ => (notes_emitClassBody inserted rest).give

/-- What stands between the branches of a `CASE` is not emitted and notes nothing. -/
theorem notes_emitWhens (operand : String) (first : Bool) : ∀ nodes : List Node,
    (emitWhens operand first nodes).Notes (mentionsOfWhens nodes)
  | [] => .pure
  | .leaf _ :: rest => by
    rw [emitWhens, mentionsOfWhens]
    exact notes_emitWhens operand first rest
  | .branch ⟨kind, children, span⟩ :: rest => by
    rw [emitWhens, mentionsOfWhens]
    refine (notes_opening _ _).after_of (fun _ => yields_opening _ _) fun opening hopening => ?_
    rw [hopening, List.append_assoc]
    exact (notes_emitWhenStart operand first opening).bind fun _ =>
      (notes_emitBranchBody opening.span children).bind fun _ =>
        (notes_emitWhens operand false rest).give

theorem notes_emitTryBody : ∀ nodes : List Node,
    (emitTryBody nodes).Notes (mentionsOfTryBody nodes)
  | [] => .pure
  | .leaf node :: rest => by
    rw [emitTryBody, mentionsOfTryBody]
    split
    next hmark =>
      rw [mentions_of_isTryMark hmark, List.nil_append]
      exact notes_emitTryBody rest
    next => exact node.notes_emitLine.bind fun _ => (notes_emitTryBody rest).give
  | .branch node :: rest => by
    rw [emitTryBody, mentionsOfTryBody]
    split
    · exact notes_emitTryBody rest
    · exact node.notes.bind fun _ => (notes_emitTryBody rest).give

/-- The handlers of a `TRY` note what they mention. -/
theorem notes_emitCatches (first : Bool) : ∀ nodes : List Node,
    (emitCatches first nodes).Notes (mentionsOfCatches nodes)
  | [] => .pure
  | .leaf _ :: rest => by
    rw [emitCatches, mentionsOfCatches]
    exact notes_emitCatches first rest
  | .branch ⟨kind, children, span⟩ :: rest => by
    rw [emitCatches, mentionsOfCatches]
    split
    · refine (notes_opening _ _).after_of (fun _ => yields_opening _ _) fun opening hopening => ?_
      rw [hopening, List.append_assoc]
      exact (notes_emitCatchStart first opening).bind fun _ =>
        (notes_emitBranchBody opening.span children).bind fun _ =>
          (notes_emitCatches false rest).give
    · exact notes_emitCatches first rest

end

/-- Emitting a tree notes just the integers that are mentioned in the statements it lowers. -/
theorem StructureNode.notes_emitRoot (root : StructureNode) :
    root.emitRoot.Notes root.rootMentions := notes_emitNodes root.children

end AbapLowering
