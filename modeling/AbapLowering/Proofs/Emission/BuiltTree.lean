import AbapLowering.Proofs.Emission.BuiltStatement

/-!
# What trees are built from

- What structures add to their statements is built from the basic effects, and only CASE gets a
  temporary for it;
- `Emit.Assembled`: put together from what is built and from counting statements. Each tree is
  assembled (`StructureNode.assembled_emitRoot`), so what holds of built emitting and of counting,
  and of one after the other, holds of trees.
-/

namespace AbapLowering

open Emit (Built)

variable {draws drains : Bool} {effects : Emit.Effects}

/-! ## Parts of structures -/

namespace StructureNode

/-- A structure without an opening statement ends the emission. -/
theorem built_opening (node : StructureNode) (kind : String) : (node.opening kind).Built effects := by
  unfold opening
  split
  · exact .pure _
  · exact .fail _

/-- The class that is implemented is the one around the opening statement. -/
theorem built_implementedClass (opening : StatementNode) :
    (implementedClass opening).Built effects := by
  unfold implementedClass
  split
  · exact .pure _
  · exact .fail _

theorem built_declaredInterface (opening : StatementNode) :
    (declaredInterface opening).Built effects := by
  unfold declaredInterface
  split
  · exact .pure _
  · exact .fail _

/-- What follows a class is its static part and its registrations. -/
theorem built_emitClassEnd (name : Token) : (emitClassEnd name).Built effects :=
  .bind (Members.built_staticPart name) fun _ => .bind (Members.built_classOf name) fun _ =>
    .bind (Members.built_register _ name) fun _ => .pure _

/-- The guards of a `CATCH` are taken from the queue before its header. -/
theorem built_emitCatchStart (first : Bool) (opening : StatementNode) :
    (emitCatchStart first opening).Built (.guarding draws true) := by
  unfold emitCatchStart
  split
  next into _ =>
    refine .bind (.mapM _ fun name => .bind (.classAddress _ _) fun _ => .pure _) fun checks => ?_
    cases into with
    | none => exact .bind (.pure _) fun _ => .bind .takeHoisted fun _ => .pure _
    | some target =>
      exact .bind target.built_emitTarget fun _ => .bind (.pure _) fun _ =>
        .bind .takeHoisted fun _ => .pure _
  next => exact .fail _

/-- The alternatives of a `WHEN` are compared with an operand that was emitted before. -/
theorem built_whenCondition (operand : String) (opening : StatementNode) :
    (whenCondition operand opening).Built (.guarding draws drains) := by
  unfold whenCondition
  split
  · exact .bind (.mapM _ fun value => .bind value.built fun _ => .pure _) fun _ => .pure _
  · exact .pure _
  · exact .fail _

/-- The header of a branch takes the guards that its condition queued. -/
theorem built_branchLine (first : Bool) (condition : Option String) :
    (branchLine first condition).Built (.guarding draws true) := by
  unfold branchLine
  split
  · split
    · exact .pure _
    · exact .bind (.guarded _) fun _ => .pure _
  · exact .pure _

/-- A `WHEN` empties the queue of the guards of its alternatives. -/
theorem built_emitWhenStart (operand : String) (first : Bool) (opening : StatementNode) :
    (emitWhenStart operand first opening).Built (.guarding draws true) := by
  refine .bind (built_whenCondition operand opening) fun condition => ?_
  refine .bind (built_branchLine first condition) fun line => ?_
  exact .bind .takeHoisted fun _ => .pure _

/-- CASE draws a temporary for its operand and empties the queue. -/
theorem built_emitCaseStart (opening : StatementNode) : (emitCaseStart opening).Built .all := by
  unfold emitCaseStart
  split
  · refine .bind (.temporary rfl) fun operand => ?_
    exact .bind (Source.built _) fun _ => .bind .takeHoisted fun _ => .pure _
  · exact .fail _

end StructureNode

/-! ## Trees -/

/-- Emitting that is put together from what is built and from counting statements. -/
inductive Emit.Assembled : {α : Type} → Emit α → Prop
  | built {α : Type} {m : Emit α} : m.Built .all → Assembled m
  | countStatement : Assembled Emit.countStatement
  | bind {α β : Type} {m : Emit α} {f : α → Emit β} : Assembled m → (∀ a, Assembled (f a)) →
    Assembled (m >>= f)

open Emit (Assembled)

namespace Emit.Assembled

variable {α β : Type}

theorem pure (a : α) : Assembled (Pure.pure a) := .built (.pure a)

/-- What is built comes before something assembled. -/
theorem after {m : Emit α} {f : α → Emit β} (hm : m.Built .all) (hf : ∀ a, Assembled (f a)) :
    Assembled (m >>= f) :=
  .bind (.built hm) hf

end Emit.Assembled

/-- A line is a statement, counted once, behind the guards that it queued. -/
theorem StatementNode.assembled_emitLine (node : StatementNode) : node.emitLine.Assembled := by
  refine .bind .countStatement fun _ => .after node.built.mono fun code => ?_
  exact .built (.bind .takeHoisted fun _ => .pure _)

namespace StructureNode

/-- The parts of an interface are assembled from its opening statement alone. -/
theorem assembled_emitInterface (node : StructureNode) : node.emitInterface.Assembled := by
  refine .after (built_opening node _) fun opening => ?_
  refine .after (built_declaredInterface opening) fun name => ?_
  refine .bind opening.assembled_emitLine fun head => ?_
  have hrest : ∀ tail : Code, Emit.Assembled (do
      let i ← Members.interfaceOf name
      let part ← Members.interfacePart name i
      Members.register i.toDefinition name
      return head ++ tail ++ .tagged name.start part) := fun tail =>
    .after (Members.built_interfaceOf name) fun i =>
      .after (Members.built_interfacePart name i) fun _ =>
        .after (Members.built_register _ name) fun _ => .pure _
  dsimp only
  split
  next closing _ => exact .bind closing.assembled_emitLine hrest
  next => exact .after (.pure _) hrest

end StructureNode

open StructureNode

mutual

/-- A node is assembled, whether it is a statement or a structure. -/
theorem Node.assembled : ∀ node : Node, node.emit.Assembled
  | .leaf node => by
    rw [Node.emit]
    exact node.assembled_emitLine
  | .branch node => by
    rw [Node.emit]
    exact node.assembled

/-- Each kind of structure is assembled from what its children emit. -/
theorem StructureNode.assembled : ∀ node : StructureNode, node.emit.Assembled
  | ⟨kind, children, span⟩ => by
    rw [StructureNode.emit.eq_def]
    dsimp only
    split
    · exact .pure _
    · refine .after (built_opening _ _) fun opening => ?_
      refine .after (built_implementedClass opening) fun name => ?_
      refine .bind (assembled_emitClassBody _ children) fun body => ?_
      exact .after (built_emitClassEnd name) fun _ => .pure _
    · exact assembled_emitInterface _
    · refine .after (built_opening _ _) fun opening => ?_
      refine .after (built_emitCaseStart opening) fun start => ?_
      exact .bind (assembled_emitWhens start.1 true children) fun _ => .pure _
    · refine .after (built_opening _ _) fun opening => ?_
      refine .bind (assembled_emitTryBody children) fun body => ?_
      split
      · refine .bind (assembled_emitCatches true children) fun catches => ?_
        exact .after (.pure _) fun _ => .pure _
      · exact .after (.pure _) fun _ => .pure _
    · exact assembled_emitNodes children

theorem assembled_emitNodes : ∀ nodes : List Node, (emitNodes nodes).Assembled
  | [] => .pure _
  | node :: rest => by
    rw [emitNodes]
    exact .bind node.assembled fun _ => .bind (assembled_emitNodes rest) fun _ => .pure _

/-- The body of a branch is assembled from all children but the opening statement. -/
theorem assembled_emitBranchBody (opening : Span) :
    ∀ nodes : List Node, (emitBranchBody opening nodes).Assembled
  | [] => .pure _
  | .leaf node :: rest => by
    rw [emitBranchBody]
    split
    · exact assembled_emitBranchBody opening rest
    · exact .bind node.assembled_emitLine fun _ =>
        .bind (assembled_emitBranchBody opening rest) fun _ => .pure _
  | .branch node :: rest => by
    rw [emitBranchBody]
    exact .bind node.assembled fun _ =>
      .bind (assembled_emitBranchBody opening rest) fun _ => .pure _

/-- Where a class has no constructor, one is inserted behind its opening statement. -/
theorem assembled_emitClassBody (inserted : Option (Span × Token)) :
    ∀ nodes : List Node, (emitClassBody inserted nodes).Assembled
  | [] => .pure _
  | .leaf node :: rest => by
    rw [emitClassBody]
    refine .bind node.assembled_emitLine fun first => ?_
    have hrest : ∀ constructor : Code, Emit.Assembled (do
        return first ++ constructor ++ (← emitClassBody inserted rest)) := fun constructor =>
      .bind (assembled_emitClassBody inserted rest) fun _ => .pure _
    dsimp only
    split
    · refine .after (Members.built_defaultConstructor _) fun _ => ?_
      exact .after (.pure _) hrest
    · exact .after (.pure _) hrest
  | .branch node :: rest => by
    rw [emitClassBody]
    exact .bind node.assembled fun _ =>
      .bind (assembled_emitClassBody inserted rest) fun _ => .pure _

/-- The branches of a `CASE`, of which the first has another header than the others. -/
theorem assembled_emitWhens (operand : String) (first : Bool) :
    ∀ nodes : List Node, (emitWhens operand first nodes).Assembled
  | [] => .pure _
  | .leaf _ :: rest => by
    rw [emitWhens]
    exact assembled_emitWhens operand first rest
  | .branch ⟨kind, children, span⟩ :: rest => by
    rw [emitWhens]
    refine .after (built_opening _ _) fun opening => ?_
    refine .after (built_emitWhenStart operand first opening) fun start => ?_
    refine .bind (assembled_emitBranchBody opening.span children) fun body => ?_
    exact .bind (assembled_emitWhens operand false rest) fun _ => .pure _

theorem assembled_emitTryBody : ∀ nodes : List Node, (emitTryBody nodes).Assembled
  | [] => .pure _
  | .leaf node :: rest => by
    rw [emitTryBody]
    split
    · exact assembled_emitTryBody rest
    · exact .bind node.assembled_emitLine fun _ =>
        .bind (assembled_emitTryBody rest) fun _ => .pure _
  | .branch node :: rest => by
    rw [emitTryBody]
    split
    · exact assembled_emitTryBody rest
    · exact .bind node.assembled fun _ => .bind (assembled_emitTryBody rest) fun _ => .pure _

/-- The handlers of a `TRY`, of which the first has another header than the others. -/
theorem assembled_emitCatches (first : Bool) :
    ∀ nodes : List Node, (emitCatches first nodes).Assembled
  | [] => .pure _
  | .leaf _ :: rest => by
    rw [emitCatches]
    exact assembled_emitCatches first rest
  | .branch ⟨kind, children, span⟩ :: rest => by
    rw [emitCatches]
    split
    · refine .after (built_opening _ _) fun opening => ?_
      refine .after (built_emitCatchStart first opening) fun start => ?_
      refine .bind (assembled_emitBranchBody opening.span children) fun body => ?_
      exact .bind (assembled_emitCatches false rest) fun _ => .pure _
    · exact assembled_emitCatches first rest

end

/-- Emitting a whole tree is assembled. -/
theorem StructureNode.assembled_emitRoot (root : StructureNode) : root.emitRoot.Assembled :=
  assembled_emitNodes root.children

end AbapLowering
