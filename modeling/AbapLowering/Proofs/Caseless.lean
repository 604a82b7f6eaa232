import AbapLowering.Lowering
import AbapLowering.Proofs.Caseless.Statement
import AbapLowering.Proofs.Emission.BuiltTree

/-!
# Case does not show

The source language does not tell upper from lower case, and neither does lowering. A tree without
case is emitted like the tree itself, but for the wording of messages
(`StructureNode.agree_emitRoot`). So two units that differ only in the case of names are lowered to
the same code, position map and counts, with warnings at the same places, or both cannot be lowered
and for the same reason (`SourceUnit.lower_of_caseless_eq`).
-/

namespace AbapLowering

open Emit (Agree AgreeBy)

/-! ## Statements of a tree -/

theorem caselessNodes_eq_map (nodes : List Node) :
    caselessNodes nodes = nodes.map (·.caseless) := by
  induction nodes with
  | nil => rfl
  | cons node rest ih => rw [caselessNodes, ih, List.map_cons]

/-- A test of nodes that cannot tell case passes on as many nodes as before. -/
theorem any_caselessNodes {p : Node → Bool} (h : ∀ node, p node.caseless = p node)
    (nodes : List Node) : (caselessNodes nodes).any p = nodes.any p := by
  rw [caselessNodes_eq_map, List.any_map]
  exact congrArg (nodes.any ·) (funext h)

/-- A node is a statement without case if it is one. -/
theorem Node.statement?_caseless (node : Node) :
    node.caseless.statement? = node.statement?.map (·.caseless) := by
  cases node with
  | branch node => rw [Node.caseless, statement?, statement?, Option.map_none]
  | leaf node => rw [Node.caseless, statement?, statement?, Option.map_some]

namespace StructureNode

/-- The statements of a structure are those before, in the same order. -/
theorem statements_caseless (node : StructureNode) :
    node.caseless.statements = node.statements.map (·.caseless) := by
  obtain ⟨kind, children, span⟩ := node
  rw [StructureNode.caseless, statements, statements, caselessNodes_eq_map, List.filterMap_map,
    List.map_filterMap]
  exact congrArg (List.filterMap · children) (funext Node.statement?_caseless)

/-- A structure is opened by the same statement without case. -/
theorem firstStatement?_caseless (node : StructureNode) :
    node.caseless.firstStatement? = node.firstStatement?.map (·.caseless) := by
  rw [firstStatement?, statements_caseless, List.head?_map, firstStatement?]

/-- A structure ends at the same place. -/
theorem closingPosition_caseless (node : StructureNode) :
    closingPosition node.caseless = closingPosition node := by
  obtain ⟨kind, children, span⟩ := node
  rw [closingPosition, closingPosition, statements_caseless, List.getLast?_map]
  cases (StructureNode.mk kind children span).statements.getLast? with
  | none => rfl
  | some closing => rfl

end StructureNode

mutual

/-- All statements below a structure are those before, in the same order. -/
theorem StructureNode.allStatements_caseless : ∀ node : StructureNode,
    node.caseless.allStatements = node.allStatements.map (·.caseless)
  | ⟨kind, children, span⟩ => by
    rw [StructureNode.caseless, StructureNode.allStatements, StructureNode.allStatements]
    exact allStatementsOf_caseless children

theorem allStatementsOf_caseless : ∀ nodes : List Node,
    allStatementsOf (caselessNodes nodes) = (allStatementsOf nodes).map (·.caseless)
  | [] => rfl
  | node :: rest => by
    rw [caselessNodes, allStatementsOf, allStatementsOf, List.map_append,
      node.allStatements_caseless, allStatementsOf_caseless rest]

theorem Node.allStatements_caseless : ∀ node : Node,
    node.caseless.allStatements = node.allStatements.map (·.caseless)
  | .branch node => by
    rw [Node.caseless, Node.allStatements, Node.allStatements]
    exact node.allStatements_caseless
  | .leaf node => rfl

end

/-! ## Parts of structures -/

namespace StructureNode

/-- Whether a class has a constructor can be told without case. -/
theorem hasConstructor_caseless (node : StructureNode) :
    hasConstructor node.caseless = hasConstructor node := by
  rw [hasConstructor, hasConstructor, allStatements_caseless, List.any_map]
  refine congrArg (node.allStatements.any ·) (funext fun s => ?_)
  obtain ⟨statement, span, text⟩ := s
  cases statement with
  | method name => exact Text.sameIgnoringCase_caseless name.text "constructor"
  | _ => rfl

/-- Which statements only mark the parts of a `TRY` can be told without case. -/
theorem isTryMark_caseless (node : StatementNode) : isTryMark node.caseless = isTryMark node := by
  obtain ⟨statement, span, text⟩ := node
  cases statement <;> rfl

theorem isCatch_caseless (node : Node) : isCatch node.caseless = isCatch node := by
  cases node with
  | branch node => rw [Node.caseless, isCatch, isCatch, kind_caseless]
  | leaf node => rfl

/-- Which nodes are branches of a `CASE` can be told without case. -/
theorem isBranch_caseless (node : Node) : isBranch node.caseless = isBranch node := by
  cases node with
  | branch node => rfl
  | leaf node => rfl

/-- A structure without an opening statement is refused with and without case. -/
theorem agree_opening (node : StructureNode) (kind : String) :
    AgreeBy (fun a b => a = b.caseless) (opening node.caseless kind) (opening node kind) := by
  unfold opening
  rw [firstStatement?_caseless]
  cases node.firstStatement? with
  | none =>
    rw [span_caseless]
    exact .fail rfl
  | some statement => exact .pure rfl

/-- The class that is implemented is named by a token that differs in case at most. -/
theorem agree_implementedClass (opening : StatementNode) :
    AgreeBy (fun a b => a = b.caseless) (implementedClass opening.caseless)
      (implementedClass opening) := by
  obtain ⟨statement, span, text⟩ := opening
  cases statement with
  | classImplementation name => exact .pure rfl
  | _ => exact StatementNode.agree_refuse _

/-- The interface that is declared is named by a token that differs in case at most. -/
theorem agree_declaredInterface (opening : StatementNode) :
    AgreeBy (fun a b => a = b.caseless) (declaredInterface opening.caseless)
      (declaredInterface opening) := by
  obtain ⟨statement, span, text⟩ := opening
  cases statement with
  | interfaceHeader name => exact .pure rfl
  | _ => exact StatementNode.agree_refuse _

/-- Interfaces are emitted alike. -/
theorem agree_emitInterface (node : StructureNode) :
    Agree (emitInterface node.caseless) (emitInterface node) := by
  refine .bindBy (agree_opening node _) ?_
  rintro _ opening rfl
  refine .bindBy (agree_declaredInterface opening) ?_
  rintro _ name rfl
  refine .bind opening.agree_emitLine fun head => ?_
  dsimp only
  have hclosing : (node.caseless.statements.getLast?.filter
        fun s => s.span != opening.caseless.span) =
      (node.statements.getLast?.filter fun s => s.span != opening.span).map (·.caseless) := by
    rw [statements_caseless, List.getLast?_map, Option.filter_map]
    rfl
  rw [hclosing]
  cases node.statements.getLast?.filter fun s => s.span != opening.span
  case' none => refine .bind (.pure _) fun tail => ?_
  case' some closing => refine .bind closing.agree_emitLine fun tail => ?_
  all_goals
    simp only [Members.interfacePart_caseless, Members.register_caseless]
    exact .bind (Members.agree_interfaceOf name) fun i =>
      .bind (Members.built_interfacePart name i).agree fun _ =>
        .bind (Members.built_register _ name).agree fun _ => .pure _

/-- What follows a class is emitted alike. -/
theorem agree_emitClassEnd (name : Token) :
    Agree (emitClassEnd name.caseless) (emitClassEnd name) := by
  unfold emitClassEnd
  simp only [Members.register_caseless, Token.start_caseless]
  exact .bind (Members.agree_staticPart name) fun _ => .bind (Members.agree_classOf name) fun c =>
    .bind (Members.built_register c.toDefinition name).agree fun _ => .pure _

/-- The operand of a `CASE` is emitted alike. -/
theorem agree_emitCaseStart (opening : StatementNode) :
    Agree (emitCaseStart opening.caseless) (emitCaseStart opening) := by
  obtain ⟨statement, span, text⟩ := opening
  cases statement with
  | caseOf source =>
    exact .bind (Emit.Built.temporary rfl).agree fun _ => .bind source.agree fun _ =>
      .bind Emit.Built.takeHoisted.agree fun _ => .pure _
  | _ => exact StatementNode.agree_refuse _

/-- The alternatives of a `WHEN` are emitted alike. -/
theorem agree_whenCondition (operand : String) (opening : StatementNode) :
    Agree (whenCondition operand opening.caseless) (whenCondition operand opening) := by
  obtain ⟨statement, span, text⟩ := opening
  cases statement with
  | whenOneOf values =>
    exact .bind (.mapM _ _ fun value => .bind value.agree fun _ => .pure _) fun _ => .pure _
  | whenOthers => exact .pure _
  | _ => exact StatementNode.agree_refuse _

theorem agree_emitWhenStart (operand : String) (first : Bool) (opening : StatementNode) :
    Agree (emitWhenStart operand first opening.caseless) (emitWhenStart operand first opening) :=
  .bind (agree_whenCondition operand opening) fun condition =>
    .bind (built_branchLine first condition).agree fun _ =>
      .bind Emit.Built.takeHoisted.agree fun _ => .pure _

/-- The exceptions that a `CATCH` handles are found without case. -/
theorem agree_emitCatchStart (first : Bool) (opening : StatementNode) :
    Agree (emitCatchStart first opening.caseless) (emitCatchStart first opening) := by
  obtain ⟨statement, span, text⟩ := opening
  cases statement with
  | catchClasses classes into =>
    refine .bind (.mapM _ _ fun name => .bind (Invocation.agree_classAddress name) fun _ =>
      .pure _) fun checks => ?_
    cases into with
    | none => exact .bind (.pure _) fun _ => .bind Emit.Built.takeHoisted.agree fun _ => .pure _
    | some target =>
      exact .bind target.agree_emitTarget fun _ => .bind (.pure _) fun _ =>
        .bind Emit.Built.takeHoisted.agree fun _ => .pure _
  | _ => exact StatementNode.agree_refuse _

end StructureNode

/-! ## Trees -/

open StructureNode

mutual

/-- A node is emitted alike, whether it is a statement or a structure. -/
theorem Node.agree : ∀ node : Node, Agree node.caseless.emit node.emit
  | .leaf node => by
    rw [Node.caseless, Node.emit, Node.emit]
    exact node.agree_emitLine
  | .branch node => by
    rw [Node.caseless, Node.emit, Node.emit]
    exact node.agree

/-- Each kind of structure is emitted alike. -/
theorem StructureNode.agree : ∀ node : StructureNode, Agree node.caseless.emit node.emit
  | ⟨kind, children, span⟩ => by
    have hconstructor := hasConstructor_caseless ⟨kind, children, span⟩
    have hclosing := closingPosition_caseless ⟨kind, children, span⟩
    have hopening := agree_opening ⟨kind, children, span⟩
    rw [StructureNode.caseless] at hconstructor hclosing hopening ⊢
    rw [StructureNode.emit.eq_def, StructureNode.emit.eq_def]
    cases kind with
    | classDefinition => exact .pure _
    | classImplementation =>
      refine .bindBy (hopening _) ?_
      rintro _ opening rfl
      refine .bindBy (agree_implementedClass opening) ?_
      rintro _ name rfl
      rw [hconstructor, StatementNode.span_caseless]
      -- without case the constructor is inserted under the caseless name, if it was before
      have hbody := agree_emitClassBody (if hasConstructor ⟨.classImplementation, children, span⟩
        then none else some (opening.span, name)) children
      rw [apply_ite (Option.map _)] at hbody
      exact .bind hbody fun _ => .bind (agree_emitClassEnd name) fun _ => .pure _
    | interfaceUnit => exact agree_emitInterface ⟨.interfaceUnit, children, span⟩
    | caseOf =>
      refine .bindBy (hopening _) ?_
      rintro _ opening rfl
      refine .bind (agree_emitCaseStart opening) fun start => ?_
      rw [hclosing, any_caselessNodes isBranch_caseless]
      exact .bind (agree_emitWhens start.1 true children) fun _ => .pure _
    | tryBlock =>
      refine .bindBy (hopening _) ?_
      rintro _ opening rfl
      refine .bind (agree_emitTryBody children) fun body => ?_
      rw [hclosing, any_caselessNodes isCatch_caseless]
      dsimp only
      split
      · exact .bind (agree_emitCatches true children) fun _ => .bind (.pure _) fun _ => .pure _
      · exact .bind (.pure _) fun _ => .pure _
    | _ => exact agree_emitNodes children

theorem agree_emitNodes : ∀ nodes : List Node,
    Agree (emitNodes (caselessNodes nodes)) (emitNodes nodes)
  | [] => .pure _
  | node :: rest => by
    rw [caselessNodes, emitNodes, emitNodes]
    exact .bind node.agree fun _ => .bind (agree_emitNodes rest) fun _ => .pure _

theorem agree_emitBranchBody (opening : Span) : ∀ nodes : List Node,
    Agree (emitBranchBody opening (caselessNodes nodes)) (emitBranchBody opening nodes)
  | [] => .pure _
  | .leaf node :: rest => by
    rw [caselessNodes, Node.caseless, emitBranchBody, emitBranchBody, StatementNode.span_caseless]
    split
    · exact agree_emitBranchBody opening rest
    · exact .bind node.agree_emitLine fun _ =>
        .bind (agree_emitBranchBody opening rest) fun _ => .pure _
  | .branch node :: rest => by
    rw [caselessNodes, Node.caseless, emitBranchBody, emitBranchBody]
    exact .bind node.agree fun _ => .bind (agree_emitBranchBody opening rest) fun _ => .pure _

/-- The constructor that is inserted into a class is inserted at the same place. -/
theorem agree_emitClassBody (inserted : Option (Span × Token)) : ∀ nodes : List Node,
    Agree (emitClassBody (inserted.map fun i => (i.1, i.2.caseless)) (caselessNodes nodes))
      (emitClassBody inserted nodes)
  | [] => .pure _
  | .leaf node :: rest => by
    rw [caselessNodes, Node.caseless, emitClassBody, emitClassBody]
    refine .bind node.agree_emitLine fun first => ?_
    rw [StatementNode.span_caseless, Option.filter_map]
    dsimp only [Function.comp_def]
    cases inserted.filter fun i => node.span == i.1
    case' none => refine .bind (.pure _) fun constructor => ?_
    case' some i =>
      refine .bind (Members.agree_defaultConstructor i.2) fun constructor => ?_
      refine .bind (.pure _) fun constructor => ?_
    all_goals exact .bind (agree_emitClassBody inserted rest) fun _ => .pure _
  | .branch node :: rest => by
    rw [caselessNodes, Node.caseless, emitClassBody, emitClassBody]
    exact .bind node.agree fun _ => .bind (agree_emitClassBody inserted rest) fun _ => .pure _

/-- The branches of a `CASE` are emitted alike, the first as the first. -/
theorem agree_emitWhens (operand : String) (first : Bool) : ∀ nodes : List Node,
    Agree (emitWhens operand first (caselessNodes nodes)) (emitWhens operand first nodes)
  | [] => .pure _
  | .leaf _ :: rest => by
    rw [caselessNodes, Node.caseless, emitWhens, emitWhens]
    exact agree_emitWhens operand first rest
  | .branch ⟨kind, children, span⟩ :: rest => by
    have hopening := agree_opening ⟨kind, children, span⟩
    rw [StructureNode.caseless] at hopening
    rw [caselessNodes, Node.caseless, StructureNode.caseless, emitWhens, emitWhens]
    refine .bindBy (hopening _) ?_
    rintro _ opening rfl
    refine .bind (agree_emitWhenStart operand first opening) fun start => ?_
    refine .bind (agree_emitBranchBody opening.span children) fun body => ?_
    exact .bind (agree_emitWhens operand false rest) fun _ => .pure _

theorem agree_emitTryBody : ∀ nodes : List Node,
    Agree (emitTryBody (caselessNodes nodes)) (emitTryBody nodes)
  | [] => .pure _
  | .leaf node :: rest => by
    rw [caselessNodes, Node.caseless, emitTryBody, emitTryBody, isTryMark_caseless]
    split
    · exact agree_emitTryBody rest
    · exact .bind node.agree_emitLine fun _ => .bind (agree_emitTryBody rest) fun _ => .pure _
  | .branch node :: rest => by
    rw [caselessNodes, Node.caseless, emitTryBody, emitTryBody, kind_caseless]
    split
    · exact agree_emitTryBody rest
    · exact .bind node.agree fun _ => .bind (agree_emitTryBody rest) fun _ => .pure _

/-- The handlers of a `TRY` are emitted alike, the first as the first. -/
theorem agree_emitCatches (first : Bool) : ∀ nodes : List Node,
    Agree (emitCatches first (caselessNodes nodes)) (emitCatches first nodes)
  | [] => .pure _
  | .leaf _ :: rest => by
    rw [caselessNodes, Node.caseless, emitCatches, emitCatches]
    exact agree_emitCatches first rest
  | .branch ⟨kind, children, span⟩ :: rest => by
    have hopening := agree_opening ⟨kind, children, span⟩
    rw [StructureNode.caseless] at hopening
    rw [caselessNodes, Node.caseless, StructureNode.caseless, emitCatches, emitCatches]
    split
    · refine .bindBy (hopening _) ?_
      rintro _ opening rfl
      refine .bind (agree_emitCatchStart first opening) fun start => ?_
      refine .bind (agree_emitBranchBody opening.span children) fun body => ?_
      exact .bind (agree_emitCatches false rest) fun _ => .pure _
    · exact agree_emitCatches first rest

end

/-- A tree without case is emitted alike. -/
theorem StructureNode.agree_emitRoot (root : StructureNode) :
    Agree root.caseless.emitRoot root.emitRoot := by
  obtain ⟨kind, children, span⟩ := root
  rw [StructureNode.caseless]
  exact agree_emitNodes children

/-! ## Units -/

/-- A lowered unit without the messages of its findings. -/
def LoweredUnit.unworded (out : LoweredUnit) : LoweredUnit :=
  { out with diagnostics := out.diagnostics.map (·.unworded) }

/-- Units that are lowered to the same but for wording differ in the messages of findings only. -/
theorem LoweredUnit.eq_of_unworded {out out' : LoweredUnit} (h : out.unworded = out'.unworded) :
    ∃ diagnostics, out' = { out with diagnostics } ∧
      out.diagnostics.map (·.unworded) = diagnostics.map (·.unworded) := by
  obtain ⟨file, sourceFile, code, positionMap, diagnostics, statements, constants⟩ := out
  obtain ⟨file', sourceFile', code', positionMap', diagnostics', statements', constants'⟩ := out'
  simp only [unworded, LoweredUnit.mk.injEq] at h
  obtain ⟨rfl, rfl, rfl, rfl, hdiagnostics, rfl, rfl⟩ := h
  exact ⟨diagnostics', rfl, hdiagnostics⟩

namespace SourceUnit

/-- What lowering a unit comes to, without wording. -/
def unwordedOutcome : Except Abort LoweredUnit × Nat → Except Abort LoweredUnit × Nat
  | (.ok out, issued) => (.ok out.unworded, issued)
  | (.error why, issued) => (.error why.unworded, issued)

/-- Without its case a unit is lowered to the same, but for wording. -/
theorem unwordedOutcome_lower_caseless (u : SourceUnit) (config : Config) (registry : Registry)
    (issued : Nat) :
    unwordedOutcome (u.caseless.lower config registry issued) =
      unwordedOutcome (u.lower config registry issued) := by
  have hroot : Agree u.caseless.root.emitRoot u.root.emitRoot := u.root.agree_emitRoot
  have hvalidate : u.caseless.validate = u.validate := rfl
  have hview : u.caseless.view registry = u.view registry := rfl
  have hassemble : u.caseless.assemble config (u.caseless.ownerWarning? registry) =
    u.assemble config (u.ownerWarning? registry) := rfl
  rw [lower, lower, hvalidate, hview, hassemble]
  cases u.validate with
  | error why => rfl
  | ok _ =>
    have houtcome := hroot ⟨u.view registry, config⟩ (.initial issued) (.initial issued) rfl
    generalize u.caseless.root.emitRoot ⟨u.view registry, config⟩ (.initial issued) = m
      at houtcome ⊢
    generalize u.root.emitRoot ⟨u.view registry, config⟩ (.initial issued) = n at houtcome ⊢
    cases houtcome with
    | ok hbody hst =>
      subst hbody
      obtain ⟨diagnostics, rfl, hdiagnostics⟩ := EmissionState.eq_of_unworded hst
      simp [unwordedOutcome, LoweredUnit.unworded, assemble, hdiagnostics]
    | error hwhy hst =>
      obtain ⟨diagnostics, rfl, -⟩ := EmissionState.eq_of_unworded hst
      simp [unwordedOutcome, hwhy]

/-- Lowering does not see the case of names. If the trees of two units differ only in the case of
letters A to Z of tokens, and the units in nothing else, then they get the same temporaries; if one
can be lowered, so can the other, to the same code, position map and counts, with findings of the
same severity at the same places; and if one cannot, nor can the other, for the same reason, where
only the name of a missing definition may be written in another case. -/
theorem lower_of_caseless_eq {u v : SourceUnit} (h : u.caseless = v.caseless) (config : Config)
    (registry : Registry) (issued : Nat) :
    let outcome := u.lower config registry issued
    let outcome' := v.lower config registry issued
    outcome.2 = outcome'.2 ∧
    (∀ out, outcome.1 = .ok out → ∃ diagnostics, outcome'.1 = .ok { out with diagnostics } ∧
      diagnostics.map (·.unworded) = out.diagnostics.map (·.unworded)) ∧
    ∀ why, outcome.1 = .error why → ∃ why', outcome'.1 = .error why' ∧
      why'.unworded = why.unworded := by
  intro outcome outcome'
  have heq : unwordedOutcome outcome = unwordedOutcome outcome' := by
    rw [← unwordedOutcome_lower_caseless u, h, unwordedOutcome_lower_caseless v]
  -- equal without their words, so both fail or both succeed
  rcases outcome with ⟨why | out, issued⟩ <;> rcases outcome' with ⟨why' | out', issued'⟩
  · obtain ⟨hwhy, hissued⟩ := Prod.mk.inj heq
    refine ⟨hissued, ?_, ?_⟩
    · rintro _ ⟨⟩
    · rintro _ ⟨⟩
      exact ⟨why', rfl, (Except.error.inj hwhy).symm⟩
  · cases (Prod.mk.inj heq).1
  · cases (Prod.mk.inj heq).1
  · obtain ⟨hout, hissued⟩ := Prod.mk.inj heq
    refine ⟨hissued, ?_, ?_⟩
    · rintro _ ⟨⟩
      obtain ⟨diagnostics, rfl, hdiagnostics⟩ := LoweredUnit.eq_of_unworded (Except.ok.inj hout)
      exact ⟨diagnostics, rfl, hdiagnostics.symm⟩
    · rintro _ ⟨⟩

/-- A call of a method that nothing is known about. -/
def callingUnknown (name : String) : SourceUnit :=
  let parameters : CallParameters := ⟨some (.constant (.integer 1)), [], [], [], none, []⟩
  let calling : StatementNode :=
    ⟨.call ⟨.implicit, .named ⟨name, ⟨1, 1⟩⟩, parameters⟩, ⟨⟨1, 1⟩, ⟨1, 8⟩⟩, ""⟩
  { file := "zfoo.prog.abap"
    object := ⟨.prog, "ZFOO"⟩
    root := ⟨.program, [.leaf calling], ⟨⟨1, 1⟩, ⟨1, 8⟩⟩⟩
    scopes := ⟨#[.fresh .program "zfoo" "zfoo.prog.abap" ⟨⟨1, 1⟩, ⟨9, 1⟩⟩ none]⟩ }

/-- The code is the same, and only the warning shows how the name is written. -/
theorem lower_callingUnknown :
    ∃ out diagnostics,
      ((callingUnknown "foo").lower .standard .empty 0).1 = .ok out ∧
      ((callingUnknown "FOO").lower .standard .empty 0).1 = .ok { out with diagnostics } ∧
      diagnostics.map (·.unworded) = out.diagnostics.map (·.unworded) ∧
      out.diagnostics.map (·.message) = ["no default importing parameter known for foo"] ∧
      diagnostics.map (·.message) = ["no default importing parameter known for FOO"] := by
  have hcaseless : (callingUnknown "foo").caseless = (callingUnknown "FOO").caseless := by rfl
  obtain ⟨-, hsame, -⟩ := lower_of_caseless_eq hcaseless .standard .empty 0
  -- the warnings alone show how the name was written
  have hwarned : ∀ name ∈ ["foo", "FOO"],
      ((callingUnknown name).lower .standard .empty 0).1.toOption.map
        (·.diagnostics.map (·.message)) =
          some ["no default importing parameter known for " ++ name] := by decide +kernel
  have hfoo := hwarned "foo" (by simp)
  have hFOO := hwarned "FOO" (by simp)
  cases hout : ((callingUnknown "foo").lower .standard .empty 0).1 with
  | error why =>
    rw [hout] at hfoo
    cases hfoo
  | ok out =>
    obtain ⟨diagnostics, hout', hunworded⟩ := hsame out hout
    rw [hout] at hfoo
    rw [hout'] at hFOO
    exact ⟨out, diagnostics, rfl, hout', hunworded, Option.some.inj hfoo, Option.some.inj hFOO⟩

end SourceUnit

end AbapLowering
