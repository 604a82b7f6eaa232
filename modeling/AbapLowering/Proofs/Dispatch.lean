import AbapLowering.Lowering
import AbapLowering.Proofs.Emission.Dispatch

/-!
# Which statements are dispatched

Each structure decides by itself which of the statements below it are emitted.

- `StructureNode.due`: the statements that should be. Class definitions and what stands between the
  first and the last statement of an interface only declare, and CASE and TRY handle the statements
  that mark their parts themselves;
- `StructureNode.dispatched`: those that are. A CASE passes over all statements between its branches,
  a branch of a CASE and a handler of a TRY over all that share the span of the statement that opens
  them, and so does an interface;
- `StructureNode.dispatches_emitRoot`: a tree that is emitted dispatches just these, each once, and
  its code holds their lines in order.
-/

namespace AbapLowering

/-- A statement that should be emitted, and whether the structure around it passes over it. -/
structure DueStatement where
  node : StatementNode
  passedOver : Bool

/-- The statements that are emitted. -/
def dispatchedOf (dues : List DueStatement) : List StatementNode :=
  (dues.filter fun due => !due.passedOver).map (·.node)

@[simp] theorem dispatchedOf_nil : dispatchedOf [] = [] := rfl

@[simp] theorem dispatchedOf_append (a b : List DueStatement) :
    dispatchedOf (a ++ b) = dispatchedOf a ++ dispatchedOf b := by
  simp [dispatchedOf]

@[simp] theorem dispatchedOf_dispatched (node : StatementNode) (rest : List DueStatement) :
    dispatchedOf (⟨node, false⟩ :: rest) = node :: dispatchedOf rest := rfl

@[simp] theorem dispatchedOf_passedOver (node : StatementNode) (rest : List DueStatement) :
    dispatchedOf (⟨node, true⟩ :: rest) = dispatchedOf rest := rfl

namespace StructureNode

/-- Whether a statement only marks where a CASE ends. -/
def isCaseEnd (node : StatementNode) : Bool :=
  match node.statement with
  | .endCase => true
  | _ => false

/-- What should be emitted of the statements of an interface: the first and the last. -/
def duesOfInterface : List StatementNode → List DueStatement
  | [] => []
  | opening :: rest => ⟨opening, false⟩ ::
    (rest.getLast?.map fun closing => ⟨closing, closing.span == opening.span⟩).toList

end StructureNode

open StructureNode in
mutual

/-- What should be emitted of the statements at or below a node, in the order of the code. -/
def Node.dues : Node → List DueStatement
  | .leaf node => [⟨node, false⟩]
  | .branch node => node.dues

/-- What should be emitted of the statements below a structure. -/
def StructureNode.dues : StructureNode → List DueStatement
  | ⟨kind, children, span⟩ =>
    match kind with
    | .classDefinition => []
    | .interfaceUnit => duesOfInterface (statements ⟨kind, children, span⟩)
    | .caseOf => duesOfWhens false children
    | .tryBlock => duesOfTryBody children ++ duesOfCatches children
    | _ => duesOf children

/-- What should be emitted of the statements at or below some nodes. -/
def duesOf : List Node → List DueStatement
  | [] => []
  | node :: rest => node.dues ++ duesOf rest

/-- What should be emitted of a branch: all but its first statement, which opens it and has the span
`opening` if it came before. -/
def duesOfBranch (opening : Option Span) : List Node → List DueStatement
  | [] => []
  | .leaf node :: rest =>
    match opening with
    | none => duesOfBranch (some node.span) rest
    | some span => ⟨node, node.span == span⟩ :: duesOfBranch opening rest
  | .branch node :: rest => node.dues ++ duesOfBranch opening rest

/-- What should be emitted of a CASE: its branches, and all but its first statement, which opens it,
and ENDCASE. -/
def duesOfWhens (opened : Bool) : List Node → List DueStatement
  | [] => []
  | .leaf node :: rest =>
    if !opened || isCaseEnd node then duesOfWhens true rest
    else ⟨node, true⟩ :: duesOfWhens true rest
  | .branch ⟨_, children, _⟩ :: rest => duesOfBranch none children ++ duesOfWhens opened rest

/-- What should be emitted of a TRY up to its handlers. -/
def duesOfTryBody : List Node → List DueStatement
  | [] => []
  | .leaf node :: rest =>
    if isTryMark node then duesOfTryBody rest else ⟨node, false⟩ :: duesOfTryBody rest
  | .branch node :: rest =>
    if node.kind = .catchBranch then duesOfTryBody rest else node.dues ++ duesOfTryBody rest

/-- What should be emitted of the handlers of a TRY. -/
def duesOfCatches : List Node → List DueStatement
  | [] => []
  | .leaf _ :: rest => duesOfCatches rest
  | .branch ⟨kind, children, _⟩ :: rest =>
    if kind = .catchBranch then
      duesOfBranch none children ++ duesOfCatches rest
    else duesOfCatches rest

end

namespace StructureNode

/-- The statements below a root that should be emitted, in the order of the code. -/
def due (root : StructureNode) : List StatementNode := (duesOf root.children).map (·.node)

/-- The statements below a root that are emitted. -/
def dispatched (root : StructureNode) : List StatementNode := dispatchedOf (duesOf root.children)

/-- The statements below a root that should be emitted and are not. -/
def passedOver (root : StructureNode) : List StatementNode :=
  ((duesOf root.children).filter (·.passedOver)).map (·.node)

/-- All that should be emitted is, unless something is passed over. -/
theorem dispatched_eq_due_iff (root : StructureNode) :
    root.dispatched = root.due ↔ root.passedOver = [] := by
  unfold dispatched dispatchedOf due passedOver
  generalize duesOf root.children = dues
  constructor
  · intro h
    have hlength := congrArg List.length h
    rw [List.length_map, List.length_map, List.length_filter_eq_length_iff] at hlength
    rw [List.map_eq_nil_iff, List.filter_eq_nil_iff]
    intro due hdue
    simpa using hlength due hdue
  · intro h
    rw [List.map_eq_nil_iff, List.filter_eq_nil_iff] at h
    rw [List.filter_eq_self.mpr fun due hdue => by simpa using h due hdue]

end StructureNode

/-! ## Trees -/

open Emit (Dispatches)

namespace StructureNode

/-- What follows the search for the opening statement may rely on it. -/
theorem dispatches_opening {node : StructureNode} {kind : String} {f : StatementNode → Emit Code}
    {before : List Fragment} {nodes : List StatementNode}
    (h : ∀ opening, node.firstStatement? = some opening → Dispatches before nodes (f opening)) :
    Dispatches before nodes (node.opening kind >>= f) := by
  unfold opening
  cases hfirst : node.firstStatement? with
  | none => exact .fail _ f
  | some statement => exact h statement hfirst

theorem dispatches_emitInterface (node : StructureNode) :
    node.emitInterface.Dispatches [] (dispatchedOf (duesOfInterface node.statements)) := by
  refine dispatches_opening fun opening hopening => ?_
  refine .after (built_declaredInterface opening) fun name => ?_
  obtain ⟨rest, hrest⟩ : ∃ rest, node.statements = opening :: rest :=
    List.head?_eq_some_iff.mp hopening
  -- what follows the statements dispatches none
  have hend : ∀ head tail : Code,
      Dispatches ([] ++ head.fragments ++ tail.fragments) [] (do
        let i ← Members.interfaceOf name
        let part ← Members.interfacePart name i
        Members.register i.toDefinition name
        return head ++ tail ++ .tagged name.start part) := fun head tail =>
    .after (Members.built_interfaceOf name) fun i =>
      .after (Members.built_interfacePart name i) fun part =>
        .after (Members.built_register _ name) fun _ => .pure (List.sublist_append_left _ _)
  have hclosing : ((opening :: rest).getLast?.filter fun s => s.span != opening.span) =
      rest.getLast?.filter fun s => s.span != opening.span := by
    cases rest with
    | nil => simp
    | cons next others => rw [List.getLast?_cons_cons]
  rw [hrest, duesOfInterface]
  change Dispatches [] ([opening] ++ dispatchedOf _) _
  refine .bind opening.dispatches_emitLine fun head => ?_
  have hskip : Dispatches ([] ++ head.fragments) ([] ++ []) (do
      let tail ← pure .empty
      let i ← Members.interfaceOf name
      let part ← Members.interfacePart name i
      Members.register i.toDefinition name
      return head ++ tail ++ .tagged name.start part) :=
    .bind (.pure (List.nil_sublist _)) (hend head)
  dsimp only
  rw [hclosing]
  cases rest.getLast? with
  | none => exact hskip
  | some closing =>
    -- a unit of one statement has it as its last one too, and emits it once
    by_cases hspan : closing.span = opening.span
    · have hnone : ((some closing).filter fun s => s.span != opening.span) = none := by
        simp [hspan]
      have hpassed : (closing.span == opening.span) = true := by simpa using hspan
      rw [hnone, Option.map_some, hpassed]
      exact hskip
    · have hsome : ((some closing).filter fun s => s.span != opening.span) = some closing := by
        simp [hspan]
      have hmet : (closing.span == opening.span) = false := by simpa using hspan
      rw [hsome, Option.map_some, hmet]
      exact .bind closing.dispatches_emitLine (hend head)

/-- Whether the statement that opens a branch is known beforehand does not matter to what is emitted:
it is passed over either way. -/
theorem dispatchedOf_duesOfBranch {kind : StructureKind} {span : Span} {opening : StatementNode} :
    ∀ {children : List Node}, firstStatement? ⟨kind, children, span⟩ = some opening →
      dispatchedOf (duesOfBranch none children) =
        dispatchedOf (duesOfBranch (some opening.span) children)
  | [], h => by cases h
  | .leaf node :: rest, h => by
    obtain rfl : node = opening := Option.some.inj h
    rw [duesOfBranch, duesOfBranch, beq_self_eq_true, dispatchedOf_passedOver]
  | .branch node :: rest, h => by
    rw [duesOfBranch, duesOfBranch, dispatchedOf_append, dispatchedOf_append]
    have hrest : firstStatement? ⟨kind, rest, span⟩ = some opening := h
    rw [dispatchedOf_duesOfBranch hrest]

/-- Without handlers nothing is due in them. -/
theorem duesOfCatches_eq_nil {nodes : List Node} (h : nodes.any isCatch = false) :
    duesOfCatches nodes = [] := by
  induction nodes with
  | nil => rfl
  | cons node rest ih =>
    rw [List.any_cons, Bool.or_eq_false_iff] at h
    match node with
    | .leaf node =>
      rw [duesOfCatches]
      exact ih h.2
    | .branch ⟨kind, children, span⟩ =>
      rw [duesOfCatches, if_neg (by simpa [isCatch] using h.1)]
      exact ih h.2

end StructureNode

open StructureNode

mutual

/-- A node emits the statements that are due in it. -/
theorem Node.dispatches_emit : ∀ node : Node, node.emit.Dispatches [] (dispatchedOf node.dues)
  | .leaf node => by
    rw [Node.emit, Node.dues]
    exact node.dispatches_emitLine
  | .branch node => by
    rw [Node.emit, Node.dues]
    exact node.dispatches_emit

/-- Each kind of structure emits the statements that are due in it, and passes over others. -/
theorem StructureNode.dispatches_emit :
    ∀ node : StructureNode, node.emit.Dispatches [] (dispatchedOf node.dues)
  | ⟨kind, children, span⟩ => by
    rw [StructureNode.emit.eq_def, StructureNode.dues.eq_def]
    cases kind with
    | classDefinition => exact .pure (List.nil_sublist _)
    | classImplementation =>
      refine dispatches_opening fun opening _ => ?_
      refine .after (built_implementedClass opening) fun name => ?_
      rw [← List.append_nil (dispatchedOf _)]
      refine .bind (dispatches_emitClassBody _ children) fun body => ?_
      exact .after (built_emitClassEnd name) fun _ => .pure (List.sublist_append_left _ _)
    | interfaceUnit => exact dispatches_emitInterface _
    | caseOf =>
      refine dispatches_opening fun opening _ => .after (built_emitCaseStart opening) fun start => ?_
      refine .last (dispatches_emitWhens start.1 true false children) fun branches => ?_
      exact (List.sublist_append_right _ _).trans (List.sublist_append_left _ _)
    | tryBlock =>
      refine dispatches_opening fun opening _ => ?_
      rw [dispatchedOf_append]
      refine .bind (dispatches_emitTryBody children) fun body => ?_
      have hrest : ∀ (handlers : Code) (written : List Fragment),
          written.Sublist handlers.fragments →
            Dispatches ([] ++ body.fragments ++ written) [] (pure
              (Code.tagged opening.span.start "try \x7b\n" ++ body ++ handlers
                ++ .tagged (closingPosition ⟨.tryBlock, children, span⟩) "\x7d\n")) := by
        intro handlers written hwritten
        refine .pure (List.Sublist.trans ?_ (List.sublist_append_left _ _))
        exact List.Sublist.append (List.sublist_append_right _ _) hwritten
      dsimp only
      by_cases hcatch : children.any isCatch = true
      · rw [if_pos hcatch, ← List.append_nil (dispatchedOf (duesOfCatches children))]
        refine .bind (dispatches_emitCatches true children) fun catches => ?_
        refine .of_pure (hrest _ _ ?_)
        exact (List.sublist_append_right _ _).trans (List.sublist_append_left _ _)
      · rw [if_neg hcatch, duesOfCatches_eq_nil (Bool.eq_false_iff.mpr hcatch)]
        have hnone := hrest .empty [] (List.nil_sublist _)
        rw [List.append_nil] at hnone
        exact .of_pure hnone
    | _ => exact dispatches_emitNodes children

/-- Nodes emit what is due, one after the other. -/
theorem dispatches_emitNodes :
    ∀ nodes : List Node, (emitNodes nodes).Dispatches [] (dispatchedOf (duesOf nodes))
  | [] => .pure (List.nil_sublist _)
  | node :: rest => by
    rw [emitNodes, duesOf, dispatchedOf_append]
    exact .andThen node.dispatches_emit (dispatches_emitNodes rest)

theorem dispatches_emitBranchBody (opening : Span) :
    ∀ nodes : List Node, (emitBranchBody opening nodes).Dispatches []
      (dispatchedOf (duesOfBranch (some opening) nodes))
  | [] => .pure (List.nil_sublist _)
  | .leaf node :: rest => by
    rw [emitBranchBody, duesOfBranch]
    by_cases hspan : node.span = opening
    · have hpassed : (node.span == opening) = true := by simpa using hspan
      rw [if_pos hspan, hpassed]
      exact dispatches_emitBranchBody opening rest
    · have hmet : (node.span == opening) = false := by simpa using hspan
      rw [if_neg hspan, hmet]
      exact .andThen node.dispatches_emitLine (dispatches_emitBranchBody opening rest)
  | .branch node :: rest => by
    rw [emitBranchBody, duesOfBranch, dispatchedOf_append]
    exact .andThen node.dispatches_emit (dispatches_emitBranchBody opening rest)

theorem dispatches_emitClassBody (inserted : Option (Span × Token)) :
    ∀ nodes : List Node, (emitClassBody inserted nodes).Dispatches [] (dispatchedOf (duesOf nodes))
  | [] => .pure (List.nil_sublist _)
  | .leaf node :: rest => by
    rw [emitClassBody, duesOf, dispatchedOf_append, Node.dues]
    refine .bind node.dispatches_emitLine fun first => ?_
    have hrest : ∀ constructor : Code, Dispatches ([] ++ first.fragments)
        (dispatchedOf (duesOf rest)) (do
          return first ++ constructor ++ (← emitClassBody inserted rest)) := fun constructor =>
      .last (dispatches_emitClassBody inserted rest) fun others =>
        (List.append_sublist_append_right _).mpr (List.sublist_append_left _ _)
    dsimp only
    split
    · refine .after (Members.built_defaultConstructor _) fun _ => ?_
      exact .after (.pure _) hrest
    · exact .after (.pure _) hrest
  | .branch node :: rest => by
    rw [emitClassBody, duesOf, dispatchedOf_append, Node.dues]
    exact .andThen node.dispatches_emit (dispatches_emitClassBody inserted rest)

/-- Between the branches of a `CASE` statements are passed over. -/
theorem dispatches_emitWhens (operand : String) (first opened : Bool) :
    ∀ nodes : List Node,
      (emitWhens operand first nodes).Dispatches [] (dispatchedOf (duesOfWhens opened nodes))
  | [] => .pure (List.nil_sublist _)
  | .leaf node :: rest => by
    rw [emitWhens, duesOfWhens]
    have hrest := dispatches_emitWhens operand first true rest
    split
    · exact hrest
    · exact hrest
  | .branch ⟨kind, children, span⟩ :: rest => by
    rw [emitWhens, duesOfWhens, dispatchedOf_append]
    refine dispatches_opening fun opening hopening => ?_
    rw [dispatchedOf_duesOfBranch hopening]
    refine .after (built_emitWhenStart operand first opening) fun start => ?_
    refine .bind (dispatches_emitBranchBody opening.span children) fun body => ?_
    refine .last (dispatches_emitWhens operand false opened rest) fun others => ?_
    exact (List.append_sublist_append_right _).mpr (List.sublist_append_right _ _)

theorem dispatches_emitTryBody : ∀ nodes : List Node,
    (emitTryBody nodes).Dispatches [] (dispatchedOf (duesOfTryBody nodes))
  | [] => .pure (List.nil_sublist _)
  | .leaf node :: rest => by
    rw [emitTryBody, duesOfTryBody]
    split
    · exact dispatches_emitTryBody rest
    · exact .andThen node.dispatches_emitLine (dispatches_emitTryBody rest)
  | .branch node :: rest => by
    rw [emitTryBody, duesOfTryBody]
    split
    · exact dispatches_emitTryBody rest
    · rw [dispatchedOf_append]
      exact .andThen node.dispatches_emit (dispatches_emitTryBody rest)

/-- Handlers emit what is due in them. -/
theorem dispatches_emitCatches (first : Bool) : ∀ nodes : List Node,
    (emitCatches first nodes).Dispatches [] (dispatchedOf (duesOfCatches nodes))
  | [] => .pure (List.nil_sublist _)
  | .leaf _ :: rest => by
    rw [emitCatches, duesOfCatches]
    exact dispatches_emitCatches first rest
  | .branch ⟨kind, children, span⟩ :: rest => by
    rw [emitCatches, duesOfCatches]
    split
    · rw [dispatchedOf_append]
      refine dispatches_opening fun opening hopening => ?_
      rw [dispatchedOf_duesOfBranch hopening]
      refine .after (built_emitCatchStart first opening) fun start => ?_
      refine .bind (dispatches_emitBranchBody opening.span children) fun body => ?_
      refine .last (dispatches_emitCatches false rest) fun others => ?_
      exact (List.append_sublist_append_right _).mpr (List.sublist_append_right _ _)
    · exact dispatches_emitCatches first rest

end

/-! ## What is dispatched, and what is lost -/

/-- Whether a statement is one that nothing can be lowered to. -/
def StatementNode.IsUnsupported (node : StatementNode) : Prop :=
  ∃ name, node.statement = .unsupported name

namespace StatementNode

/-- A statement that is not supported ends the emission when it is its turn. -/
theorem emitLine_of_isUnsupported {node : StatementNode} (h : node.IsUnsupported)
    (context : Context) (s : EmissionState) :
    node.emitLine context s =
      .error (.error node.refuse) { s with statements := s.statements + 1 } := by
  obtain ⟨name, hname⟩ := h
  have hemit : node.emit = Emit.fail node.refuse := by rw [emit, hname]
  rw [emitLine, hemit]
  rfl

/-- So it has no line. -/
theorem not_hasLine_of_isUnsupported {node : StatementNode} (h : node.IsUnsupported)
    (context : Context) (line : Code) : ¬ node.HasLine context line := by
  rintro ⟨s, s', hline⟩
  rw [emitLine_of_isUnsupported h] at hline
  cases hline

end StatementNode

/-- Where statements are met in turn and one of them is unsupported, this one is met last if at all,
and then it is the reason why emitting stopped. -/
theorem Emit.StopsAmong.at_unsupported {context : Context} {before after : List StatementNode}
    {node : StatementNode} {why : Abort} {s : EmissionState}
    (h : StopsAmong context 0 (before ++ node :: after) why s) (hnode : node.IsUnsupported) :
    s.statements ≤ before.length ∨
      (s.statements = before.length + 1 ∧ why = .error node.refuse) := by
  -- the statements that were met to the end are among those before
  have hprefix : ∀ {done rest : List StatementNode}, before ++ node :: after = done ++ rest →
      (∀ met ∈ done, ∃ line, met.HasLine context line) → done.length ≤ before.length := by
    intro done rest hnodes hdone
    refine Nat.le_of_not_lt fun hlength => ?_
    have hmem : node ∈ done := by
      have hindex : (done ++ rest)[before.length]? = some node := by
        rw [← hnodes, List.getElem?_append_right (Nat.le_refl _), Nat.sub_self]
        rfl
      rw [List.getElem?_append_left (by omega)] at hindex
      exact List.mem_of_getElem? hindex
    obtain ⟨line, hline⟩ := hdone node hmem
    exact StatementNode.not_hasLine_of_isUnsupported hnode context line hline
  cases h with
  | between hnodes hdone hcount =>
    have hlength := hprefix hnodes hdone
    exact .inl (by omega)
  | @within done other rest t hnodes hdone hcount hstop =>
    have hlength := hprefix hnodes hdone
    by_cases hlast : done.length = before.length
    · obtain ⟨-, hrest⟩ := List.append_inj hnodes hlast.symm
      obtain ⟨rfl, -⟩ := List.cons.inj hrest
      rw [StatementNode.emitLine_of_isUnsupported hnode] at hstop
      cases hstop
      exact .inr ⟨by omega, rfl⟩
    · exact .inl (by omega)

namespace StructureNode

/-- The code of a tree holds the lines of the statements that are dispatched. -/
theorem exists_lines_of_emitRoot {root : StructureNode} {context : Context} {issued : Nat}
    {body : Code} {s : EmissionState}
    (h : root.emitRoot context (.initial issued) = .ok body s) :
    s.statements = root.dispatched.length ∧
      ∃ lines : List (StatementNode × Code), lines.map Prod.fst = root.dispatched ∧
        (∀ line ∈ lines, line.1.HasLine context line.2) ∧
        (lines.flatMap (·.2.fragments)).Sublist body.fragments := by
  have hroot := dispatches_emitNodes root.children context (.initial issued)
  rw [emitRoot] at h
  rw [h] at hroot
  obtain ⟨hcount, hlines⟩ := hroot
  exact ⟨hcount.trans (Nat.zero_add _), hlines⟩

/-- What becomes of the statements of a tree:

- if its code is emitted, it was made by dispatching `dispatched`, each statement once, and the code
  contains their lines in this order;
- nothing that should be emitted is lost iff no structure passes over something;
- if an unsupported statement is among those that are dispatched, emitting fails: for this reason,
  unless it stops before it comes to the statement. -/
theorem dispatches_emitRoot (root : StructureNode) (context : Context) (issued : Nat) :
    (∀ body s, root.emitRoot context (.initial issued) = .ok body s →
      s.statements = root.dispatched.length ∧
      ∃ lines : List (StatementNode × Code), lines.map Prod.fst = root.dispatched ∧
        (∀ line ∈ lines, line.1.HasLine context line.2) ∧
        (lines.flatMap (·.2.fragments)).Sublist body.fragments) ∧
    (root.dispatched = root.due ↔ root.passedOver = []) ∧
    ∀ before node after, root.dispatched = before ++ node :: after → node.IsUnsupported →
      ∃ why s, root.emitRoot context (.initial issued) = .error why s ∧
        (s.statements ≤ before.length ∨
          (s.statements = before.length + 1 ∧ why = .error node.refuse)) := by
  refine ⟨fun body s => exists_lines_of_emitRoot, root.dispatched_eq_due_iff,
    fun before node after hdispatched hnode => ?_⟩
  cases hrun : root.emitRoot context (.initial issued) with
  | error why s =>
    have hstops := dispatches_emitNodes root.children context (.initial issued)
    rw [← emitRoot, hrun] at hstops
    have hstops : Emit.StopsAmong context 0 root.dispatched why s := hstops
    rw [hdispatched] at hstops
    exact ⟨why, s, rfl, hstops.at_unsupported hnode⟩
  | ok body s =>
    -- had the tree been emitted, the unsupported statement would have a line
    obtain ⟨-, lines, hnodes, hlines, -⟩ := exists_lines_of_emitRoot hrun
    have hmem : node ∈ lines.map Prod.fst := by
      rw [hnodes, hdispatched]
      simp
    obtain ⟨line, hline, rfl⟩ := List.mem_map.mp hmem
    exact absurd (hlines line hline)
      (StatementNode.not_hasLine_of_isUnsupported hnode context line.2)

end StructureNode

namespace SourceUnit

/-- A program with an unsupported statement between CASE and its only branch. -/
def submittingCase : SourceUnit :=
  let opening : StatementNode :=
    ⟨.caseOf (.field (.ofField ⟨"foo", ⟨1, 6⟩⟩)), ⟨⟨1, 1⟩, ⟨1, 9⟩⟩, "CASE foo."⟩
  let submit : StatementNode :=
    ⟨.unsupported "SubmitReport", ⟨⟨2, 1⟩, ⟨2, 15⟩⟩, "SUBMIT zreport."⟩
  let others : StatementNode := ⟨.whenOthers, ⟨⟨3, 1⟩, ⟨3, 12⟩⟩, "WHEN OTHERS."⟩
  let closing : StatementNode := ⟨.endCase, ⟨⟨4, 1⟩, ⟨4, 8⟩⟩, "ENDCASE."⟩
  let branch : StructureNode := ⟨.whenBranch, [.leaf others], others.span⟩
  { file := "zfoo.prog.abap"
    object := ⟨.prog, "ZFOO"⟩
    root := ⟨.program, [.branch ⟨.caseOf, [.leaf opening, .leaf submit, .branch branch,
      .leaf closing], ⟨⟨1, 1⟩, ⟨4, 8⟩⟩⟩], ⟨⟨1, 1⟩, ⟨4, 8⟩⟩⟩
    scopes := ⟨#[.fresh .program "zfoo" "zfoo.prog.abap" ⟨⟨1, 1⟩, ⟨9, 1⟩⟩ none]⟩ }

/-- The program is lowered as if the statement were not there. -/
theorem lower_submittingCase :
    (submittingCase.lower .standard .empty 0).1.toOption.map (fun out => (out.code, out.statements)) =
        some ("let unique1 = foo;\nif (true) \x7b\n\x7d\n", 0) ∧
      submittingCase.root.due.map (·.statement.name) = ["SubmitReport"] ∧
      submittingCase.root.dispatched.map (·.statement.name) = [] := by
  refine ⟨?_, rfl, rfl⟩
  decide +kernel

end SourceUnit

end AbapLowering
