import AbapLowering.Lowering
import AbapLowering.Proofs.Branches

/-!
# Guards in the headers of branches

A header may call what is only known at run time, and then guards wait when the header is there. Where
they get to depends on what the branches belong to.

- `IfBlock`: the nodes of an IF block as its arms, whether or not the arms are structures of their
  own (`emitNodes_inlineArms`). Its branches have their guards folded in (`IfBlock.emitsBranches`);
- `guards_of_branches`: the branches of IF and CASE keep their guards with their headers. A TRY puts
  the guards of a handler into the one before, so it does only if no handler but the first has any.
-/

namespace AbapLowering

open Script

/-! ## IF -/

/-- An arm of an IF block: ELSEIF, or ELSE without a condition. -/
structure IfArm where
  header : StatementNode
  condition : Option Condition
  body : List Node
  opens : header.statement = condition.elim .otherwise .elseIf

/-- The nodes of an IF block. -/
structure IfBlock where
  opening : StatementNode
  condition : Condition
  body : List Node
  arms : List IfArm
  closing : StatementNode
  opens : opening.statement = .ifThen condition
  closes : ∃ block, closing.statement = .endBlock block

/-- The nodes of an arm. -/
def IfArm.nodes (arm : IfArm) : List Node := .leaf arm.header :: arm.body

/-- The nodes of the block, from IF to ENDIF. -/
def IfBlock.nodes (block : IfBlock) : List Node :=
  .leaf block.opening :: (block.body ++ (block.arms.flatMap IfArm.nodes ++ [.leaf block.closing]))

/-- Some nodes, with the children of arms that are structures of their own in place of these. -/
def inlineArms : List Node → List Node
  | [] => []
  | .leaf node :: rest => .leaf node :: inlineArms rest
  | .branch node :: rest =>
    if node.kind = .elseIfBranch ∨ node.kind = .elseBranch then node.children ++ inlineArms rest
    else .branch node :: inlineArms rest

theorem emitNodes_append (nodes others : List Node) :
    emitNodes (nodes ++ others) = do
      let first ← emitNodes nodes
      return first ++ (← emitNodes others) := by
  induction nodes with
  | nil =>
    rw [List.nil_append, emitNodes, pure_bind]
    exact (bind_pure _).symm
  | cons node rest ih =>
    rw [List.cons_append, emitNodes, emitNodes, ih]
    simp only [bind_assoc, pure_bind, Code.append_assoc]

theorem emitNodes_inlineArms (nodes : List Node) :
    emitNodes (inlineArms nodes) = emitNodes nodes := by
  induction nodes with
  | nil => rfl
  | cons node rest ih =>
    cases node with
    | leaf node => rw [inlineArms, emitNodes, emitNodes, ih]
    | branch node =>
      obtain ⟨kind, children, span⟩ := node
      rw [inlineArms]
      split
      next harm =>
        -- an arm that is a structure of its own emits its children, and nothing more
        have hnode : (Node.branch ⟨kind, children, span⟩).emit = emitNodes children := by
          rw [Node.emit, StructureNode.emit.eq_def]
          rcases harm with rfl | rfl <;> rfl
        rw [emitNodes_append, emitNodes, hnode, ih]
      next => rw [emitNodes, emitNodes, ih]

/-- The head of an arm. -/
def conditionHead (condition : Option Condition) : Emit BranchHead := do
  Emit.countStatement
  match condition with
  | some condition => return ⟨some [.call (← condition.emit)], none⟩
  | none => return ⟨none, none⟩

/-- An arm as a branch. -/
def IfArm.emit (arm : IfArm) : Emit Branch :=
  Emit.branch (conditionHead arm.condition) (emitNodes arm.body)

/-- The block as branches. -/
def IfBlock.emit (block : IfBlock) : Emit (List Branch) := do
  let first ← Emit.branch (conditionHead (some block.condition)) (emitNodes block.body)
  let others ← block.arms.mapM IfArm.emit
  return first :: others

/-- The guards of IF stand ahead of it. -/
theorem starts_emitLine_ifThen {node : StatementNode} {condition : Condition}
    (h : node.statement = .ifThen condition) :
    StartsBranch (foldedStart true) (conditionHead (some condition)) node.emitLine := by
  intro context s code s' _ hemit
  obtain ⟨_, s₁, hcount, hemit⟩ := Emit.bind_eq_ok hemit
  obtain ⟨line, t, hline, hemit⟩ := Emit.bind_eq_ok hemit
  rw [Emit.bind_of_ok (Emit.takeHoisted_apply context t)] at hemit
  cases hemit
  rw [StatementNode.emit, h] at hline
  obtain ⟨text, _, htext, hline⟩ := Emit.bind_eq_ok hline
  cases hline
  refine ⟨⟨some [.call text], none⟩, t, ?_, rfl, ?_⟩
  · exact (Emit.bind_of_ok hcount _).trans (Emit.bind_of_ok htext _)
  · change _ = foldedStart true (some ⟨t.hoisted, [.call text]⟩) ++ ""
    exact String.toList_inj.mp (by
      simp [foldedStart, branchStart, Header.text, Header.bare, Emit.guardCall, Test.text])

/-- The guards of ELSEIF are folded into its condition. -/
theorem starts_emitLine_arm (arm : IfArm) :
    StartsBranch (foldedStart false) (conditionHead arm.condition) arm.header.emitLine := by
  obtain ⟨header, condition, body, hopens⟩ := arm
  intro context s code s' hs hemit
  obtain ⟨_, s₁, hcount, hemit⟩ := Emit.bind_eq_ok hemit
  obtain ⟨line, t, hline, hemit⟩ := Emit.bind_eq_ok hemit
  rw [Emit.bind_of_ok (Emit.takeHoisted_apply context t)] at hemit
  cases hemit
  -- an ELSE has no condition, and nothing that could be guarded
  cases condition with
  | some condition =>
    have hguarded : header.statement.guardedCondition? = some condition := by
      rw [hopens]
      rfl
    have hopening : header.statement.guardedOpening = "\x7d else if (" := by
      rw [hopens]
      rfl
    obtain ⟨text, t₁, htext, rfl, rfl⟩ := StatementNode.emit_eq_ok_of_guarded hguarded hline
    refine ⟨⟨some [.call text], none⟩, t₁, ?_, rfl, ?_⟩
    · exact (Emit.bind_of_ok hcount _).trans (Emit.bind_of_ok htext _)
    · change _ = foldedStart false (some ⟨t₁.hoisted, [.call text]⟩) ++ ""
      rw [hopening]
      exact String.toList_inj.mp (by
        simp [foldedStart, branchStart, Header.text, Test.text, Emit.endLines])
  | none =>
    cases hcount
    rw [StatementNode.emit, hopens] at hline
    cases hline
    refine ⟨⟨none, none⟩, _, rfl, rfl, ?_⟩
    change _ = foldedStart false none ++ ""
    simp [foldedStart, branchStart, hs, Emit.endLines]

theorem emitsBranches_arms : ∀ arms : List IfArm,
    EmitsBranches foldedStart false (arms.mapM IfArm.emit) (emitNodes (arms.flatMap IfArm.nodes))
  | [] => .nil
  | arm :: rest => by
    have hnodes : emitNodes ((arm :: rest).flatMap IfArm.nodes) = (do
        let line ← arm.header.emitLine
        let inner ← emitNodes arm.body
        return line ++ inner ++ (← emitNodes (rest.flatMap IfArm.nodes))) := by
      rw [List.flatMap_cons, IfArm.nodes, List.cons_append, emitNodes, emitNodes_append, Node.emit]
      simp only [bind_assoc, pure_bind, Code.append_assoc]
    rw [hnodes, List.mapM_cons]
    exact .cons (starts_emitLine_arm arm) (settles_emitNodes _) (emitsBranches_arms rest)

/-- The code of an IF block is that of its branches, with the guards of each in its header. -/
theorem IfBlock.exists_branches (block : IfBlock) {context : Context} {s s' : EmissionState}
    {code : Code} (hs : s.hoisted = []) (h : emitNodes block.nodes context s = .ok code s') :
    ∃ branches t, block.emit context s = .ok branches t ∧
      code.text = (Dispatch.own branches).text := by
  have hnodes : emitNodes block.nodes = (do
      let opened ← (do
        let line ← block.opening.emitLine
        let inner ← emitNodes block.body
        return line ++ inner ++ (← emitNodes (block.arms.flatMap IfArm.nodes)))
      let closed ← block.closing.emitLine
      return opened ++ closed) := by
    rw [nodes, emitNodes, emitNodes_append, emitNodes_append, Node.emit]
    simp only [emitNodes, Node.emit, bind_assoc, pure_bind, Code.append_assoc, Code.append_empty]
  rw [hnodes] at h
  obtain ⟨opened, t, hopened, h⟩ := Emit.bind_eq_ok h
  obtain ⟨closed, u, hclosed, h⟩ := Emit.bind_eq_ok h
  cases h
  have hemits : EmitsBranches foldedStart true block.emit _ :=
    .cons (starts_emitLine_ifThen block.opens) (settles_emitNodes block.body)
      (emitsBranches_arms block.arms)
  obtain ⟨branches, hbranches, htext, ht⟩ := hemits context s opened t hs hopened
  -- ENDIF has no condition, so no guards come before its brace
  have hclose : closed.text = "\x7d\n" := by
    obtain ⟨_, hcloses⟩ := block.closes
    obtain ⟨_, t₁, hcount, hclosed⟩ := Emit.bind_eq_ok hclosed
    cases hcount
    rw [StatementNode.emit, hcloses] at hclosed
    cases hclosed
    simp [ht, Emit.endLines]
  have hsome : (Dispatch.own branches).branches.isEmpty = false := by
    obtain ⟨first, _, -, hrest⟩ := Emit.bind_eq_ok hbranches
    obtain ⟨others, _, -, hrest⟩ := Emit.bind_eq_ok hrest
    cases hrest
    rfl
  refine ⟨branches, t, hbranches, ?_⟩
  rw [Code.text_append, htext, hclose, Dispatch.text, Dispatch.openText_own, hsome]
  rfl

theorem IfBlock.isClear_of_emit {block : IfBlock} {context : Context} {s s' : EmissionState}
    {branches : List Branch} (h : block.emit context s = .ok branches s') :
    ∀ b ∈ branches, b.IsClear := by
  obtain ⟨first, _, hfirst, h⟩ := Emit.bind_eq_ok h
  obtain ⟨others, _, hothers, h⟩ := Emit.bind_eq_ok h
  cases h
  exact List.forall_mem_cons.mpr ⟨Emit.isClear_of_branch hfirst,
    (results_of_mapM (fun {_ _ _ _ _} => Emit.isClear_of_branch) hothers).2⟩

/-! ## All branches -/

/-- Where the guards of headers get to, if nothing waits before. A header is emitted while nothing
waits, and the lines that wait right after it are its guards.

- The branches of an IF block and those of a CASE keep their guards: none of them is in a block, and
  the code does what the branches do, whose guards are run when the turn of their header comes;
- the handlers of a TRY keep their guards iff no handler but the first has any. -/
theorem guards_of_branches (context : Context) {s s' : EmissionState} {code : Code}
    (hs : s.hoisted = []) :
    (∀ (block : IfBlock) (nodes : List Node), inlineArms nodes = block.nodes →
      emitNodes nodes context s = .ok code s' →
      ∃ branches t, block.emit context s = .ok branches t ∧
        code.text = (Dispatch.own branches).text ∧ (Dispatch.own branches).Keeps branches) ∧
    (∀ children span, StructureNode.emit ⟨.caseOf, children, span⟩ context s = .ok code s' →
      ∃ guards value t branches,
        let operand := Identifier.temporary (s.issued + 1)
        t.hoisted = [] ∧
        (structuresOf children).mapM (StructureNode.emitWhen operand) context t = .ok branches s' ∧
        code.text = CaseStatement.text ⟨guards, operand, value, .own branches⟩ ∧
        (Dispatch.own branches).Keeps branches) ∧
    ∀ children span, StructureNode.handlersOf children ≠ [] →
      StructureNode.emit ⟨.tryBlock, children, span⟩ context s = .ok code s' →
      ∃ body t handlers, t.hoisted = [] ∧
        (StructureNode.handlersOf children).mapM StructureNode.emitHandler context t =
          .ok handlers s' ∧
        let statement : TryStatement := ⟨body, .strayed (handlers ++ [rethrowing])⟩
        code.text = statement.text ∧
        (statement.handlers.Keeps (handlers ++ [rethrowing]) ↔
          ∀ b ∈ handlers.tail, b.guards = []) := by
  refine ⟨fun block nodes hnodes h => ?_, fun children span h => ?_, fun children span hsome h => ?_⟩
  -- branches on conditions
  · rw [← emitNodes_inlineArms, hnodes] at h
    obtain ⟨branches, t, hbranches, htext⟩ := block.exists_branches hs h
    exact ⟨branches, t, hbranches, htext, Dispatch.keeps_own (IfBlock.isClear_of_emit hbranches)⟩
  -- branches on the value of an operand
  · obtain ⟨_, _, value, t, branches, -, -, -, hbranches, htext⟩ :=
      StructureNode.exists_branches_of_emit_case h
    refine ⟨t.hoisted, value, t.withQueue [], branches, rfl, hbranches, htext, ?_⟩
    exact Dispatch.keeps_own
      (results_of_mapM (fun {_ _ _ _ _} => StructureNode.isClear_of_emitWhen) hbranches).2
  -- handlers, whose guards stray into the one before
  · obtain ⟨body, t, handlers, hbody, hhandlers, htext⟩ :=
      StructureNode.exists_handlers_of_emit_try hs h
    obtain ⟨first, rest, rfl⟩ := Emit.exists_cons_of_mapM hhandlers hsome
    exact ⟨body.text, t, first :: rest, settles_emitNodes _ _ _ _ _ hs hbody, hhandlers, htext,
      StructureNode.keeps_handlers_iff hhandlers⟩

namespace SourceUnit

/-- A call of a method of a class in parentheses. -/
def callingFoo (method : Token) : MethodCall := ⟨.dynamic (.literal "zcl_foo"), .named method, .none⟩

/-- The statements that open an IF and an ELSEIF, with such a call in the condition of the second. -/
def choosing : IfBlock where
  opening := ⟨.ifThen (.predicate (.field (.ofField ⟨"a", ⟨1, 4⟩⟩)) .initial false),
    ⟨⟨1, 1⟩, ⟨1, 16⟩⟩, "IF a IS INITIAL."⟩
  condition := .predicate (.field (.ofField ⟨"a", ⟨1, 4⟩⟩)) .initial false
  body := [.leaf ⟨.continueLoop, ⟨⟨2, 1⟩, ⟨2, 9⟩⟩, "CONTINUE."⟩]
  arms := [{
    header := ⟨.elseIf (.predicate (.call (callingFoo ⟨"bar", ⟨3, 20⟩⟩)) .initial false),
      ⟨⟨3, 1⟩, ⟨3, 38⟩⟩, "ELSEIF ('zcl_foo')=>bar( ) IS INITIAL."⟩
    condition := some (.predicate (.call (callingFoo ⟨"bar", ⟨3, 20⟩⟩)) .initial false)
    body := [.leaf ⟨.exitLoop, ⟨⟨4, 1⟩, ⟨4, 5⟩⟩, "EXIT."⟩]
    opens := rfl }]
  closing := ⟨.endBlock .ifBlock, ⟨⟨5, 1⟩, ⟨5, 6⟩⟩, "ENDIF."⟩
  opens := rfl
  closes := ⟨_, rfl⟩

/-- The children of a TRY with two handlers, the second of which keeps the exception where such a call
says. -/
def keeping : List Node :=
  let target : FieldChain :=
    ⟨.call (callingFoo ⟨"get", ⟨3, 28⟩⟩), [.attribute ⟨"ref", ⟨3, 35⟩⟩], none, none⟩
  [.leaf ⟨.tryBody, ⟨⟨1, 1⟩, ⟨1, 4⟩⟩, "TRY."⟩,
    .branch ⟨.catchBranch, [
      .leaf ⟨.catchClasses [⟨"cx_a", ⟨2, 7⟩⟩] none, ⟨⟨2, 1⟩, ⟨2, 11⟩⟩, "CATCH cx_a."⟩],
      ⟨⟨2, 1⟩, ⟨2, 11⟩⟩⟩,
    .branch ⟨.catchBranch, [
      .leaf ⟨.catchClasses [⟨"cx_b", ⟨3, 7⟩⟩] (some target), ⟨⟨3, 1⟩, ⟨3, 38⟩⟩,
        "CATCH cx_b INTO ('zcl_foo')=>get( )->ref."⟩], ⟨⟨3, 1⟩, ⟨3, 38⟩⟩⟩,
    .leaf ⟨.endTry, ⟨⟨4, 1⟩, ⟨4, 7⟩⟩, "ENDTRY."⟩]

theorem guards_of_choosing_and_keeping :
    (∃ branches, StructureNode.codeAlone? ⟨.ifBranch, choosing.nodes, ⟨⟨1, 1⟩, ⟨5, 6⟩⟩⟩ =
        some (Dispatch.own branches).text ∧ (Dispatch.own branches).Keeps branches) ∧
      ∃ body handlers, StructureNode.codeAlone? ⟨.tryBlock, keeping, ⟨⟨1, 1⟩, ⟨4, 7⟩⟩⟩ =
          some (TryStatement.text ⟨body, .strayed (handlers ++ [rethrowing])⟩) ∧
        ((Dispatch.strayed (handlers ++ [rethrowing])).Keeps (handlers ++ [rethrowing]) ↔
          ∀ b ∈ handlers.tail, b.guards = []) := by
  have hsome : ∀ node : StructureNode, node.codeAlone?.isSome →
      ∃ code s', node.emit StructureNode.aloneContext (.initial 0) = .ok code s' ∧
        node.codeAlone? = some code.text := by
    intro node h
    obtain ⟨text, htext⟩ := Option.isSome_iff_exists.mp h
    obtain ⟨code, s', hemit, rfl⟩ := StructureNode.exists_of_codeAlone? htext
    exact ⟨code, s', hemit, htext⟩
  constructor
  · obtain ⟨code, s', hemit, hcode⟩ := hsome ⟨.ifBranch, choosing.nodes, ⟨⟨1, 1⟩, ⟨5, 6⟩⟩⟩
      (by decide +kernel)
    obtain ⟨hif, -, -⟩ := @guards_of_branches StructureNode.aloneContext (.initial 0) s' code rfl
    obtain ⟨branches, t, -, htext, hkeeps⟩ := hif choosing choosing.nodes rfl hemit
    exact ⟨branches, htext ▸ hcode, hkeeps⟩
  · obtain ⟨code, s', hemit, hcode⟩ := hsome ⟨.tryBlock, keeping, ⟨⟨1, 1⟩, ⟨4, 7⟩⟩⟩
      (by decide +kernel)
    obtain ⟨-, -, htry⟩ := @guards_of_branches StructureNode.aloneContext (.initial 0) s' code rfl
    obtain ⟨body, t, handlers, -, -, htext, hkeeps⟩ := htry keeping _ (by
      simp [keeping, StructureNode.handlersOf, structuresOf, StructureNode.isCatch]) hemit
    exact ⟨body, handlers, htext ▸ hcode, hkeeps⟩

/-- A program that is this TRY. -/
def keepingByCall : SourceUnit :=
  { file := "zfoo.prog.abap"
    object := ⟨.prog, "ZFOO"⟩
    root := ⟨.program, [.branch ⟨.tryBlock, keeping, ⟨⟨1, 1⟩, ⟨4, 7⟩⟩⟩], ⟨⟨1, 1⟩, ⟨4, 7⟩⟩⟩
    scopes := ⟨#[.fresh .program "zfoo" "zfoo.prog.abap" ⟨⟨1, 1⟩, ⟨9, 1⟩⟩ none]⟩ }

/-- The guards of the second handler are in the block of the first, and where the second handler is
run, nothing is run before the method is called. -/
theorem lower_keepingByCall :
    let foo : Guard := ⟨.classOfCall, "abap.Classes['ZCL_FOO']"⟩
    let target := "(await abap.Classes['ZCL_FOO'].get()).get().ref"
    let first : Branch :=
      ⟨some ⟨[], [.instanceOf "abap.Classes['CX_A']"]⟩, foo.lines.map .guard⟩
    let second : Branch := ⟨some ⟨[], [.instanceOf "abap.Classes['CX_B']"]⟩, [.keep target]⟩
    let handlers : Dispatch := ⟨[], [first, second, rethrowing]⟩
    (keepingByCall.lower { Config.standard with indent := false } .empty 0).1.toOption.map
        (·.code) = some (TryStatement.text ⟨"", handlers⟩) ∧ ¬ first.IsClear ∧
      ∀ {ω ε : Type} (m : Machine ω ε) (value : ε),
        m.isInstance value "abap.Classes['CX_A']" = pure false →
        m.isInstance value "abap.Classes['CX_B']" = pure true →
        handlers.run m (some value) = m.assign target value := by
  intro foo target first second handlers
  refine ⟨by decide +kernel, fun hclear => ?_, fun m value hfirst hsecond => ?_⟩
  · exact hclear foo.fallbackCheck List.mem_cons_self
  · simp [handlers, first, second, Dispatch.run, runBranches, Header.run, Test.run, Machine.caught,
      List.anyM, runBlock, Piece.run, hfirst, hsecond]

end SourceUnit

end AbapLowering
