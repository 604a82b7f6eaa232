import AbapLowering.Proofs.Code.Linewise
import AbapLowering.Proofs.Guards.Parts

/-!
# Where queued lines get to

Emitting a node while nothing waits emits its parts, so each line that is queued meanwhile gets into
the code where the part that it was queued for says, once, and nothing waits afterwards
(`Node.weaves`).

- `TreePart.Weaves`: emitting that runs some parts where nothing waits;
- a statement on a line of its own weaves one part (`StatementNode.weaves_emitLine`), and so does
  each start of a branch or a handler.
-/

namespace AbapLowering

open Emit (Appends)

/-! ## Emitting parts -/

namespace Code

@[simp] theorem text_empty : (empty : Code).text = "" := rfl

/-- The text of a plain piece. -/
@[simp] theorem text_plain (text : String) : (plain text).text = text := text_ofText text none

@[simp] theorem text_tagged (origin : Position) (text : String) :
    (tagged origin text).text = text := text_ofText text (some origin)

end Code

/-- What was hoisted are the lines of the queue, which is empty afterwards. -/
theorem Emit.takeHoisted_apply (context : Context) (s : EmissionState) :
    Emit.takeHoisted context s = .ok (Emit.endLines s.hoisted) (s.withQueue []) := rfl

namespace TreePart

variable {parts parts' : List TreePart} {part : TreePart}

/-- Text that is always the same can be put anywhere. -/
theorem Runs.mark (context : Context) (text : String) {s : EmissionState} (hs : s.hoisted = []) :
    Runs context [.mark text] s text s := by
  have hown : (TreePart.mark text).own 0 context s = .ok text s := rfl
  have hruns := Runs.single (.mark text) (Appends.pure text) hs hown
  rw [hs, EmissionState.withQueue_of_eq hs] at hruns
  simpa [TreePart.mark, Placement.code, Emit.endLines] using hruns

/-- Emitting that runs some parts where nothing waits, if it succeeds. -/
def Weaves (parts : List TreePart) (m : Emit Code) : Prop :=
  ∀ context s code s', s.hoisted = [] → m context s = .ok code s' →
    Runs context parts s code.text s'

namespace Weaves

/-- No code has no parts. -/
theorem empty : Weaves [] (pure .empty) := by
  rintro context s _ _ hs ⟨⟩
  exact .nil s

/-- What fails may claim any parts. -/
theorem fail (error : LoweringError) : Weaves parts (Emit.fail error) := by
  rintro context s _ _ hs ⟨⟩

/-- One after the other. -/
theorem andThen {m m' : Emit Code} (hm : Weaves parts m) (hm' : Weaves parts' m') :
    Weaves (parts ++ parts') (do
      let first ← m
      return first ++ (← m')) := by
  intro context s code s' hs h
  obtain ⟨first, t, hfirst, h⟩ := Emit.bind_eq_ok h
  obtain ⟨rest, u, hrest, h⟩ := Emit.bind_eq_ok h
  cases h
  have hruns := hm context s first t hs hfirst
  rw [Code.text_append]
  exact hruns.append (hm' context t rest _ (hruns.hoisted_eq_nil hs) hrest)

/-- Three things after another. -/
theorem andThen₂ {m m' m'' : Emit Code} {parts'' : List TreePart} (hm : Weaves parts m)
    (hm' : Weaves parts' m') (hm'' : Weaves parts'' m'') :
    Weaves (parts ++ (parts' ++ parts'')) (do
      let first ← m
      let second ← m'
      return first ++ second ++ (← m'')) := by
  intro context s code s' hs h
  obtain ⟨first, t, hfirst, h⟩ := Emit.bind_eq_ok h
  obtain ⟨second, u, hsecond, h⟩ := Emit.bind_eq_ok h
  obtain ⟨third, v, hthird, h⟩ := Emit.bind_eq_ok h
  cases h
  have hruns := hm context s first t hs hfirst
  have hruns' := hm' context t second u (hruns.hoisted_eq_nil hs) hsecond
  rw [Code.text_append, Code.text_append, String.append_assoc]
  exact hruns.append (hruns'.append
    (hm'' context u third _ (hruns'.hoisted_eq_nil (hruns.hoisted_eq_nil hs)) hthird))

/-- Text that is always the same around something. -/
theorem around {m : Emit Code} (hm : Weaves parts m) (before after : Code) :
    Weaves (mark before.text :: (parts ++ [mark after.text])) (do
      return before ++ (← m) ++ after) := by
  intro context s code s' hs h
  obtain ⟨inner, t, hinner, h⟩ := Emit.bind_eq_ok h
  cases h
  have hruns := hm context s inner _ hs hinner
  rw [Code.text_append, Code.text_append, String.append_assoc]
  exact (Runs.mark context _ hs).append
    (hruns.append (.mark context _ (hruns.hoisted_eq_nil hs)))

/-- What follows the search for the opening statement may rely on it. -/
theorem opening {node : StructureNode} {kind : String} {f : StatementNode → Emit Code}
    (h : ∀ opening, node.firstStatement? = some opening → Weaves parts (f opening)) :
    Weaves parts (node.opening kind >>= f) := by
  unfold StructureNode.opening
  cases hfirst : node.firstStatement? with
  | none => exact fail _
  | some statement => exact h statement hfirst

/-- What follows may depend on the class that is named. -/
theorem implementedClass {opening : StatementNode} {f : Token → Emit Code}
    (h : ∀ name, opening.statement = .classImplementation name → Weaves parts (f name)) :
    Weaves parts (StructureNode.implementedClass opening >>= f) := by
  unfold StructureNode.implementedClass
  cases hstatement : opening.statement with
  | classImplementation name => exact h name hstatement
  | _ => exact fail _

theorem declaredInterface {opening : StatementNode} {f : Token → Emit Code}
    (h : ∀ name, opening.statement = .interfaceHeader name → Weaves parts (f name)) :
    Weaves parts (StructureNode.declaredInterface opening >>= f) := by
  unfold StructureNode.declaredInterface
  cases hstatement : opening.statement with
  | interfaceHeader name => exact h name hstatement
  | _ => exact fail _

end Weaves

end TreePart

open TreePart (Runs Weaves)

/-! ### Statements -/

/-- Only `ELSEIF` and `WHILE` fold guards into their condition. -/
theorem Statement.eq_of_guardedCondition? {statement : Statement} {condition : Condition}
    (h : statement.guardedCondition? = some condition) :
    statement = .elseIf condition ∨ statement = .whileTrue condition := by
  unfold guardedCondition? at h
  split at h
  next => exact .inl (by rw [Option.some.inj h])
  next => exact .inr (by rw [Option.some.inj h])
  next => cases h

/-- A statement with a condition in front of which guards are run. -/
theorem StatementNode.emit_of_guarded {node : StatementNode} {condition : Condition}
    (h : node.statement.guardedCondition? = some condition) :
    node.emit = do
      let text ← condition.emit
      return node.statement.guardedOpening ++ (← Emit.guarded text) ++ ") \x7b" := by
  rw [StatementNode.emit]
  rcases Statement.eq_of_guardedCondition? h with hstatement | hstatement <;>
  · rw [hstatement]
    rfl

/-- Such a statement emits its condition and then takes the guards. -/
theorem StatementNode.emit_eq_ok_of_guarded {node : StatementNode} {condition : Condition}
    (h : node.statement.guardedCondition? = some condition) {context : Context}
    {s s' : EmissionState} {code : String} (hemit : node.emit context s = .ok code s') :
    ∃ text t, condition.emit context s = .ok text t ∧ s' = t.withQueue [] ∧
      code = node.statement.guardedOpening ++ (Emit.guardCall t.hoisted ++ text) ++ ") \x7b" := by
  rw [emit_of_guarded h] at hemit
  obtain ⟨text, t, htext, hemit⟩ := Emit.bind_eq_ok hemit
  rw [Emit.bind_of_ok (Emit.guarded_eq text)] at hemit
  cases hemit
  exact ⟨text, t, htext, rfl, rfl⟩

/-- A statement whose condition is not evaluated again and again leaves the queue to grow. -/
theorem StatementNode.appends_emit {node : StatementNode}
    (h : node.statement.guardedCondition? = none) : node.emit.Appends :=
  node.built.appends (by rw [h]; rfl)

/-- A condition only appends to the queue. -/
theorem Condition.appends_emit (condition : Condition) : condition.emit.Appends :=
  condition.built.appends_of_guarding

/-- The guards of a statement stand before it or in its condition, and none is left. -/
theorem StatementNode.weaves_emitLine (node : StatementNode) : Weaves [node.part] node.emitLine := by
  intro context s line s' hs h
  obtain ⟨_, s₁, hcount, h⟩ := Emit.bind_eq_ok h
  obtain ⟨code, t, hcode, h⟩ := Emit.bind_eq_ok h
  rw [Emit.bind_of_ok (Emit.takeHoisted_apply context t)] at h
  cases h
  rw [StatementNode.part]
  cases hguarded : node.statement.guardedCondition? with
  | none =>
    have happends : ((TreePart.line node).own 0).Appends :=
      .bind .countStatement fun _ => (appends_emit hguarded).bind fun _ => .pure _
    have hown : (TreePart.line node).own 0 context s = .ok (code ++ "\n") t :=
      (Emit.bind_of_ok hcount _).trans (Emit.bind_of_ok hcode _)
    have hruns := Runs.single (.line node) happends hs hown
    simpa [TreePart.line, Placement.code, String.append_assoc] using hruns
  | some condition =>
    -- the queue is empty when the lines ahead of the statement are taken
    obtain ⟨text, t₁, htext, rfl, rfl⟩ := emit_eq_ok_of_guarded hguarded hcode
    generalize node.statement.guardedOpening = opening
    have happends : ((TreePart.guardedLine opening condition).own 0).Appends :=
      .bind .countStatement fun _ => condition.appends_emit.bind fun _ => .pure _
    have hown : (TreePart.guardedLine opening condition).own 0 context s =
        .ok (text ++ ") \x7b\n") t₁ :=
      (Emit.bind_of_ok hcount _).trans (Emit.bind_of_ok htext _)
    have hruns := Runs.single (.guardedLine opening condition) happends hs hown
    simpa [TreePart.guardedLine, Placement.code, Emit.endLines, String.append_assoc] using hruns

/-! ### Parts of structures -/

namespace StructureNode

/-- What is emitted ahead of its own code weaves its part. -/
theorem weaves_ahead (own : Nat → Emit String) {n : Nat} (happends : (own n).Appends)
    (position : Position) : Weaves [⟨.ahead, own⟩] (do
      let text ← own n
      let hoisted ← Emit.takeHoisted
      return .tagged position hoisted ++ .tagged position text) := by
  intro context s code s' hs h
  obtain ⟨text, t, htext, h⟩ := Emit.bind_eq_ok h
  rw [Emit.bind_of_ok (Emit.takeHoisted_apply context t)] at h
  cases h
  simpa [Placement.code] using Runs.single ⟨.ahead, own⟩ happends hs htext

/-- What is built without guards weaves a part as it is. -/
theorem weaves_leaves {own : Nat → Emit String} {m : Emit Code} {n : Nat}
    (hbuilt : (own n).Built ⟨false, false, false⟩)
    (h : ∀ context s code s', m context s = .ok code s' → own n context s = .ok code.text s') :
    Weaves [⟨.ahead, own⟩] m := by
  intro context s code s' hs hm
  have hown := h context s code s' hm
  -- nothing is queued meanwhile, so nothing would stand ahead of the code
  have hstill : s'.hoisted = [] := by
    have hsame := (hbuilt.leaves context s).hoisted_of_ok hown
    rwa [hs, Guard.linesOf_nil, List.append_nil] at hsame
  have hruns := Runs.single ⟨.ahead, own⟩ (hbuilt.appends rfl) hs hown
  rw [hstill, EmissionState.withQueue_of_eq hstill] at hruns
  simpa [Placement.code, Emit.endLines] using hruns

/-- The guards of the operand of a `CASE` stand before the line that keeps it. -/
theorem runs_emitCaseStart {opening : StatementNode} {context : Context} {s s' : EmissionState}
    {operand : String} {code : Code} (hs : s.hoisted = [])
    (h : emitCaseStart opening context s = .ok (operand, code) s') :
    (∃ n, operand = Identifier.temporary n) ∧
      Runs context [.caseStart opening] s code.text s' := by
  obtain ⟨statement, span, text⟩ := opening
  cases statement with
  | caseOf source =>
    obtain ⟨_, s₁, hoperand, h⟩ := Emit.bind_eq_ok h
    obtain ⟨value, t, hvalue, h⟩ := Emit.bind_eq_ok h
    rw [Emit.bind_of_ok (Emit.takeHoisted_apply context t)] at h
    cases h
    have hname : operand = Identifier.temporary (s.issued + 1) := by
      cases hoperand
      rfl
    have happends : ((TreePart.caseStart ⟨.caseOf source, span, text⟩).own 0).Appends :=
      .bind .temporary fun _ => source.built.appends_of_guarding.bind fun _ => .pure _
    have hown : (TreePart.caseStart ⟨.caseOf source, span, text⟩).own 0 context s =
        .ok ("let " ++ operand ++ " = " ++ value ++ ";\n") t :=
      (Emit.bind_of_ok hoperand _).trans (Emit.bind_of_ok hvalue _)
    refine ⟨⟨_, hname⟩, ?_⟩
    have hruns := Runs.single (.caseStart ⟨.caseOf source, span, text⟩) happends hs hown
    rw [Code.text_append, Code.text_tagged, Code.text_tagged]
    exact hruns
  | _ => cases h

/-- The alternatives of a `WHEN` only append to the queue. -/
theorem appends_whenCondition (operand : String) (opening : StatementNode) :
    (whenCondition operand opening).Appends :=
  (built_whenCondition operand opening).appends_of_guarding

/-- The line of the first branch has no guards in it. -/
theorem appends_branchLine_first (condition : Option String) :
    (branchLine true condition).Appends := by
  cases condition with
  | none => exact .pure _
  | some condition => exact .pure _

/-- A branch whose line has no guards in it. -/
theorem weaves_emitWhenStart_ahead (n : Nat) (first : Bool) (opening : StatementNode)
    (h : ((TreePart.whenCondition opening n) >>= branchLine first).Appends) :
    Weaves [⟨.ahead, fun n => do branchLine first (← TreePart.whenCondition opening n)⟩]
      (emitWhenStart (Identifier.temporary n) first opening) := by
  have hahead := weaves_ahead (fun n => do
    branchLine first (← TreePart.whenCondition opening n)) (n := n) h opening.span.start
  rwa [bind_assoc] at hahead

/-- A branch whose condition is evaluated only if no branch before was taken. -/
theorem weaves_emitWhenStart_folded (n : Nat) (values : List Source) (span : Span)
    (text : String) : Weaves [.whenStart false ⟨.whenOneOf values, span, text⟩]
      (emitWhenStart (Identifier.temporary n) false ⟨.whenOneOf values, span, text⟩) := by
  intro context s code s' hs h
  obtain ⟨condition, t, hcondition, h⟩ := Emit.bind_eq_ok h
  -- WHEN with values has a condition, so the guards are folded before they could stand ahead
  obtain ⟨condition, rfl⟩ : ∃ text, condition = some text := by
    obtain ⟨checks, _, -, hcondition⟩ := Emit.bind_eq_ok hcondition
    cases hcondition
    exact ⟨_, rfl⟩
  obtain ⟨line, t₁, hline, h⟩ := Emit.bind_eq_ok h
  rw [Emit.bind_of_ok (Emit.takeHoisted_apply context t₁)] at h
  cases h
  rw [branchLine, if_neg Bool.false_ne_true, Emit.bind_of_ok (Emit.guarded_eq condition)] at hline
  cases hline
  have hown : (TreePart.whenStart false ⟨.whenOneOf values, span, text⟩).own n context s =
      .ok (condition ++ ") \x7b\n") t := Emit.bind_of_ok hcondition _
  have hruns := Runs.single (.whenStart false ⟨.whenOneOf values, span, text⟩)
    ((appends_whenCondition _ _).bind fun _ => .pure _) hs hown
  simpa [TreePart.whenStart, Placement.code, Emit.endLines, String.append_assoc,
    EmissionState.withQueue] using hruns

/-- The guards of a `WHEN` are folded into its condition. -/
theorem weaves_emitWhenStart (n : Nat) (first : Bool) (opening : StatementNode) :
    Weaves [.whenStart first opening]
      (emitWhenStart (Identifier.temporary n) first opening) := by
  cases first with
  | true =>
    exact weaves_emitWhenStart_ahead n true opening
      ((appends_whenCondition _ _).bind appends_branchLine_first)
  | false =>
    obtain ⟨statement, span, text⟩ := opening
    cases statement with
    | whenOneOf values => exact weaves_emitWhenStart_folded n values span text
    | whenOthers => exact weaves_emitWhenStart_ahead n false _ (.pure _)
    | _ =>
      rintro context s code s' - h
      cases h

/-- The guards of a `CATCH` stand before its header. -/
theorem weaves_emitCatchStart (first : Bool) (opening : StatementNode) :
    Weaves [.catchStart first opening] (emitCatchStart first opening) := by
  obtain ⟨statement, span, text⟩ := opening
  cases statement with
  | catchClasses classes into =>
    have happends : ((TreePart.catchStart first ⟨.catchClasses classes into, span, text⟩).own
        0).Appends := by
      refine Emit.Built.appends_of_guarding ?_
      refine .bind (.mapM _ fun name => .bind (.classAddress _ _) fun _ => .pure _) fun checks => ?_
      cases into with
      | none => exact .bind (.pure _) fun _ => .pure _
      | some target =>
        exact .bind target.built_emitTarget fun _ => .bind (.pure _) fun _ => .pure _
    have hahead := weaves_ahead _ happends span.start
    cases into <;> simpa only [TreePart.catchStart, emitCatchStart, bind_assoc, pure_bind]
      using hahead
  | _ =>
    rintro context s code s' - h
    cases h

/-- What follows a class has no guards. -/
theorem weaves_emitClassEnd (name : Token) : Weaves [.classEnd name] (emitClassEnd name) :=
  weaves_leaves (n := 0) (.bind (built_emitClassEnd name) fun _ => .pure _)
    fun _ _ _ _ h => Emit.bind_of_ok h _

theorem weaves_defaultConstructor (name : Token) : Weaves [.constructor name] (do
    pure (Code.tagged name.start (← Members.defaultConstructor name))) := by
  refine weaves_leaves (n := 0) (Members.built_defaultConstructor name) fun context s code s' h => ?_
  obtain ⟨text, t, htext, h⟩ := Emit.bind_eq_ok h
  cases h
  rw [Code.text_tagged]
  exact htext

/-- What follows the statements of an interface. -/
theorem weaves_interfaceEnd (name : Token) : Weaves [.interfaceEnd name] (do
    let i ← Members.interfaceOf name
    let part ← Members.interfacePart name i
    Members.register i.toDefinition name
    return .tagged name.start part) := by
  have hbuilt : ((TreePart.interfaceEnd name).own 0).Built ⟨false, false, false⟩ :=
    .bind (Members.built_interfaceOf name) fun i =>
      .bind (Members.built_interfacePart name i) fun part =>
        .bind (Members.built_register _ name) fun _ => .pure _
  refine weaves_leaves (n := 0) hbuilt fun context s code s' h => ?_
  obtain ⟨i, t, hi, h⟩ := Emit.bind_eq_ok h
  obtain ⟨part, u, hpart, h⟩ := Emit.bind_eq_ok h
  obtain ⟨_, v, hregister, h⟩ := Emit.bind_eq_ok h
  cases h
  rw [Emit.bind_of_ok hi, Emit.bind_of_ok hpart, Emit.bind_of_ok hregister, Code.text_tagged]
  rfl

theorem weaves_emitInterface (node : StructureNode) :
    Weaves node.interfaceParts node.emitInterface := by
  refine .opening fun opening hopening => .declaredInterface fun name hname => ?_
  have hheader : node.header? = some (opening, name) := by
    rw [header?, hopening, Option.bind_some, hname]
  rw [interfaceParts, hheader]
  dsimp only
  cases node.statements.getLast?.filter fun s => s.span != opening.span with
  | none =>
    have hweaves := Weaves.andThen₂ opening.weaves_emitLine .empty (weaves_interfaceEnd name)
    simp only [bind_assoc, pure_bind] at hweaves ⊢
    exact hweaves
  | some closing =>
    have hweaves := Weaves.andThen₂ opening.weaves_emitLine closing.weaves_emitLine
      (weaves_interfaceEnd name)
    simp only [bind_assoc, pure_bind] at hweaves ⊢
    exact hweaves

end StructureNode

/-! ## Trees -/

open StructureNode

mutual

/-- The guards of a node stand where its parts say. -/
theorem Node.weaves : ∀ node : Node, Weaves node.parts node.emit
  | .leaf node => by
    rw [Node.emit, Node.parts]
    exact node.weaves_emitLine
  | .branch node => by
    rw [Node.emit, Node.parts]
    exact node.weaves

/-- Each kind of structure is woven from its parts in order. -/
theorem StructureNode.weaves : ∀ node : StructureNode, Weaves node.parts node.emit
  | ⟨kind, children, span⟩ => by
    rw [StructureNode.emit.eq_def, StructureNode.parts.eq_def]
    cases kind with
    | classDefinition => exact .empty
    | classImplementation =>
      refine .opening fun opening hopening => .implementedClass fun name hname => ?_
      have hheader : header? ⟨.classImplementation, children, span⟩ = some (opening, name) := by
        rw [header?, hopening, Option.bind_some, hname]
      dsimp only
      rw [hheader]
      exact .andThen (weaves_emitClassBody _ children) (weaves_emitClassEnd name)
    | interfaceUnit => exact weaves_emitInterface _
    | caseOf =>
      refine .opening fun opening hopening => ?_
      dsimp only
      rw [hopening]
      intro context s code s' hs h
      obtain ⟨⟨operand, start⟩, t, hstart, h⟩ := Emit.bind_eq_ok h
      obtain ⟨branches, u, hbranches, h⟩ := Emit.bind_eq_ok h
      cases h
      -- the branches compare with the temporary that the start has put the operand in
      obtain ⟨⟨n, rfl⟩, hruns⟩ := runs_emitCaseStart hs hstart
      have hstill := hruns.hoisted_eq_nil hs
      have hruns' := weaves_emitWhens n true children context t branches _ hstill hbranches
      rw [Code.text_append, Code.text_append, String.append_assoc]
      refine hruns.append (hruns'.append ?_)
      by_cases hbranch : children.any isBranch = true
      · rw [if_pos hbranch, if_pos hbranch, Code.text_tagged]
        exact .mark context _ (hruns'.hoisted_eq_nil hstill)
      · rw [if_neg hbranch, if_neg hbranch]
        exact .nil _
    | tryBlock =>
      refine .opening fun opening _ => ?_
      have hblock : ∀ {parts : List TreePart} {handlers : Emit Code}, Weaves parts handlers →
          Weaves (.mark "try \x7b\n" :: (partsOfTryBody children ++ (parts ++ [.mark "\x7d\n"]))) (do
            let body ← emitTryBody children
            let handlers ← handlers
            return Code.tagged opening.span.start "try \x7b\n" ++ body ++ handlers
              ++ .tagged (closingPosition ⟨.tryBlock, children, span⟩) "\x7d\n") := by
        intro parts handlers hhandlers
        have hweaves := ((weaves_emitTryBody children).andThen hhandlers).around
          (.tagged opening.span.start "try \x7b\n")
          (.tagged (closingPosition ⟨.tryBlock, children, span⟩) "\x7d\n")
        simpa only [bind_assoc, pure_bind, Code.text_tagged, Code.append_assoc,
          List.append_assoc] using hweaves
      dsimp only
      by_cases hcatch : children.any isCatch = true
      · simp only [if_pos hcatch, pure_bind]
        have hweaves := hblock ((weaves_emitCatches true children).around
          (.plain "\x7d catch (e) \x7b\n") (.plain "\x7d else \x7b\nthrow e;\n\x7d\n"))
        simpa only [bind_assoc, pure_bind, Code.text_plain] using hweaves
      · simp only [if_neg hcatch, pure_bind]
        simpa only [pure_bind] using hblock .empty
    | _ => exact weaves_emitNodes children

/-- Nodes are woven one after the other, and the queue is empty in between. -/
theorem weaves_emitNodes : ∀ nodes : List Node, Weaves (partsOf nodes) (emitNodes nodes)
  | [] => .empty
  | node :: rest => by
    rw [emitNodes, partsOf]
    exact .andThen node.weaves (weaves_emitNodes rest)

theorem weaves_emitBranchBody (opening : Span) :
    ∀ nodes : List Node, Weaves (partsOfBranch opening nodes) (emitBranchBody opening nodes)
  | [] => .empty
  | .leaf node :: rest => by
    rw [emitBranchBody, partsOfBranch]
    split
    · exact weaves_emitBranchBody opening rest
    · exact .andThen node.weaves_emitLine (weaves_emitBranchBody opening rest)
  | .branch node :: rest => by
    rw [emitBranchBody, partsOfBranch]
    exact .andThen node.weaves (weaves_emitBranchBody opening rest)

theorem weaves_emitClassBody (inserted : Option (Span × Token)) :
    ∀ nodes : List Node, Weaves (partsOfClassBody inserted nodes) (emitClassBody inserted nodes)
  | [] => .empty
  | .leaf node :: rest => by
    rw [emitClassBody, partsOfClassBody]
    dsimp only
    cases inserted.filter fun (header, _) => node.span == header with
    | none =>
      have hweaves := Weaves.andThen₂ node.weaves_emitLine .empty
        (weaves_emitClassBody inserted rest)
      simp only [pure_bind] at hweaves ⊢
      exact hweaves
    | some header =>
      have hweaves := Weaves.andThen₂ node.weaves_emitLine (weaves_defaultConstructor header.2)
        (weaves_emitClassBody inserted rest)
      simp only [bind_assoc, pure_bind] at hweaves ⊢
      exact hweaves
  | .branch node :: rest => by
    rw [emitClassBody, partsOfClassBody]
    exact .andThen node.weaves (weaves_emitClassBody inserted rest)

/-- The branches of a `CASE` are woven one after the other. -/
theorem weaves_emitWhens (n : Nat) (first : Bool) : ∀ nodes : List Node,
    Weaves (partsOfWhens first nodes) (emitWhens (Identifier.temporary n) first nodes)
  | [] => .empty
  | .leaf node :: rest => by
    rw [emitWhens, partsOfWhens]
    exact weaves_emitWhens n first rest
  | .branch ⟨kind, children, span⟩ :: rest => by
    rw [emitWhens, partsOfWhens]
    refine .opening fun opening hopening => ?_
    rw [hopening]
    exact .andThen₂ (weaves_emitWhenStart n first opening)
      (weaves_emitBranchBody opening.span children) (weaves_emitWhens n false rest)

theorem weaves_emitTryBody :
    ∀ nodes : List Node, Weaves (partsOfTryBody nodes) (emitTryBody nodes)
  | [] => .empty
  | .leaf node :: rest => by
    rw [emitTryBody, partsOfTryBody]
    split
    · exact weaves_emitTryBody rest
    · exact .andThen node.weaves_emitLine (weaves_emitTryBody rest)
  | .branch node :: rest => by
    rw [emitTryBody, partsOfTryBody]
    split
    · exact weaves_emitTryBody rest
    · exact .andThen node.weaves (weaves_emitTryBody rest)

/-- The handlers of a `TRY` are woven one after the other. -/
theorem weaves_emitCatches (first : Bool) :
    ∀ nodes : List Node, Weaves (partsOfCatches first nodes) (emitCatches first nodes)
  | [] => .empty
  | .leaf _ :: rest => by
    rw [emitCatches, partsOfCatches]
    exact weaves_emitCatches first rest
  | .branch ⟨kind, children, span⟩ :: rest => by
    rw [emitCatches, partsOfCatches]
    split
    · refine .opening fun opening hopening => ?_
      rw [hopening]
      exact .andThen₂ (weaves_emitCatchStart first opening)
        (weaves_emitBranchBody opening.span children) (weaves_emitCatches false rest)
    · exact weaves_emitCatches first rest

end

end AbapLowering
