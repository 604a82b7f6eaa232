import AbapLowering.Proofs.Code.Branches
import AbapLowering.Proofs.Conditions
import AbapLowering.Proofs.Guards.Tree

/-!
# Branches as they are emitted

The code of a CASE or a TRY is put together line by line. Here it is a list of branches instead, each
with its tests, its body, and the guards that its header queues.

- `Emit.branch`: a branch. What waits in the queue right after the header are the guards of the header;
- `EmitsBranches`: code that is that of some branches, one after the other. The branches of a CASE
  (`emitsBranches_emitWhens`) have their guards folded in, but for the first, and the handlers of a
  TRY (`emitsBranches_emitCatches`) have them on lines of their own.
-/

namespace AbapLowering

open Script
open TreePart (Runs Weaves)

/-! ## Branches -/

/-- What the header of a branch asks, if there is one, and what the exception at hand is kept in. -/
structure BranchHead where
  tests : Option (List Test)
  into : Option String

namespace BranchHead

/-- The header with some guards. -/
def header (head : BranchHead) (guards : List String) : Option Header :=
  head.tests.map fun tests => ⟨guards, tests⟩

/-- What the block begins with. -/
def entry (head : BranchHead) : List Piece := (head.into.map Piece.keep).toList

end BranchHead

namespace Emit

/-- A branch from what emits its head and its body. -/
def branch (head : Emit BranchHead) (body : Emit Code) : Emit Branch := do
  let head ← head
  let guards ← drain
  let inner ← body
  return ⟨head.header guards, head.entry ++ [.code inner.text]⟩

variable {context : Context} {s s' : EmissionState}

/-- Texts that are made of what is emitted. -/
theorem mapM_map {α β γ : Type} (f : α → Emit β) (text : β → γ) (items : List α) :
    (items.mapM fun a => do return text (← f a)) = do return (← items.mapM f).map text := by
  induction items with
  | nil => simp
  | cons a rest ih =>
    rw [List.mapM_cons, List.mapM_cons, ih]
    simp only [bind_assoc, pure_bind, List.map_cons]

/-- Something comes first in a list of results that is not empty. -/
theorem exists_cons_of_mapM {α β : Type} {f : α → Emit β} {context : Context}
    {s s' : EmissionState} {items : List α} {results : List β}
    (h : items.mapM f context s = .ok results s') (hne : items ≠ []) :
    ∃ first rest, results = first :: rest := by
  cases forall₂_of_mapM h with
  | nil => exact absurd rfl hne
  | cons _ _ => exact ⟨_, _, rfl⟩

theorem drain_apply (context : Context) (s : EmissionState) :
    drain context s = .ok s.hoisted (s.withQueue []) := rfl

/-- A branch that is run alone leaves nothing in the queue. -/
theorem isClear_of_branch {head : Emit BranchHead} {body : Emit Code} {b : Branch}
    (h : branch head body context s = .ok b s') : b.IsClear := by
  obtain ⟨⟨tests, into⟩, t, -, h⟩ := bind_eq_ok h
  rw [bind_of_ok (drain_apply context t)] at h
  obtain ⟨inner, u, -, h⟩ := bind_eq_ok h
  cases h
  intro line hline
  cases into <;> simp [BranchHead.entry] at hline

end Emit

/-- Emitting that leaves nothing waiting if nothing waited. -/
def Settles (m : Emit Code) : Prop :=
  ∀ context s code s', s.hoisted = [] → m context s = .ok code s' → s'.hoisted = []

/-- Nodes leave nothing in the queue. -/
theorem settles_emitNodes (nodes : List Node) : Settles (emitNodes nodes) :=
  fun context s code s' hs h => (weaves_emitNodes nodes context s code s' hs h).hoisted_eq_nil hs

/-- Code that starts a branch with some head. What waits then are the guards of the header, which are
taken from the queue. -/
def StartsBranch (start : Option Header → String) (head : Emit BranchHead) (m : Emit Code) : Prop :=
  ∀ context s code s', s.hoisted = [] → m context s = .ok code s' →
    ∃ h t, head context s = .ok h t ∧ s' = t.withQueue [] ∧
      code.text = start (h.header t.hoisted) ++ textOfBlock h.entry

/-- Code that is that of some branches, one after the other, from the text of their starts on. -/
def EmitsBranches (start : Bool → Option Header → String) (first : Bool)
    (branches : Emit (List Branch)) (m : Emit Code) : Prop :=
  ∀ context s code s', s.hoisted = [] → m context s = .ok code s' →
    ∃ bs, branches context s = .ok bs s' ∧ code.text = textFrom start first bs ∧ s'.hoisted = []

namespace EmitsBranches

variable {start : Bool → Option Header → String} {first : Bool} {branches : Emit (List Branch)}

theorem nil : EmitsBranches start first (pure []) (pure .empty) := by
  rintro context s _ _ hs ⟨⟩
  exact ⟨[], rfl, rfl, hs⟩

/-- A branch in front of others. -/
theorem cons {head : Emit BranchHead} {line body rest : Emit Code}
    (hline : StartsBranch (start first) head line) (hbody : Settles body)
    (hrest : EmitsBranches start false branches rest) :
    EmitsBranches start first (do
      let b ← Emit.branch head body
      let bs ← branches
      return b :: bs) (do
      let before ← line
      let inner ← body
      return before ++ inner ++ (← rest)) := by
  intro context s code s' hs h
  obtain ⟨before, s₁, hbefore, h⟩ := Emit.bind_eq_ok h
  obtain ⟨inner, s₂, hinner, h⟩ := Emit.bind_eq_ok h
  obtain ⟨others, s₃, hothers, h⟩ := Emit.bind_eq_ok h
  cases h
  obtain ⟨value, t, hhead, rfl, htext⟩ := hline context s before s₁ hs hbefore
  obtain ⟨bs, hbranches, hbs, hs'⟩ :=
    hrest context s₂ others s' (hbody _ _ _ _ rfl hinner) hothers
  -- what waits after the head are the guards of the branch, and the body starts with none
  have hbranch : Emit.branch head body context s =
      .ok ⟨value.header t.hoisted, value.entry ++ [.code inner.text]⟩ s₂ := by
    rw [Emit.branch, Emit.bind_of_ok hhead, Emit.bind_of_ok (Emit.drain_apply context t),
      Emit.bind_of_ok hinner]
    rfl
  refine ⟨_, (Emit.bind_of_ok hbranch _).trans (Emit.bind_of_ok hbranches _), ?_, hs'⟩
  rw [Code.text_append, Code.text_append, htext, hbs, textFrom, textOfBlock_append,
    textOfBlock_code]
  simp only [String.append_assoc]

/-- What follows the search for the opening statement may rely on it. -/
theorem opening {node : StructureNode} {kind : String} {f : StatementNode → Emit Branch}
    {g : StatementNode → Emit Code}
    (h : ∀ opening, EmitsBranches start first (do
      let b ← f opening
      let bs ← branches
      return b :: bs) (g opening)) :
    EmitsBranches start first (do
      let b ← node.opening kind >>= f
      let bs ← branches
      return b :: bs) (node.opening kind >>= g) := by
  rw [bind_assoc]
  unfold StructureNode.opening
  cases node.firstStatement? with
  | none =>
    rintro context s code s' - ⟨⟩
  | some statement => simpa only [pure_bind] using h statement

end EmitsBranches

/-! ## Nodes of a branch -/

/-- The nodes but for statements with some span. -/
def nodesWithout (opening : Span) (nodes : List Node) : List Node :=
  nodes.filter fun node => !node.statement?.any fun statement => statement.span == opening

/-- The structures among some nodes. -/
def structuresOf (nodes : List Node) : List StructureNode :=
  nodes.filterMap fun
    | .branch node => some node
    | .leaf _ => none

/-- The body of a branch are its nodes without the one that opens it. -/
theorem emitBranchBody_nodesWithout (opening : Span) (nodes : List Node) :
    emitBranchBody opening nodes = emitNodes (nodesWithout opening nodes) := by
  induction nodes with
  | nil => rfl
  | cons node rest ih =>
    cases node with
    | leaf node =>
      rw [emitBranchBody, ih]
      by_cases hspan : node.span = opening
      · rw [if_pos hspan, nodesWithout, nodesWithout, List.filter_cons_of_neg (by
          simpa [Node.statement?] using hspan)]
      · rw [if_neg hspan, nodesWithout, nodesWithout, List.filter_cons_of_pos (by
          simpa [Node.statement?] using hspan), emitNodes, Node.emit]
    | branch node =>
      rw [emitBranchBody, ih, nodesWithout, nodesWithout, List.filter_cons_of_pos (by
        simp [Node.statement?]), emitNodes, Node.emit]

namespace StructureNode

/-- The statement that a structure begins with. -/
def beginsWith? (node : StructureNode) : Option Statement := node.firstStatement?.map (·.statement)

/-! ## CASE -/

/-- The head of a branch of a CASE. -/
def whenHead (operand : String) (opening : StatementNode) : Emit BranchHead := do
  match opening.statement with
  | .whenOneOf values =>
    let checks ← values.mapM fun value => do
      return "abap.compare.eq(" ++ operand ++ ", " ++ (← value.emit) ++ ")"
    return ⟨some (checks.map Test.call), none⟩
  | .whenOthers => return ⟨none, none⟩
  | _ => Emit.fail opening.refuse

/-- A branch of a CASE. -/
def emitWhen (operand : String) (node : StructureNode) : Emit Branch := do
  let opening ← node.opening "When"
  Emit.branch (whenHead operand opening) (emitNodes (nodesWithout opening.span node.children))

/-- The guards of a WHEN are run ahead of the first branch, and folded into the header of any
other. -/
theorem starts_emitWhenStart (operand : String) (first : Bool) (opening : StatementNode) :
    StartsBranch (foldedStart first) (whenHead operand opening)
      (emitWhenStart operand first opening) := by
  obtain ⟨statement, span, text⟩ := opening
  intro context s code s' hs h
  obtain ⟨condition, t, hcondition, h⟩ := Emit.bind_eq_ok h
  cases statement with
  | whenOneOf values =>
    obtain ⟨checks, _, hchecks, hcondition⟩ := Emit.bind_eq_ok hcondition
    cases hcondition
    have htexts : (checks.map Test.call).map Test.text = checks := by
      simp [Test.text, Function.comp_def]
    refine ⟨⟨some (checks.map Test.call), none⟩, t, Emit.bind_of_ok hchecks _, ?_⟩
    change _ ∧ _ = foldedStart first (some ⟨t.hoisted, checks.map Test.call⟩) ++ ""
    rw [String.append_empty]
    -- before the first header the guards stand on lines; later headers hold them
    cases first with
    | true =>
      rw [branchLine, if_pos rfl, pure_bind,
        Emit.bind_of_ok (Emit.takeHoisted_apply context t)] at h
      cases h
      refine ⟨rfl, ?_⟩
      simp [foldedStart, branchStart, Header.text, Header.bare, Emit.guardCall, htexts,
        String.append_assoc]
    | false =>
      rw [branchLine, if_neg Bool.false_ne_true, bind_assoc,
        Emit.bind_of_ok (Emit.guarded_eq _), pure_bind,
        Emit.bind_of_ok (Emit.takeHoisted_apply context _)] at h
      cases h
      refine ⟨rfl, ?_⟩
      simp [foldedStart, branchStart, Header.text, htexts, Emit.endLines]
  | whenOthers =>
    cases hcondition
    have hline : branchLine first none = pure (branchStart first none) := by
      cases first <;> rfl
    rw [hline, pure_bind, Emit.bind_of_ok (Emit.takeHoisted_apply context s)] at h
    cases h
    refine ⟨⟨none, none⟩, s, rfl, rfl, ?_⟩
    change _ = foldedStart first none ++ ""
    rw [String.append_empty]
    cases first <;> simp [foldedStart, hs, Emit.endLines]
  | _ => cases hcondition

/-- The branches of a `CASE` are emitted as branches with folded guards. -/
theorem emitsBranches_emitWhens (operand : String) (first : Bool) (nodes : List Node) :
    EmitsBranches foldedStart first ((structuresOf nodes).mapM (emitWhen operand))
      (emitWhens operand first nodes) := by
  induction nodes generalizing first with
  | nil => exact .nil
  | cons node rest ih =>
    cases node with
    | leaf node =>
      rw [emitWhens]
      exact ih first
    | branch node =>
      obtain ⟨kind, children, span⟩ := node
      have hbranches : structuresOf (.branch ⟨kind, children, span⟩ :: rest) =
          ⟨kind, children, span⟩ :: structuresOf rest := rfl
      rw [emitWhens, hbranches, List.mapM_cons]
      refine .opening fun opening => ?_
      rw [emitBranchBody_nodesWithout]
      exact .cons (starts_emitWhenStart operand first opening) (settles_emitNodes _) (ih false)

/-! ## TRY -/

/-- The head of a handler. -/
def catchHead (opening : StatementNode) : Emit BranchHead := do
  match opening.statement with
  | .catchClasses classes into =>
    let addresses ← classes.mapM fun name => Emit.classAddress name.text name.start
    let into ← match into with
      | some target => do pure (some (← target.emitTarget))
      | none => pure none
    return ⟨some (addresses.map .instanceOf), into⟩
  | _ => Emit.fail opening.refuse

/-- A handler of a TRY. -/
def emitHandler (node : StructureNode) : Emit Branch := do
  let opening ← node.opening "Catch"
  Emit.branch (catchHead opening) (emitNodes (nodesWithout opening.span node.children))

/-- The handlers among the children of a TRY. -/
def handlersOf (nodes : List Node) : List StructureNode :=
  structuresOf (nodes.filter isCatch)

/-- The children of a TRY that are tried. -/
def triedOf (nodes : List Node) : List Node :=
  nodes.filter fun node => !isCatch node && !node.statement?.any isTryMark

/-- The body of a `TRY` are its nodes up to the first handler. -/
theorem emitTryBody_eq (nodes : List Node) : emitTryBody nodes = emitNodes (triedOf nodes) := by
  induction nodes with
  | nil => rfl
  | cons node rest ih =>
    cases node with
    | leaf node =>
      rw [emitTryBody, ih]
      by_cases hmark : isTryMark node = true
      · rw [if_pos hmark, triedOf, triedOf, List.filter_cons_of_neg (by
          simpa [Node.statement?, isCatch] using hmark)]
      · rw [if_neg hmark, triedOf, triedOf, List.filter_cons_of_pos (by
          simpa [Node.statement?, isCatch] using hmark), emitNodes, Node.emit]
    | branch node =>
      rw [emitTryBody, ih]
      by_cases hcatch : node.kind = .catchBranch
      · rw [if_pos hcatch, triedOf, triedOf, List.filter_cons_of_neg (by
          simp [isCatch, hcatch])]
      · rw [if_neg hcatch, triedOf, triedOf, List.filter_cons_of_pos (by
          simp [isCatch, hcatch, Node.statement?]), emitNodes, Node.emit]

/-- The guards of a CATCH are on lines of their own ahead of the line that starts the handler. -/
theorem starts_emitCatchStart (first : Bool) (opening : StatementNode) :
    StartsBranch (strayedStart first) (catchHead opening) (emitCatchStart first opening) := by
  obtain ⟨statement, span, text⟩ := opening
  intro context s code s' hs h
  cases statement with
  | catchClasses classes into =>
    obtain ⟨checks, s₁, hchecks, h⟩ := Emit.bind_eq_ok h
    rw [Emit.mapM_map (fun name : Token => Emit.classAddress name.text name.start)
      ("e instanceof " ++ ·)] at hchecks
    obtain ⟨addresses, _, haddresses, hchecks⟩ := Emit.bind_eq_ok hchecks
    cases hchecks
    -- the guards come before the header, whichever handler it is
    have hstart : ∀ guards, strayedStart first (some ⟨guards, addresses.map .instanceOf⟩) =
        Emit.endLines guards ++ ((if first then "if" else "\x7d else if") ++ " (" ++
          " || ".intercalate (addresses.map ("e instanceof " ++ ·)) ++ ") \x7b\n") := by
      intro guards
      cases first <;> simp [strayedStart, branchStart, Header.text, Header.bare, Emit.guardCall,
        Test.text, Function.comp_def]
    cases into with
    | none =>
      obtain ⟨setting, t, hsetting, h⟩ := Emit.bind_eq_ok h
      cases hsetting
      cases h
      refine ⟨⟨some (addresses.map .instanceOf), none⟩, s₁, Emit.bind_of_ok haddresses _, rfl, ?_⟩
      change _ = strayedStart first (some ⟨s₁.hoisted, addresses.map .instanceOf⟩) ++ ""
      rw [hstart]
      simp [String.append_assoc]
    | some target =>
      obtain ⟨object, t, hobject, h⟩ := Emit.bind_eq_ok h
      cases h
      refine ⟨⟨some (addresses.map .instanceOf), some object⟩, t, ?_, rfl, ?_⟩
      · exact (Emit.bind_of_ok haddresses _).trans (Emit.bind_of_ok hobject _)
      · change _ = strayedStart first (some ⟨t.hoisted, addresses.map .instanceOf⟩) ++
          textOfBlock [.keep object]
        rw [hstart]
        simp [textOfBlock, Piece.text, String.join_cons, String.append_assoc]
  | _ => cases h

/-- The handlers of a `TRY` are emitted as branches with strayed guards. -/
theorem emitsBranches_emitCatches (first : Bool) (nodes : List Node) :
    EmitsBranches strayedStart first ((handlersOf nodes).mapM emitHandler)
      (emitCatches first nodes) := by
  induction nodes generalizing first with
  | nil => exact .nil
  | cons node rest ih =>
    cases node with
    | leaf node =>
      rw [emitCatches]
      exact ih first
    | branch node =>
      obtain ⟨kind, children, span⟩ := node
      rw [emitCatches]
      -- any other structure was emitted among the statements that are tried
      by_cases hcatch : kind = .catchBranch
      · have hhandlers : handlersOf (.branch ⟨kind, children, span⟩ :: rest) =
            ⟨kind, children, span⟩ :: handlersOf rest := by
          simp [handlersOf, structuresOf, isCatch, hcatch]
        rw [if_pos hcatch, hhandlers, List.mapM_cons]
        refine .opening fun opening => ?_
        rw [emitBranchBody_nodesWithout]
        exact .cons (starts_emitCatchStart first opening) (settles_emitNodes _) (ih false)
      · have hhandlers : handlersOf (.branch ⟨kind, children, span⟩ :: rest) =
            handlersOf rest := by
          simp [handlersOf, isCatch, hcatch]
        rw [if_neg hcatch, hhandlers]
        exact ih first

/-! ## Structures -/

variable {context : Context} {s s' : EmissionState} {children : List Node} {span : Span} {code : Code}

theorem isClear_of_emitWhen {operand : String} {node : StructureNode} {b : Branch}
    (h : emitWhen operand node context s = .ok b s') : b.IsClear := by
  obtain ⟨opening, t, -, h⟩ := Emit.bind_eq_ok h
  exact Emit.isClear_of_branch h

theorem isClear_of_emitHandler {node : StructureNode} {b : Branch}
    (h : emitHandler node context s = .ok b s') : b.IsClear := by
  obtain ⟨opening, t, -, h⟩ := Emit.bind_eq_ok h
  exact Emit.isClear_of_branch h

/-- The handlers of a TRY keep their guards iff no handler but the first has any. -/
theorem keeps_handlers_iff {nodes : List StructureNode} {first : Branch} {rest : List Branch}
    (h : nodes.mapM emitHandler context s = .ok (first :: rest) s') :
    (Dispatch.strayed (first :: rest ++ [rethrowing])).Keeps (first :: rest ++ [rethrowing]) ↔
      ∀ b ∈ (first :: rest).tail, b.guards = [] := by
  have hclear : ∀ b ∈ first :: rest ++ [rethrowing], b.IsClear := by
    refine List.forall_mem_append.mpr
      ⟨(results_of_mapM (fun {_ _ _ _ _} => isClear_of_emitHandler) h).2, ?_⟩
    simp [Branch.IsClear, rethrowing]
  rw [Dispatch.keeps_strayed_iff hclear, List.cons_append, List.tail_cons, List.tail_cons,
    List.forall_mem_append]
  simp [rethrowing, Branch.guards]

/-- There is a branch if there is a structure. -/
theorem any_isBranch_iff (nodes : List Node) :
    nodes.any isBranch = true ↔ structuresOf nodes ≠ [] := by
  induction nodes with
  | nil => simp [structuresOf]
  | cons node rest ih => cases node <;> simp_all [structuresOf, isBranch]

/-- There is a handler if there is one among the structures. -/
theorem any_isCatch_iff (nodes : List Node) :
    nodes.any isCatch = true ↔ handlersOf nodes ≠ [] := by
  induction nodes with
  | nil => simp [handlersOf, structuresOf]
  | cons node rest ih =>
    cases node with
    | leaf node => simpa [handlersOf, isCatch] using ih
    | branch node =>
      by_cases hcatch : node.kind = .catchBranch
      · simp [handlersOf, structuresOf, isCatch, hcatch]
      · simpa [handlersOf, isCatch, hcatch] using ih

/-- A brace closes the last branch of a CASE, if there is one. -/
theorem text_closing_of_length_eq {branches : List Branch} (place : Position)
    (hlength : (structuresOf children).length = branches.length) :
    (if children.any isBranch then Code.tagged place "\x7d\n" else .empty).text =
      if branches.isEmpty then "" else "\x7d\n" := by
  by_cases hany : children.any isBranch = true
  · have hne : branches ≠ [] := by
      rintro rfl
      exact (any_isBranch_iff children).mp hany (List.length_eq_zero_iff.mp hlength)
    rw [if_pos hany, if_neg (by simpa using hne), Code.text_tagged]
  · have hnone : structuresOf children = [] := by
      simpa using mt (any_isBranch_iff children).mpr hany
    rw [hnone] at hlength
    rw [if_neg hany, List.length_eq_zero_iff.mp hlength.symm]
    rfl

/-- The branch that raises the exception again is emitted with the braces that close the chain. -/
theorem text_strayed_rethrowing {handlers : List Branch} (hne : handlers ≠ []) :
    (Dispatch.strayed (handlers ++ [rethrowing])).text =
      textFrom strayedStart true handlers ++ "\x7d else \x7b\nthrow e;\n\x7d\n" := by
  have hsome : (strayedFrom (handlers ++ [rethrowing])).isEmpty = false := by
    cases handlers <;> rfl
  have hopened : (Dispatch.strayed (handlers ++ [rethrowing])).openText =
      textFrom strayedStart true handlers ++ "\x7d else \x7b\nthrow e;\n" := by
    rw [Dispatch.openText_strayed, textFrom_concat _ _ hne]
    simp [rethrowing, strayedStart, branchStart, textOfBlock, Piece.text, Emit.endLines,
      String.join_cons]
  rw [Dispatch.text, hopened, if_neg (by simp [Dispatch.strayed, hsome]), String.append_assoc]
  rfl

/-- A CASE puts its operand into the next temporary, and then its branches follow. -/
theorem exists_branches_of_emit_case
    (h : StructureNode.emit ⟨.caseOf, children, span⟩ context s = .ok code s') :
    ∃ opening source value t branches,
      firstStatement? ⟨.caseOf, children, span⟩ = some opening ∧
      opening.statement = .caseOf source ∧
      source.emit context { s with issued := s.issued + 1 } = .ok value t ∧
      (structuresOf children).mapM (emitWhen (Identifier.temporary (s.issued + 1))) context
        (t.withQueue []) = .ok branches s' ∧
      code.text = CaseStatement.text
        ⟨t.hoisted, Identifier.temporary (s.issued + 1), value, .own branches⟩ := by
  rw [StructureNode.emit.eq_def] at h
  dsimp only at h
  obtain ⟨opening, _, hopening, h⟩ := Emit.bind_eq_ok h
  obtain ⟨hfirst, hstate⟩ := opening_eq_ok hopening
  rw [hstate] at h
  obtain ⟨⟨operand, start⟩, u, hstart, h⟩ := Emit.bind_eq_ok h
  obtain ⟨whens, v, hwhens, h⟩ := Emit.bind_eq_ok h
  cases h
  obtain ⟨statement, place, text⟩ := opening
  cases statement with
  | caseOf source =>
    obtain ⟨_, _, hoperand, hstart⟩ := Emit.bind_eq_ok hstart
    cases hoperand
    obtain ⟨value, t, hvalue, hstart⟩ := Emit.bind_eq_ok hstart
    cases hstart
    obtain ⟨branches, hbranches, htext, -⟩ :=
      emitsBranches_emitWhens _ true children context _ whens _ rfl hwhens
    refine ⟨_, source, value, t, branches, hfirst, rfl, hvalue, hbranches, ?_⟩
    have hlength := (Emit.forall₂_of_mapM hbranches).length_eq
    rw [Code.text_append, Code.text_append, text_closing_of_length_eq _ hlength, htext,
      CaseStatement.text, Dispatch.text, Dispatch.openText_own, Code.text_append, Code.text_tagged,
      Code.text_tagged]
    -- the line feed belongs to the same fragment
    have hassigns : ∀ name : String,
        "let " ++ name ++ " = " ++ value ++ ";\n" = "let " ++ name ++ " = " ++ value ++ ";" ++ "\n" :=
      fun name => String.toList_inj.mp (by simp)
    rw [hassigns]
    cases branches <;> simp [CaseStatement.assignment, Dispatch.own, bareFirst, String.append_assoc]
  | _ => cases hstart

/-- A TRY emits what is tried, and then its handlers, if there are any. -/
theorem exists_handlers_of_emit_try (hs : s.hoisted = [])
    (h : StructureNode.emit ⟨.tryBlock, children, span⟩ context s = .ok code s') :
    ∃ body t handlers, emitNodes (triedOf children) context s = .ok body t ∧
      (handlersOf children).mapM emitHandler context t = .ok handlers s' ∧
      code.text = if handlers.isEmpty then "try \x7b\n" ++ body.text ++ "\x7d\n"
        else TryStatement.text ⟨body.text, .strayed (handlers ++ [rethrowing])⟩ := by
  rw [StructureNode.emit.eq_def] at h
  dsimp only at h
  obtain ⟨opening, _, hopening, h⟩ := Emit.bind_eq_ok h
  rw [(opening_eq_ok hopening).2] at h
  obtain ⟨body, t, hbody, h⟩ := Emit.bind_eq_ok h
  rw [emitTryBody_eq] at hbody
  -- the statements that are tried leave no guards behind
  have ht : t.hoisted = [] := settles_emitNodes _ _ _ _ _ hs hbody
  by_cases hany : children.any isCatch = true
  · simp only [if_pos hany, pure_bind] at h
    obtain ⟨catches, u, hcatches, h⟩ := Emit.bind_eq_ok h
    cases h
    obtain ⟨handlers, hhandlers, htext, -⟩ :=
      emitsBranches_emitCatches true children context t catches _ ht hcatches
    refine ⟨body, t, handlers, hbody, hhandlers, ?_⟩
    have hne : handlers ≠ [] := by
      obtain ⟨_, _, rfl⟩ := Emit.exists_cons_of_mapM hhandlers ((any_isCatch_iff children).mp hany)
      exact List.cons_ne_nil _ _
    rw [if_neg (by simpa using hne), TryStatement.text, text_strayed_rethrowing hne, ← htext]
    simp only [Code.text_append, Code.text_tagged, Code.text_plain, String.append_assoc]
  · simp only [if_neg hany, pure_bind] at h
    cases h
    have hnone : handlersOf children = [] := by
      simpa using mt (any_isCatch_iff children).mpr hany
    refine ⟨body, s', [], hbody, by rw [hnone]; rfl, ?_⟩
    simp

/-! ## Structures on their own -/

/-- A program that defines nothing. -/
def aloneContext : Context :=
  ⟨⟨⟨#[.fresh .program "zfoo" "zfoo.prog.abap" ⟨⟨1, 1⟩, ⟨9, 1⟩⟩ none]⟩, .empty, "zfoo.prog.abap",
    ⟨.prog, "ZFOO"⟩⟩, .standard⟩

/-- The code of a structure in such a program. -/
def codeAlone? (node : StructureNode) : Option String :=
  match node.emit aloneContext (.initial 0) with
  | .ok code _ => some code.text
  | .error _ _ => none

theorem exists_of_codeAlone? {node : StructureNode} {text : String}
    (h : node.codeAlone? = some text) :
    ∃ code s', node.emit aloneContext (.initial 0) = .ok code s' ∧ code.text = text := by
  unfold codeAlone? at h
  split at h
  next code s' hemit => exact ⟨code, s', hemit, Option.some.inj h⟩
  next => cases h

end StructureNode

end AbapLowering
