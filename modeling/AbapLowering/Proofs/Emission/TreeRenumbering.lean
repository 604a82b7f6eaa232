import AbapLowering.Proofs.Emission.BuiltTree
import AbapLowering.Proofs.Emission.Renumbering

/-!
# Numbering the temporaries of a tree

Only `DO`, `LOOP AT` and `CASE` get temporaries, and each writes the ones it gets. The branches of a
CASE write the temporary of its operand again. So the code of a statement, and by induction that of
a tree, is a template in which exactly the temporaries given out for it are new
(`StatementNode.renumbers_emitLine`, `StructureNode.renumbers_emitRoot`).
-/

namespace AbapLowering

open Emit (Renumbers Built)

/-! ## Statements -/

/-- The numbers of a template that only writes temporaries that are given out already. -/
theorem numbered_of_bounded {k : Nat} {holes : List Nat} (h : ∀ n ∈ holes, 1 ≤ n ∧ n ≤ k) :
    Numbered k k holes :=
  ⟨h, fun n hlt hle => by omega⟩

namespace Flow

/-- DO draws one temporary or two, and its text has holes for just these. -/
theorem renumbers_doTimes (times : Option Source) (k : Nat) :
    Renumbers k (TextFrom k) fun _ => doTimes times := by
  cases times with
  | some times =>
    refine .temporary (.temporary (.after times.built fun value => .pure ?_))
    -- the limit and the index, both of them written
    refine ⟨.literal "const " ++ .temporary (k + 1) ++ .literal (" = " ++ value ++
      ".get();\nfor (let ") ++ .temporary (k + 2) ++ .literal " = 0; " ++ .temporary (k + 2)
      ++ .literal " < " ++ .temporary (k + 1) ++ .literal "; " ++ .temporary (k + 2)
      ++ .literal "++) \x7b\nabap.builtin.sy.get().index.set(" ++ .temporary (k + 2)
      ++ .literal " + 1);", ?_, ?_⟩
    · refine ⟨by simp, fun n hlt hle => ?_⟩
      obtain rfl | rfl : n = k + 1 ∨ n = k + 2 := by omega
      all_goals simp
    · simp [funext_iff, String.append_assoc]
  | none =>
    refine .temporary (.pure ?_)
    refine ⟨.literal "let " ++ .temporary (k + 1) ++ .literal
      " = 1;\nwhile (true) \x7b\nabap.builtin.sy.get().index.set(" ++ .temporary (k + 1)
      ++ .literal "++);", ?_, ?_⟩
    · refine ⟨by simp, fun n hlt hle => ?_⟩
      obtain rfl : n = k + 1 := by omega
      simp
    · simp [funext_iff, String.append_assoc]

/-- What is done with a row writes the temporary of the row only. -/
theorem renumbers_loopOutput (output : LoopOutput) {k n : Nat} (hpos : 1 ≤ n) (hle : n ≤ k) :
    Renumbers k (TextFrom k) fun c => loopOutput (Identifier.temporary (c + n)) output := by
  have htext : ∀ before after : String,
      TextFrom k k fun c => before ++ Identifier.temporary (c + n) ++ after := fun before after =>
    ⟨.literal before ++ .temporary n ++ .literal after,
      numbered_of_bounded (by simp [hpos, hle]), by simp [funext_iff, String.append_assoc]⟩
  cases output with
  | into target => exact .after target.built_emitTarget fun _ => .pure (htext _ _)
  | assigning target => exact .after target.built_emitTarget fun _ => .pure (htext _ _)
  | referenceInto target => exact .after target.built_emitTarget fun _ => .pure (htext _ _)
  | nothing => exact .pure (textFrom_const k _)

/-- LOOP AT draws a temporary for the row and has a hole for it at each of its places. -/
theorem renumbers_loopAt (table : Source) (output : LoopOutput) (filter : Option Condition)
    (k : Nat) : Renumbers k (TextFrom k) fun _ => loopAt table output filter := by
  refine .temporary (.after table.built fun table => ?_)
  have hhead : ∀ options : String, TextFrom k (k + 1) fun c =>
      "for (const " ++ Identifier.temporary (c + (k + 1)) ++ " of abap.statements.loop(" ++ table
        ++ options ++ ")) \x7b" := by
    intro options
    refine ⟨.literal "for (const " ++ .temporary (k + 1) ++ .literal (" of abap.statements.loop("
      ++ table ++ options ++ ")) \x7b"), ⟨by simp, fun n hlt hle => ?_⟩, ?_⟩
    · obtain rfl : n = k + 1 := by omega
      simp
    · simp [funext_iff, String.append_assoc]
  have hrest : ∀ options : String, Renumbers (k + 1) (TextFrom k) fun c => do
      return "for (const " ++ Identifier.temporary (c + (k + 1)) ++ " of abap.statements.loop("
        ++ table ++ options ++ ")) \x7b"
        ++ (← loopOutput (Identifier.temporary (c + (k + 1))) output) := fun options =>
    .bind (renumbers_loopOutput output (by omega) (Nat.le_refl _)) fun k' out hle hout =>
      .pure ((hhead options).append hle hout)
  cases filter with
  | none => exact .after (.pure _) hrest
  | some condition =>
    exact .after condition.built_emitRowFilter fun _ => .after (.pure _) hrest

end Flow

/-- The text of a statement is a template with holes for what it draws. -/
theorem StatementNode.renumbers_emit (node : StatementNode) (k : Nat) :
    Renumbers k (TextFrom k) fun _ => node.emit := by
  -- all other statements come to the same text wherever the numbers start
  by_cases hdraws : node.statement.drawsTemporaries = false
  · have hbuilt : node.emit.Built (.guarding false node.statement.guardedCondition?.isSome) :=
      hdraws ▸ node.built
    exact .of_built (hbuilt.weaken id id fun _ => rfl) (textFrom_const k)
  · obtain ⟨statement, span, text⟩ := node
    obtain ⟨times, rfl⟩ | ⟨table, output, filter, rfl⟩ :=
      statement.eq_of_drawsTemporaries (by simpa using hdraws)
    · exact Flow.renumbers_doTimes times k
    · exact Flow.renumbers_loopAt table output filter k

/-- The line of a statement is a template, with its guards. -/
theorem StatementNode.renumbers_emitLine (node : StatementNode) (k : Nat) :
    Renumbers k (CodeFrom k) fun _ => node.emitLine := by
  refine .counted (.bind (node.renumbers_emit k) fun k' code hle hcode => ?_)
  refine .after .takeHoisted fun hoisted => .pure ?_
  have hfirst := codeFrom_const k (.tagged node.span.start hoisted)
  exact (hfirst.append hle (hcode.ofText _)).append_const _

/-! ## Parts of structures -/

namespace StructureNode

theorem renumbers_emitInterface (node : StructureNode) (k : Nat) :
    Renumbers k (CodeFrom k) fun _ => node.emitInterface := by
  refine .after (built_opening node _) fun opening => ?_
  refine .after (built_declaredInterface opening) fun name => ?_
  refine .bind (opening.renumbers_emitLine k) fun k₁ head hle₁ hhead => ?_
  have hrest : ∀ k₂ tail, k₁ ≤ k₂ → CodeFrom k₁ k₂ tail → Renumbers k₂ (CodeFrom k) fun c => do
      let i ← Members.interfaceOf name
      let part ← Members.interfacePart name i
      Members.register i.toDefinition name
      return head c ++ tail c ++ .tagged name.start part := by
    intro k₂ tail hle₂ htail
    refine .after (Members.built_interfaceOf name) fun i => ?_
    refine .after (Members.built_interfacePart name i) fun part => ?_
    refine .after (Members.built_register _ name) fun _ => .pure ?_
    exact (hhead.append hle₂ htail).append_const _
  dsimp only
  split
  next closing _ => exact .bind (closing.renumbers_emitLine k₁) hrest
  next => exact .bind (.pure (codeFrom_const k₁ _)) hrest

/-! ## Branches -/

/-- A text that writes temporaries that are given out already. -/
def TextAt (k k' : Nat) (value : Nat → String) : Prop :=
  k' = k ∧ ∃ t : Template, (∀ n ∈ t.holes, 1 ≤ n ∧ n ≤ k) ∧ value = t.text

/-- Texts that write temporaries that are given out already. -/
def TextsAt (k k' : Nat) (values : Nat → List String) : Prop :=
  k' = k ∧ ∃ ts : List Template, (∀ n ∈ ts.flatMap Template.holes, 1 ≤ n ∧ n ≤ k) ∧
    values = fun c => ts.map (·.text c)

/-- A list of texts that all use the same temporary. -/
theorem renumbers_mapM {α : Type} {k : Nat} {f : Nat → α → Emit String} (items : List α)
    (hf : ∀ a, Renumbers k (TextAt k) fun c => f c a) :
    Renumbers k (TextsAt k) fun c => items.mapM (f c) := by
  induction items with
  | nil => exact .pure ⟨rfl, [], by simp, rfl⟩
  | cons a rest ih =>
    simp only [List.mapM_cons]
    refine .bind (hf a) ?_
    rintro _ _ - ⟨rfl, t, ht, rfl⟩
    refine .bind ih ?_
    rintro _ _ - ⟨rfl, ts, hts, rfl⟩
    refine .pure ⟨rfl, t :: ts, fun n hn => ?_, rfl⟩
    rcases List.mem_append.mp hn with hn | hn
    · exact ht n hn
    · exact hts n hn

/-- Templates with separators between them are a template. -/
theorem exists_intercalate (separator : String) (ts : List Template) :
    ∃ u : Template, (∀ c, separator.intercalate (ts.map (·.text c)) = u.text c) ∧
      u.holes = ts.flatMap Template.holes := by
  induction ts with
  | nil => exact ⟨[], fun _ => by simp, rfl⟩
  | cons t rest ih =>
    obtain ⟨u, hu, hholes⟩ := ih
    cases rest with
    | nil => exact ⟨t, fun _ => by simp, by simp⟩
    | cons next others =>
      refine ⟨t ++ .literal separator ++ u, fun c => ?_, by simp [hholes]⟩
      simp only [List.map_cons] at hu ⊢
      rw [String.intercalate_cons_cons, hu]
      simp [String.append_assoc]

variable {n k : Nat}

/-- A condition, if there is one, that writes temporaries that are given out already. -/
def ConditionAt (k k' : Nat) (value : Nat → Option String) : Prop :=
  k' = k ∧ ((value = fun _ => none) ∨
    ∃ t : Template, (∀ n ∈ t.holes, 1 ≤ n ∧ n ≤ k) ∧ value = fun c => some (t.text c))

/-- The alternatives of a `WHEN` are compared with the temporary of the `CASE`. -/
theorem renumbers_whenCondition (opening : StatementNode) (hpos : 1 ≤ n) (hle : n ≤ k) :
    Renumbers k (ConditionAt k) fun c => whenCondition (Identifier.temporary (c + n)) opening := by
  unfold whenCondition
  split
  next values _ =>
    refine .bind (renumbers_mapM values fun value => .after value.built fun text => .pure ?_) ?_
    · exact ⟨rfl, .literal "abap.compare.eq(" ++ .temporary n ++ .literal (", " ++ text ++ ")"),
        by simp [hpos, hle], by simp [funext_iff, String.append_assoc]⟩
    · rintro _ _ - ⟨rfl, ts, hts, rfl⟩
      obtain ⟨u, hu, hholes⟩ := exists_intercalate " || " ts
      exact .pure ⟨rfl, .inr ⟨u, hholes ▸ hts, by simp [hu]⟩⟩
  · exact .pure ⟨rfl, .inl rfl⟩
  · exact .fail _

/-- Fixed text around a template draws nothing. -/
theorem TextAt.surround {value : Nat → String} (h : TextAt k k value) (before after : String) :
    TextAt k k fun c => before ++ value c ++ after := by
  obtain ⟨-, t, ht, rfl⟩ := h
  exact ⟨rfl, .literal before ++ t ++ .literal after, by simpa using ht,
    by simp [funext_iff, String.append_assoc]⟩

/-- A condition keeps its holes when guards are folded in. -/
theorem renumbers_guarded {condition : Nat → String} (h : TextAt k k condition) :
    Renumbers k (TextAt k) fun c => Emit.guarded (condition c) := by
  refine .after (.drain rfl) fun lines => ?_
  split
  · exact .pure h
  · refine .pure ?_
    have hlines := h.surround ("(() => \x7b " ++ " ".intercalate lines ++ " \x7d)(), ") ""
    simpa only [String.append_empty] using hlines

/-- The header of a branch has the holes of its condition. -/
theorem renumbers_branchLine (first : Bool) {condition : Nat → Option String}
    (h : ConditionAt k k condition) :
    Renumbers k (TextAt k) fun c => branchLine first (condition c) := by
  obtain ⟨-, rfl | ⟨t, ht, rfl⟩⟩ := h
  · exact .pure ⟨rfl, .literal (if first then "if (true) \x7b\n" else "\x7d else \x7b\n"),
      by simp, by simp [funext_iff]⟩
  · cases first with
    | true => exact .pure (TextAt.surround ⟨rfl, t, ht, rfl⟩ _ _)
    | false =>
      refine .bind (renumbers_guarded ⟨rfl, t, ht, rfl⟩) ?_
      rintro _ guarded - ⟨rfl, hguarded⟩
      exact .pure (TextAt.surround ⟨rfl, hguarded⟩ _ _)

/-- A `WHEN` refers to a temporary that was drawn before. -/
theorem renumbers_emitWhenStart (first : Bool) (opening : StatementNode) (hpos : 1 ≤ n)
    (hle : n ≤ k) : Renumbers k (CodeFrom k) fun c =>
      emitWhenStart (Identifier.temporary (c + n)) first opening := by
  refine .bind (renumbers_whenCondition opening hpos hle) ?_
  rintro _ condition - ⟨rfl, hcondition⟩
  refine .bind (renumbers_branchLine first ⟨rfl, hcondition⟩) ?_
  rintro _ line - ⟨rfl, t, ht, rfl⟩
  refine .after .takeHoisted fun hoisted => .pure ?_
  exact (codeFrom_const _ _).append (Nat.le_refl _)
    (TextFrom.ofText ⟨t, numbered_of_bounded ht, rfl⟩ _)

/-- The start of a CASE and the temporary of its operand. -/
def CaseFrom (k k' : Nat) (value : Nat → String × Code) : Prop :=
  k' = k + 1 ∧ CodeFrom k k' (fun c => (value c).2) ∧
    ∀ c, (value c).1 = Identifier.temporary (c + k')

/-- CASE draws the temporary to which its branches refer. -/
theorem renumbers_emitCaseStart (opening : StatementNode) (k : Nat) :
    Renumbers k (CaseFrom k) fun _ => emitCaseStart opening := by
  unfold emitCaseStart
  split
  next source _ =>
    refine .temporary (.after source.built fun value => .after .takeHoisted fun hoisted => .pure ?_)
    refine ⟨rfl, (codeFrom_const k _).append (Nat.le_succ k) (TextFrom.ofText ?_ _), fun _ => rfl⟩
    refine ⟨.literal "let " ++ .temporary (k + 1) ++ .literal (" = " ++ value ++ ";\n"),
      ⟨by simp, fun n hlt hle => ?_⟩, by simp [funext_iff, String.append_assoc]⟩
    obtain rfl : n = k + 1 := by omega
    simp
  · exact .fail _

end StructureNode

/-! ## Trees -/

open StructureNode

mutual

/-- The code of a node is made of templates with holes for what it draws. -/
theorem Node.renumbers_emit : ∀ (node : Node) (k : Nat),
    Renumbers k (CodeFrom k) fun _ => node.emit
  | .leaf node, k => by
    rw [Node.emit]
    exact node.renumbers_emitLine k
  | .branch node, k => by
    rw [Node.emit]
    exact node.renumbers_emit k

/-- Each kind of structure draws what its children draw, and `CASE` one before them. -/
theorem StructureNode.renumbers_emit : ∀ (node : StructureNode) (k : Nat),
    Renumbers k (CodeFrom k) fun _ => node.emit
  | ⟨kind, children, span⟩, k => by
    rw [StructureNode.emit.eq_def]
    dsimp only
    split
    · exact .pure (codeFrom_const k _)
    · refine .after (built_opening _ _) fun opening => ?_
      refine .after (built_implementedClass opening) fun name => ?_
      refine .bind (renumbers_emitClassBody _ children k) fun k₁ body _ hbody => ?_
      exact .after (built_emitClassEnd name) fun stop => .pure (hbody.append_const stop)
    · exact renumbers_emitInterface _ k
    · refine .after (built_opening _ _) fun opening => ?_
      -- the operand is the last temporary given out, and all branches name it again
      refine .bind (renumbers_emitCaseStart opening k) ?_
      rintro _ start - ⟨rfl, hstart, hoperand⟩
      simp only [hoperand]
      refine .bind (renumbers_emitWhens true (by omega) (Nat.le_refl _) children)
        fun k₂ branches hle₂ hbranches => .pure ?_
      exact (hstart.append hle₂ hbranches).append_const _
    · refine .after (built_opening _ _) fun opening => ?_
      refine .bind (renumbers_emitTryBody children k) fun k₁ body hle₁ hbody => ?_
      -- what comes after the handlers is the same whether there are any
      have hrest : ∀ k₂ handlers, k₁ ≤ k₂ → CodeFrom k₁ k₂ handlers →
          Renumbers k₂ (CodeFrom k) fun c => pure
            (Code.tagged opening.span.start "try \x7b\n" ++ body c ++ handlers c
              ++ .tagged (closingPosition ⟨.tryBlock, children, span⟩) "\x7d\n") := by
        intro k₂ handlers hle₂ hhandlers
        have hhead := codeFrom_const k (.tagged opening.span.start "try \x7b\n")
        have hstart := hhead.append hle₁ hbody
        exact .pure ((hstart.append hle₂ hhandlers).append_const _)
      split
      · refine .bind (renumbers_emitCatches true children k₁) fun k₂ catches hle₂ hcatches => ?_
        refine .bind (.pure ?_) fun k₃ handlers hle₃ => hrest k₃ handlers (Nat.le_trans hle₂ hle₃)
        exact ((codeFrom_const k₁ _).append hle₂ hcatches).append_const _
      · exact .bind (.pure (codeFrom_const k₁ _)) hrest
    · exact renumbers_emitNodes children k

/-- Nodes draw one after the other. -/
theorem renumbers_emitNodes : ∀ (nodes : List Node) (k : Nat),
    Renumbers k (CodeFrom k) fun _ => emitNodes nodes
  | [], k => .pure (codeFrom_const k _)
  | node :: rest, k => by
    rw [emitNodes]
    exact .bind (node.renumbers_emit k) fun k₁ _ _ hfirst =>
      .bind (renumbers_emitNodes rest k₁) fun _ _ hle hrest => .pure (hfirst.append hle hrest)

theorem renumbers_emitBranchBody (opening : Span) : ∀ (nodes : List Node) (k : Nat),
    Renumbers k (CodeFrom k) fun _ => emitBranchBody opening nodes
  | [], k => .pure (codeFrom_const k _)
  | .leaf node :: rest, k => by
    rw [emitBranchBody]
    split
    · exact renumbers_emitBranchBody opening rest k
    · exact .bind (node.renumbers_emitLine k) fun k₁ _ _ hfirst =>
        .bind (renumbers_emitBranchBody opening rest k₁) fun _ _ hle hrest =>
          .pure (hfirst.append hle hrest)
  | .branch node :: rest, k => by
    rw [emitBranchBody]
    exact .bind (node.renumbers_emit k) fun k₁ _ _ hfirst =>
      .bind (renumbers_emitBranchBody opening rest k₁) fun _ _ hle hrest =>
        .pure (hfirst.append hle hrest)

/-- The constructor that is inserted draws nothing. -/
theorem renumbers_emitClassBody (inserted : Option (Span × Token)) :
    ∀ (nodes : List Node) (k : Nat),
      Renumbers k (CodeFrom k) fun _ => emitClassBody inserted nodes
  | [], k => .pure (codeFrom_const k _)
  | .leaf node :: rest, k => by
    rw [emitClassBody]
    refine .bind (node.renumbers_emitLine k) fun k₁ first hle₁ hfirst => ?_
    dsimp only
    have hrest : ∀ constructor : Code, Renumbers k₁ (CodeFrom k) fun c => do
        return first c ++ constructor ++ (← emitClassBody inserted rest) := fun constructor =>
      .bind (renumbers_emitClassBody inserted rest k₁) fun _ _ hle hrest =>
        .pure ((hfirst.append_const constructor).append hle hrest)
    split
    · exact .after (Members.built_defaultConstructor _) fun _ => .after (.pure _) hrest
    · exact .after (.pure _) hrest
  | .branch node :: rest, k => by
    rw [emitClassBody]
    exact .bind (node.renumbers_emit k) fun k₁ _ _ hfirst =>
      .bind (renumbers_emitClassBody inserted rest k₁) fun _ _ hle hrest =>
        .pure (hfirst.append hle hrest)

/-- All branches refer to the same temporary, whatever was drawn in between. -/
theorem renumbers_emitWhens {n k : Nat} (first : Bool) (hpos : 1 ≤ n) (hle : n ≤ k) :
    ∀ nodes : List Node, Renumbers k (CodeFrom k) fun c =>
      emitWhens (Identifier.temporary (c + n)) first nodes
  | [] => .pure (codeFrom_const k _)
  | .leaf _ :: rest => by
    simp only [emitWhens]
    exact renumbers_emitWhens first hpos hle rest
  | .branch ⟨kind, children, span⟩ :: rest => by
    simp only [emitWhens]
    refine .after (built_opening _ _) fun opening => ?_
    refine .bind (renumbers_emitWhenStart first opening hpos hle) fun k₁ start hle₁ hstart => ?_
    refine .bind (renumbers_emitBranchBody opening.span children k₁)
      fun k₂ body hle₂ hbody => ?_
    exact .bind (renumbers_emitWhens false hpos (by omega) rest) fun _ _ hle₃ hrest =>
      .pure ((hstart.append hle₂ hbody).append hle₃ hrest)

theorem renumbers_emitTryBody : ∀ (nodes : List Node) (k : Nat),
    Renumbers k (CodeFrom k) fun _ => emitTryBody nodes
  | [], k => .pure (codeFrom_const k _)
  | .leaf node :: rest, k => by
    rw [emitTryBody]
    split
    · exact renumbers_emitTryBody rest k
    · exact .bind (node.renumbers_emitLine k) fun k₁ _ _ hfirst =>
        .bind (renumbers_emitTryBody rest k₁) fun _ _ hle hrest =>
          .pure (hfirst.append hle hrest)
  | .branch node :: rest, k => by
    rw [emitTryBody]
    split
    · exact renumbers_emitTryBody rest k
    · exact .bind (node.renumbers_emit k) fun k₁ _ _ hfirst =>
        .bind (renumbers_emitTryBody rest k₁) fun _ _ hle hrest =>
          .pure (hfirst.append hle hrest)

/-- Handlers draw one after the other. -/
theorem renumbers_emitCatches (first : Bool) : ∀ (nodes : List Node) (k : Nat),
    Renumbers k (CodeFrom k) fun _ => emitCatches first nodes
  | [], k => .pure (codeFrom_const k _)
  | .leaf _ :: rest, k => by
    rw [emitCatches]
    exact renumbers_emitCatches first rest k
  | .branch ⟨kind, children, span⟩ :: rest, k => by
    rw [emitCatches]
    split
    · refine .after (built_opening _ _) fun opening => ?_
      refine .after (built_emitCatchStart first opening) fun start => ?_
      refine .bind (renumbers_emitBranchBody opening.span children k)
        fun k₁ body hle₁ hbody => ?_
      exact .bind (renumbers_emitCatches false rest k₁) fun _ _ hle hrest =>
        .pure ((((codeFrom_const k start).append hle₁ hbody)).append hle hrest)
    · exact renumbers_emitCatches first rest k

end

/-- The code of a tree is the same wherever its temporaries start, but for their numbers. -/
theorem StructureNode.renumbers_emitRoot (root : StructureNode) :
    Renumbers 0 (CodeFrom 0) fun _ => root.emitRoot := renumbers_emitNodes root.children 0

end AbapLowering
