import AbapLowering.Proofs.Code.Linewise
import AbapLowering.Proofs.Emission.Outcome

/-!
# Trees are emitted line by line

The code of every tree is made of lines (`StructureNode.linewise_emitRoot`): statements end theirs
themselves, lines that wait for a statement are ended when they are taken out of the queue, and so
are the parts that structures put around statements.
-/

namespace AbapLowering

namespace Emit

/-- Each line is ended by a line feed. -/
theorem endLines_cons (line : String) (rest : List String) :
    endLines (line :: rest) = line ++ "\n" ++ endLines rest := by
  simp [endLines, String.join_cons]

/-- Lines that are ended end a line, unless there are none. -/
theorem endsLine_endLines {lines : List String} (h : endLines lines ≠ "") :
    EndsLine (endLines lines) := by
  induction lines with
  | nil => exact absurd rfl h
  | cons line rest ih =>
    rw [endLines_cons]
    by_cases hrest : endLines rest = ""
    · rw [hrest, String.append_empty]
      exact endsLine_append _ endsLine_feed
    · exact endsLine_append _ (ih hrest)

/-- What was hoisted is nothing at all, or whole lines. -/
theorem yields_takeHoisted {v : View} :
    takeHoisted.Yields v fun text => text ≠ "" → EndsLine text :=
  .after fun _ => .pure endsLine_endLines

end Emit

namespace Code

/-- Code made of lines. -/
def IsLinewise (code : Code) : Prop := Linewise code.fragments

theorem isLinewise_empty : empty.IsLinewise := .nil

/-- Lines behind lines are lines. -/
theorem IsLinewise.append {a b : Code} (ha : a.IsLinewise) (hb : b.IsLinewise) :
    (a ++ b).IsLinewise := Linewise.append ha hb

/-- A text with an origin is made of lines if it is empty or ends one. -/
theorem isLinewise_tagged (origin : Position) {text : String} (h : text ≠ "" → EndsLine text) :
    (tagged origin text).IsLinewise := linewise_ofText _ h

/-- A text without an origin has to end a line. -/
theorem isLinewise_plain {text : String} (h : EndsLine text) : (plain text).IsLinewise :=
  linewise_ofText _ fun _ => h

end Code

open Code
open Emit (Yields)

variable {v : View}

/-! ## Statements and the parts of structures -/

/-- A statement is put on lines of its own, behind what was hoisted. -/
theorem StatementNode.linewise_emitLine (node : StatementNode) :
    node.emitLine.Yields v IsLinewise := by
  refine .after fun _ => .after fun code => .bind Emit.yields_takeHoisted fun hoisted h => .pure ?_
  rw [Code.append_assoc]
  exact .append (isLinewise_tagged _ h) (linewise_line code _)

/-- A constructor that is made up ends with the line of its brace. -/
theorem Members.yields_defaultConstructor (name : Token) :
    (defaultConstructor name).Yields v EndsLine :=
  .after fun c => .after fun scope => .after fun lines => .pure (endsLine_append _ (by decide))

namespace StructureNode

/-- The lines of an interface are those of its static part and its registration. -/
theorem linewise_emitInterface (node : StructureNode) : node.emitInterface.Yields v IsLinewise := by
  refine .after fun opening => .after fun name => ?_
  refine .bind opening.linewise_emitLine fun head hhead => ?_
  have hrest : ∀ tail : Code, tail.IsLinewise → Yields v (do
      let i ← Members.interfaceOf name
      let part ← Members.interfacePart name i
      Members.register i.toDefinition name
      return head ++ tail ++ .tagged name.start part) IsLinewise := by
    intro tail htail
    refine .after fun i => ?_
    refine .bind (P := fun part => part ≠ "" → EndsLine part) ?_ fun part hpart => ?_
    · exact .after fun lines => .pure Emit.endsLine_endLines
    · exact .after fun _ => .pure ((hhead.append htail).append (isLinewise_tagged _ hpart))
  dsimp only
  split
  next closing _ => exact .bind closing.linewise_emitLine hrest
  next => exact .bind (.pure isLinewise_empty) hrest

/-- What follows a class is made of lines, also where it has no static members. -/
theorem linewise_emitClassEnd (name : Token) : (emitClassEnd name).Yields v IsLinewise := by
  refine .bind (P := fun part => part ≠ "" → EndsLine part) ?_ fun part hpart => ?_
  · refine .after fun c => .after fun scope => .after fun members => ?_
    exact .after fun lines => .pure Emit.endsLine_endLines
  · exact .after fun c => .after fun _ => .pure (isLinewise_tagged _ hpart)

/-- The operand of a `CASE` is kept on a line of its own. -/
theorem linewise_emitCaseStart (opening : StatementNode) :
    (emitCaseStart opening).Yields v fun start => start.2.IsLinewise := by
  unfold emitCaseStart
  split
  · refine .after fun operand => .after fun value => ?_
    refine .bind Emit.yields_takeHoisted fun hoisted h => .pure ?_
    exact .append (isLinewise_tagged _ h)
      (isLinewise_tagged _ fun _ => endsLine_append _ (by decide))
  · exact .fail _

/-- The header of a branch ends a line, whether or not it closes the branch before. -/
theorem yields_branchLine (first : Bool) (condition : Option String) :
    (branchLine first condition).Yields v EndsLine := by
  unfold branchLine
  cases condition with
  | some condition =>
    cases first with
    | true => exact .pure (endsLine_append _ (by decide))
    | false => exact .after fun guarded => .pure (endsLine_append _ (by decide))
  | none => cases first <;> exact .pure (by decide)

/-- A `WHEN` begins with whole lines. -/
theorem linewise_emitWhenStart (operand : String) (first : Bool) (opening : StatementNode) :
    (emitWhenStart operand first opening).Yields v IsLinewise := by
  refine .after fun condition => .bind (yields_branchLine first condition) fun line hline => ?_
  refine .bind Emit.yields_takeHoisted fun hoisted h => .pure ?_
  exact .append (isLinewise_tagged _ h) (isLinewise_tagged _ fun _ => hline)

/-- A `CATCH` begins with whole lines, guards included. -/
theorem linewise_emitCatchStart (first : Bool) (opening : StatementNode) :
    (emitCatchStart first opening).Yields v IsLinewise := by
  unfold emitCatchStart
  split
  next into _ =>
    refine .after fun checks => ?_
    dsimp only
    -- with or without a line that keeps the exception, the header ends its line
    have hrest : ∀ setting : String, (setting ≠ "" → EndsLine setting) → Yields v (do
        let hoisted ← Emit.takeHoisted
        return .tagged opening.span.start hoisted ++ .tagged opening.span.start
          ((if first then "if" else "\x7d else if") ++ " (" ++ " || ".intercalate checks
            ++ ") \x7b\n" ++ setting)) IsLinewise := by
      intro setting hsetting
      refine .bind Emit.yields_takeHoisted fun hoisted h => .pure ?_
      refine .append (isLinewise_tagged _ h) (isLinewise_tagged _ fun _ => ?_)
      by_cases hempty : setting = ""
      · rw [hempty, String.append_empty]
        exact endsLine_append _ (by decide)
      · exact endsLine_append _ (hsetting hempty)
    cases into with
    | none => exact .bind (.pure (absurd rfl)) hrest
    | some target =>
      exact .after fun text => .bind (.pure fun _ => endsLine_append _ (by decide)) hrest
  next => exact .fail _

end StructureNode

/-! ## Trees -/

open StructureNode

mutual

/-- Every node is put on lines of its own. -/
theorem Node.linewise_emit : ∀ node : Node, node.emit.Yields v IsLinewise
  | .leaf node => by
    rw [Node.emit]
    exact node.linewise_emitLine
  | .branch node => by
    rw [Node.emit]
    exact node.linewise_emit

theorem StructureNode.linewise_emit : ∀ node : StructureNode, node.emit.Yields v IsLinewise
  | ⟨kind, children, span⟩ => by
    rw [StructureNode.emit.eq_def]
    dsimp only
    split
    · exact .pure isLinewise_empty
    · refine .after fun opening => .after fun name => ?_
      refine .bind (linewise_emitClassBody _ children) fun body hbody => ?_
      exact .bind (linewise_emitClassEnd name) fun stop hstop => .pure (hbody.append hstop)
    · exact linewise_emitInterface _
    · refine .after fun opening => .bind (linewise_emitCaseStart opening) fun start hstart => ?_
      refine .bind (linewise_emitWhens start.1 true children) fun branches hbranches => .pure ?_
      refine (hstart.append hbranches).append ?_
      split
      · exact isLinewise_tagged _ fun _ => by decide
      · exact isLinewise_empty
    · refine .after fun opening => .bind (linewise_emitTryBody children) fun body hbody => ?_
      have hrest : ∀ handlers : Code, handlers.IsLinewise → Yields v (pure
          (Code.tagged opening.span.start "try \x7b\n" ++ body ++ handlers
            ++ .tagged (closingPosition ⟨.tryBlock, children, span⟩) "\x7d\n")) IsLinewise := by
        intro handlers hhandlers
        refine .pure (.append (.append (.append ?_ hbody) hhandlers) ?_)
        · exact isLinewise_tagged _ fun _ => by decide
        · exact isLinewise_tagged _ fun _ => by decide
      split
      · refine .bind (linewise_emitCatches true children) fun catches hcatches => ?_
        refine .bind (.pure ?_) hrest
        have hstart : (Code.plain "\x7d catch (e) \x7b\n").IsLinewise :=
          isLinewise_plain (by decide)
        exact .append (.append hstart hcatches) (isLinewise_plain (by decide))
      · exact .bind (.pure isLinewise_empty) hrest
    · exact linewise_emitNodes children

theorem linewise_emitNodes : ∀ nodes : List Node, (emitNodes nodes).Yields v IsLinewise
  | [] => .pure isLinewise_empty
  | node :: rest => by
    rw [emitNodes]
    exact .bind node.linewise_emit fun _ hfirst =>
      .bind (linewise_emitNodes rest) fun _ hrest => .pure (hfirst.append hrest)

/-- The body of a branch is made of lines, also where it is empty. -/
theorem linewise_emitBranchBody (opening : Span) :
    ∀ nodes : List Node, (emitBranchBody opening nodes).Yields v IsLinewise
  | [] => .pure isLinewise_empty
  | .leaf node :: rest => by
    rw [emitBranchBody]
    split
    · exact linewise_emitBranchBody opening rest
    · exact .bind node.linewise_emitLine fun _ hfirst =>
        .bind (linewise_emitBranchBody opening rest) fun _ hrest => .pure (hfirst.append hrest)
  | .branch node :: rest => by
    rw [emitBranchBody]
    exact .bind node.linewise_emit fun _ hfirst =>
      .bind (linewise_emitBranchBody opening rest) fun _ hrest => .pure (hfirst.append hrest)

/-- The constructor that is inserted stands on its own lines between those of the class. -/
theorem linewise_emitClassBody (inserted : Option (Span × Token)) :
    ∀ nodes : List Node, (emitClassBody inserted nodes).Yields v IsLinewise
  | [] => .pure isLinewise_empty
  | .leaf node :: rest => by
    rw [emitClassBody]
    refine .bind node.linewise_emitLine fun first hfirst => ?_
    dsimp only
    have hrest : ∀ constructor : Code, constructor.IsLinewise → Yields v (do
        return first ++ constructor ++ (← emitClassBody inserted rest)) IsLinewise :=
      fun constructor hconstructor => .bind (linewise_emitClassBody inserted rest) fun _ hrest =>
        .pure ((hfirst.append hconstructor).append hrest)
    split
    · refine .bind (Members.yields_defaultConstructor _) fun text htext => ?_
      exact .bind (.pure (isLinewise_tagged _ fun _ => htext)) hrest
    · exact .bind (.pure isLinewise_empty) hrest
  | .branch node :: rest => by
    rw [emitClassBody]
    exact .bind node.linewise_emit fun _ hfirst =>
      .bind (linewise_emitClassBody inserted rest) fun _ hrest => .pure (hfirst.append hrest)

theorem linewise_emitWhens (operand : String) (first : Bool) :
    ∀ nodes : List Node, (emitWhens operand first nodes).Yields v IsLinewise
  | [] => .pure isLinewise_empty
  | .leaf _ :: rest => by
    rw [emitWhens]
    exact linewise_emitWhens operand first rest
  | .branch ⟨kind, children, span⟩ :: rest => by
    rw [emitWhens]
    refine .after fun opening => ?_
    refine .bind (linewise_emitWhenStart operand first opening) fun start hstart => ?_
    refine .bind (linewise_emitBranchBody opening.span children) fun body hbody => ?_
    exact .bind (linewise_emitWhens operand false rest) fun _ hrest =>
      .pure ((hstart.append hbody).append hrest)

theorem linewise_emitTryBody : ∀ nodes : List Node, (emitTryBody nodes).Yields v IsLinewise
  | [] => .pure isLinewise_empty
  | .leaf node :: rest => by
    rw [emitTryBody]
    split
    · exact linewise_emitTryBody rest
    · exact .bind node.linewise_emitLine fun _ hfirst =>
        .bind (linewise_emitTryBody rest) fun _ hrest => .pure (hfirst.append hrest)
  | .branch node :: rest => by
    rw [emitTryBody]
    split
    · exact linewise_emitTryBody rest
    · exact .bind node.linewise_emit fun _ hfirst =>
        .bind (linewise_emitTryBody rest) fun _ hrest => .pure (hfirst.append hrest)

theorem linewise_emitCatches (first : Bool) :
    ∀ nodes : List Node, (emitCatches first nodes).Yields v IsLinewise
  | [] => .pure isLinewise_empty
  | .leaf _ :: rest => by
    rw [emitCatches]
    exact linewise_emitCatches first rest
  | .branch ⟨kind, children, span⟩ :: rest => by
    rw [emitCatches]
    split
    · refine .after fun opening => ?_
      refine .bind (linewise_emitCatchStart first opening) fun start hstart => ?_
      refine .bind (linewise_emitBranchBody opening.span children) fun body hbody => ?_
      exact .bind (linewise_emitCatches false rest) fun _ hrest =>
        .pure ((hstart.append hbody).append hrest)
    · exact linewise_emitCatches first rest

end

/-- The code of every tree is made of lines. -/
theorem StructureNode.linewise_emitRoot (root : StructureNode) :
    root.emitRoot.Yields v IsLinewise := linewise_emitNodes root.children

end AbapLowering
