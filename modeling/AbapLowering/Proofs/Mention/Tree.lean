import AbapLowering.Proofs.Mention.Statement

/-!
# Mentions in trees

The code of a tree spells just what the statements that are lowered mention, in the order of the
tree (`StructureNode.marks_emitRoot`): by induction on the tree, with one case for each way in which
a structure lowers its children. What the handlers of a TRY mention stands where the exception is
bound. The guards before a statement repeat the texts of operands that are marked in the statement;
they stay unmarked.
-/

namespace AbapLowering

open Emit (Yields)

variable {v : View} {ms ns : List Mention}

/-! ## Marked code -/

/-- The text of some code can be marked so that it spells just these mentions. -/
def MarksCode (v : View) (ms : List Mention) (code : Code) : Prop := Marks v ms code.text

namespace MarksCode

variable {a b : Code}

/-- A text with an origin mentions what the text does. -/
theorem tagged (origin : Position) {text : String} (h : Marks v ms text) :
    MarksCode v ms (.tagged origin text) := by
  rw [MarksCode, Code.tagged, Code.text_ofText]
  exact h

/-- Code can always be read as mentioning nothing. -/
theorem unmarked (v : View) (code : Code) : MarksCode v [] code := marks_text v _

/-- Code behind code mentions what both do. -/
theorem append (ha : MarksCode v ms a) (hb : MarksCode v ns b) :
    MarksCode v (ms ++ ns) (a ++ b) := by
  rw [MarksCode, Code.text_append]
  exact Marks.append ha hb

/-- Code is put before marked code. -/
theorem before (a : Code) (hb : MarksCode v ms b) : MarksCode v ms (a ++ b) :=
  (unmarked v a).append hb

/-- Code is put after marked code. -/
theorem after (b : Code) (ha : MarksCode v ms a) : MarksCode v ms (a ++ b) := by
  simpa using ha.append (unmarked v b)

/-- Handlers stand where the exception is bound. -/
theorem caught (ha : MarksCode v ms a) :
    MarksCode v (ms.map (.under .caught))
      (.plain Binder.caught.start ++ a ++ .plain Binder.caught.stop) := by
  rw [MarksCode, Code.text_append, Code.text_append, Code.plain, Code.plain, Code.text_ofText,
    Code.text_ofText]
  exact Marks.bound .caught ha

end MarksCode

/-! ## Statements and the parts of structures -/

/-- The line of a statement contains what it mentions, behind guards that mention nothing. -/
theorem StatementNode.marks_emitLine (node : StatementNode) :
    node.emitLine.Yields v (MarksCode v node.mentions) := by
  refine .after fun _ => .bind node.marks fun code hcode => .after fun hoisted => .pure ?_
  exact ((MarksCode.tagged _ hcode).before _).after _

namespace StructureNode

/-- The statement that opens a structure is its first one. -/
theorem yields_opening (node : StructureNode) (kind : String) :
    (node.opening kind).Yields v fun opening => node.firstStatement? = some opening := by
  unfold opening
  split
  next statement hstatement => exact .pure hstatement
  next => exact .fail _

/-- The parts of an interface contain what its statements mention. -/
theorem marks_emitInterface (node : StructureNode) :
    node.emitInterface.Yields v (MarksCode v node.interfaceMentions) := by
  refine .bind (node.yields_opening _) fun opening hopening => .after fun name => ?_
  refine .bind opening.marks_emitLine fun head hhead => ?_
  unfold interfaceMentions
  rw [hopening, Option.elim_some]
  dsimp only
  have hrest : ∀ (ms : List Mention) (tail : Code), MarksCode v ms tail → Yields v (do
      let i ← Members.interfaceOf name
      let part ← Members.interfacePart name i
      Members.register i.toDefinition name
      return head ++ tail ++ .tagged name.start part) (MarksCode v (opening.mentions ++ ms)) :=
    fun ms tail htail => .after fun i => .after fun part => .after fun _ =>
      .pure ((hhead.append htail).after _)
  split
  next closing hclosing =>
    rw [hclosing]
    exact .bind closing.marks_emitLine (hrest _)
  next hclosing =>
    rw [hclosing]
    exact .bind (.pure (.unmarked v _)) (hrest [])

/-- The operand of a `CASE` stands on the line that keeps it. -/
theorem marks_emitCaseStart (opening : StatementNode) :
    (emitCaseStart opening).Yields v fun start => MarksCode v opening.openingMentions start.2 := by
  unfold emitCaseStart
  split
  next source heq =>
    rw [StatementNode.openingMentions, heq]
    refine .after fun operand => .bind source.marks fun value hvalue => .after fun _ => .pure ?_
    exact (MarksCode.tagged _ ((hvalue.before _).after _)).before _
  next => exact .fail _

/-- The alternatives of a `WHEN` stand in its condition; `WHEN OTHERS` has none. -/
theorem marks_whenCondition (operand : String) (opening : StatementNode) :
    (whenCondition operand opening).Yields v fun condition =>
      Marks v opening.openingMentions (condition.getD "") := by
  unfold whenCondition
  split
  next values heq =>
    rw [StatementNode.openingMentions, heq]
    refine .bind (Emit.marks_mapM values fun value => ?_) fun _ h => .pure (h.intercalate _)
    exact .bind value.marks fun _ h => .pure ((h.before _).after _)
  next heq =>
    rw [StatementNode.openingMentions, heq]
    exact .pure (marks_text v _)
  next => exact .fail _

/-- The condition of a branch stands in its header. -/
theorem marks_branchLine (first : Bool) (condition : Option String)
    (h : Marks v ms (condition.getD "")) : (branchLine first condition).Yields v (Marks v ms) := by
  unfold branchLine
  cases condition with
  | some condition =>
    cases first with
    | true => exact .pure ((h.before _).after _)
    | false => exact .bind (Emit.marks_guarded h) fun _ h => .pure ((h.before _).after _)
  | none =>
    have hline : ∀ line, Marks v ms line := fun line => by simpa using h.before line
    exact .pure (hline _)

theorem marks_emitWhenStart (operand : String) (first : Bool) (opening : StatementNode) :
    (emitWhenStart operand first opening).Yields v (MarksCode v opening.openingMentions) := by
  refine .bind (marks_whenCondition operand opening) fun condition hcondition => ?_
  refine .bind (marks_branchLine first condition hcondition) fun line hline => ?_
  exact .after fun hoisted => .pure ((MarksCode.tagged _ hline).before _)

/-- The target of a `CATCH` stands in the first line of the handler. -/
theorem marks_emitCatchStart (first : Bool) (opening : StatementNode) :
    (emitCatchStart first opening).Yields v (MarksCode v opening.openingMentions) := by
  unfold emitCatchStart
  split
  next classes into heq =>
    rw [StatementNode.openingMentions, heq]
    refine .after fun checks => ?_
    dsimp only
    have hrest : ∀ setting, Marks v (into.elim [] FieldChain.mentions) setting → Yields v (do
        let hoisted ← Emit.takeHoisted
        return .tagged opening.span.start hoisted ++ .tagged opening.span.start
          ((if first then "if" else "\x7d else if") ++ " (" ++ " || ".intercalate checks
            ++ ") \x7b\n" ++ setting)) (MarksCode v (into.elim [] FieldChain.mentions)) :=
      fun _ h => .after fun hoisted => .pure ((MarksCode.tagged _ (h.before _)).before _)
    cases into with
    | none => exact .bind (.pure (marks_text v "")) hrest
    | some target =>
      exact .bind target.marks_emitTarget fun _ h => .bind (.pure (h.after _)) hrest
  next => exact .fail _

/-- The statements that mark the parts of a `TRY` mention nothing. -/
theorem mentions_of_isTryMark {node : StatementNode} (h : isTryMark node = true) :
    node.mentions = [] := by
  unfold isTryMark at h
  unfold StatementNode.mentions
  split at h
  next heq => rw [heq, Statement.mentions]
  next heq => rw [heq, Statement.mentions]
  next => cases h

/-- Without a handler nothing is mentioned in handlers. -/
theorem mentionsOfCatches_eq_nil {nodes : List Node} (h : nodes.any isCatch = false) :
    mentionsOfCatches nodes = [] := by
  induction nodes with
  | nil => rfl
  | cons node rest ih =>
    rw [List.any_cons, Bool.or_eq_false_iff] at h
    match node with
    | .leaf node =>
      rw [mentionsOfCatches]
      exact ih h.2
    | .branch ⟨kind, children, span⟩ =>
      rw [mentionsOfCatches, if_neg (by simpa [isCatch] using h.1)]
      exact ih h.2

end StructureNode

/-! ## Trees -/

open StructureNode

mutual

/-- A node contains what it mentions. -/
theorem Node.marks_emit : ∀ node : Node, node.emit.Yields v (MarksCode v node.mentions)
  | .leaf node => by
    rw [Node.emit, Node.mentions]
    exact node.marks_emitLine
  | .branch node => by
    rw [Node.emit, Node.mentions]
    exact node.marks_emit

/-- Each kind of structure contains what it mentions; in a handler, under its binder. -/
theorem StructureNode.marks_emit :
    ∀ node : StructureNode, node.emit.Yields v (MarksCode v node.mentions)
  | ⟨kind, children, span⟩ => by
    rw [StructureNode.emit.eq_def, StructureNode.mentions.eq_def]
    dsimp only
    match kind with
    | .classDefinition => exact .pure (.unmarked v _)
    | .classImplementation =>
      refine .after fun opening => .after fun name => ?_
      refine .bind (marks_emitClassBody _ children) fun body hbody => ?_
      exact .after fun stop => .pure (hbody.after _)
    | .interfaceUnit => exact marks_emitInterface _
    | .caseOf =>
      refine .bind (yields_opening _ _) fun opening hopening => ?_
      rw [hopening, Option.elim_some]
      refine .bind (marks_emitCaseStart opening) fun start hstart => ?_
      refine .bind (marks_emitWhens start.1 true children) fun branches hbranches => .pure ?_
      exact (hstart.append hbranches).after _
    | .tryBlock =>
      refine .after fun opening => .bind (marks_emitTryBody children) fun body hbody => ?_
      -- the TRY is put together in the same way whether there are handlers
      have hrest : ∀ handlers : Code,
          MarksCode v ((mentionsOfCatches children).map (.under .caught)) handlers → Yields v (pure
            (Code.tagged opening.span.start "try \x7b\n" ++ body ++ handlers
              ++ .tagged (closingPosition ⟨.tryBlock, children, span⟩) "\x7d\n"))
            (MarksCode v (mentionsOfTryBody children
              ++ (mentionsOfCatches children).map (.under .caught))) :=
        fun handlers hhandlers => .pure (((hbody.before _).append hhandlers).after _)
      split
      next =>
        refine .bind (marks_emitCatches true children) fun catches hcatches => ?_
        exact .bind (.pure hcatches.caught) hrest
      next hnone =>
        refine .bind (.pure ?_) hrest
        rw [mentionsOfCatches_eq_nil (by simpa using hnone)]
        exact .unmarked v _
    | .program | .body | .method | .form | .functionModule | .ifBranch | .elseIfBranch
    | .elseBranch | .doLoop | .whileLoop | .loop | .whenBranch | .catchBranch | .other =>
      exact marks_emitNodes children

/-- Nodes contain what they mention, one behind the other. -/
theorem marks_emitNodes :
    ∀ nodes : List Node, (emitNodes nodes).Yields v (MarksCode v (mentionsOfNodes nodes))
  | [] => .pure (.unmarked v _)
  | node :: rest => by
    rw [emitNodes, mentionsOfNodes]
    exact .bind node.marks_emit fun _ hfirst => .bind (marks_emitNodes rest) fun _ hrest =>
      .pure (hfirst.append hrest)

/-- The statement that opens a branch does not stand in its body. -/
theorem marks_emitBranchBody (opening : Span) : ∀ nodes : List Node,
    (emitBranchBody opening nodes).Yields v (MarksCode v (mentionsOfBranchBody opening nodes))
  | [] => .pure (.unmarked v _)
  | .leaf node :: rest => by
    rw [emitBranchBody, mentionsOfBranchBody]
    split
    · exact marks_emitBranchBody opening rest
    · exact .bind node.marks_emitLine fun _ hfirst =>
        .bind (marks_emitBranchBody opening rest) fun _ hrest => .pure (hfirst.append hrest)
  | .branch node :: rest => by
    rw [emitBranchBody, mentionsOfBranchBody]
    exact .bind node.marks_emit fun _ hfirst =>
      .bind (marks_emitBranchBody opening rest) fun _ hrest => .pure (hfirst.append hrest)

/-- The constructor that is inserted mentions nothing. -/
theorem marks_emitClassBody (inserted : Option (Span × Token)) : ∀ nodes : List Node,
    (emitClassBody inserted nodes).Yields v (MarksCode v (mentionsOfNodes nodes))
  | [] => .pure (.unmarked v _)
  | .leaf node :: rest => by
    rw [emitClassBody, mentionsOfNodes, Node.mentions]
    refine .bind node.marks_emitLine fun first hfirst => ?_
    dsimp only
    have hrest : ∀ constructor : Code, Yields v (do
        return first ++ constructor ++ (← emitClassBody inserted rest))
        (MarksCode v (node.mentions ++ mentionsOfNodes rest)) :=
      fun constructor => .bind (marks_emitClassBody inserted rest) fun _ h =>
        .pure ((hfirst.after constructor).append h)
    split
    · exact .after fun _ => .after hrest
    · exact .after hrest
  | .branch node :: rest => by
    rw [emitClassBody, mentionsOfNodes, Node.mentions]
    exact .bind node.marks_emit fun _ hfirst => .bind (marks_emitClassBody inserted rest)
      fun _ hrest => .pure (hfirst.append hrest)

/-- The branches of a `CASE` contain what they mention. -/
theorem marks_emitWhens (operand : String) (first : Bool) : ∀ nodes : List Node,
    (emitWhens operand first nodes).Yields v (MarksCode v (mentionsOfWhens nodes))
  | [] => .pure (.unmarked v _)
  | .leaf _ :: rest => by
    rw [emitWhens, mentionsOfWhens]
    exact marks_emitWhens operand first rest
  | .branch ⟨kind, children, span⟩ :: rest => by
    rw [emitWhens, mentionsOfWhens]
    refine .bind (yields_opening _ _) fun opening hopening => ?_
    rw [hopening]
    refine .bind (marks_emitWhenStart operand first opening) fun start hstart => ?_
    refine .bind (marks_emitBranchBody opening.span children) fun body hbody => ?_
    exact .bind (marks_emitWhens operand false rest) fun _ hrest =>
      .pure ((hstart.append hbody).append hrest)

theorem marks_emitTryBody : ∀ nodes : List Node,
    (emitTryBody nodes).Yields v (MarksCode v (mentionsOfTryBody nodes))
  | [] => .pure (.unmarked v _)
  | .leaf node :: rest => by
    rw [emitTryBody, mentionsOfTryBody]
    split
    next hmark =>
      -- `TRY` and `ENDTRY` are left out, and mention nothing
      rw [mentions_of_isTryMark hmark, List.nil_append]
      exact marks_emitTryBody rest
    next => exact .bind node.marks_emitLine fun _ hfirst =>
        .bind (marks_emitTryBody rest) fun _ hrest => .pure (hfirst.append hrest)
  | .branch node :: rest => by
    rw [emitTryBody, mentionsOfTryBody]
    split
    · exact marks_emitTryBody rest
    · exact .bind node.marks_emit fun _ hfirst =>
        .bind (marks_emitTryBody rest) fun _ hrest => .pure (hfirst.append hrest)

/-- The handlers of a `TRY` contain what they mention. -/
theorem marks_emitCatches (first : Bool) : ∀ nodes : List Node,
    (emitCatches first nodes).Yields v (MarksCode v (mentionsOfCatches nodes))
  | [] => .pure (.unmarked v _)
  | .leaf _ :: rest => by
    rw [emitCatches, mentionsOfCatches]
    exact marks_emitCatches first rest
  | .branch ⟨kind, children, span⟩ :: rest => by
    rw [emitCatches, mentionsOfCatches]
    split
    · refine .bind (yields_opening _ _) fun opening hopening => ?_
      rw [hopening]
      refine .bind (marks_emitCatchStart first opening) fun start hstart => ?_
      refine .bind (marks_emitBranchBody opening.span children) fun body hbody => ?_
      exact .bind (marks_emitCatches false rest) fun _ hrest =>
        .pure ((hstart.append hbody).append hrest)
    · exact marks_emitCatches first rest

end

/-- The code of a tree spells just what the statements that are lowered mention. -/
theorem StructureNode.marks_emitRoot (root : StructureNode) :
    root.emitRoot.Yields v (MarksCode v root.rootMentions) := marks_emitNodes root.children

end AbapLowering
