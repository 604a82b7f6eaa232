import AbapLowering.Proofs.Blocks.Flow
import Mathlib.Data.List.Nodup

/-!
# Trees with nested blocks

When the blocks of a tree are nested, emitting a part of it leads from the blocks that are open
before the part to those that are open after it (`StructureNode.keeps_emit`). By induction on the
tree: a statement opens and closes what it says (`Statement.advance?`), CASE and TRY close all that
they open, and the branches within them leave everything as it was.
-/

namespace AbapLowering

open Script
open Script.Reading (readLine)
open Emit (Keeps)

-- the theorems of a mutual block hand the wording of the view on to each other
set_option linter.unusedSectionVars false

variable {w : Wording} {v : View}

/-! ## Nested statements -/

/-- What a statement opens until another closes it. -/
inductive Construct where
  | block (kind : Block)
  | method
  deriving DecidableEq

/-- What is open once a construct is closed, the innermost of those that are open. -/
def Construct.close? (construct : Construct) : List Construct → Option (List Construct)
  | [] => none
  | innermost :: rest => if innermost = construct then some rest else none

/-- What is open after a statement, the innermost first, from what is open before it. There is
nothing if the statement has no place there; those of CASE and TRY only have one in their
structures. -/
def Statement.advance? (opened : List Construct) : Statement → Option (List Construct)
  | .ifThen _ => some (.block .ifBlock :: opened)
  | .doTimes _ => some (.block .doBlock :: opened)
  | .whileTrue _ => some (.block .whileBlock :: opened)
  | .loopAt _ _ _ => some (.block .loopBlock :: opened)
  | .form _ => some (.block .formBlock :: opened)
  | .classImplementation _ => some (.block .classBlock :: opened)
  | .interfaceHeader _ => some (.block .interfaceBlock :: opened)
  | .method _ => some (.method :: opened)
  | .elseIf _ | .otherwise =>
    (Construct.close? (.block .ifBlock) opened).map (.block .ifBlock :: ·)
  | .endBlock kind => Construct.close? (.block kind) opened
  | .endMethod => Construct.close? .method opened
  | .caseOf _ | .whenOneOf _ | .whenOthers | .endCase | .tryBody | .catchClasses _ _ | .endTry =>
    none
  | _ => some opened

/-- To close a construct takes one from those that are open. -/
theorem Construct.length_of_close? {construct : Construct} {opened opened' : List Construct}
    (h : construct.close? opened = some opened') : opened.length = opened'.length + 1 := by
  cases opened with
  | nil => cases h
  | cons innermost rest =>
    rw [close?] at h
    split at h
    · cases h
      rfl
    · cases h

namespace Emit.Keeps

variable {m : Emit String} {opened opened' : List Construct}

/-- A statement that leaves the blocks alone. -/
theorem stays (hm : m.Keeps w v (Shifts w 0 0)) (h : some opened = some opened') :
    m.Keeps w v (Shifts w opened.length opened'.length) := by
  cases h
  exact hm.mono fun _ htext => htext.within opened.length

/-- A statement within a line leaves the open constructs as they are. -/
theorem staysInline (hm : m.Keeps w v (Script.Inline w)) (h : some opened = some opened') :
    m.Keeps w v (Shifts w opened.length opened'.length) :=
  .stays (hm.mono fun _ htext => .inline htext) h

/-- A statement that opens a block adds a construct. -/
theorem opens {construct : Construct} (hm : m.Keeps w v (Shifts w 0 1))
    (h : some (construct :: opened) = some opened') :
    m.Keeps w v (Shifts w opened.length opened'.length) := by
  cases h
  exact hm.mono fun _ htext => htext.within opened.length

/-- A statement that closes a block and opens another replaces the innermost construct. -/
theorem turns {construct : Construct} (hm : m.Keeps w v (Shifts w 1 1))
    (h : (construct.close? opened).map (construct :: ·) = some opened') :
    m.Keeps w v (Shifts w opened.length opened'.length) := by
  obtain ⟨rest, hrest, rfl⟩ := Option.map_eq_some_iff.mp h
  rw [Construct.length_of_close? hrest]
  exact hm.mono fun _ htext => htext.within rest.length

/-- A statement that closes a block takes the innermost construct away. -/
theorem closes {construct : Construct} (hm : m.Keeps w v (Shifts w 1 0))
    (h : construct.close? opened = some opened') :
    m.Keeps w v (Shifts w opened.length opened'.length) := by
  rw [Construct.length_of_close? h]
  exact hm.mono fun _ htext => htext.within opened'.length

end Emit.Keeps

/-- The code of a statement opens and closes the blocks that the statement does. -/
theorem StatementNode.keeps_emit (hv : v.Worded w) {opened opened' : List Construct} :
    ∀ node : StatementNode, node.statement.Worded w →
      node.statement.advance? opened = some opened' →
        node.emit.Keeps w v (Shifts w opened.length opened'.length)
  | ⟨.data _ _ _, _, _⟩, ⟨hname, htype, hvalue⟩, h =>
    .stays (DataObject.keeps_declare hname htype hvalue) h
  | ⟨.constants _ _ _, _, _⟩, ⟨hname, htype, hvalue⟩, h =>
    .stays (DataObject.keeps_declare hname htype fun _ heq => Option.some.inj heq ▸ hvalue) h
  | ⟨.fieldSymbol _, _, _⟩, hname, h =>
    .staysInline (.pure (DataObject.inline_declareFieldSymbol hname)) h
  | ⟨.declarative _, _, _⟩, _, h | ⟨.comment _, _, _⟩, _, h =>
    .staysInline (.pure (.fixed rfl)) h
  | ⟨.move _ _, _, _⟩, ⟨hsource, htarget⟩, h =>
    .staysInline (DataObject.keeps_move hv hsource htarget) h
  | ⟨.arithmetic verb _ _, _, _⟩, ⟨hsource, htarget⟩, h =>
    .staysInline (DataObject.keeps_arithmetic hv verb hsource htarget) h
  | ⟨.clear _, _, _⟩, htarget, h | ⟨.free _, _, _⟩, htarget, h =>
    .staysInline (DataObject.keeps_clear hv htarget) h
  | ⟨.moveCorresponding _ _, _, _⟩, ⟨hsource, htarget⟩, h =>
    .staysInline (DataObject.keeps_moveCorresponding hv hsource htarget) h
  | ⟨.ifThen _, _, _⟩, hcondition, h => .opens (Flow.keeps_ifThen hv hcondition) h
  | ⟨.elseIf _, _, _⟩, hcondition, h => .turns (Flow.keeps_elseIf hv hcondition) h
  | ⟨.otherwise, _, _⟩, _, h =>
    .turns (.pure fun _ => .line (.turns (.fixed rfl) rfl rfl)) h
  | ⟨.doTimes _, _, _⟩, htimes, h => .opens (Flow.keeps_doTimes hv htimes) h
  | ⟨.whileTrue _, _, _⟩, hcondition, h => .opens (Flow.keeps_whileTrue hv hcondition) h
  | ⟨.loopAt _ _ _, _, _⟩, ⟨htable, houtput, hfilter⟩, h =>
    .opens (Flow.keeps_loopAt hv htable houtput hfilter) h
  | ⟨.endBlock _, _, _⟩, _, h => .closes (.pure fun _ => .line .closes) h
  -- these are emitted by the structures that they belong to, and fail elsewhere
  | ⟨.caseOf _, _, _⟩, _, h | ⟨.whenOneOf _, _, _⟩, _, h | ⟨.whenOthers, _, _⟩, _, h
  | ⟨.endCase, _, _⟩, _, h | ⟨.tryBody, _, _⟩, _, h | ⟨.catchClasses _ _, _, _⟩, _, h
  | ⟨.endTry, _, _⟩, _, h => .fail _
  | ⟨.continueLoop, _, _⟩, _, h | ⟨.exitLoop, _, _⟩, _, h => .staysInline (.pure (.fixed rfl)) h
  | ⟨.returnHere, span, _⟩, _, h => .staysInline (Flow.keeps_returnAt hv span.start) h
  | ⟨.assert _, _, _⟩, hcondition, h => .staysInline (Flow.keeps_assert hv hcondition) h
  | ⟨.classImplementation _, _, _⟩, hname, h => .opens (Flow.keeps_classHeader hv hname) h
  | ⟨.interfaceHeader _, _, _⟩, hname, h =>
    .opens (.pure (.opening ((Reads.fixed rfl).andName (Wording.Word.toLower hname) rfl) _ rfl
      rfl)) h
  | ⟨.method _, span, _⟩, hname, h => .opens (Flow.keeps_methodAt hv span.start hname) h
  | ⟨.endMethod, span, _⟩, _, h => .closes (Flow.keeps_endMethodAt hv span.start) h
  | ⟨.form _, _, _⟩, hname, h =>
    .opens (.pure (.opening ((Reads.fixed rfl).andName (Wording.Word.toLower hname) rfl) _ rfl
      rfl)) h
  | ⟨.perform _, _, _⟩, hname, h =>
    .staysInline (.pure (((Reads.fixed rfl).andName (Wording.Word.toLower hname) rfl).andFixed
      rfl)) h
  | ⟨.call _, _, _⟩, hcall, h => .staysInline (MethodCall.keeps_emitStatement hv hcall) h
  | ⟨.callFunction _ _ _ _ _ _ _, _, _⟩,
      ⟨hname, hdestination, hexporting, himporting, hchanging, htables⟩, h =>
    .staysInline (Invocation.keeps_callFunction hv hname hdestination hexporting himporting
      hchanging htables) h
  | ⟨.callTransformation _ _ _ _, _, _⟩, ⟨hname, hoptions, hsource, hresult⟩, h =>
    .stays (Invocation.keeps_callTransformation hv hname hoptions hsource hresult) h
  | ⟨.raiseException _, _, _⟩, hraise, h => .staysInline (Invocation.keeps_raise hv hraise) h
  | ⟨.message _ _ _, _, _⟩, ⟨hspec, harguments, hinto⟩, h =>
    .staysInline (Invocation.keeps_message hv hspec harguments hinto) h
  | ⟨.createObject _ _ _, _, _⟩, ⟨htarget, hspec, hparameters⟩, h =>
    .staysInline (Invocation.keeps_createObject hv htarget hspec hparameters) h
  | ⟨.createData _ _, _, _⟩, ⟨htarget, hspec⟩, h =>
    .staysInline (DataObject.keeps_create hv htarget hspec) h
  | ⟨.assign _ _ casting, _, _⟩, ⟨hsource, htarget⟩, h =>
    .staysInline (DataObject.keeps_assign hv hsource htarget casting) h
  | ⟨.getReference _ _, _, _⟩, ⟨hsource, htarget⟩, h =>
    .staysInline (DataObject.keeps_getReference hv hsource htarget) h
  | ⟨.concatenate _ _ _ lines, _, _⟩, ⟨hsources, htarget, hseparator⟩, h =>
    .staysInline (CharacterProcessing.keeps_concatenate hv hsources htarget hseparator lines) h
  | ⟨.split _ _ _, _, _⟩, ⟨hsource, hseparator, hinto⟩, h =>
    .staysInline (CharacterProcessing.keeps_split hv hsource hseparator hinto) h
  | ⟨.replace _ all _ _, _, _⟩, ⟨htarget, hpattern, hreplacement⟩, h =>
    .staysInline (CharacterProcessing.keeps_replace hv htarget all hpattern hreplacement) h
  | ⟨.condense _ noGaps, _, _⟩, htarget, h =>
    .staysInline (CharacterProcessing.keeps_condense hv htarget noGaps) h
  | ⟨.find _ _ first _ _ _ _, _, _⟩,
      ⟨hpattern, hwithin, hcount, hoffset, hlength, hsubmatches⟩, h =>
    .staysInline (CharacterProcessing.keeps_find hv hpattern hwithin first hcount hoffset hlength
      hsubmatches) h
  | ⟨.shift _ direction _ circular byteMode, _, _⟩, ⟨htarget, hmode⟩, h =>
    .staysInline (CharacterProcessing.keeps_shift hv htarget direction hmode circular byteMode) h
  | ⟨.translate _ _, _, _⟩, ⟨htarget, hrule⟩, h =>
    .staysInline (CharacterProcessing.keeps_translate hv htarget hrule) h
  | ⟨.describe _ _ _ mode, _, _⟩, ⟨hfield, htype, hlength⟩, h =>
    .staysInline (CharacterProcessing.keeps_describe hv hfield htype hlength mode) h
  | ⟨.setBit _ _ _, _, _⟩, ⟨hposition, htarget, hvalue⟩, h =>
    .staysInline (CharacterProcessing.keeps_setBit hv hposition htarget hvalue) h
  | ⟨.getBit _ _ _, _, _⟩, ⟨hposition, hsource, htarget⟩, h =>
    .staysInline (CharacterProcessing.keeps_getBit hv hposition hsource htarget) h
  | ⟨.write _ newLine, _, _⟩, ⟨hkernel, hsource⟩, h =>
    .staysInline (CharacterProcessing.keeps_write hv hkernel hsource newLine) h
  | ⟨.sort _ descending _, _, _⟩, ⟨htarget, hkeys⟩, h =>
    .staysInline (Row.keeps_sort hv htarget descending hkeys) h
  | ⟨.append _ _ _, _, _⟩, ⟨hsource, htarget, hassigning⟩, h =>
    .staysInline (Row.keeps_append hv hsource htarget hassigning) h
  | ⟨.insertInternal _ _ _ _, _, _⟩, ⟨hgiven, htable, hindex, hassigning⟩, h =>
    .staysInline (Row.keeps_insert hv hgiven htable hindex hassigning) h
  | ⟨.modifyInternal _ _ _, _, _⟩, ⟨htable, hindex, hrow⟩, h =>
    .staysInline (Row.keeps_modify hv htable hindex hrow) h
  | ⟨.deleteInternal _ _ adjacent _ _, _, _⟩, ⟨htable, hfilter, hindex, hrow⟩, h =>
    .staysInline (Row.keeps_delete hv htable hfilter adjacent hindex hrow) h
  | ⟨.readTable _ _ _ _ _ _ binarySearch, _, _⟩,
      ⟨htable, hindex, hinto, hreference, hassigning, hkey⟩, h =>
    .staysInline (Row.keeps_read hv htable hindex hinto hreference hassigning hkey binarySearch) h
  | ⟨.select _ _ _ _ single upTo, _, _⟩, ⟨htarget, hfields, htable, hfilter⟩, h =>
    .staysInline (Row.keeps_select hv htarget hfields htable hfilter single upTo) h
  | ⟨.insertDatabase _ _, _, _⟩, ⟨htable, hvalues⟩, h =>
    .staysInline (Row.keeps_insertDatabase hv htable hvalues) h
  | ⟨.changeDatabase change _ _, _, _⟩, ⟨htable, hrows⟩, h =>
    .staysInline (Row.keeps_changeDatabase hv change htable hrows) h
  | ⟨.commit, _, _⟩, _, h | ⟨.rollback, _, _⟩, _, h => .staysInline (.pure (.fixed rfl)) h
  | ⟨.convert _, _, _⟩, hconversion, h => .staysInline (Invocation.keeps_convert hv hconversion) h
  | ⟨.waitForPushChannels _ _, _, _⟩, ⟨hcondition, hseconds⟩, h =>
    .stays (Invocation.keeps_waitForPushChannels hv hcondition hseconds) h
  | ⟨.authorityCheck _, _, _⟩, _, h =>
    .stays (.pure (Invocation.shifts_kernelCall (.of_strict (by decide)) (.of_strict (by decide))
      (.of_strict (by decide)) .nil)) h
  | ⟨.unsupported _, _, _⟩, _, _ => .fail _

/-! ## Nested trees -/

namespace StructureNode

/-- Whether the first statement of a structure begins an interface and the last one ends it. -/
def isInterface (node : StructureNode) : Bool :=
  match node.firstStatement?, node.statements.getLast? with
  | some ⟨.interfaceHeader _, _, _⟩, some ⟨.endBlock .interfaceBlock, _, _⟩ => true
  | _, _ => false

/-- Whether a kind of structure is that of a handler. -/
def isHandler (kind : StructureKind) : Bool := kind == .catchBranch

end StructureNode

open StructureNode in
mutual

/-- What is open after a node, from what is open before it. -/
def Node.advance? (opened : List Construct) : Node → Option (List Construct)
  | .leaf node => node.statement.advance? opened
  | .branch node => node.advance? opened

/-- What is open after a structure. CASE, TRY and interfaces close what they open, and a class
definition opens nothing. -/
def StructureNode.advance? (opened : List Construct) : StructureNode → Option (List Construct)
  | ⟨kind, children, span⟩ =>
    match kind with
    | .classDefinition => some opened
    | .interfaceUnit => if isInterface ⟨kind, children, span⟩ then some opened else none
    | .caseOf => if branchesNested (fun _ => true) children then some opened else none
    | .tryBlock =>
      if advanceTry? [] children == some [] && branchesNested isHandler children then some opened
      else none
    | _ => advanceAll? opened children

/-- What is open after some nodes. -/
def advanceAll? (opened : List Construct) : List Node → Option (List Construct)
  | [] => some opened
  | node :: rest => (node.advance? opened).bind fun opened => advanceAll? opened rest

/-- What is open after the nodes of a branch, whose first statement only says that it begins. -/
def advanceBranch? (opened : List Construct) : List Node → Option (List Construct)
  | [] => some opened
  | .leaf _ :: rest => advanceAll? opened rest
  | .branch node :: rest => (node.advance? opened).bind fun opened => advanceBranch? opened rest

/-- What is open after the nodes of a TRY that are run, before its handlers. -/
def advanceTry? (opened : List Construct) : List Node → Option (List Construct)
  | [] => some opened
  | .leaf node :: rest =>
    if isTryMark node then advanceTry? opened rest
    else (node.statement.advance? opened).bind fun opened => advanceTry? opened rest
  | .branch node :: rest =>
    if node.kind = .catchBranch then advanceTry? opened rest
    else (node.advance? opened).bind fun opened => advanceTry? opened rest

/-- Whether all structures of some kinds close what they open, as branches. -/
def branchesNested (kinds : StructureKind → Bool) : List Node → Bool
  | [] => true
  | .leaf _ :: rest => branchesNested kinds rest
  | .branch ⟨kind, children, _⟩ :: rest =>
    (!kinds kind || advanceBranch? [] children == some []) && branchesNested kinds rest

end

/-- Whether the blocks of a tree are nested: each is closed by its own closing statement before
those around it are, and ELSE and ELSEIF only stand in an open IF. -/
def StructureNode.HasNestedBlocks (root : StructureNode) : Prop :=
  advanceAll? [] root.children = some []

instance (root : StructureNode) : Decidable root.HasNestedBlocks :=
  inferInstanceAs (Decidable (_ = _))

/-! ## Code -/

/-- Whether some code leads from `before` open blocks to `after`, whatever else is open around
them. -/
def Code.Shifts (w : Wording) (before after : Nat) (code : Code) : Prop :=
  ∀ d, Leads w (d + before) code.text (d + after)

namespace Code.Shifts

variable {a b : Code} {before between after : Nat} {text : String}

/-- No code changes nothing. -/
theorem empty : Code.Shifts w before before .empty := fun _ => .empty

theorem tagged {origin : Position} (h : ∀ d, Leads w (d + before) text (d + after)) :
    Code.Shifts w before after (.tagged origin text) := by
  intro d
  rw [Code.tagged, Code.text_ofText]
  exact h d

theorem plain (h : ∀ d, Leads w (d + before) text (d + after)) :
    Code.Shifts w before after (.plain text) := by
  intro d
  rw [Code.plain, Code.text_ofText]
  exact h d

/-- Code behind code. -/
theorem append (ha : Code.Shifts w before between a) (hb : Code.Shifts w between after b) :
    Code.Shifts w before after (a ++ b) := by
  intro d
  rw [Code.text_append]
  exact (ha d).append (hb d)

/-- Blocks that are open further out stay open. -/
theorem within (h : Code.Shifts w before after a) (n : Nat) :
    Code.Shifts w (n + before) (n + after) a := Leads.within h n

end Code.Shifts

/-- The lines that wait for a statement stand before it, among the same blocks. -/
theorem StatementNode.keeps_emitLine (hv : v.Worded w) {opened opened' : List Construct}
    (node : StatementNode) (h : node.statement.Worded w)
    (hadvance : node.statement.advance? opened = some opened') :
    node.emitLine.Keeps w v (Code.Shifts w opened.length opened'.length) := by
  refine .bind .countStatement fun _ _ => ?_
  refine .bind (node.keeps_emit hv h hadvance) fun code hcode => ?_
  refine .bind .takeHoisted fun hoisted hhoisted => .pure fun d => ?_
  rw [Code.text_append, Code.text_append, Code.tagged, Code.tagged, Code.plain, Code.text_ofText,
    Code.text_ofText, Code.text_ofText, String.append_assoc]
  exact (hhoisted _).append (hcode d)

/-! ## Parts of structures -/

/-- Whether some statements are worded in some way, and all stand in different places. -/
structure StatementNode.Fit (w : Wording) (nodes : List StatementNode) : Prop where
  worded : ∀ node ∈ nodes, node.statement.Worded w
  apart : (nodes.map (·.span)).Nodup

namespace StatementNode.Fit

variable {nodes others : List StatementNode}

theorem left (h : Fit w (nodes ++ others)) : Fit w nodes where
  worded node hnode := h.worded node (List.mem_append_left _ hnode)
  apart := by
    have hapart := h.apart
    rw [List.map_append] at hapart
    exact hapart.of_append_left

theorem right (h : Fit w (nodes ++ others)) : Fit w others where
  worded node hnode := h.worded node (List.mem_append_right _ hnode)
  apart := by
    have hapart := h.apart
    rw [List.map_append] at hapart
    exact hapart.of_append_right

end StatementNode.Fit

open StatementNode (Fit)

namespace StructureNode

/-- The statement that opens a structure is its first one. -/
theorem keeps_opening (node : StructureNode) (kind : String) :
    (node.opening kind).Keeps w v fun opening => node.firstStatement? = some opening := by
  unfold opening
  split
  next statement hstatement => exact .pure hstatement
  next => exact .fail _

/-- A structure opens with one of its statements. -/
theorem mem_of_firstStatement? {kind : StructureKind} {children : List Node} {span : Span}
    {opening : StatementNode}
    (h : firstStatement? ⟨kind, children, span⟩ = some opening) :
    opening ∈ allStatementsOf children := mem_allStatementsOf (List.mem_of_head? h)

/-- The class that is implemented is named by a word. -/
theorem keeps_implementedClass {opening : StatementNode} (h : opening.statement.Worded w) :
    (implementedClass opening).Keeps w v fun name => w.Word name.text := by
  unfold implementedClass
  split
  next name heq =>
    rw [heq] at h
    exact .pure h
  next => exact .fail _

/-- The interface that is declared is named in the header of its structure. -/
theorem keeps_declaredInterface {opening : StatementNode} (h : opening.statement.Worded w) :
    (declaredInterface opening).Keeps w v fun name =>
      w.Word name.text ∧ opening.statement = .interfaceHeader name := by
  unfold declaredInterface
  split
  next name heq =>
    rw [heq] at h
    exact .pure ⟨h, heq⟩
  next => exact .fail _

/-- What follows a class leaves the open blocks as they are. -/
theorem keeps_emitClassEnd (hv : v.Worded w) {name : Token} (h : w.Word name.text) (n : Nat) :
    (emitClassEnd name).Keeps w v (Code.Shifts w n n) := by
  refine .bind (Members.keeps_staticPart hv h) fun part hpart => ?_
  refine .bind (Members.keeps_classOf hv name) fun c hc => ?_
  exact .bind (Members.keeps_register hv hc.definition h) fun _ _ =>
    .pure (.tagged fun _ => hpart _)

/-- An interface opens a block with its first statement and closes it with its last. -/
theorem keeps_emitInterface (hv : v.Worded w) {kind : StructureKind} {children : List Node}
    {span : Span} (h : Fit w (allStatementsOf children))
    (hinterface : isInterface ⟨kind, children, span⟩ = true) (opened : List Construct) :
    (emitInterface ⟨kind, children, span⟩).Keeps w v
      (Code.Shifts w opened.length opened.length) := by
  unfold isInterface at hinterface
  split at hinterface
  next header headerSpan headerText endSpan endText hfirst hlast =>
    have hfirstMem := mem_of_firstStatement? hfirst
    have hlastMem := mem_allStatementsOf (List.mem_of_getLast? hlast)
    -- the two statements differ, so that both are emitted
    have hapart : endSpan ≠ headerSpan := by
      intro heq
      cases List.inj_on_of_nodup_map h.apart hlastMem hfirstMem heq
    have hworded : w.Word header.text := h.worded _ hfirstMem
    have hhead := StatementNode.keeps_emitLine hv ⟨.interfaceHeader header, headerSpan, headerText⟩
      hworded (show Statement.advance? opened _ = some (.block .interfaceBlock :: opened) from rfl)
    have htail := StatementNode.keeps_emitLine hv ⟨.endBlock .interfaceBlock, endSpan, endText⟩
      trivial (show Statement.advance? (.block .interfaceBlock :: opened) _ = some opened from rfl)
    refine .bind (keeps_opening _ _) fun opening hopening => ?_
    obtain rfl : _ = opening := Option.some.inj (hfirst.symm.trans hopening)
    refine .bind (keeps_declaredInterface hworded) fun name ⟨hname, _⟩ => ?_
    refine .bind hhead fun head hhead => ?_
    dsimp only
    rw [hlast, Option.filter_some_pos (by simpa using hapart)]
    refine .bind htail fun tail htail => ?_
    refine .bind (Members.keeps_interfaceOf hv name) fun i hi => ?_
    refine .bind (Members.keeps_interfacePart hname hi) fun part hpart => ?_
    exact .bind (Members.keeps_register hv hi hname) fun _ _ =>
      .pure ((hhead.append htail).append (.tagged fun _ => hpart _))
  next => cases hinterface

/-! ### Branches -/

/-- How many branches are open before one, which may be the first. -/
def openBranches (first : Bool) : Nat := if first then 0 else 1

/-- The line that keeps the operand of a `CASE` opens nothing. -/
theorem keeps_emitCaseStart (hv : v.Worded w) {opening : StatementNode}
    (h : opening.statement.Worded w) : (emitCaseStart opening).Keeps w v fun start =>
      w.Word start.1 ∧ ∀ n, Code.Shifts w n n start.2 := by
  unfold emitCaseStart
  split
  next source heq =>
    rw [heq] at h
    refine .bind .temporary fun operand hoperand => ?_
    refine .bind (source.keeps hv h) fun value hvalue => ?_
    refine .bind .takeHoisted fun hoisted hhoisted => .pure ⟨hoperand, fun n => ?_⟩
    have hset : Inline w ("let " ++ operand ++ " = " ++ value ++ ";") :=
      (Inline.joined ((Reads.fixed rfl).andName hoperand rfl) rfl hvalue).andFixed rfl
    exact .append (.tagged fun _ => hhoisted _)
      (.tagged fun _ => .fed ";" rfl (.inline hset))
  next => exact .fail _

/-- The alternatives of a `WHEN` are compared on one line. -/
theorem keeps_whenCondition (hv : v.Worded w) {operand : String} (hoperand : w.Word operand)
    {opening : StatementNode} (h : opening.statement.Worded w) :
    (whenCondition operand opening).Keeps w v fun condition =>
      ∀ text ∈ condition, Inline w text := by
  unfold whenCondition
  split
  next values heq =>
    rw [heq] at h
    refine .bind (P := InlineAll w) (.mapM fun value hvalue => ?_) fun checks hchecks => .pure ?_
    · exact .bind (value.keeps hv (h value hvalue)) fun _ htext =>
        .pure ((Inline.joined ((Reads.fixed rfl).andName hoperand rfl) rfl htext).andFixed rfl)
    · rintro _ ⟨⟩
      exact hchecks.intercalate (.fixed rfl)
  next => exact .pure nofun
  next => exact .fail _

/-- The header of a branch closes the branch before it, if there is one, and opens its own. -/
theorem keeps_branchLine (first : Bool) {condition : Option String}
    (h : ∀ text ∈ condition, Inline w text) :
    (branchLine first condition).Keeps w v fun line =>
      ∀ d, Leads w (d + openBranches first) line (d + 1) := by
  match condition, first with
  | some text, true =>
    refine .pure fun d => .fed ") \x7b" rfl ?_
    exact Shifts.opening ((h text rfl).labelled _ rfl) _ rfl rfl d
  | some text, false =>
    refine .bind (.guarded (h text rfl)) fun guarded hguarded => .pure fun d => ?_
    refine .fed ") \x7b" rfl ?_
    exact Shifts.turning "\x7d else if (" rfl rfl hguarded _ rfl rfl d
  | none, true =>
    exact .pure fun d => Leads.line (s := "if (true) \x7b") (.opens (.fixed rfl) rfl)
  | none, false =>
    exact .pure fun d => Leads.line (s := "\x7d else \x7b") (.turns (.fixed rfl) rfl rfl)

theorem keeps_emitWhenStart (hv : v.Worded w) {operand : String} (hoperand : w.Word operand)
    (first : Bool) {opening : StatementNode} (h : opening.statement.Worded w) :
    (emitWhenStart operand first opening).Keeps w v
      (Code.Shifts w (openBranches first) 1) := by
  refine .bind (keeps_whenCondition hv hoperand h) fun condition hcondition => ?_
  refine .bind (keeps_branchLine first hcondition) fun line hline => ?_
  exact .bind .takeHoisted fun hoisted hhoisted =>
    .pure (.append (.tagged fun _ => hhoisted _) (.tagged hline))

/-- The header of a handler closes the handler before it and opens its own. -/
theorem keeps_emitCatchStart (hv : v.Worded w) (first : Bool) {opening : StatementNode}
    (h : opening.statement.Worded w) :
    (emitCatchStart first opening).Keeps w v (Code.Shifts w (openBranches first) 1) := by
  unfold emitCatchStart
  split
  next classes into heq =>
    rw [heq] at h
    refine .bind (P := InlineAll w) (.mapM fun name hname => ?_) fun checks hchecks => ?_
    · exact .bind (.classAddress hv (h.1 name hname) _) fun _ haddress =>
        .pure (haddress.labelled _ rfl)
    have hcondition : Inline w (" || ".intercalate checks) := hchecks.intercalate (.fixed rfl)
    -- the first header opens a block; a later one closes the block before it and opens the next
    have hhead : ∀ d, Leads w (d + openBranches first) ((if first then "if" else "\x7d else if")
        ++ " (" ++ " || ".intercalate checks ++ ") \x7b" ++ "\n") (d + 1) := by
      intro d
      cases first with
      | true => exact Shifts.opening (hcondition.labelled "if (" rfl) _ rfl rfl d
      | false => exact Shifts.turning "\x7d else if (" rfl rfl hcondition _ rfl rfl d
    have hrest : ∀ setting, (∀ d, Leads w d setting d) → Keeps w v (do
        let hoisted ← Emit.takeHoisted
        return .tagged opening.span.start hoisted ++ .tagged opening.span.start
          ((if first then "if" else "\x7d else if") ++ " (" ++ " || ".intercalate checks
            ++ ") \x7b\n" ++ setting)) (Code.Shifts w (openBranches first) 1) := by
      intro setting hsetting
      refine .bind .takeHoisted fun hoisted hhoisted => .pure ?_
      refine .append (.tagged fun _ => hhoisted _) (.tagged fun d => ?_)
      exact .append (.fed ") \x7b" rfl (hhead d)) (hsetting _)
    cases into with
    | none => exact .bind (.pure fun _ => .empty) hrest
    | some target =>
      refine .bind (FieldChain.keeps_emitTarget hv (h.2 target rfl)) fun place hplace => ?_
      refine .bind (.pure (P := fun setting => ∀ d, Leads w d setting d) fun d => ?_) hrest
      exact .fed ".set(e);" rfl (.inline (hplace.andFixed rfl))
  next => exact .fail _

/-- A CASE with branches ends the last of them. -/
theorem shifts_caseStop (children : List Node) (position : Position) (n : Nat) :
    Code.Shifts w (n + openBranches (true && !children.any isBranch)) n
      (if children.any isBranch then .tagged position "\x7d\n" else .empty) := by
  cases children.any isBranch with
  | true => exact .tagged fun d => Leads.line (s := "\x7d") .closes
  | false => exact .empty

/-- The handlers of a TRY stand in the block that takes the exception, in one chain of branches. -/
theorem shifts_handlers {catches : Code} (h : Code.Shifts w 1 2 catches) :
    Code.Shifts w 1 1 (.plain "\x7d catch (e) \x7b\n" ++ catches
      ++ .plain "\x7d else \x7b\nthrow e;\n\x7d\n") := by
  refine .append (.append (.plain fun d => ?_) h) (.plain fun d => ?_)
  · exact Leads.line (s := "\x7d catch (e) \x7b") (.turns (.fixed rfl) rfl rfl)
  · have helse : Leads w (d + 2) ("\x7d else \x7b" ++ "\n") (d + 2) :=
      .line (.turns (.fixed rfl) rfl rfl)
    have hthrow : Leads w (d + 2) ("throw e;" ++ "\n") (d + 2) := .inline (.fixed rfl)
    exact (helse.append hthrow).append (.line .closes)

/-- The parts of a `TRY` together leave the open blocks as they are. -/
theorem shifts_try {start stop : Position} {body handlers : Code} (hbody : Code.Shifts w 1 1 body)
    (hhandlers : Code.Shifts w 1 1 handlers) :
    Code.Shifts w 0 0 (.tagged start "try \x7b\n" ++ body ++ handlers
      ++ .tagged stop "\x7d\n") := by
  refine .append (.append (.append (.tagged fun d => ?_) hbody) hhandlers) (.tagged fun d => ?_)
  · exact Leads.line (s := "try \x7b") (.opens (.fixed rfl) rfl)
  · exact Leads.line (s := "\x7d") .closes

end StructureNode

/-! ## Trees -/

open StructureNode

/-- Without a statement that stands where a branch begins, nodes are emitted as they are. -/
theorem emitBranchBody_eq {opening : Span} {nodes : List Node}
    (h : ∀ node ∈ nodes.filterMap Node.statement?, node.span ≠ opening) :
    emitBranchBody opening nodes = emitNodes nodes := by
  induction nodes with
  | nil => rfl
  | cons node rest ih =>
    cases node with
    | leaf node =>
      have hall : ∀ other ∈ node :: rest.filterMap Node.statement?, other.span ≠ opening := h
      obtain ⟨hnode, hrest⟩ := List.forall_mem_cons.mp hall
      rw [emitBranchBody, emitNodes, if_neg hnode, ih hrest, Node.emit]
    | branch node => rw [emitBranchBody, emitNodes, ih h, Node.emit]

section

variable (hv : v.Worded w)

include hv

mutual

/-- A node moves from the constructs that are open before it to those that are open behind it. -/
theorem Node.keeps_emit {opened opened' : List Construct} : ∀ node : Node,
    Fit w node.allStatements → node.advance? opened = some opened' →
      node.emit.Keeps w v (Code.Shifts w opened.length opened'.length)
  | .leaf node, h, hadvance => by
    rw [Node.emit]
    exact node.keeps_emitLine hv (h.worded node List.mem_cons_self) hadvance
  | .branch node, h, hadvance => by
    rw [Node.emit]
    exact node.keeps_emit h hadvance

/-- Each kind of structure closes the blocks that it opens, if its statements do. -/
theorem StructureNode.keeps_emit {opened opened' : List Construct} : ∀ node : StructureNode,
    Fit w node.allStatements → node.advance? opened = some opened' →
      node.emit.Keeps w v (Code.Shifts w opened.length opened'.length)
  | ⟨kind, children, span⟩, h, hadvance => by
    have hfit : Fit w (allStatementsOf children) := h
    rw [StructureNode.emit.eq_def]
    rw [StructureNode.advance?.eq_def] at hadvance
    dsimp only at hadvance ⊢
    match kind, hadvance with
    | .classDefinition, rfl => exact .pure .empty
    | .classImplementation, hadvance =>
      refine .bind (keeps_opening _ _) fun opening hopening => ?_
      have hworded := hfit.worded opening (mem_of_firstStatement? hopening)
      refine .bind (keeps_implementedClass hworded) fun name hname => ?_
      refine .bind (keeps_emitClassBody _ children hfit hadvance) fun body hbody => ?_
      exact .bind (keeps_emitClassEnd hv hname _) fun _ hstop => .pure (hbody.append hstop)
    | .interfaceUnit, hadvance =>
      obtain ⟨hinterface, heq⟩ := Option.ite_none_right_eq_some.mp hadvance
      cases heq
      exact keeps_emitInterface hv hfit hinterface opened
    | .caseOf, hadvance =>
      obtain ⟨hnested, heq⟩ := Option.ite_none_right_eq_some.mp hadvance
      cases heq
      refine .bind (keeps_opening _ _) fun opening hopening => ?_
      have hworded := hfit.worded opening (mem_of_firstStatement? hopening)
      refine .bind (keeps_emitCaseStart hv hworded) fun start ⟨hoperand, hstart⟩ => ?_
      refine .bind (keeps_emitWhens hoperand true children hfit hnested) fun branches hbranches =>
        .pure ?_
      exact ((hstart _).append (hbranches.within _)).append (shifts_caseStop _ _ _)
    | .tryBlock, hadvance =>
      obtain ⟨hnested, heq⟩ := Option.ite_none_right_eq_some.mp hadvance
      cases heq
      obtain ⟨hbody, hhandlers⟩ := Bool.and_eq_true_iff.mp hnested
      refine .bind (keeps_opening _ _) fun opening _ => ?_
      refine .bind (keeps_emitTryBody children hfit (beq_iff_eq.mp hbody)) fun body hbody => ?_
      -- the TRY is put together in the same way whether there are handlers
      have hrest : ∀ handlers : Code, Code.Shifts w 1 1 handlers → Keeps w v (pure
          (Code.tagged opening.span.start "try \x7b\n" ++ body ++ handlers
            ++ .tagged (closingPosition ⟨.tryBlock, children, span⟩) "\x7d\n"))
          (Code.Shifts w opened.length opened.length) :=
        fun handlers h => .pure ((shifts_try (hbody.within 1) h).within opened.length)
      split
      next hcatch =>
        refine .bind (keeps_emitCatches true children hfit hhandlers) fun catches hcatches => ?_
        rw [hcatch] at hcatches
        exact .bind (.pure (shifts_handlers (hcatches.within 1))) hrest
      next => exact .bind (.pure .empty) hrest
    | .program, hadvance | .body, hadvance | .method, hadvance | .form, hadvance
    | .functionModule, hadvance | .ifBranch, hadvance | .elseIfBranch, hadvance
    | .elseBranch, hadvance | .doLoop, hadvance | .whileLoop, hadvance | .loop, hadvance
    | .whenBranch, hadvance | .catchBranch, hadvance | .other, hadvance =>
      exact keeps_emitNodes children hfit hadvance

/-- Nodes move on one after the other. -/
theorem keeps_emitNodes {opened opened' : List Construct} : ∀ nodes : List Node,
    Fit w (allStatementsOf nodes) → advanceAll? opened nodes = some opened' →
      (emitNodes nodes).Keeps w v (Code.Shifts w opened.length opened'.length)
  | [], _, rfl => .pure .empty
  | node :: rest, h, hadvance => by
    have hfit : Fit w (node.allStatements ++ allStatementsOf rest) := h
    obtain ⟨between, hfirst, hrest⟩ := Option.bind_eq_some_iff.mp hadvance
    rw [emitNodes]
    exact .bind (node.keeps_emit hfit.left hfirst) fun _ hcode =>
      .bind (keeps_emitNodes rest hfit.right hrest) fun _ hcodes => .pure (hcode.append hcodes)

/-- The first statement of a branch is no part of its body, all others are, since they stand in
other places. -/
theorem keeps_emitBranchBody {opening : StatementNode} {opened opened' : List Construct} :
    ∀ nodes : List Node, Fit w (allStatementsOf nodes) →
      (nodes.filterMap Node.statement?).head? = some opening →
        advanceBranch? opened nodes = some opened' →
          (emitBranchBody opening.span nodes).Keeps w v
            (Code.Shifts w opened.length opened'.length)
  | [], _, hopening, _ => nomatch hopening
  | .leaf node :: rest, h, hopening, hadvance => by
    have hfit : Fit w ([node] ++ allStatementsOf rest) := h
    obtain rfl : node = opening := Option.some.inj hopening
    have hapart : ∀ other ∈ rest.filterMap Node.statement?, other.span ≠ node.span := by
      intro other hother heq
      have hspans := (List.nodup_cons.mp hfit.apart).1
      exact hspans (List.mem_map.mpr ⟨other, mem_allStatementsOf hother, heq⟩)
    rw [emitBranchBody, if_pos rfl, emitBranchBody_eq hapart]
    exact keeps_emitNodes rest hfit.right hadvance
  | .branch node :: rest, h, hopening, hadvance => by
    have hfit : Fit w (node.allStatements ++ allStatementsOf rest) := h
    obtain ⟨between, hfirst, hrest⟩ := Option.bind_eq_some_iff.mp hadvance
    rw [emitBranchBody]
    exact .bind (node.keeps_emit hfit.left hfirst) fun _ hcode =>
      .bind (keeps_emitBranchBody rest hfit.right hopening hrest) fun _ hcodes =>
        .pure (hcode.append hcodes)

/-- A constructor that is inserted opens and closes a block of its own. -/
theorem keeps_emitClassBody {opened opened' : List Construct} (inserted : Option (Span × Token)) :
    ∀ nodes : List Node, Fit w (allStatementsOf nodes) →
      advanceAll? opened nodes = some opened' →
        (emitClassBody inserted nodes).Keeps w v (Code.Shifts w opened.length opened'.length)
  | [], _, rfl => .pure .empty
  | .leaf node :: rest, h, hadvance => by
    have hfit : Fit w ([node] ++ allStatementsOf rest) := h
    obtain ⟨between, hnode, hrest⟩ := Option.bind_eq_some_iff.mp hadvance
    have hworded := hfit.worded node List.mem_cons_self
    rw [emitClassBody]
    refine .bind (node.keeps_emitLine hv hworded hnode) fun first hfirst => ?_
    -- a constructor that is put in stands between two members and changes no depth
    have hthen : ∀ constructor : Code,
        Code.Shifts w between.length between.length constructor → Keeps w v (do
          return first ++ constructor ++ (← emitClassBody inserted rest))
          (Code.Shifts w opened.length opened'.length) :=
      fun _ hconstructor => .bind (keeps_emitClassBody inserted rest hfit.right hrest)
        fun _ hcodes => .pure ((hfirst.append hconstructor).append hcodes)
    dsimp only
    split
    next name _ =>
      refine .bind (Members.keeps_defaultConstructor hv name) fun text htext => ?_
      exact .bind (.pure (.tagged fun _ => htext _)) hthen
    next => exact .bind (.pure .empty) hthen
  | .branch node :: rest, h, hadvance => by
    have hfit : Fit w (node.allStatements ++ allStatementsOf rest) := h
    obtain ⟨between, hfirst, hrest⟩ := Option.bind_eq_some_iff.mp hadvance
    rw [emitClassBody]
    exact .bind (node.keeps_emit hfit.left hfirst) fun _ hcode =>
      .bind (keeps_emitClassBody inserted rest hfit.right hrest) fun _ hcodes =>
        .pure (hcode.append hcodes)

/-- After the first branch one is always open. -/
theorem keeps_emitWhens {operand : String} (hoperand : w.Word operand) (first : Bool) :
    ∀ nodes : List Node, Fit w (allStatementsOf nodes) →
      branchesNested (fun _ => true) nodes = true →
        (emitWhens operand first nodes).Keeps w v
          (Code.Shifts w (openBranches first) (openBranches (first && !nodes.any isBranch)))
  | [], _, _ => by
    rw [emitWhens, List.any_nil, Bool.not_false, Bool.and_true]
    exact .pure .empty
  | .leaf node :: rest, h, hnested => by
    have hfit : Fit w ([node] ++ allStatementsOf rest) := h
    rw [emitWhens, List.any_cons]
    exact keeps_emitWhens hoperand first rest hfit.right hnested
  | .branch ⟨kind, children, span⟩ :: rest, h, hnested => by
    have hfit : Fit w (allStatementsOf children ++ allStatementsOf rest) := h
    rw [branchesNested, Bool.not_true, Bool.false_or, Bool.and_eq_true, beq_iff_eq] at hnested
    rw [emitWhens]
    refine .bind (keeps_opening _ _) fun opening hopening => ?_
    have hworded := hfit.left.worded opening (mem_of_firstStatement? hopening)
    refine .bind (keeps_emitWhenStart hv hoperand first hworded) fun start hstart => ?_
    refine .bind (keeps_emitBranchBody children hfit.left hopening hnested.1) fun body hbody => ?_
    refine .bind (keeps_emitWhens hoperand false rest hfit.right hnested.2) fun others hothers =>
      .pure ?_
    rw [List.any_cons, isBranch, Bool.true_or, Bool.not_true, Bool.and_false]
    exact (hstart.append (hbody.within 1)).append hothers

/-- The body of a `TRY` closes what it opens, and its handlers are left out. -/
theorem keeps_emitTryBody {opened opened' : List Construct} : ∀ nodes : List Node,
    Fit w (allStatementsOf nodes) → advanceTry? opened nodes = some opened' →
      (emitTryBody nodes).Keeps w v (Code.Shifts w opened.length opened'.length)
  | [], _, rfl => .pure .empty
  -- the opening and the closing statement are passed over
  | .leaf node :: rest, h, hadvance => by
    have hfit : Fit w ([node] ++ allStatementsOf rest) := h
    rw [advanceTry?] at hadvance
    rw [emitTryBody]
    split at hadvance
    next hmark =>
      rw [if_pos hmark]
      exact keeps_emitTryBody rest hfit.right hadvance
    next hmark =>
      rw [if_neg hmark]
      obtain ⟨between, hnode, hrest⟩ := Option.bind_eq_some_iff.mp hadvance
      exact .bind (node.keeps_emitLine hv (hfit.worded node List.mem_cons_self) hnode)
        fun _ hcode => .bind (keeps_emitTryBody rest hfit.right hrest) fun _ hcodes =>
          .pure (hcode.append hcodes)
  -- handlers come later
  | .branch node :: rest, h, hadvance => by
    have hfit : Fit w (node.allStatements ++ allStatementsOf rest) := h
    rw [advanceTry?] at hadvance
    rw [emitTryBody]
    split at hadvance
    next hhandler =>
      rw [if_pos hhandler]
      exact keeps_emitTryBody rest hfit.right hadvance
    next hhandler =>
      rw [if_neg hhandler]
      obtain ⟨between, hfirst, hrest⟩ := Option.bind_eq_some_iff.mp hadvance
      exact .bind (node.keeps_emit hfit.left hfirst) fun _ hcode =>
        .bind (keeps_emitTryBody rest hfit.right hrest) fun _ hcodes => .pure (hcode.append hcodes)

/-- After the handlers the last one is still open, if there was one. -/
theorem keeps_emitCatches (first : Bool) : ∀ nodes : List Node, Fit w (allStatementsOf nodes) →
    branchesNested isHandler nodes = true →
      (emitCatches first nodes).Keeps w v
        (Code.Shifts w (openBranches first) (openBranches (first && !nodes.any isCatch)))
  | [], _, _ => by
    rw [emitCatches, List.any_nil, Bool.not_false, Bool.and_true]
    exact .pure .empty
  | .leaf node :: rest, h, hnested => by
    have hfit : Fit w ([node] ++ allStatementsOf rest) := h
    rw [emitCatches, List.any_cons]
    exact keeps_emitCatches first rest hfit.right hnested
  | .branch ⟨kind, children, span⟩ :: rest, h, hnested => by
    have hfit : Fit w (allStatementsOf children ++ allStatementsOf rest) := h
    rw [branchesNested, Bool.and_eq_true, Bool.or_eq_true, beq_iff_eq] at hnested
    rw [emitCatches, List.any_cons]
    split
    next hkind =>
      have hbodyNested := hnested.1.resolve_left (by simp [isHandler, hkind])
      refine .bind (keeps_opening _ _) fun opening hopening => ?_
      have hworded := hfit.left.worded opening (mem_of_firstStatement? hopening)
      refine .bind (keeps_emitCatchStart hv first hworded) fun start hstart => ?_
      refine .bind (keeps_emitBranchBody children hfit.left hopening hbodyNested)
        fun body hbody => ?_
      refine .bind (keeps_emitCatches false rest hfit.right hnested.2)
        fun others hothers => .pure ?_
      rw [show isCatch (.branch ⟨kind, children, span⟩) = true by simp [isCatch, hkind],
        Bool.true_or, Bool.not_true, Bool.and_false]
      exact (hstart.append (hbody.within 1)).append hothers
    next hkind =>
      rw [show isCatch (.branch ⟨kind, children, span⟩) = false by simp [isCatch, hkind],
        Bool.false_or]
      exact keeps_emitCatches first rest hfit.right hnested.2

end

end

end AbapLowering
