import AbapLowering.Emission.Tree

/-!
# Mentions

Where the source of a unit mentions something that its code has to spell: a plain name, a field
symbol, an integer, or what a method hands back. Mentions are listed in the order in which the code
spells them, each with the names that the code binds around it: the row in a condition on rows, and
the exception in the handlers of a TRY. What is not lowered has no mentions.
-/

namespace AbapLowering

/-- What the code has to spell. -/
inductive Referent where
  | name (token : Token)
  | symbol (token : Token)
  | integer (value : Int64)
  /-- What the method around a position hands back. -/
  | result (position : Position)
  deriving DecidableEq

/-- What the code binds around parts of the source. -/
inductive Binder where
  /-- The row that a condition is about. -/
  | row
  /-- The exception that a TRY has caught. -/
  | caught
  deriving DecidableEq

/-- The name of what is bound. -/
def Binder.name : Binder → String
  | .row => "i"
  | .caught => "e"

/-- A place where the source mentions something, and what is bound there, from the outside in. -/
structure Mention where
  referent : Referent
  binders : List Binder
  deriving DecidableEq

/-- The mention with one more binder around it. -/
def Mention.under (binder : Binder) (m : Mention) : Mention :=
  { m with binders := binder :: m.binders }

/-- A mention with nothing bound around it. -/
def Referent.mentioned (referent : Referent) : List Mention := [⟨referent, []⟩]

/-! ## Operands -/

/-- An integer is mentioned, literals are written out. -/
def Constant.mentions : Constant → List Mention
  | .integer value => Referent.mentioned (.integer value)
  | .text _ | .backtick _ => []

mutual

/-- The mentions of an operand that is read. -/
def Source.mentions : Source → List Mention
  | .constant value => value.mentions
  | .template parts => mentionsOfParts parts
  | .field chain => chain.mentions
  | .call call => call.mentions
  | .builtin _ (some single) _ => single.mentions
  | .builtin _ none parameters => mentionsOfBindings parameters
  | .arithmetic left _ right => left.mentions ++ right.mentions
  | .component _ | .unsupported _ _ _ => []

/-- The mentions of the pieces of a template. -/
def mentionsOfParts : List TemplatePart → List Mention
  | [] => []
  | part :: rest => part.mentions ++ mentionsOfParts rest

/-- The mentions of a piece of a template. -/
def TemplatePart.mentions : TemplatePart → List Mention
  | .text _ => []
  | .embed source => source.mentions

/-- The mentions of a field chain. -/
def FieldChain.mentions : FieldChain → List Mention
  | ⟨head, _, offset, length⟩ =>
    head.mentions ++ (mentionsOfOffset offset ++ mentionsOfLength length)

/-- The mentions of what a chain starts with. -/
def ChainHead.mentions : ChainHead → List Mention
  | .field name => Referent.mentioned (.name name)
  | .fieldSymbol name => Referent.mentioned (.symbol name)
  | .classRef _ => []
  | .call call => call.mentions

/-- The mentions of an offset. -/
def mentionsOfOffset : Option Offset → List Mention
  | some (.field chain) => chain.mentions
  | some (.literal _) | none => []

/-- The mentions of a length. -/
def mentionsOfLength : Option Length → List Mention
  | some (.field chain) => chain.mentions
  | some (.literal _) | some .rest | none => []

/-- The mentions of a call, except for what receives its result. -/
def MethodCall.mentions : MethodCall → List Mention
  | ⟨receiver, method, parameters⟩ =>
    receiver.mentions ++ method.mentions ++ parameters.mentions

/-- The mentions of what a method is called on. -/
def Receiver.mentions : Receiver → List Mention
  | .object chain => chain.mentions
  | .dynamic name => name.mentions
  | .implicit | .static _ | .super => []

/-- The mentions of what is called. -/
def MethodRef.mentions : MethodRef → List Mention
  | .named _ => []
  | .dynamic name => name.mentions

/-- The mentions of a name in parentheses. -/
def DynamicName.mentions : DynamicName → List Mention
  | .literal _ => []
  | .field chain => chain.mentions

/-- The mentions of the parameters of a call; an unnamed one stands alone. -/
def CallParameters.mentions : CallParameters → List Mention
  | ⟨some single, _, _, _, _, _⟩ => single.mentions
  | ⟨none, exporting, importing, changing, _, _⟩ =>
    mentionsOfBindings exporting ++ mentionsOfTargets importing ++ mentionsOfTargets changing

/-- The mentions of named operands that are read. -/
def mentionsOfBindings : List Binding → List Mention
  | [] => []
  | ⟨_, value⟩ :: rest => value.mentions ++ mentionsOfBindings rest

/-- The mentions of named operands that are written. -/
def mentionsOfTargets : List TargetBinding → List Mention
  | [] => []
  | ⟨_, target⟩ :: rest => target.mentions ++ mentionsOfTargets rest

end

/-- The mentions of a call as a statement. -/
def MethodCall.statementMentions (call : MethodCall) : List Mention :=
  (call.parameters.receiving.elim [] fun receiving => receiving.target.mentions) ++ call.mentions

/-! ## Conditions -/

mutual

/-- The mentions of a condition. -/
def Condition.mentions : Condition → List Mention
  | .compare left _ right => left.mentions ++ right.mentions
  | .predicate operand _ _ => operand.mentions
  | .within operand range _ => operand.mentions ++ range.mentions
  | .not inner | .paren inner => inner.mentions
  | .and items | .or items => mentionsOfConditions items
  | .unsupported _ _ _ => []

/-- The mentions of some conditions. -/
def mentionsOfConditions : List Condition → List Mention
  | [] => []
  | item :: rest => item.mentions ++ mentionsOfConditions rest

end

/-- The mentions of a condition on rows. -/
def Condition.rowMentions (condition : Condition) : List Mention :=
  condition.mentions.map (.under .row)

/-! ## Parts of statements -/

def LoopOutput.mentions : LoopOutput → List Mention
  | .into target | .assigning target | .referenceInto target => target.mentions
  | .nothing => []

def TransformationOperand.mentions : TransformationOperand → List Mention
  | .xml value | .dynamic value => value.mentions
  | .bindings given => mentionsOfBindings given

/-- The mentions of a transformation's operand in one of its two places. -/
def TransformationOperand.mentionsIf (wanted : Bool) (operand : TransformationOperand) :
    List Mention :=
  if wanted then operand.mentions else []

def Raise.mentions : Raise → List Mention
  | .type _ exporting => mentionsOfBindings exporting
  | .object source => source.mentions

def MessageSpec.mentions : MessageSpec → List Mention
  | .short _ _ _ => []
  | .parts id messageType number => id.mentions ++ messageType.mentions ++ number.mentions

def ClassSpec.mentions : ClassSpec → List Mention
  | .static _ => []
  | .dynamic name => name.mentions

def CreateDataSpec.mentions : CreateDataSpec → List Mention
  | .type _ => []
  | .dynamic name _ => name.mentions
  | .likeLineOf source | .like source => source.mentions

def SplitInto.mentions : SplitInto → List Mention
  | .table target => target.mentions
  | .targets several => several.flatMap FieldChain.mentions

def FindPattern.mentions : FindPattern → List Mention
  | .substring source | .regex source => source.mentions

def ShiftMode.mentions : ShiftMode → List Mention
  | .single => []
  | .places source | .upTo source | .deletingLeading source | .deletingTrailing source =>
    source.mentions

def TranslateRule.mentions : TranslateRule → List Mention
  | .upper | .lower => []
  | .using mask => mask.mentions

def InsertData.mentions : InsertData → List Mention
  | .value source => source.mentions
  | .initialLine => []

def DatabaseTable.mentions : DatabaseTable → List Mention
  | .named _ => []
  | .dynamic chain => chain.mentions

def DatabaseSource.mentions : DatabaseSource → List Mention
  | .row source | .table source => source.mentions

def Conversion.mentions : Conversion → List Mention
  | .toStamp date time zone stamp =>
    date.mentions ++ time.elim [] Source.mentions ++ zone.elim [] Source.mentions ++ stamp.mentions
  | .fromStamp stamp zone date time =>
    stamp.mentions ++ zone.elim [] Source.mentions
      ++ (date.elim [] FieldChain.mentions ++ time.elim [] FieldChain.mentions)

/-- The mentions of APPEND. -/
def AppendSource.statementMentions (target : FieldChain) (assigning : Option FieldChain) :
    AppendSource → List Mention
  | .value source | .linesOf source =>
    source.mentions ++ target.mentions ++ assigning.elim [] FieldChain.mentions
  | .initialLine => assigning.elim [] FieldChain.mentions ++ target.mentions

/-! ## Statements -/

/-- The mentions of a statement at a position. The statements of CASE and TRY are lowered with their
structures. -/
def Statement.mentions (position : Position) : Statement → List Mention
  | .data .. | .constants .. | .fieldSymbol _ | .declarative _ | .comment _ => []
  | .move source target => target.mentions ++ source.mentions
  | .arithmetic _ source target => target.mentions ++ target.mentions ++ source.mentions
  | .clear target | .free target | .condense target _ | .sort target _ _ => target.mentions
  | .moveCorresponding source target => source.mentions ++ target.mentions
  | .ifThen condition | .elseIf condition | .whileTrue condition | .assert condition =>
    condition.mentions
  | .otherwise | .endBlock _ | .continueLoop | .exitLoop => []
  | .doTimes times => times.elim [] Source.mentions
  | .loopAt table output filter =>
    table.mentions ++ filter.elim [] Condition.rowMentions ++ output.mentions
  | .caseOf _ | .whenOneOf _ | .whenOthers | .endCase => []
  | .tryBody | .catchClasses _ _ | .endTry => []
  | .returnHere | .endMethod => Referent.mentioned (.result position)
  | .classImplementation _ | .interfaceHeader _ | .method _ | .form _ | .perform _ => []
  | .call c => c.statementMentions
  | .callFunction name destination exporting importing changing tables _ =>
    name.mentions ++ destination.elim [] DynamicName.mentions
      ++ (mentionsOfBindings exporting ++ mentionsOfTargets importing ++ mentionsOfTargets changing
        ++ mentionsOfTargets tables)
  | .callTransformation _ options source result =>
    source.mentionsIf (Invocation.isXml source) ++ result.mentionsIf (Invocation.isXml result)
      ++ mentionsOfBindings options ++ source.mentionsIf (!Invocation.isXml source)
      ++ result.mentionsIf (!Invocation.isXml result)
  | .raiseException raise => raise.mentions
  | .message spec arguments into =>
    into.elim [] FieldChain.mentions ++ spec.mentions ++ arguments.flatMap Source.mentions
  | .createObject target spec parameters =>
    target.mentions ++ spec.elim [] ClassSpec.mentions ++ mentionsOfBindings parameters
  | .createData target spec => target.mentions ++ spec.mentions
  | .assign source target _ | .getReference source target => target.mentions ++ source.mentions
  | .concatenate sources target separatedBy _ =>
    sources.flatMap Source.mentions ++ target.mentions ++ separatedBy.elim [] Source.mentions
  | .split source separator into => source.mentions ++ separator.mentions ++ into.mentions
  | .replace target _ pattern replacement =>
    target.mentions ++ pattern.mentions ++ replacement.mentions
  | .find pattern within _ count offset length submatches =>
    within.mentions ++ (pattern.mentions ++ count.elim [] FieldChain.mentions
      ++ offset.elim [] FieldChain.mentions ++ length.elim [] FieldChain.mentions
      ++ submatches.flatMap FieldChain.mentions)
  | .shift target _ mode _ _ => target.mentions ++ mode.mentions
  | .translate target rule => target.mentions ++ rule.mentions
  | .describe field typeTarget length _ =>
    field.mentions ++ typeTarget.elim [] FieldChain.mentions ++ length.elim [] FieldChain.mentions
  | .setBit position target value =>
    position.mentions ++ target.mentions ++ value.elim [] Source.mentions
  | .getBit position source target => position.mentions ++ source.mentions ++ target.mentions
  | .write source _ => source.mentions
  | .append source target assigning => source.statementMentions target assigning
  | .insertInternal inserted table index assigning =>
    inserted.mentions ++ index.elim [] Source.mentions ++ assigning.elim [] FieldChain.mentions
      ++ table.mentions
  | .modifyInternal table index row =>
    table.mentions ++ (index.elim [] Source.mentions ++ row.elim [] Source.mentions)
  | .deleteInternal table filter _ index row =>
    table.mentions ++ (filter.elim [] Condition.rowMentions ++ index.elim [] Source.mentions
      ++ row.elim [] Source.mentions)
  | .readTable table index into referenceInto assigning withKey _ =>
    table.mentions ++ (index.elim [] Source.mentions ++ into.elim [] FieldChain.mentions
      ++ referenceInto.elim [] FieldChain.mentions ++ assigning.elim [] FieldChain.mentions
      ++ withKey.elim [] Condition.rowMentions)
  | .select target _ table _ _ _ => target.mentions ++ table.mentions
  | .insertDatabase table values => table.mentions ++ values.mentions
  | .changeDatabase _ table rows => table.mentions ++ rows.mentions
  | .commit | .rollback | .authorityCheck _ | .unsupported _ => []
  | .convert conversion => conversion.mentions
  | .waitForPushChannels condition seconds =>
    condition.mentions ++ seconds.elim [] Source.mentions

namespace StatementNode

/-- The mentions of a statement. -/
def mentions (node : StatementNode) : List Mention := node.statement.mentions node.span.start

/-- The mentions of a statement that opens a CASE or a branch of a CASE or TRY. -/
def openingMentions (node : StatementNode) : List Mention :=
  match node.statement with
  | .caseOf source => source.mentions
  | .whenOneOf values => values.flatMap Source.mentions
  | .catchClasses _ into => into.elim [] FieldChain.mentions
  | _ => []

end StatementNode

/-! ## Trees -/

/-- The mentions of the first and the last statement of an interface. -/
def StructureNode.interfaceMentions (node : StructureNode) : List Mention :=
  node.firstStatement?.elim [] fun opening =>
    opening.mentions ++ (node.statements.getLast?.filter fun s => s.span != opening.span).elim []
      StatementNode.mentions

mutual

/-- The mentions of a node. -/
def Node.mentions : Node → List Mention
  | .leaf node => node.mentions
  | .branch node => node.mentions

/-- The mentions of a structure. -/
def StructureNode.mentions : StructureNode → List Mention
  | ⟨kind, children, span⟩ =>
    match kind with
    | .classDefinition => []
    | .interfaceUnit => StructureNode.interfaceMentions ⟨kind, children, span⟩
    | .caseOf =>
      (StructureNode.firstStatement? ⟨kind, children, span⟩).elim [] StatementNode.openingMentions
        ++ mentionsOfWhens children
    | .tryBlock => mentionsOfTryBody children ++ (mentionsOfCatches children).map (.under .caught)
    | _ => mentionsOfNodes children

/-- The mentions of some nodes. -/
def mentionsOfNodes : List Node → List Mention
  | [] => []
  | node :: rest => node.mentions ++ mentionsOfNodes rest

/-- The mentions of a branch after its opening statement, which is the one with that span. -/
def mentionsOfBranchBody (opening : Span) : List Node → List Mention
  | [] => []
  | .leaf node :: rest =>
    if node.span = opening then mentionsOfBranchBody opening rest
    else node.mentions ++ mentionsOfBranchBody opening rest
  | .branch node :: rest => node.mentions ++ mentionsOfBranchBody opening rest

/-- The mentions of the branches of a CASE. -/
def mentionsOfWhens : List Node → List Mention
  | [] => []
  | .leaf _ :: rest => mentionsOfWhens rest
  | .branch ⟨kind, children, span⟩ :: rest =>
    (match StructureNode.firstStatement? ⟨kind, children, span⟩ with
      | some opening => opening.openingMentions ++ mentionsOfBranchBody opening.span children
      | none => []) ++ mentionsOfWhens rest

/-- The mentions of a TRY up to its handlers. -/
def mentionsOfTryBody : List Node → List Mention
  | [] => []
  | .leaf node :: rest => node.mentions ++ mentionsOfTryBody rest
  | .branch node :: rest =>
    if node.kind = .catchBranch then mentionsOfTryBody rest
    else node.mentions ++ mentionsOfTryBody rest

/-- The mentions of the handlers of a TRY. -/
def mentionsOfCatches : List Node → List Mention
  | [] => []
  | .leaf _ :: rest => mentionsOfCatches rest
  | .branch ⟨kind, children, span⟩ :: rest =>
    if kind = .catchBranch then
      (match StructureNode.firstStatement? ⟨kind, children, span⟩ with
        | some opening => opening.openingMentions ++ mentionsOfBranchBody opening.span children
        | none => []) ++ mentionsOfCatches rest
    else mentionsOfCatches rest

end

/-- The mentions of a tree. -/
def StructureNode.rootMentions (root : StructureNode) : List Mention :=
  mentionsOfNodes root.children

end AbapLowering
