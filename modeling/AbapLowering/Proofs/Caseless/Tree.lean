import AbapLowering.Project
import AbapLowering.Proofs.Caseless.Text

/-!
# Trees without the case of their names

`caseless` writes the letters A to Z of every token of a tree in lower case, and leaves everything
else as it is: the shape of the tree, positions, literals, types, and the texts that no token holds.
So two units differ only in the case of such letters just if they are the same without it.
-/

namespace AbapLowering

/-- A token with the letters A to Z of its text in lower case. -/
def Token.caseless (t : Token) : Token := { t with text := Text.caseless t.text }

@[simp] theorem Token.text_caseless (t : Token) : t.caseless.text = Text.caseless t.text := rfl

@[simp] theorem Token.start_caseless (t : Token) : t.caseless.start = t.start := rfl

@[simp] theorem Token.lower_caseless (t : Token) : t.caseless.lower = t.lower :=
  Text.toLower_caseless t.text

/-! ## Expressions -/

/-- A step of a field chain without case. -/
def ChainSegment.caseless : ChainSegment → ChainSegment
  | .component name => .component name.caseless
  | .attribute name => .attribute name.caseless
  | .static name => .static name.caseless
  | .dereference => .dereference

mutual

/-- An operand without case. -/
def Source.caseless : Source → Source
  | .constant value => .constant value
  | .template parts => .template (caselessTemplate parts)
  | .field chain => .field chain.caseless
  | .call call => .call call.caseless
  | .builtin name (some single) parameters =>
    .builtin name.caseless (some single.caseless) (caselessBindings parameters)
  | .builtin name none parameters => .builtin name.caseless none (caselessBindings parameters)
  | .arithmetic left operator right => .arithmetic left.caseless operator right.caseless
  | .component path => .component (path.map (·.caseless))
  | .unsupported name text span => .unsupported name text span

/-- Pieces of a string template without case. -/
def caselessTemplate : List TemplatePart → List TemplatePart
  | [] => []
  | part :: rest => part.caseless :: caselessTemplate rest

/-- A piece of a string template without case. -/
def TemplatePart.caseless : TemplatePart → TemplatePart
  | .text text => .text text
  | .embed source => .embed source.caseless

/-- A field chain without case. -/
def FieldChain.caseless : FieldChain → FieldChain
  | ⟨head, segments, offset, length⟩ =>
    ⟨head.caseless, segments.map (·.caseless), caselessOffset offset, caselessLength length⟩

/-- The start of a field chain without case. -/
def ChainHead.caseless : ChainHead → ChainHead
  | .field name => .field name.caseless
  | .fieldSymbol name => .fieldSymbol name.caseless
  | .classRef name => .classRef name.caseless
  | .call call => .call call.caseless

/-- An offset without case. -/
def caselessOffset : Option Offset → Option Offset
  | none => none
  | some (.literal value) => some (.literal value)
  | some (.field chain) => some (.field chain.caseless)

/-- A length without case. -/
def caselessLength : Option Length → Option Length
  | none => none
  | some (.literal value) => some (.literal value)
  | some (.field chain) => some (.field chain.caseless)
  | some .rest => some .rest

/-- A method call without case. -/
def MethodCall.caseless : MethodCall → MethodCall
  | ⟨receiver, method, parameters⟩ => ⟨receiver.caseless, method.caseless, parameters.caseless⟩

/-- What a method is called on, without case. -/
def Receiver.caseless : Receiver → Receiver
  | .implicit => .implicit
  | .object chain => .object chain.caseless
  | .static className => .static className.caseless
  | .super => .super
  | .dynamic name => .dynamic name.caseless

/-- The method that is called, without case. -/
def MethodRef.caseless : MethodRef → MethodRef
  | .named name => .named name.caseless
  | .dynamic name => .dynamic name.caseless

/-- A name in parentheses without case; a literal is no name of the source. -/
def DynamicName.caseless : DynamicName → DynamicName
  | .literal value => .literal value
  | .field chain => .field chain.caseless

/-- Actual parameters without case. -/
def CallParameters.caseless : CallParameters → CallParameters
  | ⟨single, exporting, importing, changing, receiving, exceptions⟩ =>
    ⟨caselessSource? single, caselessBindings exporting, caselessTargetBindings importing,
      caselessTargetBindings changing, caselessTargetBinding? receiving, exceptions⟩

/-- An operand without case, if there is one. -/
def caselessSource? : Option Source → Option Source
  | none => none
  | some source => some source.caseless

/-- Named operands that are read, without case. -/
def caselessBindings : List Binding → List Binding
  | [] => []
  | ⟨name, value⟩ :: rest => ⟨name.caseless, value.caseless⟩ :: caselessBindings rest

/-- Named operands that are written, without case. -/
def caselessTargetBindings : List TargetBinding → List TargetBinding
  | [] => []
  | ⟨name, target⟩ :: rest => ⟨name.caseless, target.caseless⟩ :: caselessTargetBindings rest

/-- A named operand that is written, without case, if there is one. -/
def caselessTargetBinding? : Option TargetBinding → Option TargetBinding
  | none => none
  | some ⟨name, target⟩ => some ⟨name.caseless, target.caseless⟩

end

mutual

/-- A condition without case. -/
def Condition.caseless : Condition → Condition
  | .compare left operator right => .compare left.caseless operator right.caseless
  | .predicate operand predicate negated => .predicate operand.caseless predicate negated
  | .within operand range negated => .within operand.caseless range.caseless negated
  | .not inner => .not inner.caseless
  | .and items => .and (caselessConditions items)
  | .or items => .or (caselessConditions items)
  | .paren inner => .paren inner.caseless
  | .unsupported name text span => .unsupported name text span

/-- Conditions without case. -/
def caselessConditions : List Condition → List Condition
  | [] => []
  | item :: rest => item.caseless :: caselessConditions rest

end

/-! ## Statements -/

/-- What LOOP does with a row, without case. -/
def LoopOutput.caseless : LoopOutput → LoopOutput
  | .into target => .into target.caseless
  | .assigning target => .assigning target.caseless
  | .referenceInto target => .referenceInto target.caseless
  | .nothing => .nothing

/-- An operand of a transformation without case. -/
def TransformationOperand.caseless : TransformationOperand → TransformationOperand
  | .xml value => .xml value.caseless
  | .bindings given => .bindings (caselessBindings given)
  | .dynamic value => .dynamic value.caseless

/-- What is raised, without case. -/
def Raise.caseless : Raise → Raise
  | .type className exporting => .type className.caseless (caselessBindings exporting)
  | .object source => .object source.caseless

/-- Which message is issued, without case. -/
def MessageSpec.caseless : MessageSpec → MessageSpec
  | .short messageType number id => .short messageType number id
  | .parts id messageType number => .parts id.caseless messageType.caseless number.caseless

/-- The class of an object that is created, without case. -/
def ClassSpec.caseless : ClassSpec → ClassSpec
  | .static name => .static name.caseless
  | .dynamic name => .dynamic name.caseless

/-- The type of data that is created, without case. -/
def CreateDataSpec.caseless : CreateDataSpec → CreateDataSpec
  | .type given => .type given
  | .dynamic name table => .dynamic name.caseless table
  | .likeLineOf source => .likeLineOf source.caseless
  | .like source => .like source.caseless

/-- Where the pieces of a split go, without case. -/
def SplitInto.caseless : SplitInto → SplitInto
  | .table target => .table target.caseless
  | .targets pieces => .targets (pieces.map (·.caseless))

/-- What FIND looks for, without case. -/
def FindPattern.caseless : FindPattern → FindPattern
  | .substring source => .substring source.caseless
  | .regex source => .regex source.caseless

/-- How far SHIFT shifts, without case. -/
def ShiftMode.caseless : ShiftMode → ShiftMode
  | .single => .single
  | .places source => .places source.caseless
  | .upTo source => .upTo source.caseless
  | .deletingLeading source => .deletingLeading source.caseless
  | .deletingTrailing source => .deletingTrailing source.caseless

/-- What TRANSLATE does, without case. -/
def TranslateRule.caseless : TranslateRule → TranslateRule
  | .upper => .upper
  | .lower => .lower
  | .using mask => .using mask.caseless

/-- What is appended, without case. -/
def AppendSource.caseless : AppendSource → AppendSource
  | .value source => .value source.caseless
  | .linesOf source => .linesOf source.caseless
  | .initialLine => .initialLine

/-- What is inserted, without case. -/
def InsertData.caseless : InsertData → InsertData
  | .value source => .value source.caseless
  | .initialLine => .initialLine

/-- A database table without case; a name that stands in no token stays as it is. -/
def DatabaseTable.caseless : DatabaseTable → DatabaseTable
  | .named name => .named name
  | .dynamic chain => .dynamic chain.caseless

/-- The rows written to a database table, without case. -/
def DatabaseSource.caseless : DatabaseSource → DatabaseSource
  | .row source => .row source.caseless
  | .table source => .table source.caseless

/-- What is converted, without case. -/
def Conversion.caseless : Conversion → Conversion
  | .toStamp date time zone stamp =>
    .toStamp date.caseless (time.map (·.caseless)) (zone.map (·.caseless)) stamp.caseless
  | .fromStamp stamp zone date time =>
    .fromStamp stamp.caseless (zone.map (·.caseless)) (date.map (·.caseless))
      (time.map (·.caseless))

/-- A statement without case. -/
def Statement.caseless : Statement → Statement
  | .data name type value => .data name.caseless type value
  | .constants name type value => .constants name.caseless type value
  | .fieldSymbol name => .fieldSymbol name.caseless
  | .declarative keyword => .declarative keyword
  | .comment text => .comment text
  | .move source target => .move source.caseless target.caseless
  | .arithmetic verb source target => .arithmetic verb source.caseless target.caseless
  | .clear target => .clear target.caseless
  | .free target => .free target.caseless
  | .moveCorresponding source target => .moveCorresponding source.caseless target.caseless
  | .ifThen condition => .ifThen condition.caseless
  | .elseIf condition => .elseIf condition.caseless
  | .otherwise => .otherwise
  | .doTimes times => .doTimes (times.map (·.caseless))
  | .whileTrue condition => .whileTrue condition.caseless
  | .loopAt table output filter =>
    .loopAt table.caseless output.caseless (filter.map (·.caseless))
  | .endBlock block => .endBlock block
  | .caseOf source => .caseOf source.caseless
  | .whenOneOf values => .whenOneOf (values.map (·.caseless))
  | .whenOthers => .whenOthers
  | .endCase => .endCase
  | .tryBody => .tryBody
  | .catchClasses classes into =>
    .catchClasses (classes.map (·.caseless)) (into.map (·.caseless))
  | .endTry => .endTry
  | .continueLoop => .continueLoop
  | .exitLoop => .exitLoop
  | .returnHere => .returnHere
  | .assert condition => .assert condition.caseless
  | .classImplementation name => .classImplementation name.caseless
  | .interfaceHeader name => .interfaceHeader name.caseless
  | .method name => .method name.caseless
  | .endMethod => .endMethod
  | .form name => .form name.caseless
  | .perform name => .perform name.caseless
  | .call called => .call called.caseless
  | .callFunction name destination exporting importing changing tables exceptions =>
    .callFunction name.caseless (destination.map (·.caseless)) (caselessBindings exporting)
      (caselessTargetBindings importing) (caselessTargetBindings changing)
      (caselessTargetBindings tables) exceptions
  | .callTransformation name options source result =>
    .callTransformation name (caselessBindings options) source.caseless result.caseless
  | .raiseException raise => .raiseException raise.caseless
  | .message spec arguments into =>
    .message spec.caseless (arguments.map (·.caseless)) (into.map (·.caseless))
  | .createObject target spec parameters =>
    .createObject target.caseless (spec.map (·.caseless)) (caselessBindings parameters)
  | .createData target spec => .createData target.caseless spec.caseless
  | .assign source target casting => .assign source.caseless target.caseless casting
  | .getReference source target => .getReference source.caseless target.caseless
  | .concatenate sources target separatedBy lines =>
    .concatenate (sources.map (·.caseless)) target.caseless (separatedBy.map (·.caseless)) lines
  | .split source separator into => .split source.caseless separator.caseless into.caseless
  | .replace target all pattern replacement =>
    .replace target.caseless all pattern.caseless replacement.caseless
  | .condense target noGaps => .condense target.caseless noGaps
  | .find pattern within first count offset length submatches =>
    .find pattern.caseless within.caseless first (count.map (·.caseless)) (offset.map (·.caseless))
      (length.map (·.caseless)) (submatches.map (·.caseless))
  | .shift target direction mode circular byteMode =>
    .shift target.caseless direction mode.caseless circular byteMode
  | .translate target rule => .translate target.caseless rule.caseless
  | .describe field typeTarget length mode =>
    .describe field.caseless (typeTarget.map (·.caseless)) (length.map (·.caseless)) mode
  | .setBit position target value =>
    .setBit position.caseless target.caseless (value.map (·.caseless))
  | .getBit position source target =>
    .getBit position.caseless source.caseless target.caseless
  | .write source newLine => .write source.caseless newLine
  | .sort target descending keys => .sort target.caseless descending keys
  | .append source target assigning =>
    .append source.caseless target.caseless (assigning.map (·.caseless))
  | .insertInternal row table index assigning =>
    .insertInternal row.caseless table.caseless (index.map (·.caseless))
      (assigning.map (·.caseless))
  | .modifyInternal table index row =>
    .modifyInternal table.caseless (index.map (·.caseless)) (row.map (·.caseless))
  | .deleteInternal table filter adjacent index row =>
    .deleteInternal table.caseless (filter.map (·.caseless)) adjacent (index.map (·.caseless))
      (row.map (·.caseless))
  | .readTable table index into referenceInto assigning withKey binarySearch =>
    .readTable table.caseless (index.map (·.caseless)) (into.map (·.caseless))
      (referenceInto.map (·.caseless)) (assigning.map (·.caseless)) (withKey.map (·.caseless))
      binarySearch
  | .select target fields table filter single upTo =>
    .select target.caseless fields table.caseless filter single upTo
  | .insertDatabase table values => .insertDatabase table.caseless values.caseless
  | .changeDatabase change table rows => .changeDatabase change table.caseless rows.caseless
  | .commit => .commit
  | .rollback => .rollback
  | .convert conversion => .convert conversion.caseless
  | .waitForPushChannels condition seconds =>
    .waitForPushChannels condition.caseless (seconds.map (·.caseless))
  | .authorityCheck object => .authorityCheck object
  | .unsupported name => .unsupported name

/-! ## Trees and units -/

/-- A statement node without the case of its names; its text for messages stays as it is. -/
def StatementNode.caseless (node : StatementNode) : StatementNode :=
  { node with statement := node.statement.caseless }

@[simp] theorem StatementNode.span_caseless (node : StatementNode) :
    node.caseless.span = node.span := rfl

mutual

/-- A node without case. -/
def Node.caseless : Node → Node
  | .branch node => .branch node.caseless
  | .leaf node => .leaf node.caseless

/-- A structure without case. -/
def StructureNode.caseless : StructureNode → StructureNode
  | ⟨kind, children, span⟩ => ⟨kind, caselessNodes children, span⟩

/-- Nodes without case. -/
def caselessNodes : List Node → List Node
  | [] => []
  | node :: rest => node.caseless :: caselessNodes rest

end

@[simp] theorem StructureNode.kind_caseless (node : StructureNode) :
    node.caseless.kind = node.kind := by
  cases node
  rfl

@[simp] theorem StructureNode.span_caseless (node : StructureNode) :
    node.caseless.span = node.span := by
  cases node
  rfl

/-- A unit without the case of the names in its tree. -/
def SourceUnit.caseless (u : SourceUnit) : SourceUnit := { u with root := u.root.caseless }

end AbapLowering
