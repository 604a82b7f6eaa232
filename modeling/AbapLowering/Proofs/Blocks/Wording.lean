import AbapLowering.Emission.Tree
import AbapLowering.Proofs.Code.Reads
import AbapLowering.Proofs.Scope.Found

/-!
# How a unit is worded

Whether all texts and names that the code of a unit may contain are worded in some way: those of its
statements (`Statement.Worded`), and those that its scopes and the global objects bring in
(`View.Worded`). A name that is emitted but never looked at again is asked for no more than what it
is emitted as; a literal may contain anything but line breaks.
-/

namespace AbapLowering

open Script

section

variable (w : Wording)

/-! ## Operands -/

/-- Literals are kept apart by their marks, whatever stands between them. -/
def Constant.Unbroken : Constant → Prop
  | .integer _ => True
  | .text raw | .backtick raw => IsUnbroken raw

/-- The name of a step. -/
def ChainSegment.Worded : ChainSegment → Prop
  | .component name | .attribute name | .static name => w.Word name.text
  | .dereference => True

mutual

/-- The texts and names of an operand that is read. -/
def Source.Worded : Source → Prop
  | .constant value => value.Unbroken
  | .template parts => partsWorded (.text .back) parts
  | .field chain => chain.Worded
  | .call call => call.Worded
  | .builtin name (some single) _ => w.Word name.text ∧ single.Worded
  | .builtin name none parameters => w.Word name.text ∧ bindingsWorded parameters
  | .arithmetic left _ right => left.Worded ∧ right.Worded
  | .component path => ∀ name ∈ path, w.Word name.text
  | .unsupported _ _ _ => True

/-- The pieces of a template, from some place of it on. -/
def partsWorded (m : Mode) : List TemplatePart → Prop
  | [] => m.IsTemplate
  | part :: rest => ∃ m', part.Worded m m' ∧ partsWorded m' rest

/-- A piece of a template, between two places of it. -/
def TemplatePart.Worded (m m' : Mode) : TemplatePart → Prop
  | .text raw => w.Part m raw m'
  | .embed source => source.Worded ∧ m' = .text .back

/-- The texts and names of a field chain. -/
def FieldChain.Worded : FieldChain → Prop
  | ⟨head, segments, offset, length⟩ =>
    head.Worded ∧ (∀ segment ∈ segments, segment.Worded w) ∧ offsetWorded offset ∧
      lengthWorded length

/-- What a chain starts with. -/
def ChainHead.Worded : ChainHead → Prop
  | .field name | .fieldSymbol name | .classRef name => w.Word name.text
  | .call call => call.Worded

/-- Where a substring starts. -/
def offsetWorded : Option Offset → Prop
  | some (.field chain) => chain.Worded
  | some (.literal _) | none => True

/-- How long a substring is. -/
def lengthWorded : Option Length → Prop
  | some (.field chain) => chain.Worded
  | some (.literal _) | some .rest | none => True

/-- The texts and names of a call. -/
def MethodCall.Worded : MethodCall → Prop
  | ⟨receiver, method, parameters⟩ => receiver.Worded ∧ method.Worded ∧ parameters.Worded

/-- What a method is called on. -/
def Receiver.Worded : Receiver → Prop
  | .implicit | .super => True
  | .object chain => chain.Worded
  | .static className => w.Word className.text
  | .dynamic name => name.Worded

/-- The method that is called. -/
def MethodRef.Worded : MethodRef → Prop
  | .named name => w.Word name.text
  | .dynamic name => name.Worded

/-- A name in parentheses. -/
def DynamicName.Worded : DynamicName → Prop
  | .literal value => w.Word value
  | .field chain => chain.Worded

/-- The parameters of a call. -/
def CallParameters.Worded : CallParameters → Prop
  | ⟨single, exporting, importing, changing, receiving, _⟩ =>
    singleWorded single ∧ bindingsWorded exporting ∧ targetsWorded importing ∧
      targetsWorded changing ∧ receivingWorded receiving

/-- An unnamed parameter. -/
def singleWorded : Option Source → Prop
  | some source => source.Worded
  | none => True

/-- What takes the result of a call. -/
def receivingWorded : Option TargetBinding → Prop
  | some ⟨_, target⟩ => target.Worded
  | none => True

/-- Named operands that are read. -/
def bindingsWorded : List Binding → Prop
  | [] => True
  | ⟨name, value⟩ :: rest => w.Word name.text ∧ value.Worded ∧ bindingsWorded rest

/-- Named operands that are written. -/
def targetsWorded : List TargetBinding → Prop
  | [] => True
  | ⟨name, target⟩ :: rest => w.Word name.text ∧ target.Worded ∧ targetsWorded rest

end

mutual

/-- The texts and names of a condition. -/
def Condition.Worded : Condition → Prop
  | .compare left _ right => left.Worded w ∧ right.Worded w
  | .predicate operand _ _ => operand.Worded w
  | .within operand range _ => operand.Worded w ∧ range.Worded w
  | .not inner | .paren inner => inner.Worded
  | .and items | .or items => conditionsWorded items
  | .unsupported _ _ _ => True

/-- The texts and names of some conditions. -/
def conditionsWorded : List Condition → Prop
  | [] => True
  | item :: rest => item.Worded ∧ conditionsWorded rest

end

/-! ## Types and definitions -/

mutual

/-- The names that the constructor of a type contains. -/
def DataType.Worded : DataType → Prop
  | .integer name | .character _ name | .string name | .objectReference name =>
    ∀ n ∈ name, w.Word n
  | .structured components _ => componentsWorded components
  | .table row _ => row.Worded
  | .dataReference target => target.Worded
  | _ => True

/-- The names and types of components. -/
def componentsWorded : List Component → Prop
  | [] => True
  | ⟨name, type⟩ :: rest => w.Word name ∧ type.Worded ∧ componentsWorded rest

end

mutual

/-- The literals and names of an initial value. -/
def AttributeValue.Worded : AttributeValue → Prop
  | .scalar text => w.Value text
  | .structured components => valuesWorded components

/-- The initial values of components. -/
def valuesWorded : List ComponentValue → Prop
  | [] => True
  | ⟨name, value⟩ :: rest => w.Word name ∧ value.Worded ∧ valuesWorded rest

end

/-- The texts and names of an attribute. -/
structure Attribute.Worded (a : Attribute) : Prop where
  name : w.Word a.name
  type : a.type.Worded w
  value : ∀ value ∈ a.value, value.Worded w

/-- The names of a formal parameter. -/
structure MethodParameter.Worded (p : MethodParameter) : Prop where
  name : w.Word p.name
  type : p.type.Worded w

/-- The names of a method. -/
structure MethodDefinition.Worded (m : MethodDefinition) : Prop where
  name : w.Word m.name
  parameters : ∀ p ∈ m.parameters, p.Worded w

/-- The texts and names of a definition. -/
structure Definition.Worded (d : Definition) : Prop where
  name : w.Word d.name
  attributes : ∀ a ∈ d.attributes.all, a.Worded w
  aliases : ∀ a ∈ d.aliases, w.Word a.name ∧ w.Word a.component
  methods : ∀ m ∈ d.methods, m.Worded w

/-- The texts and names of a class. -/
structure ClassDefinition.Worded (c : ClassDefinition) : Prop where
  definition : c.toDefinition.Worded w
  superClass : ∀ name ∈ c.superClass, w.Word name

/-- What a reference is bound to. -/
def Resolved.Worded : Resolved → Prop
  | .dataObject _ _ _ => True
  | .method definition owner _ => definition.Worded w ∧ ∀ name ∈ owner, w.Word name

/-- The texts and names of a scope. -/
structure Scope.Worded (s : Scope) : Prop where
  name : w.Word s.name
  vars : ∀ x ∈ s.vars.values, x.type.Worded w
  classes : ∀ c ∈ s.classes.values, c.Worded w
  interfaces : ∀ i ∈ s.interfaces.values, i.toDefinition.Worded w
  references : ∀ r ∈ s.references, ∀ resolved ∈ r.resolved, resolved.Worded w

/-- The texts and names that the scopes and the global objects bring in. -/
structure View.Worded (v : View) : Prop where
  scopes : ∀ s ∈ v.graph.scopes.toList, s.Worded w
  classes : ∀ c ∈ v.registry.classes.values, c.Worded w
  interfaces : ∀ i ∈ v.registry.interfaces.values, i.toDefinition.Worded w
  owners : ∀ owner ∈ v.registry.files.values, w.Word owner.name

/-! ## Statements -/

/-- What is done with the current row of a loop. -/
def LoopOutput.Worded : LoopOutput → Prop
  | .into target | .assigning target | .referenceInto target => target.Worded w
  | .nothing => True

/-- An operand of a transformation. -/
def TransformationOperand.Worded : TransformationOperand → Prop
  | .xml value | .dynamic value => value.Worded w
  | .bindings given => bindingsWorded w given

/-- What is raised. -/
def Raise.Worded : Raise → Prop
  | .type className exporting => w.Word className.text ∧ bindingsWorded w exporting
  | .object source => source.Worded w

/-- Which message is issued. -/
def MessageSpec.Worded : MessageSpec → Prop
  | .short messageType number id => w.Word messageType ∧ w.Word number ∧ w.Word id
  | .parts id messageType number => id.Worded w ∧ messageType.Worded w ∧ number.Worded w

/-- The class of an object that is created. -/
def ClassSpec.Worded : ClassSpec → Prop
  | .static name => w.Word name.text
  | .dynamic name => name.Worded w

/-- The type of data that are created. -/
def CreateDataSpec.Worded : CreateDataSpec → Prop
  | .type named => named.Worded w
  | .dynamic name _ => name.Worded w
  | .likeLineOf source | .like source => source.Worded w

/-- Where pieces go. -/
def SplitInto.Worded : SplitInto → Prop
  | .table target => target.Worded w
  | .targets several => ∀ target ∈ several, target.Worded w

/-- What is looked for. -/
def FindPattern.Worded : FindPattern → Prop
  | .substring source | .regex source => source.Worded w

/-- How far is shifted. -/
def ShiftMode.Worded : ShiftMode → Prop
  | .single => True
  | .places source | .upTo source | .deletingLeading source | .deletingTrailing source =>
    source.Worded w

/-- What is done to letters. -/
def TranslateRule.Worded : TranslateRule → Prop
  | .upper | .lower => True
  | .using mask => mask.Worded w

/-- What is appended. -/
def AppendSource.Worded : AppendSource → Prop
  | .value source | .linesOf source => source.Worded w
  | .initialLine => True

/-- What is inserted. -/
def InsertData.Worded : InsertData → Prop
  | .value source => source.Worded w
  | .initialLine => True

/-- A table of the database. -/
def DatabaseTable.Worded : DatabaseTable → Prop
  | .named name => w.Word name
  | .dynamic chain => chain.Worded w

/-- The rows written to the database. -/
def DatabaseSource.Worded : DatabaseSource → Prop
  | .row source | .table source => source.Worded w

/-- What is converted. -/
def Conversion.Worded : Conversion → Prop
  | .toStamp date time zone stamp =>
    date.Worded w ∧ (∀ source ∈ time, source.Worded w) ∧ (∀ source ∈ zone, source.Worded w) ∧
      stamp.Worded w
  | .fromStamp stamp zone date time =>
    stamp.Worded w ∧ (∀ source ∈ zone, source.Worded w) ∧ (∀ target ∈ date, target.Worded w) ∧
      ∀ target ∈ time, target.Worded w

/-- The texts and names of a statement, which hands no code through. The name that stands where a
structure begins, the name of an exception and the fields of a query are asked for what they are
emitted as. -/
def Statement.Worded : Statement → Prop
  | .data name type value =>
    w.Word name.text ∧ type.Worded w ∧ ∀ constant ∈ value, constant.Unbroken
  | .constants name type value => w.Word name.text ∧ type.Worded w ∧ value.Unbroken
  | .fieldSymbol name | .classImplementation name | .interfaceHeader name | .method name
  | .form name | .perform name => w.Word name.text
  | .move source target | .arithmetic _ source target | .moveCorresponding source target
  | .assign source target _ | .getReference source target => source.Worded w ∧ target.Worded w
  | .clear target | .free target | .condense target _ => target.Worded w
  | .ifThen condition | .elseIf condition | .whileTrue condition | .assert condition =>
    condition.Worded w
  | .doTimes times => ∀ source ∈ times, source.Worded w
  | .loopAt table output filter =>
    table.Worded w ∧ output.Worded w ∧ ∀ condition ∈ filter, condition.Worded w
  | .caseOf source => source.Worded w
  | .whenOneOf values => ∀ source ∈ values, source.Worded w
  | .catchClasses classes into =>
    (∀ name ∈ classes, w.Word name.text) ∧ ∀ target ∈ into, target.Worded w
  | .call invocation => invocation.Worded w
  | .callFunction name destination exporting importing changing tables _ =>
    name.Worded w ∧ (∀ name ∈ destination, name.Worded w) ∧ bindingsWorded w exporting ∧
      targetsWorded w importing ∧ targetsWorded w changing ∧ targetsWorded w tables
  | .callTransformation name options source result =>
    w.Word name ∧ bindingsWorded w options ∧ source.Worded w ∧ result.Worded w
  | .raiseException raise => raise.Worded w
  | .message spec arguments into =>
    spec.Worded w ∧ (∀ source ∈ arguments, source.Worded w) ∧ ∀ target ∈ into, target.Worded w
  | .createObject target spec parameters =>
    target.Worded w ∧ (∀ named ∈ spec, named.Worded w) ∧ bindingsWorded w parameters
  | .createData target spec => target.Worded w ∧ spec.Worded w
  | .concatenate sources target separatedBy _ =>
    (∀ source ∈ sources, source.Worded w) ∧ target.Worded w ∧
      ∀ source ∈ separatedBy, source.Worded w
  | .split source separator into => source.Worded w ∧ separator.Worded w ∧ into.Worded w
  | .replace target _ pattern replacement =>
    target.Worded w ∧ pattern.Worded w ∧ replacement.Worded w
  | .find pattern within _ count offset length submatches =>
    pattern.Worded w ∧ within.Worded w ∧ (∀ target ∈ count, target.Worded w) ∧
      (∀ target ∈ offset, target.Worded w) ∧ (∀ target ∈ length, target.Worded w) ∧
      ∀ target ∈ submatches, target.Worded w
  | .shift target _ mode _ _ => target.Worded w ∧ mode.Worded w
  | .translate target rule => target.Worded w ∧ rule.Worded w
  | .describe field typeTarget length _ =>
    field.Worded w ∧ (∀ target ∈ typeTarget, target.Worded w) ∧
      ∀ target ∈ length, target.Worded w
  | .setBit position target value =>
    position.Worded w ∧ target.Worded w ∧ ∀ source ∈ value, source.Worded w
  | .getBit position source target => position.Worded w ∧ source.Worded w ∧ target.Worded w
  | .write source _ => CharacterProcessing.kernelCode? source = none ∧ source.Worded w
  | .sort target _ keys => target.Worded w ∧ ∀ key ∈ keys, w.Word key.component
  | .append source target assigning =>
    source.Worded w ∧ target.Worded w ∧ ∀ symbol ∈ assigning, symbol.Worded w
  | .insertInternal given table index assigning =>
    given.Worded w ∧ table.Worded w ∧ (∀ source ∈ index, source.Worded w) ∧
      ∀ symbol ∈ assigning, symbol.Worded w
  | .modifyInternal table index row =>
    table.Worded w ∧ (∀ source ∈ index, source.Worded w) ∧ ∀ source ∈ row, source.Worded w
  | .deleteInternal table filter _ index row =>
    table.Worded w ∧ (∀ condition ∈ filter, condition.Worded w) ∧
      (∀ source ∈ index, source.Worded w) ∧ ∀ source ∈ row, source.Worded w
  | .readTable table index into referenceInto assigning withKey _ =>
    table.Worded w ∧ (∀ source ∈ index, source.Worded w) ∧ (∀ target ∈ into, target.Worded w) ∧
      (∀ target ∈ referenceInto, target.Worded w) ∧ (∀ symbol ∈ assigning, symbol.Worded w) ∧
      ∀ condition ∈ withKey, condition.Worded w
  | .select target fields table filter _ _ =>
    target.Worded w ∧ IsUnbroken fields ∧ table.Worded w ∧
      ∀ condition ∈ filter, IsUnbroken condition
  | .insertDatabase table values => table.Worded w ∧ values.Worded w
  | .changeDatabase _ table rows => table.Worded w ∧ rows.Worded w
  | .convert conversion => conversion.Worded w
  | .waitForPushChannels condition seconds =>
    condition.Worded w ∧ ∀ source ∈ seconds, source.Worded w
  | .declarative _ | .comment _ | .otherwise | .endBlock _ | .whenOthers | .endCase | .tryBody
  | .endTry | .continueLoop | .exitLoop | .returnHere | .endMethod | .commit | .rollback
  | .authorityCheck _ | .unsupported _ => True

end

end AbapLowering
