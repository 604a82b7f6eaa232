import AbapLowering.Code.Literal
import AbapLowering.Emission
import AbapLowering.Expression

/-!
# Operands

The text of operands that are read or written, and of method calls. Operands are emitted from left to
right; a name that is read at run time queues a guard as soon as its text is known, so the guards of a
call stand in the order class, method, parameters.
-/

namespace AbapLowering

/-- What a field chain is used for; it matters where the chain is a substring. -/
inductive Access where
  | read
  | write
  deriving DecidableEq

namespace Operand

/-- A chain with the given offset and length. -/
def substring (access : Access) (base : String) (options : List String) : String :=
  if options.isEmpty then base
  else match access with
    | .read => base ++ ".getOffset(" ++ braced ", " options ++ ")"
    | .write => "new abap.OffsetLength(" ++ base ++ ", " ++ braced ", " options ++ ")"

/-- What a chain starts with, and the interface it names if it does. -/
structure Head where
  text : String
  interfaceName : Option String

/-- The head of a chain that starts with a class or an interface. -/
def classHead (name : Token) : Emit Head := do
  let isInterface ← Emit.ask fun v => v.namesInterface name
  let address ← Emit.classAddress name.text name.start
  return ⟨address, if isInterface then some name.lower else none⟩

/-- An attribute of an object: under its interface if it belongs to one, unless it is qualified
already. -/
def memberName (name : Token) : Emit String := do
  match ← Emit.ask fun v => v.attributeInterface? name with
  | some owner =>
    return if name.text.toList.contains '~' then Identifier.plain name.text
      else Identifier.interfaceMember owner name.text
  | none => return Identifier.plain name.text

/-- One step of a chain, whose head may name an interface. -/
def segment (interfaceName : Option String) : ChainSegment → Emit String
  | .component name => return ".get()." ++ Identifier.plain name.text
  | .attribute name => return ".get()." ++ (← memberName name)
  | .static name =>
    return "." ++ (match interfaceName with
      | some owner => Identifier.interfaceMember owner name.text
      | none => Identifier.plain name.text)
  | .dereference => return ".getPointer()"

/-- The part of a chain before offset and length. -/
def path (head : Head) (segments : List ChainSegment) : Emit String :=
  return head.text ++ String.join (← segments.mapM (segment head.interfaceName))

/-- The component of a row; the row is called `i`, and `table_line` is the row itself. -/
def rowComponent : List Token → String
  | [] => "i"
  | first :: rest =>
    let name := Identifier.plain first.text
    "i" ++ (if name = "table_line" then "" else "." ++ name)
      ++ String.join (rest.map fun step => ".get()." ++ Identifier.plain step.text)

/-- What a call calls: nothing that is known beforehand, or a method by its name. -/
inductive Callee where
  | dynamic
  | named (anchor : Token) (definition : Option MethodDefinition)

/-- An unnamed actual parameter gets the name of the formal one that takes it. -/
def singleParameter (callee : Callee) (value : String) : Emit String := do
  match callee with
  | .dynamic => return value
  | .named anchor definition =>
    match definition.bind (·.defaultImporting?) with
    | some formal => return "\x7b" ++ Text.toLower formal.name ++ ": " ++ value ++ "\x7d"
    | none =>
      Emit.warn ("no default importing parameter known for " ++ anchor.text) (some anchor.start)
      return value

/-- The method of a call on `base`, with what its definition says of the parameters. -/
def namedMethod (base : String) (name : Token) : Emit (String × Callee) := do
  match ← Emit.ask fun v => v.methodReference? name with
  | some reference =>
    return (base ++ "." ++ reference.name, .named name (some reference.definition))
  | none => return (base ++ "." ++ Identifier.plain name.text, .named name none)

/-- Whether a method is called that goes to the constructor of the superclass. -/
def isConstructorName (name : Token) : Bool := Text.sameIgnoringCase name.text "constructor"

end Operand

/-- A constant as an operand. -/
def Constant.emit : Constant → Emit String
  | .integer value => Emit.integer value
  | .text value => return Literal.characterOperand value
  | .backtick value => return Literal.stringOperand (Literal.string value)

mutual

/-- An operand that is read. -/
def Source.emit : Source → Emit String
  | .constant value => value.emit
  | .template parts => return Literal.stringOperand (Literal.backticked (← emitTemplate parts))
  | .field chain => chain.emit .read
  | .call call => call.emit
  | .builtin name (some single) _ =>
    return "abap.builtin." ++ Identifier.plain name.text ++ "(\x7bval: " ++ (← single.emit)
      ++ "\x7d)"
  | .builtin name none parameters => do
    let parts ← emitBindings parameters
    return "abap.builtin." ++ Identifier.plain name.text ++ "("
      ++ (if parts.isEmpty then "" else braced ", " parts) ++ ")"
  | .arithmetic left operator right => do
    let first ← left.emit
    let second ← right.emit
    return "abap.operators." ++ operator.name ++ "(" ++ first ++ "," ++ second ++ ")"
  | .component path => return Operand.rowComponent path
  | .unsupported name text span => Emit.fail (.unsupported name text span)

/-- The pieces of a string template. -/
def emitTemplate : List TemplatePart → Emit String
  | [] => return ""
  | part :: rest => do
    let first ← part.emit
    return first ++ (← emitTemplate rest)

/-- A piece of a string template. -/
def TemplatePart.emit : TemplatePart → Emit String
  | .text text => return Literal.template text
  | .embed source => return "$\x7b" ++ (← source.emit) ++ ".get()\x7d"

/-- A field chain. -/
def FieldChain.emit (access : Access) : FieldChain → Emit String
  | ⟨head, segments, offset, length⟩ => do
    let base ← Operand.path (← head.emit) segments
    let first ← emitOffset offset
    let second ← emitLength length
    return Operand.substring access base (first ++ second)

/-- What a field chain starts with. -/
def ChainHead.emit : ChainHead → Emit Operand.Head
  | .field name => return ⟨← Emit.qualifiedName name, none⟩
  | .fieldSymbol name => return ⟨Identifier.fieldSymbol name.text, none⟩
  | .classRef name => Operand.classHead name
  | .call call => return ⟨"(" ++ (← call.emit) ++ ")", none⟩

/-- Where a substring starts. -/
def emitOffset : Option Offset → Emit (List String)
  | none => return []
  | some (.literal value) => return ["offset: " ++ toString value]
  | some (.field chain) => return ["offset: " ++ (← chain.emit .read) ++ ".get()"]

/-- How long a substring is. -/
def emitLength : Option Length → Emit (List String)
  | none => return []
  | some (.literal value) => return ["length: " ++ toString value]
  | some (.field chain) => return ["length: " ++ (← chain.emit .read) ++ ".get()"]
  | some .rest => return []

/-- A method call. The constructor of the superclass gets the parameters of this constructor unless
others are given. -/
def MethodCall.emit : MethodCall → Emit String
  | ⟨.super, .named name, parameters⟩ =>
    if Operand.isConstructorName name then do
      let parameters ← parameters.emit (.named name none)
      return "await super.constructor_(" ++ (if parameters.isEmpty then "INPUT" else parameters)
        ++ ")"
    else do
      let (method, callee) ← Operand.namedMethod "super" name
      return "await " ++ method ++ "(" ++ (← parameters.emit callee) ++ ")"
  | ⟨receiver, method, parameters⟩ => do
    let base ← receiver.emit
    let (method, callee) ← method.emit base
    return "await " ++ method ++ "(" ++ (← parameters.emit callee) ++ ")"

/-- What a method is called on. -/
def Receiver.emit : Receiver → Emit String
  | .implicit => return "this"
  | .object chain => return (← chain.emit .read) ++ ".get()"
  | .static className => Emit.classAddress className.text className.start
  | .super => return "super"
  | .dynamic name => do
    let address ← name.emitClass
    Emit.requireTarget .classOfCall address
    return address

/-- The method of a call on `base`. -/
def MethodRef.emit (base : String) : MethodRef → Emit (String × Operand.Callee)
  | .named name => Operand.namedMethod base name
  | .dynamic name => do
    let method ← name.emitMethod base
    Emit.requireTarget .methodOfCall method
    return (method, .dynamic)

/-- A class named at run time. -/
def DynamicName.emitClass : DynamicName → Emit String
  | .literal value => return ClassKey.lookup (ClassKey.global (Text.trim value))
  | .field chain => return "abap.Classes[" ++ (← chain.emit .read) ++ ".get()]"

/-- A method named at run time. -/
def DynamicName.emitMethod (base : String) : DynamicName → Emit String
  | .literal value => return base ++ "." ++ Identifier.plain (Text.trim value)
  | .field chain => return base ++ "[" ++ (← chain.emit .read) ++ ".get().toLowerCase()]"

/-- The parameters of a call. -/
def CallParameters.emit (callee : Operand.Callee) : CallParameters → Emit String
  | ⟨some single, _, _, _, _, _⟩ => do Operand.singleParameter callee (← single.emit)
  | ⟨none, exporting, importing, changing, _, _⟩ => do
    let given ← emitBindings exporting
    let taken ← emitTargetBindings importing
    let changed ← emitTargetBindings changing
    let parts := given ++ taken ++ changed
    return if parts.isEmpty then "" else braced ", " parts

/-- Named operands that are read. -/
def emitBindings : List Binding → Emit (List String)
  | [] => return []
  | ⟨name, value⟩ :: rest => do
    let first ← Emit.named name.lower value.emit
    return first :: (← emitBindings rest)

/-- Named operands that are written. -/
def emitTargetBindings : List TargetBinding → Emit (List String)
  | [] => return []
  | ⟨name, target⟩ :: rest => do
    let first ← Emit.named name.lower (target.emit .write)
    return first :: (← emitTargetBindings rest)

end

/-- A field chain that is written. -/
def FieldChain.emitTarget (target : FieldChain) : Emit String := target.emit .write

/-- A method call as a statement; a result that is received is assigned. -/
def MethodCall.emitStatement (call : MethodCall) : Emit String := do
  let text ← call.emit
  match call.parameters.receiving with
  | some receiving => return (← receiving.target.emitTarget) ++ ".set(" ++ text ++ ");"
  | none => return text ++ ";"

/-- A name in parentheses as a text. -/
def DynamicName.emitText : DynamicName → Emit String
  | .literal value => return Literal.quoted value
  | .field chain => return (← chain.emit .read) ++ ".get().trimEnd()"

end AbapLowering
