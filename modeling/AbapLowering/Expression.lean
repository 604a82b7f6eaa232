import AbapLowering.Location

/-!
# Expressions

What stands in the operand positions of a statement: constants, field chains, method calls, string
templates and arithmetic as operands that are read (`Source`), field chains as operands that are
written, and the logical expressions over them (`Condition`).

The types of operands contain each other: a field chain may start with a call, whose parameters are
operands again.
-/

namespace AbapLowering

/-- A literal constant. Texts are kept as written between their quotes, doubled quotes included. -/
inductive Constant where
  | integer (value : Int64)
  | text (value : String)
  | backtick (value : String)
  deriving DecidableEq, Inhabited

/-- Operators of arithmetic and concatenation. -/
inductive ArithmeticOperator where
  | add
  | minus
  | multiply
  | divide
  | power
  | div
  | mod
  | concat
  deriving DecidableEq

/-- A step of a field chain after its head. -/
inductive ChainSegment where
  /-- A component of a structure, `-name`. -/
  | component (name : Token)
  /-- An attribute of an object, `->name`. -/
  | attribute (name : Token)
  /-- A static attribute, `=>name`. -/
  | static (name : Token)
  /-- The data behind a reference, `->*`. -/
  | dereference
  deriving DecidableEq

mutual

/-- An operand that is read. -/
inductive Source where
  | constant (value : Constant)
  | template (parts : List TemplatePart)
  | field (chain : FieldChain)
  | call (call : MethodCall)
  /-- A builtin function with an unnamed argument or with named ones. -/
  | builtin (name : Token) (single : Option Source) (parameters : List Binding)
  | arithmetic (left : Source) (operator : ArithmeticOperator) (right : Source)
  /-- A component of the row that a row condition is about. -/
  | component (path : List Token)
  | unsupported (name text : String) (span : Span)

/-- A piece of a string template. -/
inductive TemplatePart where
  | text (text : String)
  | embed (source : Source)

/-- An access path such as `ls_foo-bar`, `lo_obj->attr`, `zcl_x=>c_val` or `<fs>`, with an optional
offset and length. Operands that are written have this shape. -/
structure FieldChain where
  head : ChainHead
  segments : List ChainSegment
  offset : Option Offset
  length : Option Length

/-- What a field chain starts with. -/
inductive ChainHead where
  | field (name : Token)
  | fieldSymbol (name : Token)
  /-- A class or interface, followed by `=>`. -/
  | classRef (name : Token)
  /-- A functional call whose result is accessed further. -/
  | call (call : MethodCall)

/-- Where a substring starts. -/
inductive Offset where
  | literal (value : UInt32)
  | field (chain : FieldChain)

/-- How long a substring is. -/
inductive Length where
  | literal (value : UInt32)
  | field (chain : FieldChain)
  /-- Up to the end, `(*)`. -/
  | rest

/-- A method call, as a statement or as an operand. -/
structure MethodCall where
  receiver : Receiver
  method : MethodRef
  parameters : CallParameters

/-- What a method is called on. -/
inductive Receiver where
  /-- The current instance. -/
  | implicit
  | object (chain : FieldChain)
  | static (className : Token)
  | super
  /-- A class named at run time. -/
  | dynamic (name : DynamicName)

/-- The method that is called. -/
inductive MethodRef where
  | named (name : Token)
  /-- A method named at run time. -/
  | dynamic (name : DynamicName)

/-- A name in parentheses: a literal without its quotes, or a field read at run time. -/
inductive DynamicName where
  | literal (value : String)
  | field (chain : FieldChain)

/-- Actual parameters. Classic exceptions are listed but have no counterpart at run time. -/
structure CallParameters where
  single : Option Source
  exporting : List Binding
  importing : List TargetBinding
  changing : List TargetBinding
  receiving : Option TargetBinding
  exceptions : List String

/-- A formal parameter and the operand it is given. -/
structure Binding where
  name : Token
  value : Source

/-- A formal parameter and the field chain that takes its value. -/
structure TargetBinding where
  name : Token
  target : FieldChain

end

/-- Comparison operators. -/
inductive CompareOperator where
  | eq
  | ne
  | lt
  | le
  | gt
  | ge
  | cp
  | np
  | cs
  | ns
  | ca
  | na
  | co
  | cn
  deriving DecidableEq

/-- Properties of a single operand. -/
inductive Predicate where
  | initial
  | assigned
  | bound
  | supplied
  deriving DecidableEq

/-- A logical expression. -/
inductive Condition where
  | compare (left : Source) (operator : CompareOperator) (right : Source)
  | predicate (operand : Source) (predicate : Predicate) (negated : Bool)
  /-- Membership in a ranges table. -/
  | within (operand range : Source) (negated : Bool)
  | not (inner : Condition)
  | and (items : List Condition)
  | or (items : List Condition)
  | paren (inner : Condition)
  | unsupported (name text : String) (span : Span)

instance : Inhabited Source := ⟨.constant default⟩
instance : Inhabited FieldChain := ⟨⟨.field default, [], none, none⟩⟩
instance : Inhabited Condition := ⟨.and []⟩

/-! ## Names of the enumerations -/

namespace ArithmeticOperator

/-- All operators. -/
def all : List ArithmeticOperator :=
  [.add, .minus, .multiply, .divide, .power, .div, .mod, .concat]

/-- The runtime function of an operator. -/
def name : ArithmeticOperator → String
  | .add => "add"
  | .minus => "minus"
  | .multiply => "multiply"
  | .divide => "divide"
  | .power => "power"
  | .div => "div"
  | .mod => "mod"
  | .concat => "concat"

end ArithmeticOperator

namespace CompareOperator

/-- All operators. -/
def all : List CompareOperator :=
  [.eq, .ne, .lt, .le, .gt, .ge, .cp, .np, .cs, .ns, .ca, .na, .co, .cn]

/-- The runtime function of an operator. -/
def name : CompareOperator → String
  | .eq => "eq"
  | .ne => "ne"
  | .lt => "lt"
  | .le => "le"
  | .gt => "gt"
  | .ge => "ge"
  | .cp => "cp"
  | .np => "np"
  | .cs => "cs"
  | .ns => "ns"
  | .ca => "ca"
  | .na => "na"
  | .co => "co"
  | .cn => "cn"

end CompareOperator

namespace Predicate

/-- All predicates. -/
def all : List Predicate := [.initial, .assigned, .bound, .supplied]

/-- The runtime function of a predicate. -/
def name : Predicate → String
  | .initial => "initial"
  | .assigned => "assigned"
  | .bound => "bound"
  | .supplied => "supplied"

end Predicate

/-! ## Building and inspecting -/

namespace CallParameters

/-- No parameters. -/
def none : CallParameters :=
  ⟨.none, [], [], [], .none, []⟩

/-- Whether nothing is passed; a result that is received does not count, nor do exceptions. -/
def isEmpty (p : CallParameters) : Bool :=
  p.single.isNone && p.exporting.isEmpty && p.importing.isEmpty && p.changing.isEmpty

end CallParameters

namespace FieldChain

/-- A chain that is only its head. -/
def ofHead (head : ChainHead) : FieldChain := ⟨head, [], none, none⟩

/-- A plain field. -/
def ofField (name : Token) : FieldChain := ofHead (.field name)

/-- A plain field symbol. -/
def ofFieldSymbol (name : Token) : FieldChain := ofHead (.fieldSymbol name)

/-- Whether the last step is a dereference. -/
def endsWithDereference (chain : FieldChain) : Bool :=
  chain.segments.getLast? == some .dereference

/-- Whether the chain is a field symbol without further steps. -/
def isPlainFieldSymbol (chain : FieldChain) : Bool :=
  match chain.head with
  | .fieldSymbol _ => chain.segments.isEmpty
  | _ => false

end FieldChain

mutual

/-- The token that stands for a chain where its scope is looked up. -/
def FieldChain.firstToken : FieldChain → Option Token
  | ⟨head, _, _, _⟩ => head.firstToken

/-- The name at the head of a chain. -/
def ChainHead.firstToken : ChainHead → Option Token
  | .field name => some name
  | .fieldSymbol name => some name
  | .classRef name => some name
  | .call call => call.firstToken

/-- The first token of a call: of its receiver if that is an object or a class, else of the method's
name. -/
def MethodCall.firstToken : MethodCall → Option Token
  | ⟨.object chain, _, _⟩ => chain.firstToken
  | ⟨.static className, _, _⟩ => some className
  | ⟨.implicit, method, _⟩ => method.firstToken
  | ⟨.super, method, _⟩ => method.firstToken
  | ⟨.dynamic _, method, _⟩ => method.firstToken

/-- The first token of a method's name. -/
def MethodRef.firstToken : MethodRef → Option Token
  | .named name => some name
  | .dynamic (.literal _) => none
  | .dynamic (.field chain) => chain.firstToken

end

mutual

/-- The first token of an operand that has a position. -/
def Source.firstToken : Source → Option Token
  | .constant _ => none
  | .template parts => firstTokenOfParts parts
  | .field chain => chain.firstToken
  | .call call => call.firstToken
  | .builtin name _ _ => some name
  | .arithmetic left _ right => left.firstToken.or right.firstToken
  | .component path => path.head?
  | .unsupported _ _ _ => none

/-- The first token among the embedded operands of a template. -/
def firstTokenOfParts : List TemplatePart → Option Token
  | [] => none
  | part :: rest => part.firstToken.or (firstTokenOfParts rest)

/-- The first token of a piece of a template. -/
def TemplatePart.firstToken : TemplatePart → Option Token
  | .text _ => none
  | .embed source => source.firstToken

end

end AbapLowering
