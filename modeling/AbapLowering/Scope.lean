import AbapLowering.Location
import AbapLowering.Registry

/-!
# Scopes

A scope is a stretch of a source file in which names are declared: its variables, its local classes
and interfaces, and the references made in it, each bound to what semantic analysis found. The
scopes of a unit form a graph whose links, to the parent and to the children, are numbers.
-/

namespace AbapLowering

/-- The number of a scope. -/
structure ScopeId where
  number : UInt32
  deriving DecidableEq, Inhabited

namespace ScopeId

/-- The outermost scope. -/
def root : ScopeId := ⟨0⟩

/-- Place of a scope in the list of all scopes. -/
def index (id : ScopeId) : Nat := id.number.toNat

/-- The scope at a place. -/
def ofIndex (n : Nat) : ScopeId := ⟨UInt32.ofNat n⟩

/-- A scope's number in messages. -/
def text (id : ScopeId) : String := "#" ++ toString id.number

instance : Codec ScopeId where
  encode id := encode id.number
  decode? j := (decode? j).map ScopeId.mk

end ScopeId

/-- Kinds of scopes. -/
inductive ScopeKind where
  | builtIn
  | global
  | program
  | functionGroup
  | functionModule
  | form
  | classDefinition
  | classImplementation
  | interfaceBody
  /-- Attributes of the instance, between a class implementation and its methods. -/
  | methodInstance
  | methodStatic
  | methodDefinition
  /-- The body of a method. -/
  | method
  deriving DecidableEq

/-- The tag of a kind of scope. -/
def ScopeKind.tag : ScopeKind → String
  | .builtIn => "built_in"
  | .global => "global"
  | .program => "program"
  | .functionGroup => "function_group"
  | .functionModule => "function_module"
  | .form => "form"
  | .classDefinition => "class_definition"
  | .classImplementation => "class_implementation"
  | .interfaceBody => "interface"
  | .methodInstance => "method_instance"
  | .methodStatic => "method_static"
  | .methodDefinition => "method_definition"
  | .method => "method"

instance : Codec ScopeKind :=
  .ofNames [.builtIn, .global, .program, .functionGroup, .functionModule, .form, .classDefinition,
    .classImplementation, .interfaceBody, .methodInstance, .methodStatic, .methodDefinition,
    .method] ScopeKind.tag

/-- What else is known of a declared name. -/
inductive IdentifierMeta where
  | static
  | readOnly
  | methodImporting
  | methodExporting
  | methodChanging
  | methodReturning
  | inlineDefinition
  deriving DecidableEq

/-- The tag of a property of a name. -/
def IdentifierMeta.tag : IdentifierMeta → String
  | .static => "static"
  | .readOnly => "read_only"
  | .methodImporting => "method_importing"
  | .methodExporting => "method_exporting"
  | .methodChanging => "method_changing"
  | .methodReturning => "method_returning"
  | .inlineDefinition => "inline_definition"

instance : Codec IdentifierMeta :=
  .ofNames [.static, .readOnly, .methodImporting, .methodExporting, .methodChanging,
    .methodReturning, .inlineDefinition] IdentifierMeta.tag

/-- A declared data object. -/
structure Variable where
  name : String
  type : DataType
  properties : List IdentifierMeta
  file : String
  position : Position

/-- Whether a variable is static. -/
def Variable.isStatic (v : Variable) : Bool :=
  v.properties.contains .static

instance : Codec Variable where
  encode v := .obj [("name", encode v.name), ("type", encode v.type), ("meta", encode v.properties),
    ("file", encode v.file), ("position", encode v.position)]
  decode? j := do
    some {
      name := ← j.get "name"
      type := ← j.get "type"
      properties := ← j.getD "meta" []
      file := ← j.get "file"
      position := ← j.get "position" }

/-- Kinds of references. -/
inductive ReferenceKind where
  | dataRead
  | dataWrite
  | methodCall
  | builtinMethodCall
  deriving DecidableEq

/-- The tag of a kind of reference. -/
def ReferenceKind.tag : ReferenceKind → String
  | .dataRead => "data_read"
  | .dataWrite => "data_write"
  | .methodCall => "method_call"
  | .builtinMethodCall => "builtin_method_call"

instance : Codec ReferenceKind :=
  .ofNames [.dataRead, .dataWrite, .methodCall, .builtinMethodCall] ReferenceKind.tag

/-- Whether a called method belongs to a class or to an interface. -/
inductive OwnerKind where
  | classOwner
  | interfaceOwner
  deriving DecidableEq

/-- The tag of a kind of owner. -/
def OwnerKind.tag : OwnerKind → String
  | .classOwner => "class"
  | .interfaceOwner => "interface"

instance : Codec OwnerKind := .ofNames [.classOwner, .interfaceOwner] OwnerKind.tag

/-- What a reference is bound to. -/
inductive Resolved where
  /-- A data object, by the place of its declaration. -/
  | dataObject (name file : String) (position : Position)
  | method (definition : MethodDefinition) (owner : Option String) (ownerKind : Option OwnerKind)

instance : Codec Resolved where
  encode
    | .dataObject name file position =>
      .tagged "kind" "variable"
        [("name", encode name), ("file", encode file), ("position", encode position)]
    | .method definition owner ownerKind =>
      .tagged "kind" "method" [("definition", encode definition), ("owner", encodeOption owner),
        ("owner_kind", encodeOption ownerKind)]
  decode? j := do
    match ← j.tag? "kind" with
    | "variable" => some (.dataObject (← j.get "name") (← j.get "file") (← j.get "position"))
    | "method" =>
      some (.method (← j.get "definition") (← j.get? "owner") (← j.get? "owner_kind"))
    | _ => none

/-- A reference made at a position. -/
structure Reference where
  kind : ReferenceKind
  position : Position
  resolved : Option Resolved

instance : Codec Reference where
  encode r := .obj [("kind", encode r.kind), ("position", encode r.position),
    ("resolved", encodeOption r.resolved)]
  decode? j := do
    some {
      kind := ← j.get "kind"
      position := ← j.get "position"
      resolved := ← j.get? "resolved" }

/-- A scope with its links and everything declared or referred to in it. -/
structure Scope where
  kind : ScopeKind
  name : String
  file : String
  coverage : Span
  parent : Option ScopeId
  children : List ScopeId
  /-- Variables by lower case name. -/
  vars : Dict Variable
  /-- Local classes by lower case name. -/
  classes : Dict ClassDefinition
  /-- Local interfaces by lower case name. -/
  interfaces : Dict InterfaceDefinition
  references : List Reference

namespace Scope

/-- A scope without children in which nothing is declared yet. -/
def fresh (kind : ScopeKind) (name file : String) (coverage : Span) (parent : Option ScopeId) :
    Scope :=
  ⟨kind, name, file, coverage, parent, [], ∅, ∅, ∅, []⟩

/-- Whether a scope has no children. -/
def isLeaf (s : Scope) : Bool := s.children.isEmpty

/-- The first reference of one of the kinds that starts exactly at a position. -/
def referenceAt? (s : Scope) (p : Position) (kinds : List ReferenceKind) : Option Reference :=
  s.references.find? fun r => r.position == p && kinds.contains r.kind

instance : Codec Scope where
  encode s := .obj [("kind", encode s.kind), ("name", encode s.name), ("file", encode s.file),
    ("coverage", encode s.coverage), ("parent", encodeOption s.parent),
    ("children", encode s.children), ("vars", encode s.vars), ("classes", encode s.classes),
    ("interfaces", encode s.interfaces), ("references", encode s.references)]
  decode? j := do
    some {
      kind := ← j.get "kind"
      name := ← j.get "name"
      file := ← j.get "file"
      coverage := ← j.get "coverage"
      parent := ← j.get? "parent"
      children := ← j.getD "children" []
      vars := ← j.getD "vars" ∅
      classes := ← j.getD "classes" ∅
      interfaces := ← j.getD "interfaces" ∅
      references := ← j.getD "references" [] }

end Scope

end AbapLowering
