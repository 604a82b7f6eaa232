import AbapLowering.Code.Identifier
import AbapLowering.Scope.Query

/-!
# What is known at a position

The questions that lowering asks about the unit at hand: the scope around a position, what a name is
bound to, which method a call means, and which class, interface or method something stands in. Names
are looked for in the scopes of the unit first, then among the global objects.
-/

namespace AbapLowering

/-- A unit's scopes, its file and its object among the global objects. -/
structure View where
  graph : ScopeGraph
  registry : Registry
  file : String
  object : ObjectRef

/-- What a plain name is bound to. -/
inductive Resolution where
  /-- A variable or parameter, or a name that is not bound to anything. -/
  | localName
  /-- A static attribute of the class at hand. -/
  | staticAttribute (owner : String)
  | superReference
  /-- An attribute of the current instance, or the instance itself. -/
  | instanceAttribute
  | builtin
  /-- An attribute of another object, which is an interface. -/
  | interfaceAttribute (owner : String)
  /-- An attribute of another object. -/
  | foreignAttribute (owner : String)
  deriving DecidableEq

/-- A called method and the name it is called by. -/
structure MethodReference where
  definition : MethodDefinition
  name : String

/-- The method that a position lies in. -/
structure EnclosingMethod where
  scope : ScopeId
  /-- The name as implemented, perhaps with an interface before `~`. -/
  name : String
  definition : Option MethodDefinition

namespace EnclosingMethod

/-- Whether the method is the constructor. -/
def isConstructor (m : EnclosingMethod) : Bool :=
  Text.sameIgnoringCase m.name "constructor"

/-- The parameter that holds the result. -/
def returning? (m : EnclosingMethod) : Option MethodParameter :=
  m.definition.bind (·.returning?)

end EnclosingMethod

namespace View

/-! ## Scopes and references -/

/-- The scope around a position, which has to exist. -/
def scopeAt (v : View) (position : Position) (context : String) : Query ScopeId := do
  match ← Query.scopeAround position with
  | some scope => return scope
  | none => .abort (.error (.scopeNotFound context v.file position))

/-- The reference of one of the kinds that starts at a position of a scope. -/
def referenceIn (v : View) (scope : ScopeId) (position : Position) (kinds : List ReferenceKind) :
    Query (Option Reference) := do
  let s ← v.graph.scope scope
  return s.referenceAt? position kinds

/-- The reference of one of the kinds that a token makes. -/
def referenceOf (v : View) (token : Token) (kinds : List ReferenceKind) :
    Query (Option Reference) := do
  match ← Query.scopeAround token.start with
  | none => return none
  | some scope => v.referenceIn scope token.start kinds

/-- References to data. -/
def dataReferences : List ReferenceKind := [.dataRead, .dataWrite]

/-- References to methods. -/
def methodReferences : List ReferenceKind := [.methodCall, .builtinMethodCall]

/-! ## Definitions -/

/-- The class of that name as seen from a scope. -/
def findClass? (v : View) (scope : Option ScopeId) (name : String) :
    Except GraphFault (Option ClassDefinition) := do
  match scope with
  | none => return v.registry.findClass? name
  | some scope => return (← v.graph.findClass? scope name).or (v.registry.findClass? name)

/-- The interface of that name as seen from a scope. -/
def findInterface? (v : View) (scope : Option ScopeId) (name : String) :
    Except GraphFault (Option InterfaceDefinition) := do
  match scope with
  | none => return v.registry.findInterface? name
  | some scope => return (← v.graph.findInterface? scope name).or (v.registry.findInterface? name)

/-- The innermost scope of one of the kinds around a position, with its number. -/
def enclosing (v : View) (position : Position) (kinds : List ScopeKind) :
    Query (Option (ScopeId × Scope)) := do
  match ← Query.scopeAround position with
  | none => return none
  | some scope => v.graph.enclosing? scope kinds

/-- The class whose definition or implementation a position lies in. -/
def classAt (v : View) (position : Position) : Query (Option ClassDefinition) := do
  match ← v.enclosing position [.classImplementation, .classDefinition] with
  | none => return none
  | some (id, s) => v.findClass? (some id) s.name

/-- The interface that a position lies in. -/
def interfaceAt (v : View) (position : Position) : Query (Option InterfaceDefinition) := do
  match ← v.enclosing position [.interfaceBody] with
  | none => return none
  | some (id, s) => v.findInterface? (some id) s.name

/-- The parts of a name before and after its first `~`. -/
def splitQualified? (name : String) : Option (String × String) :=
  match name.toList.dropWhile (· != '~') with
  | [] => none
  | _ :: member =>
    some (String.ofList (name.toList.takeWhile (· != '~')), String.ofList member)

/-- The definition of a method implemented in a class: in the interface that its name starts with, or
else in the class around the position. -/
def methodDefinition (v : View) (position : Position) (scope : ScopeId) (name : String) :
    Query (Option MethodDefinition) := do
  match splitQualified? name with
  | some (interfaceName, member) =>
    return (← v.findInterface? (some scope) interfaceName).bind (·.method? member)
  | none => return (← v.classAt position).bind (·.method? name)

/-- The method that a position lies in. -/
def enclosingMethod (v : View) (position : Position) : Query (Option EnclosingMethod) := do
  match ← v.enclosing position [.method] with
  | none => return none
  | some (scope, s) => return some ⟨scope, s.name, ← v.methodDefinition position scope s.name⟩

/-! ## Names -/

/-- The variable that a token names. -/
def variableNamed (v : View) (token : Token) : Query (Option Variable) := do
  match ← Query.scopeAround token.start with
  | none => return none
  | some scope => v.graph.findVariable? scope token.text

/-- The file of the data object that a reference is bound to, if it belongs to another object than the
one at hand, and that object. -/
def foreignOwner? (v : View) (reference : Option Reference) : Option ObjectRef := do
  match (← reference).resolved with
  | some (.dataObject _ file _) =>
    if file = v.file then none
    let owner ← v.registry.ownerOf? file
    if owner = v.object then none else some owner
  | _ => none

/-- The binding to an attribute of another object. -/
def foreignResolution (owner : ObjectRef) : Resolution :=
  let name := Text.toLower owner.name
  match owner.type with
  | .intf => .interfaceAttribute name
  | _ => .foreignAttribute name

/-- The binding of a name that is no attribute of another object: a static attribute of the class at
hand, then the two reserved names, then what the kind of the declaring scope says. -/
def ownResolution (name : String) (declared : Option (Scope × Variable)) : Resolution :=
  match declared.filter fun d => d.2.isStatic && d.1.kind == .classImplementation with
  | some (s, _) => .staticAttribute (Text.toLower s.name)
  | none =>
    if Text.sameIgnoringCase name "super" then .superReference
    else if Text.sameIgnoringCase name "me" then .instanceAttribute
    else match declared with
      | none => .localName
      | some (s, _) =>
        match s.kind with
        | .methodInstance | .classImplementation => .instanceAttribute
        | .builtIn => .builtin
        | _ => .localName

/-- The innermost declaration of a name, with the scope it stands in. -/
def declaration? (v : View) (scope : ScopeId) (name : String) :
    Except GraphFault (Option (Scope × Variable)) :=
  v.graph.climb (fun _ s => (s.vars.find? (Text.toLower name)).map fun x => (s, x)) scope

/-- What a plain name is bound to. An attribute of another object comes first, unless the name is
declared here as something that is not static, or is qualified. -/
def resolve (v : View) (token : Token) : Query Resolution := do
  let scope ← v.scopeAt token.start "resolve"
  let declared ← v.declaration? scope token.text
  if declared.all (·.2.isStatic) && !token.text.toList.contains '~' then
    let reference ← v.referenceIn scope token.start dataReferences
    match v.foreignOwner? reference with
    | some owner => return foreignResolution owner
    | none => return ownResolution token.text declared
  else return ownResolution token.text declared

/-- The interface that declares the attribute a token reads or writes: the one around the place of the
declaration in this file, or the one that the declaring file belongs to. -/
def attributeInterface? (v : View) (token : Token) : Query (Option String) := do
  match (← v.referenceOf token dataReferences).bind (·.resolved) with
  | some (.dataObject _ file position) =>
    if file = v.file then
      if let some scope ← Query.scopeAround position then
        let s ← v.graph.scope scope
        if s.kind = .interfaceBody then return some (Text.toLower s.name)
    match v.registry.ownerOf? file with
    | some owner =>
      return if owner.type = .intf then some (Text.toLower owner.name) else none
    | none => return none
  | _ => return none

/-! ## Calls -/

/-- The name a method is called by: with its interface before it, if that is where the call leads. -/
def callName (kind : ReferenceKind) (definition : MethodDefinition) (owner : Option String)
    (ownerKind : Option OwnerKind) : String :=
  match kind, owner, ownerKind with
  | .methodCall, some owner, some .interfaceOwner =>
    Identifier.interfaceMember owner definition.name
  | _, _, _ => Identifier.plain definition.name

/-- The method that a token calls. -/
def methodReference? (v : View) (token : Token) : Query (Option MethodReference) := do
  match ← v.referenceOf token methodReferences with
  | some ⟨kind, _, some (.method definition owner ownerKind)⟩ =>
    return some ⟨definition, callName kind definition owner ownerKind⟩
  | _ => return none

/-- Whether a token calls a builtin method. -/
def isBuiltinCall (v : View) (token : Token) : Query Bool :=
  return (← v.referenceOf token [.builtinMethodCall]).isSome

/-! ## Addresses -/

/-- The address of a class or interface as seen from a position. A name without a local definition is
taken as global. -/
def classAddress (v : View) (name : String) (position : Position) : Query String := do
  match ← Query.scopeAround position with
  | none => return ClassKey.lookup (ClassKey.global name)
  | some scope =>
    let key ← match ← v.graph.findClass? scope name with
      | some c => pure (ClassKey.ofDefinition v.registry c.toDefinition)
      | none => match ← v.graph.findInterface? scope name with
        | some i => pure (ClassKey.ofDefinition v.registry i.toDefinition)
        | none => pure (ClassKey.global name)
    return ClassKey.lookup key

/-- Whether a name means an interface rather than a class, as seen from a position. -/
def namesInterface (v : View) (token : Token) : Query Bool := do
  let scope ← Query.scopeAround token.start
  match ← v.findClass? scope token.text with
  | some _ => return false
  | none => return (← v.findInterface? scope token.text).isSome

end View

end AbapLowering
