import AbapLowering.Code.Literal
import AbapLowering.Emission

/-!
# Members of classes

What a class contains besides its methods. Its constructor sets up the instance: the attributes of
the class, those of all interfaces it implements, directly or through other interfaces, and its
aliases. After the class its static attributes and constants are declared and given their values.

Interfaces form a graph, which may have cycles. It is walked with a queue of names, each of which is
visited once: depth first for the constructor, breadth first for the static part.
-/

namespace AbapLowering

/-! ## Walking the interfaces -/

/-- How the interfaces that one includes join those waiting to be visited. -/
inductive WalkOrder where
  | depthFirst
  | breadthFirst
  deriving DecidableEq

/-- The names that wait after a visit. -/
def WalkOrder.enqueue : WalkOrder → (included waiting : List String) → List String
  | .depthFirst, included, waiting => included ++ waiting
  | .breadthFirst, included, waiting => waiting ++ included

/-- A name met on a walk and what it is the name of. -/
structure InterfaceVisit where
  name : String
  found : Except GraphFault (Option InterfaceDefinition)

/-- The interfaces to go to from a visit; the walk ends where a name cannot be looked up. -/
def InterfaceVisit.enqueue (visit : InterfaceVisit) (order : WalkOrder) (waiting : List String) :
    List String :=
  match visit.found with
  | .error _ => []
  | .ok none => waiting
  | .ok (some i) => order.enqueue i.implementing waiting

/-- The names other than `key`. -/
def without (key : String) (names : List String) : List String := names.filter (· ≠ key)

/-- A name that is taken away is missing. -/
theorem length_without_lt {key : String} {names : List String} (h : key ∈ names) :
    (without key names).length < names.length :=
  List.length_filter_lt_length_iff_exists.mpr ⟨key, h, by simp⟩

/-- Visit the waiting names that are in `unseen`, where they stand in upper case. -/
def visitInterfaces (order : WalkOrder)
    (find : String → Except GraphFault (Option InterfaceDefinition)) (unseen : List String) :
    List String → List InterfaceVisit
  | [] => []
  | name :: waiting =>
    if Text.toUpper name ∈ unseen then
      let visit : InterfaceVisit := ⟨name, find name⟩
      visit :: visitInterfaces order find (without (Text.toUpper name) unseen)
        (visit.enqueue order waiting)
    else visitInterfaces order find unseen waiting
termination_by waiting => (unseen.length, waiting.length)
decreasing_by
  · exact Prod.Lex.left _ _ (length_without_lt ‹_›)
  · exact Prod.Lex.right _ (Nat.lt_succ_self _)

/-- The names under which interfaces are included by interfaces that can be found. -/
def View.includedNames (v : View) : List String :=
  let ofAll (d : Dict InterfaceDefinition) : List String := d.values.flatMap (·.implementing)
  v.graph.scopes.toList.flatMap (fun s => ofAll s.interfaces) ++ ofAll v.registry.interfaces

/-- Visit some interfaces and all that they include, as seen from a scope. -/
def View.visits (v : View) (order : WalkOrder) (scope : Option ScopeId) (names : List String) :
    List InterfaceVisit :=
  visitInterfaces order (v.findInterface? scope) ((names ++ v.includedNames).map Text.toUpper) names

namespace Members

/-- The interface of a visit; a warning says what is left out if there is none. -/
def visited (what : String) (visit : InterfaceVisit) : Emit (Option InterfaceDefinition) := do
  match visit.found with
  | .error fault => throw (.fault fault)
  | .ok (some i) => return some i
  | .ok none =>
    Emit.warn ("interface " ++ visit.name ++ " not found, " ++ what ++ " skipped") none
    return none

/-! ## The constructor -/

/-- The line that sets up an attribute of the instance. -/
def instanceLine (name : String) (type : DataType) : Emit String :=
  return "this." ++ name ++ " = " ++ (← Emit.typeConstructor type) ++ ";"

/-- The lines for the attributes that an interface provides. -/
def interfaceLines (visit : InterfaceVisit) : Emit (List String) := do
  match ← visited "attributes" visit with
  | none => return []
  | some i =>
    i.attributes.inst.mapM fun a => instanceLine (Identifier.interfaceMember i.name a.name) a.type

/-- An alias is another name for the same member. -/
def aliasLine (a : Alias) : String :=
  "this." ++ Identifier.plain a.name ++ " = this." ++ Identifier.plain a.component ++ ";"

/-- Constants can be read through the instance. -/
def constantLine (className : String) (a : Attribute) : String :=
  let name := Identifier.plain a.name
  "this." ++ name ++ " = " ++ className ++ "." ++ name ++ ";"

/-- The lines of a constructor before any statement. With `forward` they begin with a call of the
superclass with the same parameters; a constructor that is written out contains that call itself. -/
def constructorLines (c : ClassDefinition) (scope : Option ScopeId) (forward : Bool) :
    Emit (List String) := do
  let own ← c.attributes.inst.mapM fun a => instanceLine (Identifier.plain a.name) a.type
  let visits := (← read).view.visits .depthFirst scope c.implementing
  let provided ← visits.mapM interfaceLines
  return partIf (forward && c.superClass.isSome) "await super.constructor_(INPUT);"
    ++ ["this.me = new abap.types.ABAPObject();", "this.me.set(this);"]
    ++ own ++ provided.flatten
    ++ c.aliases.map aliasLine
    ++ c.attributes.constants.map (constantLine (Text.toLower c.name))

/-- The class that a token stands in, which has to be known. -/
def classOf (name : Token) : Emit ClassDefinition := do
  match ← Emit.ask fun v => v.classAt name.start with
  | some c => return c
  | none => Emit.fail (.unresolved .classLike name.text)

/-- The constructor of a class that has none. -/
def defaultConstructor (name : Token) : Emit String := do
  let c ← classOf name
  let scope ← Emit.ask fun _ => Query.scopeAround name.start
  let lines ← constructorLines c scope true
  return "async constructor_(INPUT) \x7b\n" ++ Emit.endLines lines ++ "return this;\n\x7d\n"

/-! ## Static members -/

/-- A static member under the name by which it is emitted. -/
structure StaticMember where
  name : String
  type : DataType
  value : Option AttributeValue

/-- Static attributes and constants under the names that `spell` gives them. -/
def staticMembers (attributes : Attributes) (spell : String → String) : List StaticMember :=
  (attributes.statics ++ attributes.constants).map fun a => ⟨spell a.name, a.type, a.value⟩

/-- The static members that an interface provides. -/
def interfaceMembers (visit : InterfaceVisit) : Emit (List StaticMember) := do
  match ← visited "statics" visit with
  | none => return []
  | some i => return staticMembers i.attributes (Identifier.interfaceMember i.name)

mutual

/-- The lines that give `target` its initial value. -/
def valueLines (target : String) : AttributeValue → List String
  | .scalar text => [target ++ ".set(" ++ Literal.initialValueOfText text ++ ");"]
  | .structured components => componentLines target components

/-- The lines that give components of `target` their initial values. -/
def componentLines (target : String) : List ComponentValue → List String
  | [] => []
  | ⟨name, value⟩ :: rest =>
    valueLines (target ++ ".get()." ++ Identifier.plain name) value ++ componentLines target rest

end

/-- The lines that declare a static member of a class and give it its value. -/
def staticLines (className : String) (m : StaticMember) : Emit (List String) := do
  let target := className ++ "." ++ m.name
  let declaration := target ++ " = " ++ (← Emit.typeConstructor m.type) ++ ";"
  return declaration :: (m.value.map (valueLines target)).getD []

/-- The line for an alias of a static member; aliases of other members need none. -/
def staticAliasLine? (className : String) (members : List StaticMember) (a : Alias) :
    Option String :=
  let component := Identifier.plain a.component
  if members.any (·.name == component) then
    some (className ++ "." ++ Identifier.plain a.name ++ " = " ++ className ++ "." ++ component
      ++ ";")
  else none

/-- The static members of a class: its own, then those that interfaces provide. -/
def collectStatics (c : ClassDefinition) (scope : ScopeId) : Emit (List StaticMember) := do
  let visits := (← read).view.visits .breadthFirst (some scope) c.implementing
  let provided ← visits.mapM interfaceMembers
  return staticMembers c.attributes Identifier.plain ++ provided.flatten

/-- The static part of a class, which follows the class itself. -/
def staticPart (name : Token) : Emit String := do
  let c ← classOf name
  let scope ← Emit.ask fun v => v.scopeAt name.start "class statics"
  let members ← collectStatics c scope
  let declarations ← members.mapM (staticLines name.lower)
  return Emit.endLines (declarations.flatten
    ++ c.aliases.filterMap (staticAliasLine? name.lower members)
    ++ partIf (c.method? "class_constructor").isSome
      ("await " ++ name.lower ++ ".class_constructor();"))

/-! ## Interfaces and registration -/

/-- The interface that a token stands in or names, which has to be known. -/
def interfaceOf (name : Token) : Emit InterfaceDefinition := do
  let scope ← Emit.ask fun _ => Query.scopeAround name.start
  match ← Emit.ask fun v => v.interfaceAt name.start with
  | some i => return i
  | none =>
    match ← Emit.walk fun v => v.findInterface? scope name.text with
    | some i => return i
    | none => Emit.fail (.unresolved .interfaceLike name.text)

/-- The static part of an interface. -/
def interfacePart (name : Token) (i : InterfaceDefinition) : Emit String := do
  let members := staticMembers i.attributes (Identifier.interfaceMember name.lower)
  return Emit.endLines (← members.mapM (staticLines name.lower)).flatten

/-- Register what a definition defines, under the name by which it is emitted. -/
def register (d : Definition) (name : Token) : Emit Unit := do
  let key := ClassKey.ofDefinition (← read).view.registry d
  Emit.register (ClassKey.registration key name.text)

end Members

end AbapLowering
