import AbapLowering.DataType

/-!
# Class and interface definitions

What semantic analysis knows of a class or an interface: where it was read, what it includes, its
attributes parted by how they are initialised, its aliases and its methods. Names of methods and
attributes are compared up to the case of the letters A to Z.
-/

namespace AbapLowering

mutual

/-- The initial value of a static attribute or constant. -/
inductive AttributeValue where
  /-- A literal as written. -/
  | scalar (text : String)
  /-- One value for each component, in order of declaration. -/
  | structured (components : List ComponentValue)

/-- The initial value of a component. -/
structure ComponentValue where
  name : String
  value : AttributeValue

end

/-- An attribute or constant. -/
structure Attribute where
  name : String
  type : DataType
  value : Option AttributeValue

/-- Attributes, parted by how they are initialised. -/
structure Attributes where
  inst : List Attribute
  statics : List Attribute
  constants : List Attribute
  deriving Inhabited

namespace Attributes

/-- No attributes. -/
def none : Attributes := ⟨[], [], []⟩

/-- All attributes: those of the instance, static ones, constants. -/
def all (attributes : Attributes) : List Attribute :=
  attributes.inst ++ attributes.statics ++ attributes.constants

/-- Whether `name` is a static attribute or a constant. -/
def isStatic (attributes : Attributes) (name : String) : Bool :=
  (attributes.statics ++ attributes.constants).any fun a => Text.sameIgnoringCase a.name name

end Attributes

/-- Another name for a component of an interface. -/
structure Alias where
  name : String
  component : String
  deriving DecidableEq

/-- Which way a parameter is passed. -/
inductive ParameterDirection where
  | importing
  | exporting
  | changing
  | returning
  deriving DecidableEq

/-- A formal parameter. -/
structure MethodParameter where
  name : String
  direction : ParameterDirection
  type : DataType
  optional : Bool
  preferred : Bool

/-- A method with its parameters. -/
structure MethodDefinition where
  name : String
  isStatic : Bool
  parameters : List MethodParameter

namespace MethodDefinition

/-- The parameter that holds the result. -/
def returning? (m : MethodDefinition) : Option MethodParameter :=
  m.parameters.find? fun p => p.direction == .returning

/-- The only item of a list. -/
def only? {α : Type} : List α → Option α
  | [a] => some a
  | _ => none

/-- The parameter that takes an unnamed actual parameter: the preferred one, else the only importing
one, else the only one of those that must be given. -/
def defaultImporting? (m : MethodDefinition) : Option MethodParameter :=
  let importing := m.parameters.filter fun p => p.direction == .importing
  (importing.find? (·.preferred)).or
    ((only? importing).or (only? (importing.filter fun p => !p.optional)))

end MethodDefinition

/-- What classes and interfaces have in common. -/
structure Definition where
  name : String
  isGlobal : Bool
  /-- The file the definition was read from. -/
  file : String
  /-- The interfaces that are implemented or included. -/
  implementing : List String
  attributes : Attributes
  aliases : List Alias
  methods : List MethodDefinition
  deriving Inhabited

/-- The first method of that name. -/
def Definition.method? (d : Definition) (name : String) : Option MethodDefinition :=
  d.methods.find? fun m => Text.sameIgnoringCase m.name name

/-- A class. -/
structure ClassDefinition extends Definition where
  superClass : Option String
  deriving Inhabited

/-- An interface. -/
structure InterfaceDefinition extends Definition
  deriving Inhabited

/-! ## JSON form -/

mutual

/-- An initial value as JSON: a string or an array. -/
def AttributeValue.toJson : AttributeValue → Json
  | .scalar text => .str text
  | .structured components => .arr (componentValuesToJson components)

/-- The initial values of components as JSON. -/
def componentValuesToJson : List ComponentValue → List Json
  | [] => []
  | ⟨name, value⟩ :: rest =>
    .obj [("name", encode name), ("value", value.toJson)] :: componentValuesToJson rest

end

/-- The initial value that a JSON value stands for. -/
def AttributeValue.ofJson? (j : Json) : Option AttributeValue :=
  match j.text? with
  | some text => some (.scalar text)
  | none => do
    let components ← j.items? fun v _ => do
      some {
        name := ← v.get "name"
        value := ← v.required "value" fun w _ => ofJson? w : ComponentValue }
    some (.structured components)
termination_by sizeOf j
decreasing_by all_goals omega

instance : Codec AttributeValue := ⟨AttributeValue.toJson, AttributeValue.ofJson?⟩

instance : Codec Attribute where
  encode a := .obj [("name", encode a.name), ("type", encode a.type),
    ("value", encodeOption a.value)]
  decode? j := do
    some { name := ← j.get "name", type := ← j.get "type", value := ← j.get? "value" }

instance : Codec Attributes where
  encode a := .obj [("instance", encode a.inst), ("statics", encode a.statics),
    ("constants", encode a.constants)]
  decode? j := do
    j.checkObject
    some {
      inst := ← j.getD "instance" []
      statics := ← j.getD "statics" []
      constants := ← j.getD "constants" [] }

instance : Codec Alias where
  encode a := .obj [("name", encode a.name), ("component", encode a.component)]
  decode? j := do some { name := ← j.get "name", component := ← j.get "component" }

/-- The tag of a direction. -/
def ParameterDirection.tag : ParameterDirection → String
  | .importing => "importing"
  | .exporting => "exporting"
  | .changing => "changing"
  | .returning => "returning"

instance : Codec ParameterDirection :=
  .ofNames [.importing, .exporting, .changing, .returning] ParameterDirection.tag

instance : Codec MethodParameter where
  encode p := .obj [("name", encode p.name), ("direction", encode p.direction),
    ("type", encode p.type), ("optional", encode p.optional), ("preferred", encode p.preferred)]
  decode? j := do
    some {
      name := ← j.get "name"
      direction := ← j.get "direction"
      type := ← j.get "type"
      optional := ← j.getD "optional" false
      preferred := ← j.getD "preferred" false }

instance : Codec MethodDefinition where
  encode m := .obj [("name", encode m.name), ("is_static", encode m.isStatic),
    ("parameters", encode m.parameters)]
  decode? j := do
    some {
      name := ← j.get "name"
      isStatic := ← j.getD "is_static" false
      parameters := ← j.getD "parameters" [] }

namespace Definition

/-- The fields that classes and interfaces have in common. -/
def ofJson? (j : Json) : Option Definition := do
  some {
    name := ← j.get "name"
    isGlobal := ← j.getD "global" false
    file := ← j.get "file"
    implementing := ← j.getD "implementing" []
    attributes := ← j.getD "attributes" .none
    aliases := ← j.getD "aliases" []
    methods := ← j.getD "methods" [] }

/-- Name, reach and file of a definition as fields. -/
def headFields (d : Definition) : List (String × Json) :=
  [("name", encode d.name), ("global", encode d.isGlobal), ("file", encode d.file)]

/-- The members of a definition as fields. -/
def memberFields (d : Definition) : List (String × Json) :=
  [("implementing", encode d.implementing), ("attributes", encode d.attributes),
    ("aliases", encode d.aliases), ("methods", encode d.methods)]

end Definition

instance : Codec ClassDefinition where
  encode c := .obj (c.toDefinition.headFields ++ [("super_class", encodeOption c.superClass)]
    ++ c.toDefinition.memberFields)
  decode? j := do
    some { ← Definition.ofJson? j with superClass := ← j.get? "super_class" }

instance : Codec InterfaceDefinition where
  encode i := .obj (i.toDefinition.headFields ++ i.toDefinition.memberFields)
  decode? j := (Definition.ofJson? j).map fun d => { d with }

end AbapLowering
