import AbapLowering.Definition

/-!
# The registry of global objects

Classes and interfaces of the repository under their names in upper case, and for each source file
the object it belongs to.
-/

namespace AbapLowering

/-- Kinds of repository objects. -/
inductive ObjectType where
  | clas
  | intf
  | prog
  | fugr
  deriving DecidableEq

/-- The keyword of a kind of object. -/
def ObjectType.keyword : ObjectType → String
  | .clas => "CLAS"
  | .intf => "INTF"
  | .prog => "PROG"
  | .fugr => "FUGR"

instance : Codec ObjectType := .ofNames [.clas, .intf, .prog, .fugr] ObjectType.keyword

/-- A repository object. -/
structure ObjectRef where
  type : ObjectType
  name : String
  deriving DecidableEq

instance : Codec ObjectRef where
  encode o := .obj [("type", encode o.type), ("name", encode o.name)]
  decode? j := do some { type := ← j.get "type", name := ← j.get "name" }

/-- What is known globally. -/
structure Registry where
  /-- Classes by upper case name. -/
  classes : Dict ClassDefinition
  /-- Interfaces by upper case name. -/
  interfaces : Dict InterfaceDefinition
  /-- The object each file belongs to. -/
  files : Dict ObjectRef

namespace Registry

/-- Nothing known. -/
def empty : Registry := ⟨∅, ∅, ∅⟩

instance : Inhabited Registry := ⟨empty⟩

/-- Enter a class under its name. -/
def addClass (r : Registry) (c : ClassDefinition) : Registry :=
  { r with classes := r.classes.insert (Text.toUpper c.name) c }

/-- Enter an interface under its name. -/
def addInterface (r : Registry) (i : InterfaceDefinition) : Registry :=
  { r with interfaces := r.interfaces.insert (Text.toUpper i.name) i }

/-- Enter the owner of a file. -/
def addFile (r : Registry) (file : String) (owner : ObjectRef) : Registry :=
  { r with files := r.files.insert file owner }

/-- The class of that name, in any case. -/
def findClass? (r : Registry) (name : String) : Option ClassDefinition :=
  r.classes.find? (Text.toUpper name)

/-- The interface of that name, in any case. -/
def findInterface? (r : Registry) (name : String) : Option InterfaceDefinition :=
  r.interfaces.find? (Text.toUpper name)

/-- Whether a class or interface of that name is known. -/
def contains (r : Registry) (name : String) : Bool :=
  (r.findClass? name).isSome || (r.findInterface? name).isSome

/-- The object a file belongs to. -/
def ownerOf? (r : Registry) (file : String) : Option ObjectRef :=
  r.files.find? file

/-- Everything from both; on a conflict the second counts. -/
def merge (r other : Registry) : Registry :=
  ⟨r.classes.merge other.classes, r.interfaces.merge other.interfaces, r.files.merge other.files⟩

instance : Codec Registry where
  encode r := .obj [("classes", encode r.classes), ("interfaces", encode r.interfaces),
    ("files", encode r.files)]
  decode? j := do
    j.checkObject
    some {
      classes := ← j.getD "classes" ∅
      interfaces := ← j.getD "interfaces" ∅
      files := ← j.getD "files" ∅ }

end Registry

end AbapLowering
