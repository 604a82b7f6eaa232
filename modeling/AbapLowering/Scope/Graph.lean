import AbapLowering.Scope

/-!
# The scope graph

All scopes of a unit. Graphs grow by `addScope`; graphs that come from elsewhere are checked link by
link (`validate`). Two walks answer every question: down from the root to the innermost scope around
a position (`locate`), and up from a scope to the first ancestor with some property (`climb`).

The links of an unchecked graph may lead nowhere, or in a circle. A walk says so instead of giving
an answer: its depth is bounded by the number of scopes, since a walk that is deeper meets some
scope a second time and would never end.
-/

namespace AbapLowering

/-- Why a walk through a scope graph has no answer. -/
inductive GraphFault where
  /-- A link leads to a scope that does not exist. -/
  | noSuchScope (id : ScopeId)
  /-- The links lead in a circle. -/
  | endless
  deriving DecidableEq

/-- Why a scope graph is refused. -/
inductive GraphError where
  | noScopes
  /-- Scope `scope` has a child that does not exist. -/
  | missingChild (child scope : ScopeId)
  /-- Scope `scope` has a parent that does not exist. -/
  | missingParent (parent scope : ScopeId)
  /-- The links between two scopes disagree. -/
  | inconsistentLinks (child parent : ScopeId)
  deriving DecidableEq

/-- The wording of a refusal. -/
def GraphError.message : GraphError → String
  | .noScopes => "Scope graph is empty"
  | .missingChild child scope =>
    "Scope " ++ child.text ++ " referenced from children of " ++ scope.text ++ " does not exist"
  | .missingParent parent scope =>
    "Scope " ++ parent.text ++ " referenced from parent of " ++ scope.text ++ " does not exist"
  | .inconsistentLinks child parent =>
    "Scope " ++ child.text ++ " lists " ++ parent.text ++ " as parent, but " ++ parent.text
      ++ " does not list it as child"

/-- The scopes of a unit; the first is the root. -/
structure ScopeGraph where
  scopes : Array Scope
  deriving Inhabited

namespace ScopeGraph

instance : Codec ScopeGraph where
  encode g := .obj [("nodes", encode g.scopes.toList)]
  decode? j := do
    let scopes : List Scope ← j.get "nodes"
    some ⟨scopes.toArray⟩

/-- The graph whose only scope is the root. -/
def single (kind : ScopeKind) (name file : String) (coverage : Span) : ScopeGraph :=
  ⟨#[.fresh kind name file coverage none]⟩

/-- The scope of that number. -/
def scope? (g : ScopeGraph) (id : ScopeId) : Option Scope :=
  g.scopes[id.index]?

/-- The scope of that number, which has to exist. -/
def scope (g : ScopeGraph) (id : ScopeId) : Except GraphFault Scope :=
  match g.scope? id with
  | some s => .ok s
  | none => .error (.noSuchScope id)

/-! ## Checking the links -/

/-- The first fault that a check finds in a list. -/
def firstFault {α ε : Type} (check : α → Except ε Unit) : List α → Except ε Unit
  | [] => .ok ()
  | a :: rest =>
    match check a with
    | .ok () => firstFault check rest
    | .error e => .error e

/-- A child has to exist and to name this scope as its parent. -/
def checkChild (g : ScopeGraph) (id child : ScopeId) : Except GraphError Unit :=
  match g.scope? child with
  | none => .error (.missingChild child id)
  | some s => if s.parent = some id then .ok () else .error (.inconsistentLinks child id)

/-- A parent has to exist and to list this scope among its children. -/
def checkParent (g : ScopeGraph) (id : ScopeId) : Option ScopeId → Except GraphError Unit
  | none => .ok ()
  | some parent =>
    match g.scope? parent with
    | none => .error (.missingParent parent id)
    | some s => if id ∈ s.children then .ok () else .error (.inconsistentLinks id parent)

/-- The links of one scope: its children in order, then its parent. -/
def checkScope (g : ScopeGraph) (id : ScopeId) (s : Scope) : Except GraphError Unit := do
  firstFault (g.checkChild id) s.children
  g.checkParent id s.parent

/-- Whether every link leads to a scope that links back. -/
def validate (g : ScopeGraph) : Except GraphError Unit :=
  if g.scopes.isEmpty then .error .noScopes
  else firstFault (fun (s, n) => g.checkScope (.ofIndex n) s) g.scopes.toList.zipIdx

/-! ## Growing -/

/-- Change one scope, which has to exist. -/
def modify (g : ScopeGraph) (id : ScopeId) (f : Scope → Scope) : Except GraphFault ScopeGraph :=
  if id.index < g.scopes.size then .ok ⟨g.scopes.modify id.index f⟩
  else .error (.noSuchScope id)

/-- Add a scope as the last child of a scope that exists or, as its own child, of itself. -/
def addScope (g : ScopeGraph) (parent : ScopeId) (kind : ScopeKind) (name file : String)
    (coverage : Span) : Except GraphFault (ScopeGraph × ScopeId) := do
  let id := ScopeId.ofIndex g.scopes.size
  let grown : ScopeGraph := ⟨g.scopes.push (.fresh kind name file coverage (some parent))⟩
  let linked ← grown.modify parent fun s => { s with children := s.children ++ [id] }
  return (linked, id)

/-- Declare a variable. -/
def addVariable (g : ScopeGraph) (id : ScopeId) (v : Variable) : Except GraphFault ScopeGraph :=
  g.modify id fun s => { s with vars := s.vars.insert (Text.toLower v.name) v }

/-- Declare a local class. -/
def addClass (g : ScopeGraph) (id : ScopeId) (c : ClassDefinition) :
    Except GraphFault ScopeGraph :=
  g.modify id fun s => { s with classes := s.classes.insert (Text.toLower c.name) c }

/-- Declare a local interface. -/
def addInterface (g : ScopeGraph) (id : ScopeId) (i : InterfaceDefinition) :
    Except GraphFault ScopeGraph :=
  g.modify id fun s => { s with interfaces := s.interfaces.insert (Text.toLower i.name) i }

/-- Enter a reference. -/
def addReference (g : ScopeGraph) (id : ScopeId) (r : Reference) : Except GraphFault ScopeGraph :=
  g.modify id fun s => { s with references := s.references ++ [r] }

/-! ## Walking down -/

/-- The innermost scope of `file` around a position, at or below a scope. A scope of the file that
does not cover the position hides what is below it; scopes of other files are looked through. Of
several children the first that leads to an answer counts. -/
def locateFrom (g : ScopeGraph) (p : Position) (file : String) :
    Nat → ScopeId → Except GraphFault (Option ScopeId)
  | 0, _ => .error .endless
  | depth + 1, id => do
    let s ← g.scope id
    if s.file = file ∧ ¬ s.coverage.contains p then return none
    match ← s.children.findSomeM? (g.locateFrom p file depth) with
    | some found => return some found
    | none => return if s.file = file then some id else none

/-- The innermost scope of `file` around a position. -/
def locate (g : ScopeGraph) (p : Position) (file : String) : Except GraphFault (Option ScopeId) :=
  g.locateFrom p file (g.scopes.size + 1) .root

/-! ## Walking up -/

/-- The first answer on the way from a scope to the outermost one. -/
def climbFrom {α : Type} (g : ScopeGraph) (ask : ScopeId → Scope → Option α) :
    Nat → ScopeId → Except GraphFault (Option α)
  | 0, _ => .error .endless
  | height + 1, id => do
    let s ← g.scope id
    match ask id s with
    | some answer => return some answer
    | none =>
      match s.parent with
      | none => return none
      | some parent => g.climbFrom ask height parent

/-- The first answer of a scope or one of its ancestors. -/
def climb {α : Type} (g : ScopeGraph) (ask : ScopeId → Scope → Option α) (id : ScopeId) :
    Except GraphFault (Option α) :=
  g.climbFrom ask (g.scopes.size + 1) id

/-- The scopes on the way from a scope to the outermost one. -/
def ancestorsFrom (g : ScopeGraph) : Nat → ScopeId → Except GraphFault (List ScopeId)
  | 0, _ => .error .endless
  | height + 1, id => do
    let s ← g.scope id
    match s.parent with
    | none => return [id]
    | some parent => return id :: (← g.ancestorsFrom height parent)

/-- A scope followed by its ancestors. -/
def ancestors (g : ScopeGraph) (id : ScopeId) : Except GraphFault (List ScopeId) :=
  g.ancestorsFrom (g.scopes.size + 1) id

/-- The innermost scope that declares a variable of that name. -/
def findScopeOf? (g : ScopeGraph) (id : ScopeId) (name : String) :
    Except GraphFault (Option ScopeId) :=
  g.climb (fun id s => if s.vars.contains (Text.toLower name) then some id else none) id

/-- The innermost variable of that name. -/
def findVariable? (g : ScopeGraph) (id : ScopeId) (name : String) :
    Except GraphFault (Option Variable) :=
  g.climb (fun _ s => s.vars.find? (Text.toLower name)) id

/-- The innermost local class of that name. -/
def findClass? (g : ScopeGraph) (id : ScopeId) (name : String) :
    Except GraphFault (Option ClassDefinition) :=
  g.climb (fun _ s => s.classes.find? (Text.toLower name)) id

/-- The innermost local interface of that name. -/
def findInterface? (g : ScopeGraph) (id : ScopeId) (name : String) :
    Except GraphFault (Option InterfaceDefinition) :=
  g.climb (fun _ s => s.interfaces.find? (Text.toLower name)) id

/-- The innermost scope around a scope, itself included, that is of one of the kinds. -/
def enclosing? (g : ScopeGraph) (id : ScopeId) (kinds : List ScopeKind) :
    Except GraphFault (Option (ScopeId × Scope)) :=
  g.climb (fun id s => if kinds.contains s.kind then some (id, s) else none) id

end ScopeGraph

end AbapLowering
