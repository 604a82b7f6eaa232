import AbapLowering.Scope.Graph
import AbapLowering.Tree

/-!
# Projects

What semantic analysis hands over: for each source file its tree and its scopes, and the global
objects that the files share.
-/

namespace AbapLowering

/-- A source file after semantic analysis. -/
structure SourceUnit where
  file : String
  /-- The object that the file belongs to. -/
  object : ObjectRef
  root : StructureNode
  scopes : ScopeGraph

instance : Codec SourceUnit where
  encode u := .obj [("filename", encode u.file), ("object", encode u.object),
    ("root", encode u.root), ("scopes", encode u.scopes)]
  decode? j := do
    some {
      file := ← j.get "filename"
      object := ← j.get "object"
      root := ← j.get "root"
      scopes := ← j.get "scopes" }

/-- Some units and the global objects they share. -/
structure Project where
  registry : Registry
  units : List SourceUnit
  deriving Inhabited

namespace Project

/-- No units. -/
def empty : Project := ⟨.empty, []⟩

/-- The units of both, in order; where both know a global object the second counts. -/
def merge (p other : Project) : Project :=
  ⟨p.registry.merge other.registry, p.units ++ other.units⟩

instance : Codec Project where
  encode p := .obj [("registry", encode p.registry), ("units", encode p.units)]
  decode? j := do
    some {
      registry := ← j.getD "registry" .empty
      units := ← j.get "units" }

end Project

end AbapLowering
