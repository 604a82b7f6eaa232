import AbapLowering.Proofs.Scope.Around
import AbapLowering.Proofs.Scope.Found

/-!
# The method around a position

A method is looked up from the positions of its statements, each time through the scope found last.
What is found depends on two scopes only, that of the method and that of the class around the
position (`View.definitionIn`, `Emit.exists_of_enclosingMethod`).
-/

namespace AbapLowering

namespace ScopeGraph

variable {g : ScopeGraph} {id outer : ScopeId} {s : Scope}

/-- The scope that encloses another one is known by its number. -/
theorem scope_of_enclosing? {kinds : List ScopeKind}
    (h : g.enclosing? id kinds = .ok (some (outer, s))) : g.scope outer = .ok s := by
  obtain ⟨_, _, hs, hask⟩ := scope_of_climb h
  split at hask
  · cases hask
    exact hs
  · cases hask

end ScopeGraph

namespace View

variable {v : View}

/-- The scopes that stand for a class. -/
def classScopes : List ScopeKind := [.classImplementation, .classDefinition]

theorem enclosing_eq (p : Position) (kinds : List ScopeKind) :
    v.enclosing p kinds = .around p fun found =>
      found.elim (.ok none) fun scope => v.graph.enclosing? scope kinds := by
  refine congrArg (Query.locate p) (funext fun found => ?_)
  cases found <;> rfl

/-- The class that a scope stands for. -/
def classOf (v : View) : Option (ScopeId × Scope) → Except GraphFault (Option ClassDefinition)
  | none => .ok none
  | some (id, s) => v.findClass? (some id) s.name

/-- The definition of a method by its scope and name and by the scope of the class around it. -/
def definitionIn (v : View) (scope : ScopeId) (name : String) (owner : Option (ScopeId × Scope)) :
    Except GraphFault (Option MethodDefinition) :=
  match splitQualified? name with
  | some (interfaceName, member) => do
    return (← v.findInterface? (some scope) interfaceName).bind (·.method? member)
  | none => do return (← v.classOf owner).bind (·.method? name)

end View

namespace Emit

variable {context : Context} {s s' t : EmissionState} {p : Position}

/-- Which scope encloses a position can be asked as often as one likes. -/
theorem ask_enclosing_iff {found : Option ScopeId} {kinds : List ScopeKind}
    {outer : Option (ScopeId × Scope)}
    (hfound : ask (fun _ => .scopeAround p) context s = .ok found s') :
    ask (fun v => v.enclosing p kinds) context s = .ok outer t ↔
      t = s' ∧ found.elim (.ok none) (fun scope => context.view.graph.enclosing? scope kinds) =
        .ok outer := by
  rw [ask_around_iff (View.enclosing_eq p kinds)]
  constructor
  · rintro ⟨_, hfound', h⟩
    cases hfound.symm.trans hfound'
    exact ⟨rfl, h⟩
  · rintro ⟨rfl, h⟩
    exact ⟨found, hfound, h⟩

theorem definitionIn_of_methodDefinition {found : Option ScopeId} {scope : ScopeId} {name : String}
    {owner : Option (ScopeId × Scope)} {definition : Option MethodDefinition}
    (hfound : ask (fun _ => .scopeAround p) context s = .ok found s')
    (howner : found.elim (.ok none)
      (fun scope => context.view.graph.enclosing? scope View.classScopes) = .ok owner)
    (h : ask (fun v => v.methodDefinition p scope name) context s = .ok definition t) :
    context.view.definitionIn scope name owner = .ok definition := by
  unfold View.methodDefinition at h
  unfold View.definitionIn
  -- a name that is qualified by an interface is looked up without the class
  cases hparts : View.splitQualified? name with
  | some parts =>
    simp only [hparts] at h
    obtain ⟨i, _, hi, h⟩ := exists_of_ask_bind h
    cases h
    exact ScopeGraph.bind_eq_ok_iff.mpr ⟨i, (walk_eq_ok_iff.mp hi).1, rfl⟩
  | none =>
    simp only [hparts] at h
    obtain ⟨c, _, hc, h⟩ := exists_of_ask_bind h
    cases h
    refine ScopeGraph.bind_eq_ok_iff.mpr ⟨c, ?_, rfl⟩
    unfold View.classAt at hc
    obtain ⟨owner', _, howner', hc⟩ := exists_of_ask_bind hc
    cases howner.symm.trans ((ask_enclosing_iff hfound).mp howner').2
    cases owner with
    | none =>
      cases hc
      rfl
    | some owner => exact (walk_eq_ok_iff.mp hc).1

/-- The method around a position has the name of its scope, and its definition is found from that
scope and the one of the class. -/
theorem exists_of_enclosingMethod {m : EnclosingMethod} {owner : Option (ScopeId × Scope)}
    (h : ask (fun v => v.enclosingMethod p) context s = .ok (some m) s')
    (howner : ask (fun v => v.enclosing p View.classScopes) context s = .ok owner t) :
    ∃ inner, context.view.graph.scope m.scope = .ok inner ∧ m.name = inner.name ∧
      context.view.definitionIn m.scope inner.name owner = .ok m.definition := by
  -- the scope at the position is found once; all further questions find it again
  obtain ⟨found, hfound, howner⟩ := (ask_around_iff (View.enclosing_eq _ _)).mp howner
  unfold View.enclosingMethod at h
  obtain ⟨inner?, t₁, hinner, h⟩ := exists_of_ask_bind h
  obtain ⟨rfl, hinner⟩ := (ask_enclosing_iff hfound).mp hinner
  cases inner? with
  | none => cases h
  | some inner =>
    obtain ⟨scope, inner⟩ := inner
    obtain ⟨definition, t₂, hdefinition, h⟩ := exists_of_ask_bind h
    cases h
    cases found with
    | none => cases hinner
    | some start =>
      exact ⟨inner, ScopeGraph.scope_of_enclosing? hinner, rfl,
        definitionIn_of_methodDefinition (ask_scopeAround_again hfound) howner hdefinition⟩

end Emit

/-! ## One method from several positions -/

/-- A position lies in the method of a scope, and in the class of another one, if in any. -/
structure LiesIn (scope : ScopeId) (owner : Option (ScopeId × Scope)) (p : Position)
    (context : Context) (s : EmissionState) : Prop where
  method : ∃ m s', Emit.ask (fun v => v.enclosingMethod p) context s = .ok (some m) s' ∧
    m.scope = scope
  inClass : ∃ s', Emit.ask (fun v => v.enclosing p View.classScopes) context s = .ok owner s'

/-- From all positions in a method the same is known of it. -/
theorem LiesIn.exists_method {scope : ScopeId} {owner : Option (ScopeId × Scope)} {p : Position}
    {context : Context} {s : EmissionState} (h : LiesIn scope owner p context s) :
    ∃ m : EnclosingMethod, m.scope = scope ∧ ∀ {q t}, LiesIn scope owner q context t →
      ∃ t', Emit.ask (fun v => v.enclosingMethod q) context t = .ok (some m) t' := by
  obtain ⟨⟨_, name, definition⟩, _, hm, rfl⟩ := h.method
  obtain ⟨_, howner⟩ := h.inClass
  obtain ⟨inner, hinner, rfl, hdefinition⟩ := Emit.exists_of_enclosingMethod hm howner
  refine ⟨_, rfl, fun {q t} hq => ?_⟩
  obtain ⟨⟨_, name', definition'⟩, t', hm', rfl⟩ := hq.method
  obtain ⟨_, howner'⟩ := hq.inClass
  obtain ⟨inner', hinner', rfl, hdefinition'⟩ := Emit.exists_of_enclosingMethod hm' howner'
  cases hinner.symm.trans hinner'
  cases hdefinition.symm.trans hdefinition'
  exact ⟨t', hm'⟩

end AbapLowering
