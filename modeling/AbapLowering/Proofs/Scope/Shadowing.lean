import AbapLowering.Proofs.Scope.Around
import AbapLowering.Proofs.Scope.Growth

/-!
# Shadowing

In a tree of scopes a name means its innermost declaration, whatever is declared further out or
beside the way up to it:

- `IsTree`: the graphs whose links form a tree. Graphs that have grown are trees (`Ordered.isTree`);
- `InnermostDeclaring`: the scope whose declaration of a name is seen from a scope. It is what all
  searches for the name find (`IsTree.climb_of_innermostDeclaring`);
- `SameBut`: graphs whose scopes differ in some of their data only. The way down to a position, the
  way up from a scope and the search for classes are the same in graphs that differ in variables and
  references (`SameBut.reuse_eq`, `SameBut.climb_eq`).

What a token is resolved to follows from the scope around it and from that declaration
(`Emit.ask_resolve`). So declarations that do not come between the two change nothing, and a name
that is declared as a local one stays local (`Emit.innermost_declaration_decides`).
-/

namespace AbapLowering

/-! ## Scopes that differ in some data -/

namespace Scope

/-- A scope without its variables. -/
def clearVariables (s : Scope) : Scope := { s with vars := ∅ }

/-- A scope without the references made in it. -/
def clearReferences (s : Scope) : Scope := { s with references := [] }

/-- A scope without its variables and the references made in it. -/
def bare (s : Scope) : Scope := { s with vars := ∅, references := [] }

/-- Scopes that differ in variables and references only. -/
structure Alike (s s' : Scope) : Prop where
  kind : s'.kind = s.kind
  name : s'.name = s.name
  file : s'.file = s.file
  coverage : s'.coverage = s.coverage
  parent : s'.parent = s.parent
  children : s'.children = s.children
  classes : s'.classes = s.classes
  interfaces : s'.interfaces = s.interfaces

theorem bare_eq_iff {s s' : Scope} : s'.bare = s.bare ↔ s.Alike s' := by
  cases s
  cases s'
  rw [bare, bare, mk.injEq]
  constructor
  · rintro ⟨hkind, hname, hfile, hcoverage, hparent, hchildren, -, hclasses, hinterfaces, -⟩
    exact ⟨hkind, hname, hfile, hcoverage, hparent, hchildren, hclasses, hinterfaces⟩
  · rintro ⟨hkind, hname, hfile, hcoverage, hparent, hchildren, hclasses, hinterfaces⟩
    exact ⟨hkind, hname, hfile, hcoverage, hparent, hchildren, rfl, hclasses, hinterfaces, rfl⟩

end Scope

namespace ScopeGraph

variable {g g' : ScopeGraph} {id inner : ScopeId} {s : Scope} {name : String}
  {found : Option ScopeId} {clear : Scope → Scope}

/-! ## Trees of scopes -/

/-- The links agree, and they lead from the root, which has no parent, to every scope. -/
structure IsTree (g : ScopeGraph) : Prop where
  linked : g.Linked
  root_top : ∀ {s}, g.scope? .root = some s → s.parent = none
  reached : ∀ {id s}, g.scope? id = some s → g.Above .root id

/-- What is above a scope is the scope or is above its parent. -/
theorem Linked.above_iff_of_scope? (linked : g.Linked) (hs : g.scope? inner = some s) :
    g.Above id inner ↔ id = inner ∨ ∃ parent, s.parent = some parent ∧ g.Above id parent := by
  constructor
  · intro h
    rcases Relation.ReflTransGen.cases_tail h with heq | ⟨last, hdown, hlast⟩
    · exact .inl heq.symm
    · obtain ⟨t, ht, hparent⟩ := linked.child_back hlast
      cases Option.some.inj (hs.symm.trans ht)
      exact .inr ⟨last, hparent, hdown⟩
  · rintro (rfl | ⟨parent, hparent, hdown⟩)
    · exact .refl
    · exact hdown.tail (linked.parent_back hs hparent)

/-- The way up from a scope lists just what is above it, inner scopes before outer ones. -/
theorem Linked.above_of_ancestorsFrom (linked : g.Linked) {height : Nat} {chain : List ScopeId}
    (h : g.ancestorsFrom height inner = .ok chain) :
    (∀ id, id ∈ chain ↔ g.Above id inner) ∧ chain.Pairwise fun a b => g.Ancestor b a := by
  induction height generalizing inner chain with
  | zero => cases h
  | succ height ih =>
    obtain ⟨s, hs, ⟨hnone, rfl⟩ | ⟨parent, rest, hparent, hrest, rfl⟩⟩ :=
      ancestorsFrom_succ_eq_ok h
    · refine ⟨fun id => ?_, List.pairwise_singleton _ _⟩
      simp [linked.above_iff_of_scope? hs, hnone]
    · obtain ⟨hmem, hup⟩ := ih hrest
      refine ⟨fun id => ?_, List.pairwise_cons.mpr ⟨fun b hb => ?_, hup⟩⟩
      · simp [linked.above_iff_of_scope? hs, hparent, hmem]
      · exact Relation.TransGen.tail' ((hmem b).mp hb) (linked.parent_back hs hparent)

/-- A graph in order is a tree. -/
theorem Ordered.isTree (hg : g.Ordered) : g.IsTree where
  linked := hg.linked
  root_top hs := (parent?_eq_of_scope? hs).symm.trans hg.root_top
  reached hs := by
    obtain ⟨chain, hchain, -, -, hlast⟩ := hg.exists_ancestors (index_lt_of_scope? hs)
    exact ((hg.linked.above_of_ancestorsFrom hchain).1 _).mp (List.mem_of_getLast? hlast)

theorem IsTree.rooted (tree : g.IsTree) (hs : g.scope? id = some s) : g.Rooted id := by
  obtain ⟨root, hroot⟩ := tree.linked.root_exists
  exact (tree.linked.rooted_iff_of_above (tree.reached hs)).mpr (.top hroot (tree.root_top hroot))

theorem IsTree.not_ancestor_self (tree : g.IsTree) (hs : g.scope? id = some s) :
    ¬ g.Ancestor id id :=
  tree.linked.not_ancestor_self_of_rooted (tree.rooted hs)

/-- Of two scopes above the same one, one is above the other. -/
theorem Linked.above_total (linked : g.Linked) {a b : ScopeId} (ha : g.Above a inner)
    (hb : g.Above b inner) : g.Above a b ∨ g.Above b a := by
  induction ha with
  | refl => exact .inr hb
  | tail hdown hlink ih =>
    rcases Relation.ReflTransGen.cases_tail hb with heq | ⟨last, hdown', hlink'⟩
    · exact .inl (heq ▸ hdown.tail hlink)
    · cases linked.child_unique hlink hlink'
      exact ih hdown'

/-- Of two scopes of a tree only one is above the other. -/
theorem IsTree.above_antisymm (tree : g.IsTree) (hs : g.scope? id = some s)
    (hdown : g.Above id inner) (hup : g.Above inner id) : id = inner := by
  rcases Relation.reflTransGen_iff_eq_or_transGen.mp hdown with heq | hdown
  · exact heq.symm
  · exact absurd (Relation.TransGen.trans_left hdown hup) (tree.not_ancestor_self hs)

theorem IsTree.exists_ancestors (tree : g.IsTree) (hs : g.scope? id = some s) :
    ∃ chain, g.ancestors id = .ok chain :=
  tree.linked.ancestors_iff_rooted.mpr (tree.rooted hs)

/-! ## The innermost declaration -/

/-- What a scope declares under a name. -/
def declared? (g : ScopeGraph) (name : String) (id : ScopeId) : Option Variable :=
  (g.scope? id).bind fun s => s.vars.find? (Text.toLower name)

/-- A declaration of a name together with the scope that it stands in. -/
def declarationIn? (g : ScopeGraph) (name : String) (id : ScopeId) : Option (Scope × Variable) :=
  (g.scope? id).bind fun s => (s.vars.find? (Text.toLower name)).map fun x => (s, x)

/-- Of the scopes from `inner` outwards, which of those that declare a name is the innermost. -/
def InnermostDeclaring (g : ScopeGraph) (name : String) (inner : ScopeId) : Option ScopeId → Prop
  | none => ∀ id, g.Above id inner → g.declared? name id = none
  | some d => g.Above d inner ∧ (g.declared? name d).isSome ∧
    ∀ id, g.Above id inner → (g.declared? name id).isSome → g.Above id d

/-- The first answer is the answer of the first that has one. -/
theorem findSome?_eq_find?_bind {α β : Type} (f : α → Option β) (l : List α) :
    l.findSome? f = (l.find? fun a => (f a).isSome).bind f := by
  induction l with
  | nil => rfl
  | cons a rest ih => cases hfa : f a <;> simp [hfa, ih]

/-- The first scope on the way up that declares a name is the innermost one. -/
theorem Linked.innermostDeclaring_find? (linked : g.Linked) {chain : List ScopeId}
    (h : g.ancestors inner = .ok chain) :
    g.InnermostDeclaring name inner (chain.find? fun id => (g.declared? name id).isSome) := by
  obtain ⟨hmem, hup⟩ := linked.above_of_ancestorsFrom h
  cases hfind : chain.find? fun id => (g.declared? name id).isSome with
  | none =>
    intro id hid
    simpa using List.find?_eq_none.mp hfind id ((hmem id).mpr hid)
  | some d =>
    obtain ⟨hd, before, after, rfl, hbefore⟩ := List.find?_eq_some_iff_append.mp hfind
    refine ⟨(hmem d).mp (by simp), hd, fun id hid hdeclared => ?_⟩
    rcases List.mem_append.mp ((hmem id).mpr hid) with hid | hid
    · have hnot := hbefore id hid
      rw [hdeclared] at hnot
      cases hnot
    · rcases List.mem_cons.mp hid with rfl | hid
      · exact .refl
      · have hafter := (List.pairwise_append.mp hup).2.1
        exact ((List.pairwise_cons.mp hafter).1 id hid).to_reflTransGen

/-- No two scopes are the innermost one. -/
theorem IsTree.innermostDeclaring_unique (tree : g.IsTree) {a b : Option ScopeId}
    (ha : g.InnermostDeclaring name inner a) (hb : g.InnermostDeclaring name inner b) : a = b := by
  cases a with
  | none =>
    cases b with
    | none => rfl
    | some d =>
      have hnone := ha d hb.1
      have hsome := hb.2.1
      simp [hnone] at hsome
  | some d =>
    cases b with
    | none =>
      have hnone := hb d ha.1
      have hsome := ha.2.1
      simp [hnone] at hsome
    | some e =>
      cases hscope : g.scope? d with
      | none =>
        have hsome := ha.2.1
        simp [declared?, hscope] at hsome
      | some t =>
        have heq := tree.above_antisymm hscope (hb.2.2 d ha.1 ha.2.1) (ha.2.2 e hb.1 hb.2.1)
        rw [heq]

theorem IsTree.exists_innermostDeclaring (tree : g.IsTree) (hs : g.scope? inner = some s)
    (name : String) :
    ∃ found, g.InnermostDeclaring name inner found := by
  obtain ⟨chain, hchain⟩ := tree.exists_ancestors hs
  exact ⟨_, tree.linked.innermostDeclaring_find? hchain⟩

/-- What is asked of the declarations of a name is answered by the innermost one. -/
theorem IsTree.climb_of_innermostDeclaring (tree : g.IsTree) (hs : g.scope? inner = some s)
    (hfound : g.InnermostDeclaring name inner found) {α : Type} {ask : ScopeId → Scope → Option α}
    (hask : ∀ id s, (ask id s).isSome = (s.vars.find? (Text.toLower name)).isSome) :
    g.climb ask inner = .ok (found.bind fun d => (g.scope? d).bind (ask d)) := by
  obtain ⟨chain, hchain⟩ := tree.exists_ancestors hs
  have hasked : (fun id => ((g.scope? id).bind (ask id)).isSome) =
      fun id => (g.declared? name id).isSome := by
    funext id
    cases hid : g.scope? id with
    | none => simp [declared?, hid]
    | some t => simp [declared?, hid, hask]
  rw [climb_of_ancestors ask hchain, findSome?_eq_find?_bind, hasked,
    tree.innermostDeclaring_unique (tree.linked.innermostDeclaring_find? hchain) hfound]

theorem IsTree.findScopeOf?_of_innermostDeclaring (tree : g.IsTree) (hs : g.scope? inner = some s)
    (hfound : g.InnermostDeclaring name inner found) : g.findScopeOf? inner name = .ok found := by
  rw [findScopeOf?, tree.climb_of_innermostDeclaring hs hfound
    (fun id t => by cases h : t.vars.find? (Text.toLower name) <;> simp [Dict.contains, h])]
  cases found with
  | none => rfl
  | some d =>
    have hd := hfound.2.1
    unfold declared? at hd
    cases hscope : g.scope? d with
    | none => simp [hscope] at hd
    | some t => simp_all [Dict.contains]

theorem IsTree.findVariable?_of_innermostDeclaring (tree : g.IsTree)
    (hs : g.scope? inner = some s) (hfound : g.InnermostDeclaring name inner found) :
    g.findVariable? inner name = .ok (found.bind (g.declared? name)) :=
  tree.climb_of_innermostDeclaring hs hfound fun _ _ => rfl

theorem declarationIn?_of_declared? {x : Variable} (hs : g.scope? id = some s)
    (hx : g.declared? name id = some x) : g.declarationIn? name id = some (s, x) := by
  rw [declared?, hs, Option.bind_some] at hx
  rw [declarationIn?, hs, Option.bind_some, hx, Option.map_some]

/-- A scope that declares something exists. -/
theorem exists_of_isSome_declared? (h : (g.declared? name id).isSome) :
    ∃ s x, g.scope? id = some s ∧ g.declared? name id = some x := by
  obtain ⟨x, hx⟩ := Option.isSome_iff_exists.mp h
  obtain ⟨s, hs, -⟩ := Option.bind_eq_some_iff.mp hx
  exact ⟨s, x, hs, hx⟩

/-! ## Graphs that differ in some data -/

/-- Graphs whose scopes are the same once some of their data is cleared. -/
def SameBut (clear : Scope → Scope) (g g' : ScopeGraph) : Prop :=
  g'.scopes.map clear = g.scopes.map clear

namespace SameBut

theorem scope?_eq (h : SameBut clear g g') (id : ScopeId) :
    (g'.scope? id).map clear = (g.scope? id).map clear := by
  have hid := congrArg (·[id.index]?) h
  simpa [scope?] using hid

theorem size_eq (h : SameBut clear g g') : g'.scopes.size = g.scopes.size := by
  simpa using congrArg Array.size h

theorem symm (h : SameBut clear g g') : SameBut clear g' g := Eq.symm h

/-- A scope of one graph has its counterpart in the other one. -/
theorem exists_scope? (h : SameBut clear g g') (hs : g.scope? id = some s) :
    ∃ s', g'.scope? id = some s' ∧ clear s' = clear s := by
  have hid := h.scope?_eq id
  rw [hs] at hid
  simpa using hid

/-- Scopes that differ in variables only, or in references only, are alike. -/
theorem bare_of_absorbs (h : SameBut clear g g') (habsorbs : Scope.bare ∘ clear = Scope.bare) :
    SameBut Scope.bare g g' := by
  have hbare := congrArg (Array.map Scope.bare) h
  rwa [Array.map_map, Array.map_map, habsorbs] at hbare

/-- References declare nothing. -/
theorem declared?_eq (h : SameBut Scope.clearReferences g g') (name : String) (id : ScopeId) :
    g'.declared? name id = g.declared? name id := by
  have hid := congrArg (·.bind fun s => s.vars.find? (Text.toLower name)) (h.scope?_eq id)
  rwa [Option.bind_map, Option.bind_map] at hid

/-- A scope exists in both graphs, and there alike, or in none. -/
theorem cases_scope? (h : SameBut Scope.bare g g') (id : ScopeId) :
    (g.scope? id = none ∧ g'.scope? id = none) ∨
      ∃ s s', g.scope? id = some s ∧ g'.scope? id = some s' ∧ s.Alike s' := by
  cases hs : g.scope? id with
  | none =>
    have hid := h.scope?_eq id
    rw [hs] at hid
    exact .inl ⟨rfl, by simpa using hid⟩
  | some s =>
    obtain ⟨s', hs', hbare⟩ := h.exists_scope? hs
    exact .inr ⟨s, s', rfl, hs', Scope.bare_eq_iff.mp hbare⟩

variable {p : Position} {file : String} {slot : Option CacheSlot}

theorem locateFrom_eq (h : SameBut Scope.bare g g') (depth : Nat) (id : ScopeId) :
    g'.locateFrom p file depth id = g.locateFrom p file depth id := by
  induction depth generalizing id with
  | zero => rfl
  | succ depth ih =>
    have hbelow : g'.locateFrom p file depth = g.locateFrom p file depth := funext ih
    rcases h.cases_scope? id with ⟨hs, hs'⟩ | ⟨s, s', hs, hs', alike⟩
    · simp [locateFrom, scope, hs, hs', bind, Except.bind]
    · rw [locateFrom_succ hs, locateFrom_succ hs', alike.file, alike.coverage, alike.children,
        hbelow]

theorem slotFor_eq (h : SameBut Scope.bare g g') (found : Option ScopeId) :
    g'.slotFor found = g.slotFor found := by
  cases found with
  | none => rfl
  | some id =>
    rcases h.cases_scope? id with ⟨hs, hs'⟩ | ⟨s, s', hs, hs', alike⟩
    · simp [slotFor, scope, hs, hs']
    · simp [slotFor, scope, hs, hs', bind, Except.bind, Scope.isLeaf, alike.coverage,
        alike.children]

/-- The way down to a position is the same. -/
theorem reuse_eq (h : SameBut Scope.bare g g') (file : String) (slot : Option CacheSlot)
    (p : Position) : g'.reuse file slot p = g.reuse file slot p := by
  have hslot : g'.slotFor = g.slotFor := funext h.slotFor_eq
  simp only [reuse, locate, h.size_eq, h.locateFrom_eq, hslot]

/-- A walk upwards gets the same answer if scopes that are alike give the same one. -/
theorem climb_eq (h : SameBut Scope.bare g g') {α : Type} {ask : ScopeId → Scope → Option α}
    (hask : ∀ id {s s' : Scope}, s.Alike s' → ask id s' = ask id s) (id : ScopeId) :
    g'.climb ask id = g.climb ask id := by
  unfold climb
  rw [h.size_eq]
  generalize g.scopes.size + 1 = height
  induction height generalizing id with
  | zero => rfl
  | succ height ih =>
    rcases h.cases_scope? id with ⟨hs, hs'⟩ | ⟨s, s', hs, hs', alike⟩
    · simp [climbFrom, scope, hs, hs', bind, Except.bind]
    · simp only [climbFrom, scope_eq_ok hs, scope_eq_ok hs', bind, Except.bind, hask id alike,
        alike.parent, ih]

theorem child_iff (h : SameBut Scope.bare g g') {outer inner : ScopeId} :
    g'.Child outer inner ↔ g.Child outer inner := by
  rcases h.cases_scope? outer with ⟨hs, hs'⟩ | ⟨s, s', hs, hs', alike⟩
  · simp [Child, hs, hs']
  · simp [Child, hs, hs', alike.children]

theorem above_eq (h : SameBut Scope.bare g g') : g'.Above = g.Above := by
  have hchild : g'.Child = g.Child := funext₂ fun _ _ => propext h.child_iff
  rw [Above, hchild, Above]

theorem isTree (h : SameBut Scope.bare g g') (tree : g.IsTree) : g'.IsTree := by
  have halike : ∀ {id s}, g.scope? id = some s → ∃ s', g'.scope? id = some s' ∧ s.Alike s' :=
    fun hs => let ⟨s', hs', hbare⟩ := h.exists_scope? hs
      ⟨s', hs', Scope.bare_eq_iff.mp hbare⟩
  have halike' : ∀ {id s'}, g'.scope? id = some s' → ∃ s, g.scope? id = some s ∧ s.Alike s' :=
    fun hs' => let ⟨s, hs, hbare⟩ := h.symm.exists_scope? hs'
      ⟨s, hs, Scope.bare_eq_iff.mp hbare.symm⟩
  -- links are kept, and so is everything said of them
  refine ⟨⟨?_, ?_, ?_⟩, ?_, ?_⟩
  · obtain ⟨s, hs⟩ := tree.linked.root_exists
    obtain ⟨s', hs', -⟩ := halike hs
    exact ⟨s', hs'⟩
  · intro outer inner hchild
    obtain ⟨s, hs, hparent⟩ := tree.linked.child_back (h.child_iff.mp hchild)
    obtain ⟨s', hs', alike⟩ := halike hs
    exact ⟨s', hs', alike.parent.trans hparent⟩
  · intro id s' parent hs' hparent
    obtain ⟨s, hs, alike⟩ := halike' hs'
    exact h.child_iff.mpr (tree.linked.parent_back hs (alike.parent.symm.trans hparent))
  · intro s' hs'
    obtain ⟨s, hs, alike⟩ := halike' hs'
    exact alike.parent.trans (tree.root_top hs)
  · intro id s' hs'
    obtain ⟨s, hs, -⟩ := halike' hs'
    rw [h.above_eq]
    exact tree.reached hs

end SameBut

/-! ## Declarations that are not seen -/

/-- A declaration at `site` is not seen from `inner`, given that one at `d` is: it is further out,
or not on the way up at all. -/
def OutOfSight (g : ScopeGraph) (inner d site : ScopeId) : Prop :=
  g.Ancestor site d ∨ ¬ g.Above site inner

/-- A variable can be declared in every scope, and that changes nothing but what this scope declares
under the name of the variable. -/
theorem exists_addVariable {site : ScopeId} (x : Variable) (hsite : site.index < g.scopes.size) :
    ∃ g', g.addVariable site x = .ok g' ∧ SameBut Scope.clearVariables g g' ∧
      ∀ name id, id ≠ site ∨ Text.toLower x.name ≠ Text.toLower name →
        g'.declared? name id = g.declared? name id := by
  obtain ⟨g', hg', -, hother, hself⟩ :=
    exists_modify (fun s => { s with vars := s.vars.insert (Text.toLower x.name) x }) hsite
  refine ⟨g', hg', ?_, fun name id hunseen => ?_⟩
  · rw [modify, if_pos hsite] at hg'
    cases hg'
    apply Array.ext_getElem?
    intro n
    simp only [Array.getElem?_map, Array.getElem?_modify]
    split
    · cases g.scopes[n]? <;> rfl
    · rfl
  · by_cases hid : id = site
    · subst hid
      have hname := hunseen.resolve_left fun hne => hne rfl
      rw [declared?, declared?, hself]
      cases g.scope? id with
      | none => rfl
      | some s => exact Dict.find?_insert_of_ne _ _ hname.symm
    · rw [declared?, declared?, hother id hid]

/-- The innermost declaration remains the innermost one as long as no other one comes between. -/
theorem IsTree.innermostDeclaring_of_unchanged (tree : g.IsTree) (h : SameBut Scope.bare g g')
    {d : ScopeId} (hd : g.InnermostDeclaring name inner (some d))
    (hunchanged : ∀ id, g.Above d id → g.Above id inner →
      g'.declared? name id = g.declared? name id) :
    g'.InnermostDeclaring name inner (some d) := by
  obtain ⟨habove, hdeclared, hinnermost⟩ := hd
  refine ⟨by rwa [h.above_eq], by rwa [hunchanged d .refl habove], fun id hid hdeclared' => ?_⟩
  rw [h.above_eq] at hid ⊢
  rcases tree.linked.above_total hid habove with hup | hdown
  · exact hup
  · rw [hunchanged id hdown hid] at hdeclared'
    exact hinnermost id hid hdeclared'

/-- What is out of sight does not come between. -/
theorem IsTree.ne_of_outOfSight (tree : g.IsTree) {d site : ScopeId} (hs : g.scope? d = some s)
    (hsite : g.OutOfSight inner d site) (hdown : g.Above d id) (hid : g.Above id inner) :
    id ≠ site := by
  rintro rfl
  rcases hsite with hup | hbeside
  · exact tree.not_ancestor_self hs (Relation.TransGen.trans_right hdown hup)
  · exact hbeside hid

end ScopeGraph

/-! ## What a token is resolved to -/

namespace View

variable {v v' : View} {t : Token} {inner inner' : Scope}

/-- The same unit with other scopes. -/
def withGraph (v : View) (g : ScopeGraph) : View := { v with graph := g }

/-- What a token is resolved to by the scope around it and the innermost declaration of its name. -/
def resolutionIn (v : View) (t : Token) (inner : Scope) (declared : Option (Scope × Variable)) :
    Resolution :=
  if declared.all (·.2.isStatic) && !t.text.toList.contains '~' then
    match v.foreignOwner? (inner.referenceAt? t.start dataReferences) with
    | some owner => foreignResolution owner
    | none => ownResolution t.text declared
  else ownResolution t.text declared

/-- Of the declaring scope only the kind and the name count. -/
theorem ownResolution_of_alike {s s' : Scope} (alike : s.Alike s') (name : String) (x : Variable) :
    ownResolution name (some (s', x)) = ownResolution name (some (s, x)) := by
  cases hstatic : x.isStatic && s.kind == .classImplementation <;>
    simp only [ownResolution, Option.filter_some, alike.kind, alike.name, hstatic, if_true,
      Bool.false_eq_true, if_false]

theorem resolutionIn_of_alike {g' : ScopeGraph} {s s' : Scope} (alike : s.Alike s')
    (hreferences : inner'.references = inner.references) (x : Variable) :
    (v.withGraph g').resolutionIn t inner' (some (s', x)) =
      v.resolutionIn t inner (some (s, x)) := by
  have hreference : inner'.referenceAt? t.start dataReferences =
      inner.referenceAt? t.start dataReferences := by
    rw [Scope.referenceAt?, hreferences, Scope.referenceAt?]
  simp only [resolutionIn, Option.all_some, hreference, ownResolution_of_alike alike]
  rfl

/-- A name that is declared as a local one is local, whatever object a reference at the token leads
to. -/
theorem resolutionIn_local {s : Scope} {x : Variable}
    (hkind : s.kind ∉ [ScopeKind.builtIn, .methodInstance, .classImplementation])
    (hstatic : x.isStatic = false) (hme : Text.sameIgnoringCase t.text "me" = false)
    (hsuper : Text.sameIgnoringCase t.text "super" = false) :
    v.resolutionIn t inner (some (s, x)) = .localName := by
  simp only [resolutionIn, Option.all_some, hstatic, Bool.false_and, ownResolution,
    Option.filter_some, hme, hsuper]
  cases hs : s.kind <;> simp_all

/-- Classes and interfaces are the same in scopes that are alike. -/
theorem localDefinition?_withGraph {g' : ScopeGraph}
    (h : ScopeGraph.SameBut Scope.bare v.graph g') (scope : Option ScopeId) (name : String) :
    (v.withGraph g').localDefinition? scope name = v.localDefinition? scope name := by
  have hclass : ∀ id, g'.findClass? id name = v.graph.findClass? id name :=
    h.climb_eq fun _ _ _ alike => congrArg (Dict.find? · _) alike.classes
  have hinterface : ∀ id, g'.findInterface? id name = v.graph.findInterface? id name :=
    h.climb_eq fun _ _ _ alike => congrArg (Dict.find? · _) alike.interfaces
  cases scope with
  | none => rfl
  | some id => simp only [localDefinition?, withGraph, hclass, hinterface]

end View

/-- The context of the same unit with other scopes. -/
def Context.withGraph (context : Context) (g : ScopeGraph) : Context :=
  { context with view := context.view.withGraph g }

/-- The walk from the scope around a position is what counts. -/
theorem Query.run_around_of_reuse_eq {α : Type} {g g' : ScopeGraph} {file : String}
    {slot : Option CacheSlot} {p : Position} (walk : Option ScopeId → Except GraphFault α)
    (h : g'.reuse file slot p = g.reuse file slot p) :
    (Query.around p walk).run g' file slot = (Query.around p walk).run g file slot := by
  have hwalk : ∀ found slot, (Query.ofWalk (walk found)).run g' file slot =
      (Query.ofWalk (walk found)).run g file slot := by
    intro found slot
    cases walk found <;> rfl
  simp only [Query.around, Query.scopeAround, Query.locate_bind, Query.answer_bind, Query.run, h,
    hwalk]

namespace Emit

variable {context : Context} {σ σ' : EmissionState} {t : Token} {s d : ScopeId} {inner : Scope}
  {found : Option ScopeId} {g' : ScopeGraph}

/-- A question about the scope around a position is answered the same if the walks agree. -/
theorem ask_around_withGraph {α : Type} {question : View → Query α} {p : Position}
    {walk : Option ScopeId → Except GraphFault α}
    (h : ScopeGraph.SameBut Scope.bare context.view.graph g')
    (hwalk : question context.view = .around p walk)
    (hwalk' : question (context.view.withGraph g') = .around p walk) (σ : EmissionState) :
    ask question (context.withGraph g') σ = ask question context σ := by
  have hrun := Query.run_around_of_reuse_eq walk (h.reuse_eq context.view.file σ.slot p)
  simp only [ask, Context.withGraph, hwalk, hwalk']
  rw [View.withGraph, hrun]

theorem classAddress_withGraph (h : ScopeGraph.SameBut Scope.bare context.view.graph g')
    (name : String) (p : Position) (σ : EmissionState) :
    classAddress name p (context.withGraph g') σ = classAddress name p context σ := by
  refine ask_around_withGraph h (View.classAddress_eq name p) ?_ σ
  rw [View.classAddress_eq]
  simp only [View.localDefinition?_withGraph h]
  rfl

/-- The scope around a token and the innermost declaration of its name decide what the token is
resolved to. -/
theorem ask_resolve (tree : context.view.graph.IsTree)
    (hs : context.view.graph.scope? s = some inner)
    (hscope : ask (fun _ => .scopeAround t.start) context σ = .ok (some s) σ')
    (hfound : context.view.graph.InnermostDeclaring t.text s found) :
    ask (·.resolve t) context σ = .ok (context.view.resolutionIn t inner
      (found.bind (context.view.graph.declarationIn? t.text))) σ' := by
  obtain ⟨slot, hrun, rfl⟩ := ask_eq_ok_iff.mp hscope
  have hdeclared : context.view.declaration? s t.text =
      .ok (found.bind (context.view.graph.declarationIn? t.text)) :=
    tree.climb_of_innermostDeclaring hs hfound fun _ _ => Option.isSome_map
  refine ask_eq_ok_iff.mpr ⟨slot, ?_, rfl⟩
  refine Query.run_bind_eq_ok_iff.mpr ⟨s, slot, ?_, ?_⟩
  · exact Query.run_bind_eq_ok_iff.mpr ⟨some s, slot, hrun, rfl⟩
  · have hreference : context.view.referenceIn s t.start View.dataReferences =
        .answer (inner.referenceAt? t.start View.dataReferences) := by
      rw [View.referenceIn, ScopeGraph.scope_eq_ok hs]
      rfl
    rw [hdeclared, hreference, View.resolutionIn]
    -- the same choice on both sides, whatever was declared
    generalize found.bind (context.view.graph.declarationIn? t.text) = declared
    change Query.run _ _ (if (declared.all (·.2.isStatic) && !t.text.toList.contains '~') = true
      then _ else _) slot = _
    split
    · rw [Query.answer_bind]
      cases context.view.foreignOwner? (inner.referenceAt? t.start View.dataReferences) <;> rfl
    · rfl

theorem ask_variableNamed (tree : context.view.graph.IsTree)
    (hs : context.view.graph.scope? s = some inner)
    (hscope : ask (fun _ => .scopeAround t.start) context σ = .ok (some s) σ')
    (hfound : context.view.graph.InnermostDeclaring t.text s found) :
    ask (·.variableNamed t) context σ =
      .ok (found.bind (context.view.graph.declared? t.text)) σ' :=
  (ask_around_iff (View.variableNamed_eq t)).mpr
    ⟨some s, hscope, tree.findVariable?_of_innermostDeclaring hs hfound⟩

/-- The name of a token is what it is resolved to, written out. -/
theorem qualifiedName_withGraph (h : ScopeGraph.SameBut Scope.bare context.view.graph g')
    (hresolve : ask (·.resolve t) (context.withGraph g') σ = ask (·.resolve t) context σ) :
    qualifiedName t (context.withGraph g') σ = qualifiedName t context σ := by
  unfold qualifiedName
  rw [bind_apply, bind_apply, hresolve]
  cases ask (·.resolve t) context σ with
  | error why σ' => rfl
  | ok resolution σ' =>
    cases resolution with
    | interfaceAttribute owner | foreignAttribute owner =>
      simp only [bind_apply, classAddress_withGraph h]
      rfl
    | _ => rfl

/-- One token names the same thing in two graphs. -/
structure NamesAlike (context : Context) (t : Token) (σ : EmissionState) (g' : ScopeGraph) : Prop
  where
  resolve_eq : ask (·.resolve t) (context.withGraph g') σ = ask (·.resolve t) context σ
  qualifiedName_eq : qualifiedName t (context.withGraph g') σ = qualifiedName t context σ
  variable_eq : ask (·.variableNamed t) (context.withGraph g') σ =
    ask (·.variableNamed t) context σ

/-- A question for the scope around a position gets the same answer in the same file. -/
theorem ask_scopeAround_of_sameBut {view : View} {p : Position}
    (h : ScopeGraph.SameBut Scope.bare context.view.graph view.graph)
    (hfile : view.file = context.view.file)
    (hscope : ask (fun _ => .scopeAround p) context σ = .ok (some s) σ') :
    ask (fun _ => .scopeAround p) { context with view } σ = .ok (some s) σ' := by
  rw [ask_scopeAround_iff] at hscope ⊢
  simpa only [hfile, h.reuse_eq] using hscope

/-- A declaration that does not come between the scope around a token and the innermost declaration
of its name, or that is of another name, changes nothing for the token. -/
theorem exists_namesAlike (tree : context.view.graph.IsTree)
    (hs : context.view.graph.scope? s = some inner)
    (hscope : ask (fun _ => .scopeAround t.start) context σ = .ok (some s) σ')
    (hd : context.view.graph.InnermostDeclaring t.text s (some d)) {site : ScopeId} (x : Variable)
    (hsite : site.index < context.view.graph.scopes.size)
    (hunseen : context.view.graph.OutOfSight s d site ∨ Text.toLower x.name ≠ Text.toLower t.text) :
    ∃ g', context.view.graph.addVariable site x = .ok g' ∧ NamesAlike context t σ g' := by
  obtain ⟨outer, y, houter, hy⟩ := ScopeGraph.exists_of_isSome_declared? hd.2.1
  obtain ⟨g', hg', hsame, hkept⟩ := ScopeGraph.exists_addVariable x hsite
  refine ⟨g', hg', ?_⟩
  have hbare := hsame.bare_of_absorbs rfl
  have hunchanged : ∀ id, context.view.graph.Above d id → context.view.graph.Above id s →
      g'.declared? t.text id = context.view.graph.declared? t.text id := fun id hdown hid =>
    hkept t.text id (hunseen.imp_left fun hout => tree.ne_of_outOfSight houter hout hdown hid)
  have hd' := tree.innermostDeclaring_of_unchanged hbare hd hunchanged
  have hscope' : ask (fun _ => .scopeAround t.start) (context.withGraph g') σ = .ok (some s) σ' :=
    ask_scopeAround_of_sameBut hbare rfl hscope
  obtain ⟨inner', hs', hinner⟩ := hsame.exists_scope? hs
  obtain ⟨outer', houter', houteralike⟩ := hbare.exists_scope? houter
  have hy' : g'.declared? t.text d = some y := (hunchanged d .refl hd.1).trans hy
  have hresolve : ask (·.resolve t) (context.withGraph g') σ = ask (·.resolve t) context σ := by
    rw [ask_resolve tree hs hscope hd, ask_resolve (hbare.isTree tree) hs' hscope' hd']
    have hdeclared := ScopeGraph.declarationIn?_of_declared? houter hy
    have hdeclared' : (context.withGraph g').view.graph.declarationIn? t.text d =
        some (outer', y) := ScopeGraph.declarationIn?_of_declared? houter' hy'
    rw [Option.bind_some, Option.bind_some, hdeclared, hdeclared']
    exact congrArg (EStateM.Result.ok · σ') (View.resolutionIn_of_alike
      (Scope.bare_eq_iff.mp houteralike) (congrArg Scope.references hinner) y)
  refine ⟨hresolve, qualifiedName_withGraph hbare hresolve, ?_⟩
  rw [ask_variableNamed tree hs hscope hd, ask_variableNamed (hbare.isTree tree) hs' hscope' hd']
  exact congrArg (EStateM.Result.ok · σ') (hunchanged d .refl hd.1)

/-- A name whose innermost declaration is a local one is local, whatever the references in the
scopes and the global objects are. -/
theorem resolve_local (tree : context.view.graph.IsTree)
    (hs : context.view.graph.scope? s = some inner)
    (hscope : ask (fun _ => .scopeAround t.start) context σ = .ok (some s) σ')
    (hd : context.view.graph.InnermostDeclaring t.text s (some d)) {outer : Scope} {x : Variable}
    (houter : context.view.graph.scope? d = some outer)
    (hx : context.view.graph.declared? t.text d = some x)
    (hkind : outer.kind ∉ [ScopeKind.builtIn, .methodInstance, .classImplementation])
    (hstatic : x.isStatic = false) (hme : Text.sameIgnoringCase t.text "me" = false)
    (hsuper : Text.sameIgnoringCase t.text "super" = false) {view : View}
    (hsame : ScopeGraph.SameBut Scope.clearReferences context.view.graph view.graph)
    (hfile : view.file = context.view.file) :
    ask (·.resolve t) { context with view } σ = .ok .localName σ' := by
  have hbare := hsame.bare_of_absorbs rfl
  have hd' := tree.innermostDeclaring_of_unchanged hbare hd fun id _ _ =>
    hsame.declared?_eq t.text id
  obtain ⟨inner', hs', -⟩ := hsame.exists_scope? hs
  obtain ⟨outer', houter', houteralike⟩ := hbare.exists_scope? houter
  rw [ask_resolve (hbare.isTree tree) hs' (ask_scopeAround_of_sameBut hbare hfile hscope) hd',
    Option.bind_some, ScopeGraph.declarationIn?_of_declared? houter'
      ((hsame.declared?_eq t.text d).trans hx), View.resolutionIn_local _ hstatic hme hsuper]
  rwa [(Scope.bare_eq_iff.mp houteralike).kind]

/-- What a name means at a token in a tree of scopes. The search for the declaring scope finds the
innermost scope on the way up that declares the name, and the search for the variable finds what
this scope declares. Declaring a variable in any other scope that is further out or not on the way
up, or declaring one of another name anywhere, changes nothing for the token. If the declaration is
neither builtin, an attribute nor static, and the name is not reserved, the token is local whatever
the references and the global objects are. -/
theorem innermost_declaration_decides (tree : context.view.graph.IsTree)
    (hs : context.view.graph.scope? s = some inner)
    (hscope : ask (fun _ => .scopeAround t.start) context σ = .ok (some s) σ') :
    ∃ found, context.view.graph.InnermostDeclaring t.text s found ∧
      context.view.graph.findScopeOf? s t.text = .ok found ∧
      context.view.graph.findVariable? s t.text =
        .ok (found.bind (context.view.graph.declared? t.text)) ∧
      ∀ d, found = some d →
        (∀ site x, site.index < context.view.graph.scopes.size →
          context.view.graph.OutOfSight s d site ∨ Text.toLower x.name ≠ Text.toLower t.text →
          ∃ g', context.view.graph.addVariable site x = .ok g' ∧ NamesAlike context t σ g') ∧
        ∃ outer x, context.view.graph.scope? d = some outer ∧
          context.view.graph.declared? t.text d = some x ∧
          (outer.kind ∉ [ScopeKind.builtIn, .methodInstance, .classImplementation] →
            x.isStatic = false → Text.sameIgnoringCase t.text "me" = false →
            Text.sameIgnoringCase t.text "super" = false →
            ∀ view, ScopeGraph.SameBut Scope.clearReferences context.view.graph view.graph →
              view.file = context.view.file →
              ask (·.resolve t) { context with view } σ = .ok .localName σ') := by
  obtain ⟨found, hfound⟩ := tree.exists_innermostDeclaring hs t.text
  refine ⟨found, hfound, tree.findScopeOf?_of_innermostDeclaring hs hfound,
    tree.findVariable?_of_innermostDeclaring hs hfound, ?_⟩
  -- where nothing declares the name, nothing more is said
  rintro d rfl
  obtain ⟨outer, x, houter, hx⟩ := ScopeGraph.exists_of_isSome_declared? hfound.2.1
  refine ⟨fun site y hsite hunseen => exists_namesAlike tree hs hscope hfound y hsite hunseen,
    outer, x, houter, hx, ?_⟩
  intro hkind hstatic hme hsuper view hsame hfile
  exact resolve_local tree hs hscope hfound houter hx hkind hstatic hme hsuper hsame hfile

/-- A program with a variable and two forms, of which the first has a variable of that name; a
reference in this form leads to another object. -/
def shadowedContext : Context :=
  let file := "zfoo.prog.abap"
  let x : Variable := ⟨"x", .string none, [], file, ⟨1, 6⟩⟩
  let program : Scope := .fresh .program "zfoo" file ⟨⟨1, 1⟩, ⟨9, 1⟩⟩ none
  let first : Scope := .fresh .form "bar" file ⟨⟨2, 1⟩, ⟨5, 1⟩⟩ (some .root)
  let second : Scope := .fresh .form "baz" file ⟨⟨6, 1⟩, ⟨8, 1⟩⟩ (some .root)
  let foreign : Reference :=
    ⟨.dataRead, ⟨4, 3⟩, some (.dataObject "x" "zcl_qux.clas.abap" ⟨1, 1⟩)⟩
  { view := ⟨⟨#[{ program with children := [⟨1⟩, ⟨2⟩], vars := program.vars.insert "x" x },
        { first with vars := first.vars.insert "x" x, references := [foreign] }, second]⟩,
      Registry.empty.addFile "zcl_qux.clas.abap" ⟨.clas, "ZCL_QUX"⟩, file, ⟨.prog, "ZFOO"⟩⟩
    config := .standard }

theorem isTree_shadowedContext : shadowedContext.view.graph.IsTree where
  linked := ScopeGraph.linked_of_validate (by rfl)
  root_top hs := by
    cases hs
    rfl
  reached {id s} hs := by
    have hlt : id.index < 3 := ScopeGraph.index_lt_of_scope? hs
    have hform : ∀ form ∈ [(⟨1⟩ : ScopeId), ⟨2⟩], shadowedContext.view.graph.Above .root form :=
      fun form hmem => .single ⟨_, rfl, hmem⟩
    have hid : id.index = ScopeId.root.index ∨ id.index = (⟨1⟩ : ScopeId).index ∨
        id.index = (⟨2⟩ : ScopeId).index := by
      show id.index = 0 ∨ id.index = 1 ∨ id.index = 2
      omega
    rcases hid with hid | hid | hid <;> cases ScopeGraph.index_injective hid
    · exact .refl
    · exact hform _ (by decide)
    · exact hform _ (by decide)

/-- In the form the variable of the form counts, also after the program and the other form have got
another one, and the reference does not. -/
theorem innermost_declaration_decides_shadowedContext :
    shadowedContext.view.graph.findScopeOf? ⟨1⟩ "X" = .ok (some ⟨1⟩) ∧
    (∀ site x, site ∈ [ScopeId.root, ⟨2⟩] →
      ∃ g', shadowedContext.view.graph.addVariable site x = .ok g' ∧
        NamesAlike shadowedContext ⟨"X", ⟨4, 3⟩⟩ (.initial 0) g') ∧
    ask (·.resolve ⟨"X", ⟨4, 3⟩⟩) shadowedContext (.initial 0) =
      .ok .localName { EmissionState.initial 0 with slot := some ⟨⟨⟨2, 1⟩, ⟨5, 1⟩⟩, ⟨1⟩⟩ } := by
  have hscope : ask (fun _ => .scopeAround ⟨4, 3⟩) shadowedContext (.initial 0) =
      .ok (some ⟨1⟩) { EmissionState.initial 0 with slot := some ⟨⟨⟨2, 1⟩, ⟨5, 1⟩⟩, ⟨1⟩⟩ } := by
    rfl
  obtain ⟨found, -, hfound, -, h⟩ :=
    innermost_declaration_decides (t := ⟨"X", ⟨4, 3⟩⟩) isTree_shadowedContext rfl hscope
  have hform : shadowedContext.view.graph.findScopeOf? ⟨1⟩ "X" = .ok (some ⟨1⟩) := by
    decide
  cases hform.symm.trans hfound
  obtain ⟨hunseen, outer, x, houter, hx, hlocal⟩ := h ⟨1⟩ rfl
  cases houter
  refine ⟨hform, fun site y hsite => ?_, ?_⟩
  · rcases List.mem_pair.mp hsite with rfl | rfl
    · exact hunseen .root y (by decide) (.inl (.inl (.single ⟨_, rfl, by decide⟩)))
    · refine hunseen ⟨2⟩ y (by decide) (.inl (.inr fun habove => ?_))
      -- the way up from the first form leads to the program, not to the second form
      have linked := isTree_shadowedContext.linked
      obtain heq | ⟨parent, hparent, habove⟩ := (linked.above_iff_of_scope? rfl).mp habove
      · cases heq
      cases hparent
      obtain heq | ⟨_, hnone, -⟩ := (linked.above_iff_of_scope? rfl).mp habove
      · cases heq
      · cases hnone
  · have hstatic : ((shadowedContext.view.graph.declared? "X" ⟨1⟩).all (!·.isStatic)) = true := by
      decide
    rw [hx, Option.all_some, Bool.not_eq_true'] at hstatic
    exact hlocal (by decide) hstatic (by decide) (by decide) shadowedContext.view
      rfl rfl

end Emit

end AbapLowering
