import AbapLowering.Scope.Graph
import Mathlib.Data.List.Nodup
import Mathlib.Data.List.Perm.Subperm
import Mathlib.Logic.Relation

/-!
# Links of a scope graph

What follows from the check of the links (`validate`) for the graph as a whole:

- `Child`, `Above`, `Ancestor`: the links to children, and what they lead to;
- `Linked`: every link leads to a scope that links back, which is all that the check finds out
  (`linked_of_validate`);
- `ancestor_self_of_above`: links that agree keep circles away from what lies below a scope, unless
  that scope lies on a circle itself;
- `Rooted`: the links to parents lead to a scope without parent. What lies below a scope is rooted
  iff the scope is (`rooted_iff_of_above`), and no rooted scope lies on a circle.

The number of scopes bounds the length of every walk without repetition (`length_le_of_nodup`).
-/

namespace AbapLowering

namespace ScopeGraph

variable {g : ScopeGraph}

/-- `inner` is among the children of `outer`. -/
def Child (g : ScopeGraph) (outer inner : ScopeId) : Prop :=
  ∃ s, g.scope? outer = some s ∧ inner ∈ s.children

/-- `inner` is `outer` or lies below it. -/
def Above (g : ScopeGraph) : ScopeId → ScopeId → Prop := Relation.ReflTransGen g.Child

/-- `inner` lies below `outer`. -/
def Ancestor (g : ScopeGraph) : ScopeId → ScopeId → Prop := Relation.TransGen g.Child

/-- Every link leads to a scope that links back, and there is a root. -/
structure Linked (g : ScopeGraph) : Prop where
  root_exists : ∃ s, g.scope? .root = some s
  child_back : ∀ {outer inner}, g.Child outer inner →
    ∃ s, g.scope? inner = some s ∧ s.parent = some outer
  parent_back : ∀ {id s parent}, g.scope? id = some s → s.parent = some parent →
    g.Child parent id

/-! ## What the check finds out -/

/-- A scope that is there can be asked for. -/
theorem scope_eq_ok {id : ScopeId} {s : Scope} (h : g.scope? id = some s) :
    g.scope id = .ok s := by
  simp [scope, h]

/-- Every scope that has a number is in the list that the check goes through. -/
theorem mem_zipIdx_of_scope? {id : ScopeId} {s : Scope} (h : g.scope? id = some s) :
    (s, id.index) ∈ g.scopes.toList.zipIdx := by
  rw [List.mk_mem_zipIdx_iff_getElem?]
  simpa [scope?] using h

@[simp] theorem ofIndex_index (id : ScopeId) : ScopeId.ofIndex id.index = id := by
  simp [ScopeId.ofIndex, ScopeId.index]

/-- There is no fault if no check finds one. -/
theorem firstFault_eq_ok_iff {α ε : Type} {check : α → Except ε Unit} {l : List α} :
    firstFault check l = .ok () ↔ ∀ a ∈ l, check a = .ok () := by
  induction l with
  | nil => simp [firstFault]
  | cons a rest ih =>
    cases h : check a with
    | error e => simp [firstFault, h]
    | ok u => simp [firstFault, h, ih]

/-- A child is in order if it names its parent. -/
theorem checkChild_eq_ok_iff {id child : ScopeId} :
    g.checkChild id child = .ok () ↔ ∃ s, g.scope? child = some s ∧ s.parent = some id := by
  unfold checkChild
  cases g.scope? child with
  | none => simp
  | some s => by_cases h : s.parent = some id <;> simp [h]

/-- A parent is in order if it names its child. -/
theorem checkParent_eq_ok_iff {id : ScopeId} {parent : Option ScopeId} :
    g.checkParent id parent = .ok () ↔ ∀ p, parent = some p → g.Child p id := by
  unfold checkParent Child
  cases parent with
  | none => simp
  | some p =>
    cases hs : g.scope? p with
    | none => simp [hs]
    | some s => by_cases h : id ∈ s.children <;> simp [h, hs]

theorem checkScope_eq_ok_iff {id : ScopeId} {s : Scope} :
    g.checkScope id s = .ok () ↔
      (∀ child ∈ s.children, ∃ t, g.scope? child = some t ∧ t.parent = some id) ∧
        ∀ p, s.parent = some p → g.Child p id := by
  unfold checkScope
  rw [← checkParent_eq_ok_iff]
  have hchildren : firstFault (g.checkChild id) s.children = .ok () ↔
      ∀ child ∈ s.children, g.checkChild id child = .ok () := firstFault_eq_ok_iff
  simp only [checkChild_eq_ok_iff] at hchildren
  rw [← hchildren]
  cases firstFault (g.checkChild id) s.children with
  | error e => simp [bind, Except.bind]
  | ok u => simp [bind, Except.bind]

/-- The check looks at each link by itself: it finds out that all of them agree. -/
theorem linked_of_validate (valid : g.validate = .ok ()) : g.Linked := by
  unfold validate at valid
  split at valid
  · cases valid
  next hne =>
    rw [firstFault_eq_ok_iff] at valid
    have hscope : ∀ {id s}, g.scope? id = some s → g.checkScope id s = .ok () := by
      intro id s hs
      simpa using valid (s, id.index) (mem_zipIdx_of_scope? hs)
    refine ⟨?_, ?_, ?_⟩
    · have hpos : 0 < g.scopes.size := by
        rw [Array.size_pos_iff]
        simpa using hne
      exact ⟨g.scopes[0], by simp [scope?, ScopeId.index, ScopeId.root, hpos]⟩
    · rintro outer inner ⟨s, hs, hmem⟩
      exact (checkScope_eq_ok_iff.mp (hscope hs)).1 inner hmem
    · intro id s parent hs hparent
      exact (checkScope_eq_ok_iff.mp (hscope hs)).2 parent hparent

/-! ## Circles -/

/-- A scope is the child of one scope only. -/
theorem Linked.child_unique (linked : g.Linked) {a b inner : ScopeId}
    (ha : g.Child a inner) (hb : g.Child b inner) : a = b := by
  obtain ⟨s, hs, hsa⟩ := linked.child_back ha
  obtain ⟨t, ht, htb⟩ := linked.child_back hb
  rw [hs] at ht
  cases ht
  rw [hsa] at htb
  exact Option.some.inj htb

/-- Whatever is below the root is a scope. -/
theorem Linked.exists_scope (linked : g.Linked) {id : ScopeId} (h : g.Above .root id) :
    ∃ s, g.scope? id = some s := by
  cases Relation.ReflTransGen.cases_tail h with
  | inl heq => exact heq ▸ linked.root_exists
  | inr hlast =>
    obtain ⟨_, -, hchild⟩ := hlast
    obtain ⟨s, hs, -⟩ := linked.child_back hchild
    exact ⟨s, hs⟩

/-- Going against the links, a circle below a scope leads back to that scope. -/
theorem Linked.ancestor_self_of_above (linked : g.Linked) {top id : ScopeId}
    (habove : g.Above top id) (hcircle : g.Ancestor id id) : g.Ancestor top top := by
  induction habove with
  | refl => exact hcircle
  | tail _ hlink ih =>
    -- the link that closes the circle is the one from the scope before
    obtain ⟨last, hdown, hclose⟩ := Relation.TransGen.tail'_iff.mp hcircle
    cases linked.child_unique hclose hlink
    exact ih (Relation.TransGen.head' hlink hdown)

/-! ## Scopes whose parents lead to an end -/

/-- The links to parents lead to a scope without parent. -/
inductive Rooted (g : ScopeGraph) : ScopeId → Prop
  | top {id s} : g.scope? id = some s → s.parent = none → Rooted g id
  | up {id s parent} : g.scope? id = some s → s.parent = some parent → Rooted g parent →
    Rooted g id

/-- A child is rooted iff its parent is. -/
theorem Linked.rooted_iff_of_child (linked : g.Linked) {outer inner : ScopeId}
    (h : g.Child outer inner) : g.Rooted inner ↔ g.Rooted outer := by
  obtain ⟨s, hs, hparent⟩ := linked.child_back h
  constructor
  · intro hrooted
    cases hrooted with
    | top ht hnone => simp_all
    | up ht hsome hup => simp_all
  · exact .up hs hparent

theorem Linked.rooted_iff_of_above (linked : g.Linked) {outer inner : ScopeId}
    (h : g.Above outer inner) : g.Rooted inner ↔ g.Rooted outer := by
  induction h with
  | refl => exact Iff.rfl
  | tail _ hlink ih => exact (linked.rooted_iff_of_child hlink).trans ih

/-- No scope on a circle is rooted. -/
theorem Linked.not_ancestor_self_of_rooted (linked : g.Linked) {id : ScopeId}
    (h : g.Rooted id) : ¬ g.Ancestor id id := by
  induction h with
  | top hs hnone =>
    intro hcircle
    obtain ⟨_, -, hclose⟩ := Relation.TransGen.tail'_iff.mp hcircle
    obtain ⟨t, ht, hparent⟩ := linked.child_back hclose
    simp_all
  | up hs hsome _ ih =>
    intro hcircle
    exact ih (linked.ancestor_self_of_above (.single (linked.parent_back hs hsome)) hcircle)

/-! ## Walks without repetition -/

theorem index_injective : Function.Injective ScopeId.index := by
  intro a b h
  rw [← ofIndex_index a, ← ofIndex_index b, h]

/-- A walk that meets no scope twice is no longer than there are scopes. -/
theorem length_le_of_nodup {walk : List ScopeId} (hnodup : walk.Nodup)
    (hexists : ∀ id ∈ walk, ∃ s, g.scope? id = some s) : walk.length ≤ g.scopes.size := by
  have hsub : walk.map ScopeId.index ⊆ List.range g.scopes.size := by
    intro n hn
    obtain ⟨id, hid, rfl⟩ := List.mem_map.mp hn
    obtain ⟨s, hs⟩ := hexists id hid
    rw [List.mem_range]
    exact (Array.getElem?_eq_some_iff.mp hs).1
  have hle := ((hnodup.map index_injective).subperm hsub).length_le
  simpa using hle

end ScopeGraph

end AbapLowering
