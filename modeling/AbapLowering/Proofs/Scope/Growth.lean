import AbapLowering.Proofs.Scope.Search
import Mathlib.Data.List.Range

/-!
# Graphs that grow

A graph starts with its root and grows by additions: of scopes and, in a scope, of what is declared
or referred to there.

- `Addition`: what can be added, always to a scope that exists (`Addition.site`);
- `Addition.Effect`: all that an addition does. It changes the scope it is made to, and no other
  (`exists_addTo`);
- `Grown`: the graphs that additions lead to;
- `Ordered`: the invariant. Parents come before their children, and the children of a scope are, in
  the order of their numbers, just the scopes that name it as their parent.

An addition keeps the order (`Ordered.add`), so every graph that has grown is in order
(`Grown.ordered`). From the order follows what walks rely on: the links agree, and the way up from
any scope leads, number by number downwards, to the root.

Numbers of scopes are machine words. All of this holds as long as the words suffice.
-/

namespace AbapLowering

namespace ScopeGraph

variable {g g' : ScopeGraph} {id : ScopeId}

/-- What can be added to a scope of a graph. -/
inductive Addition where
  | newScope (parent : ScopeId) (kind : ScopeKind) (name file : String) (coverage : Span)
  | newVariable (site : ScopeId) (v : Variable)
  | newClass (site : ScopeId) (c : ClassDefinition)
  | newInterface (site : ScopeId) (i : InterfaceDefinition)
  | newReference (site : ScopeId) (r : Reference)

namespace Addition

/-- The scope that an addition is made to. -/
def site : Addition → ScopeId
  | .newScope parent _ _ _ _ => parent
  | .newVariable site _ | .newClass site _ | .newInterface site _ | .newReference site _ => site

/-- The graph after an addition. -/
def addTo (g : ScopeGraph) : Addition → Except GraphFault ScopeGraph
  | .newScope parent kind name file coverage =>
    (g.addScope parent kind name file coverage).map (·.1)
  | .newVariable site v => g.addVariable site v
  | .newClass site c => g.addClass site c
  | .newInterface site i => g.addInterface site i
  | .newReference site r => g.addReference site r

/-- The number that a scope gets if it is added to a graph. -/
def nextId (g : ScopeGraph) : ScopeId := .ofIndex g.scopes.size

/-- The scope that an addition appends to a graph. -/
def appended? : Addition → Option Scope
  | .newScope parent kind name file coverage => some (.fresh kind name file coverage (some parent))
  | _ => none

/-- The scope that an addition is made to, after it. -/
def change (g : ScopeGraph) : Addition → Scope → Scope
  | .newScope _ _ _ _ _, s => { s with children := s.children ++ [nextId g] }
  | .newVariable _ v, s => { s with vars := s.vars.insert (Text.toLower v.name) v }
  | .newClass _ c, s => { s with classes := s.classes.insert (Text.toLower c.name) c }
  | .newInterface _ i, s => { s with interfaces := s.interfaces.insert (Text.toLower i.name) i }
  | .newReference _ r, s => { s with references := s.references ++ [r] }

/-- All that an addition does to a graph: scopes that were there stay as they are, apart from the
scope that the addition is made to. -/
structure Effect (a : Addition) (g g' : ScopeGraph) : Prop where
  size_eq : g'.scopes.size = g.scopes.size + a.appended?.toList.length
  elsewhere : ∀ {id s}, g.scope? id = some s → id ≠ a.site → g'.scope? id = some s
  at_site : ∀ {s}, g.scope? a.site = some s → g'.scope? a.site = some (a.change g s)
  at_end : ∀ {s}, a.appended? = some s → g'.scope? (nextId g) = some s

end Addition

variable {a : Addition}

/-! ## What an addition does -/

theorem index_ofIndex {n : Nat} (h : n < UInt32.size) : (ScopeId.ofIndex n).index = n := by
  simp only [ScopeId.index, ScopeId.ofIndex, UInt32.toNat_ofNat']
  exact Nat.mod_eq_of_lt h

theorem index_lt_of_scope? {s : Scope} (h : g.scope? id = some s) : id.index < g.scopes.size :=
  (Array.getElem?_eq_some_iff.mp h).1

theorem exists_scope?_of_lt (h : id.index < g.scopes.size) : ∃ s, g.scope? id = some s :=
  ⟨g.scopes[id.index], Array.getElem?_eq_getElem h⟩

/-- A change of a scope that exists changes this scope alone. -/
theorem exists_modify (f : Scope → Scope) (h : id.index < g.scopes.size) :
    ∃ g', g.modify id f = .ok g' ∧ g'.scopes.size = g.scopes.size ∧
      (∀ other, other ≠ id → g'.scope? other = g.scope? other) ∧
      g'.scope? id = (g.scope? id).map f := by
  refine ⟨⟨g.scopes.modify id.index f⟩, if_pos h, by simp, ?_, ?_⟩
  · intro other hne
    have hplace : id.index ≠ other.index := fun heq => hne (index_injective heq).symm
    simp [scope?, Array.getElem?_modify, hplace]
  · simp [scope?, Array.getElem?_modify]

/-- What is entered in a scope leaves the number of scopes as it is. -/
theorem exists_addTo_entry (hsite : a.site.index < g.scopes.size) (hnone : a.appended? = none)
    (hadd : a.addTo g = g.modify a.site (a.change g)) :
    ∃ g', a.addTo g = .ok g' ∧ a.Effect g g' := by
  obtain ⟨g', hg', hlength, hother, hself⟩ := exists_modify (a.change g) hsite
  refine ⟨g', hadd.trans hg', by simp [hnone, hlength], ?_, ?_, by simp [hnone]⟩
  · intro id s hs hne
    rw [hother id hne, hs]
  · intro s hs
    rw [hself, hs]
    rfl

/-- Additions to a scope that exists always succeed. -/
theorem exists_addTo (a : Addition) (hsite : a.site.index < g.scopes.size)
    (hsize : g.scopes.size < UInt32.size) : ∃ g', a.addTo g = .ok g' ∧ a.Effect g g' := by
  cases a with
  | newScope parent kind name file coverage =>
    have hparent : parent.index < g.scopes.size := hsite
    have hpushed : parent.index <
        (g.scopes.push (.fresh kind name file coverage (some parent))).size := by
      rw [Array.size_push]
      omega
    obtain ⟨g', hg', hlength, hother, hself⟩ :=
      @exists_modify ⟨g.scopes.push (.fresh kind name file coverage (some parent))⟩ parent
        (fun s => { s with children := s.children ++ [Addition.nextId g] }) hpushed
    -- the scope at the end is new, so it is not the parent
    have hnext : (Addition.nextId g).index = g.scopes.size := index_ofIndex hsize
    have hnew : Addition.nextId g ≠ parent := by
      rintro rfl
      omega
    have hold : ∀ {other s}, g.scope? other = some s →
        (⟨g.scopes.push (.fresh kind name file coverage (some parent))⟩ : ScopeGraph).scope? other
          = some s := by
      intro other s hs
      have hlt := index_lt_of_scope? hs
      rw [← hs]
      simp [scope?, Array.getElem?_push, Nat.ne_of_lt hlt]
    refine ⟨g', ?_, by simpa [Addition.appended?] using hlength, ?_, ?_, ?_⟩
    · simp only [Addition.addTo, addScope, Addition.nextId] at hg' ⊢
      rw [hg']
      rfl
    · intro id s hs hne
      rw [hother id hne, hold hs]
    · intro s hs
      have hs : g.scope? parent = some s := hs
      rw [hold hs] at hself
      exact hself
    · intro s hs
      rw [hother _ hnew, scope?, hnext]
      simpa [Addition.appended?] using hs
  | newVariable => exact exists_addTo_entry hsite rfl rfl
  | newClass => exact exists_addTo_entry hsite rfl rfl
  | newInterface => exact exists_addTo_entry hsite rfl rfl
  | newReference => exact exists_addTo_entry hsite rfl rfl

/-! ## Graphs in order -/

/-- The parent that a scope names. -/
def parent? (g : ScopeGraph) (id : ScopeId) : Option ScopeId := (g.scope? id).bind (·.parent)

/-- The numbers of all scopes, in their order. -/
def ids (g : ScopeGraph) : List ScopeId := (List.range g.scopes.size).map .ofIndex

/-- Parents come before their children, and a scope lists its children in order. -/
structure Ordered (g : ScopeGraph) : Prop where
  size_pos : 0 < g.scopes.size
  size_le : g.scopes.size ≤ UInt32.size
  root_top : g.parent? .root = none
  parent_lt : ∀ {id}, id.index < g.scopes.size → id ≠ .root →
    ∃ parent, g.parent? id = some parent ∧ parent.index < id.index
  children_eq : ∀ {id s}, g.scope? id = some s →
    s.children = g.ids.filter (fun child => g.parent? child = some id)

theorem parent?_eq_of_scope? {s : Scope} (h : g.scope? id = some s) : g.parent? id = s.parent := by
  rw [parent?, h]
  rfl

theorem mem_ids_iff (hsize : g.scopes.size ≤ UInt32.size) :
    id ∈ g.ids ↔ id.index < g.scopes.size := by
  rw [ids, List.mem_map]
  constructor
  · rintro ⟨n, hn, rfl⟩
    have hlt : n < g.scopes.size := List.mem_range.mp hn
    rw [index_ofIndex (by omega)]
    exact hlt
  · intro hid
    exact ⟨id.index, List.mem_range.mpr hid, ofIndex_index id⟩

theorem pairwise_ids (hsize : g.scopes.size ≤ UInt32.size) :
    g.ids.Pairwise (fun a b => a.index < b.index) := by
  rw [ids, List.pairwise_map]
  refine List.Pairwise.imp_of_mem ?_ List.pairwise_lt_range
  intro m n hm hn hlt
  rw [List.mem_range] at hm hn
  rw [index_ofIndex (by omega), index_ofIndex (by omega)]
  exact hlt

/-- A scope of a graph in order comes after the parent that it names. -/
theorem Ordered.index_lt_of_parent? (hg : g.Ordered) {parent : ScopeId}
    (hparent : g.parent? id = some parent) :
    parent.index < id.index ∧ id.index < g.scopes.size := by
  obtain ⟨s, hs, -⟩ := Option.bind_eq_some_iff.mp hparent
  have hlt := index_lt_of_scope? hs
  have hroot : id ≠ .root := by
    rintro rfl
    rw [hg.root_top] at hparent
    cases hparent
  obtain ⟨outer, houter, hbefore⟩ := hg.parent_lt hlt hroot
  cases houter.symm.trans hparent
  exact ⟨hbefore, hlt⟩

/-- No scope of a graph in order names a parent whose number is not given out yet. -/
theorem Ordered.parent?_ne_of_size_le (hg : g.Ordered) {outer : ScopeId}
    (hnew : g.scopes.size ≤ outer.index) (id : ScopeId) : g.parent? id ≠ some outer := by
  intro hparent
  obtain ⟨hbefore, hlt⟩ := hg.index_lt_of_parent? hparent
  omega

/-- A graph with one scope has only the root. -/
theorem eq_root_of_index_lt_one (h : id.index < 1) : id = .root :=
  index_injective (show id.index = 0 by omega)

/-- The graph with only the root is in order. -/
theorem ordered_single (kind : ScopeKind) (name file : String) (coverage : Span) :
    (single kind name file coverage).Ordered := by
  refine ⟨Nat.one_pos, ?_, rfl, ?_, ?_⟩
  · show 1 ≤ UInt32.size
    decide
  · intro id hid hne
    exact absurd (eq_root_of_index_lt_one hid) hne
  · intro id s hs
    cases eq_root_of_index_lt_one (index_lt_of_scope? hs)
    cases hs
    rfl

namespace Addition

@[simp] theorem change_parent (s : Scope) : (a.change g s).parent = s.parent := by
  cases a <;> rfl

theorem change_children (s : Scope) :
    (a.change g s).children = s.children ++ a.appended?.toList.map fun _ => nextId g := by
  cases a <;> simp [change, appended?]

theorem appended?_links {s : Scope} (h : a.appended? = some s) :
    s.parent = some a.site ∧ s.children = [] := by
  cases a with
  | newScope =>
    cases h
    exact ⟨rfl, rfl⟩
  | _ => cases h

namespace Effect

/-- No addition changes the parent of a scope that was there. -/
theorem parent?_eq (h : a.Effect g g') (hid : id.index < g.scopes.size) :
    g'.parent? id = g.parent? id := by
  obtain ⟨s, hs⟩ := exists_scope?_of_lt hid
  rw [parent?_eq_of_scope? hs]
  by_cases hsite : id = a.site
  · cases hsite
    rw [parent?_eq_of_scope? (h.at_site hs), change_parent]
  · rw [parent?_eq_of_scope? (h.elsewhere hs hsite)]

theorem ids_eq (h : a.Effect g g') :
    g'.ids = g.ids ++ a.appended?.toList.map fun _ => nextId g := by
  rw [ids, h.size_eq]
  cases a.appended? with
  | none => simp [ids]
  | some s => simp [ids, nextId, List.range_succ]

/-- What was not there before is the scope that is appended. -/
theorem eq_nextId (h : a.Effect g g') (hnew : g.scopes.size ≤ id.index)
    (hid : id.index < g'.scopes.size) : id = nextId g ∧ ∃ s, a.appended? = some s := by
  have hsize := h.size_eq
  cases happ : a.appended? with
  | none =>
    rw [happ, Option.toList_none, List.length_nil] at hsize
    omega
  | some s =>
    rw [happ, Option.toList_some, List.length_singleton] at hsize
    have hindex : id.index = g.scopes.size := by omega
    exact ⟨by rw [nextId, ← hindex, ofIndex_index], s, rfl⟩

end Effect

end Addition

/-- An addition keeps a graph in order. -/
theorem Ordered.add (hg : g.Ordered) (hsite : a.site.index < g.scopes.size)
    (h : a.Effect g g') (hsize : g'.scopes.size ≤ UInt32.size) : g'.Ordered := by
  have hgrows : g.scopes.size ≤ g'.scopes.size := by
    rw [h.size_eq]
    omega
  refine ⟨by have := hg.size_pos; omega, hsize, ?_, ?_, ?_⟩
  · have hroot : ScopeId.root.index < g.scopes.size := hg.size_pos
    rw [h.parent?_eq hroot]
    exact hg.root_top
  · intro id hid hne
    by_cases hold : id.index < g.scopes.size
    · rw [h.parent?_eq hold]
      exact hg.parent_lt hold hne
    · obtain ⟨rfl, s, happ⟩ := h.eq_nextId (by omega) hid
      rw [parent?_eq_of_scope? (h.at_end happ), (Addition.appended?_links happ).1]
      exact ⟨a.site, rfl, by omega⟩
  · intro id s' hs'
    rw [h.ids_eq, List.filter_append]
    -- the scopes that were there name the parents that they named before
    have hkept : g.ids.filter (fun child => g'.parent? child = some id) =
        g.ids.filter (fun child => g.parent? child = some id) := by
      refine List.filter_congr fun child hchild => ?_
      rw [h.parent?_eq ((mem_ids_iff hg.size_le).mp hchild)]
    rw [hkept]
    by_cases hold : id.index < g.scopes.size
    · obtain ⟨s, hs⟩ := exists_scope?_of_lt hold
      rw [← hg.children_eq hs]
      by_cases hid : id = a.site
      · cases hid
        cases (h.at_site hs).symm.trans hs'
        rw [Addition.change_children]
        cases happ : a.appended? with
        | none => rfl
        | some t => simp [parent?_eq_of_scope? (h.at_end happ), (Addition.appended?_links happ).1]
      · cases (h.elsewhere hs hid).symm.trans hs'
        cases happ : a.appended? with
        | none => simp
        | some t =>
          have hne : a.site ≠ id := fun heq => hid heq.symm
          simp [parent?_eq_of_scope? (h.at_end happ), (Addition.appended?_links happ).1, hne]
    · -- the appended scope is the parent of no scope, since parents come first
      obtain ⟨rfl, t, happ⟩ := h.eq_nextId (by omega) (index_lt_of_scope? hs')
      cases (h.at_end happ).symm.trans hs'
      have hne : a.site ≠ Addition.nextId g := by
        rintro heq
        rw [heq] at hsite
        omega
      have hnone : ∀ child, g.parent? child ≠ some (Addition.nextId g) :=
        hg.parent?_ne_of_size_le (by omega)
      simp [hnone, happ, parent?_eq_of_scope? (h.at_end happ),
        (Addition.appended?_links happ).1, (Addition.appended?_links happ).2, hne]

/-! ## What follows from the order -/

/-- The links of a graph in order agree. -/
theorem Ordered.linked (hg : g.Ordered) : g.Linked := by
  refine ⟨exists_scope?_of_lt hg.size_pos, ?_, ?_⟩
  · rintro outer inner ⟨s, hs, hmem⟩
    rw [hg.children_eq hs, List.mem_filter, mem_ids_iff hg.size_le, decide_eq_true_eq] at hmem
    obtain ⟨t, ht⟩ := exists_scope?_of_lt hmem.1
    exact ⟨t, ht, (parent?_eq_of_scope? ht).symm.trans hmem.2⟩
  · intro id s parent hs hparent
    have hnamed : g.parent? id = some parent := (parent?_eq_of_scope? hs).trans hparent
    obtain ⟨hbefore, hlt⟩ := hg.index_lt_of_parent? hnamed
    obtain ⟨t, ht⟩ := exists_scope?_of_lt (hbefore.trans hlt)
    refine ⟨t, ht, ?_⟩
    rw [hg.children_eq ht, List.mem_filter, mem_ids_iff hg.size_le, decide_eq_true_eq]
    exact ⟨hlt, hnamed⟩

/-- The check accepts every graph whose links agree, if the numbers of its scopes are words. -/
theorem Linked.validate_eq_ok (linked : g.Linked) (hsize : g.scopes.size ≤ UInt32.size) :
    g.validate = .ok () := by
  obtain ⟨root, hroot⟩ := linked.root_exists
  have hne : g.scopes.isEmpty = false := by
    rw [Array.isEmpty_eq_false_iff, ← Array.size_pos_iff]
    exact Nat.zero_lt_of_lt (index_lt_of_scope? hroot)
  rw [validate, hne, if_neg (by simp), firstFault_eq_ok_iff]
  rintro ⟨s, n⟩ hmem
  have hs : g.scopes[n]? = some s := by
    simpa using List.mk_mem_zipIdx_iff_getElem?.mp hmem
  have hlt : n < g.scopes.size := (Array.getElem?_eq_some_iff.mp hs).1
  have hscope : g.scope? (.ofIndex n) = some s := by
    rw [scope?, index_ofIndex (by omega)]
    exact hs
  refine checkScope_eq_ok_iff.mpr ⟨fun child hchild => ?_, fun p hp => ?_⟩
  · exact linked.child_back ⟨s, hscope, hchild⟩
  · exact linked.parent_back hscope hp

/-- Every scope of a graph in order is rooted. -/
theorem Ordered.rooted (hg : g.Ordered) {n : Nat} (hn : id.index = n) (hlt : n < g.scopes.size) :
    g.Rooted id := by
  induction n using Nat.strong_induction_on generalizing id with
  | _ n ih =>
    obtain ⟨s, hs⟩ := exists_scope?_of_lt (hn ▸ hlt)
    by_cases hroot : id = .root
    · have hnone := parent?_eq_of_scope? hs
      rw [hroot, hg.root_top] at hnone
      exact .top hs hnone.symm
    · obtain ⟨parent, hparent, hbefore⟩ := hg.parent_lt (hn ▸ hlt) hroot
      rw [parent?_eq_of_scope? hs] at hparent
      exact .up hs hparent (ih parent.index (by omega) rfl (by omega))

/-- The way up from a scope starts there and leads downwards through the numbers. -/
theorem Ordered.descends (hg : g.Ordered) {height : Nat} {chain : List ScopeId}
    (h : g.ancestorsFrom height id = .ok chain) :
    chain.head? = some id ∧ chain.Pairwise (fun a b => b.index < a.index) := by
  induction height generalizing id chain with
  | zero => cases h
  | succ height ih =>
    obtain ⟨s, hs, ⟨-, rfl⟩ | ⟨parent, rest, hparent, hrest, rfl⟩⟩ := ancestorsFrom_succ_eq_ok h
    · exact ⟨rfl, List.pairwise_singleton _ _⟩
    · obtain ⟨hhead, hdown⟩ := ih hrest
      have hbefore : parent.index < id.index :=
        (hg.index_lt_of_parent? ((parent?_eq_of_scope? hs).trans hparent)).1
      -- the parent comes first in the rest, and the rest leads downwards from it
      obtain ⟨tail, rfl⟩ := List.head?_eq_some_iff.mp hhead
      refine ⟨rfl, List.pairwise_cons.mpr ⟨fun b hb => ?_, hdown⟩⟩
      rcases List.mem_cons.mp hb with rfl | hb
      · exact hbefore
      · exact ((List.pairwise_cons.mp hdown).1 b hb).trans hbefore

/-- The way up from a scope of a graph in order ends at the root. -/
theorem Ordered.exists_ancestors (hg : g.Ordered) (hid : id.index < g.scopes.size) :
    ∃ chain, g.ancestors id = .ok chain ∧ chain.head? = some id ∧
      chain.Pairwise (fun a b => b.index < a.index) ∧ chain.getLast? = some .root := by
  obtain ⟨chain, hchain⟩ := hg.linked.ancestors_iff_rooted.mpr (hg.rooted rfl hid)
  obtain ⟨hhead, hdown⟩ := hg.descends hchain
  obtain ⟨-, last, s, hlast, hs, htop⟩ := rooted_of_ancestorsFrom hchain
  refine ⟨chain, hchain, hhead, hdown, ?_⟩
  by_cases hroot : last = .root
  · rw [hlast, hroot]
  · obtain ⟨parent, hparent, -⟩ := hg.parent_lt (index_lt_of_scope? hs) hroot
    rw [parent?_eq_of_scope? hs, htop] at hparent
    cases hparent

/-- The children of a scope are listed in the order of their numbers. -/
theorem Ordered.pairwise_children (hg : g.Ordered) {s : Scope} (hs : g.scope? id = some s) :
    s.children.Pairwise (fun a b => a.index < b.index) := by
  rw [hg.children_eq hs]
  exact (pairwise_ids hg.size_le).filter _

/-- Every scope but the root is listed once by its parent, and by no other scope. -/
theorem Ordered.exists_listing (hg : g.Ordered) (hid : id.index < g.scopes.size)
    (hne : id ≠ .root) :
    ∃ outer s, g.scope? outer = some s ∧ s.children.count id = 1 ∧
      ∀ other t, g.scope? other = some t → other ≠ outer → id ∉ t.children := by
  obtain ⟨outer, hparent, hbefore⟩ := hg.parent_lt hid hne
  obtain ⟨s, hs⟩ := exists_scope?_of_lt (hbefore.trans hid)
  have hlisted : ∀ {other t}, g.scope? other = some t → (id ∈ t.children ↔ other = outer) := by
    intro other t ht
    rw [hg.children_eq ht, List.mem_filter, mem_ids_iff hg.size_le, hparent]
    simp [hid, eq_comm]
  have hnodup : s.children.Nodup := by
    refine (hg.pairwise_children hs).imp ?_
    rintro a _ hlt rfl
    exact Nat.lt_irrefl _ hlt
  refine ⟨outer, s, hs, List.count_eq_one_of_mem hnodup ((hlisted hs).mpr rfl), ?_⟩
  intro other t ht hother hmem
  exact hother ((hlisted ht).mp hmem)

/-! ## Graphs that have grown -/

/-- The graphs that additions to scopes that exist lead to, from a graph with only the root. -/
inductive Grown : ScopeGraph → Prop
  | single (kind : ScopeKind) (name file : String) (coverage : Span) :
    Grown (single kind name file coverage)
  | add {g g' : ScopeGraph} (a : Addition) : Grown g → a.site.index < g.scopes.size →
    a.addTo g = .ok g' → Grown g'

theorem size_of_modify {f : Scope → Scope} (h : g.modify id f = .ok g') :
    g'.scopes.size = g.scopes.size := by
  rw [modify] at h
  split at h
  · cases h
    exact Array.size_modify
  · cases h

/-- No addition takes a scope away. -/
theorem size_le_of_addTo (h : a.addTo g = .ok g') : g.scopes.size ≤ g'.scopes.size := by
  cases a with
  | newScope parent kind name file coverage =>
    simp only [Addition.addTo, addScope] at h
    cases hlink : modify ⟨g.scopes.push (.fresh kind name file coverage (some parent))⟩ parent
        fun s => { s with children := s.children ++ [.ofIndex g.scopes.size] } with
    | error e =>
      rw [hlink] at h
      cases h
    | ok linked =>
      rw [hlink] at h
      cases h
      rw [size_of_modify hlink, Array.size_push]
      exact Nat.le_succ _
  | newVariable => exact (size_of_modify h).ge
  | newClass => exact (size_of_modify h).ge
  | newInterface => exact (size_of_modify h).ge
  | newReference => exact (size_of_modify h).ge

/-- Every graph that has grown is in order. -/
theorem Grown.ordered (h : g.Grown) (hsize : g.scopes.size < UInt32.size) : g.Ordered := by
  induction h with
  | single kind name file coverage => exact ordered_single kind name file coverage
  | @add g g' a _ hsite hadd ih =>
    have hbefore : g.scopes.size < UInt32.size := (size_le_of_addTo hadd).trans_lt hsize
    obtain ⟨g'', hadd', heffect⟩ := exists_addTo a hsite hbefore
    cases hadd'.symm.trans hadd
    exact (ih hbefore).add hsite heffect hsize.le

/-- What holds of every graph that has grown, however it did. Its links pass the check. The root has
no parent and every other scope a parent with a smaller number. Each scope lists its children in the
order of their numbers, and every scope but the root is listed once, by one scope. The way up from a
scope leads downwards through the numbers to the root. Whatever is added to a scope of the graph is
added, and leaves the other scopes as they were. -/
theorem grown_sound (h : g.Grown) (hsize : g.scopes.size < UInt32.size) :
    g.validate = .ok () ∧
    (∃ s, g.scope? .root = some s ∧ s.parent = none) ∧
    (∀ id s, g.scope? id = some s → id ≠ .root →
      ∃ parent, s.parent = some parent ∧ parent.index < id.index) ∧
    (∀ id s, g.scope? id = some s → s.children.Pairwise (fun a b => a.index < b.index)) ∧
    (∀ id, id.index < g.scopes.size → id ≠ .root →
      ∃ outer s, g.scope? outer = some s ∧ s.children.count id = 1 ∧
        ∀ other t, g.scope? other = some t → other ≠ outer → id ∉ t.children) ∧
    (∀ id, id.index < g.scopes.size →
      ∃ chain, g.ancestors id = .ok chain ∧ chain.head? = some id ∧
        chain.Pairwise (fun a b => b.index < a.index) ∧ chain.getLast? = some .root) ∧
    (∀ a : Addition, a.site.index < g.scopes.size →
      ∃ g', a.addTo g = .ok g' ∧ a.Effect g g' ∧ g'.Grown) := by
  have hg := h.ordered hsize
  refine ⟨hg.linked.validate_eq_ok hg.size_le, ?_, ?_, fun _ _ => hg.pairwise_children,
    fun _ => hg.exists_listing, fun _ => hg.exists_ancestors, ?_⟩
  -- the root was there first, and has no parent
  · have hroot : ScopeId.root.index < g.scopes.size := hg.size_pos
    obtain ⟨s, hs⟩ := exists_scope?_of_lt hroot
    exact ⟨s, hs, (parent?_eq_of_scope? hs).symm.trans hg.root_top⟩
  · intro id s hs hne
    rw [← parent?_eq_of_scope? hs]
    exact hg.parent_lt (index_lt_of_scope? hs) hne
  -- every addition at a scope that exists succeeds
  · intro a hsite
    obtain ⟨g', hadd, heffect⟩ := exists_addTo a hsite hsize
    exact ⟨g', hadd, heffect, h.add a hsite hadd⟩

theorem grown_sound_formInProgram :
    formInProgram.Grown ∧ formInProgram.scopes.size < UInt32.size ∧
    formInProgram.validate = .ok () ∧
    ∃ chain, formInProgram.ancestors ⟨1⟩ = .ok chain ∧ chain.getLast? = some .root := by
  have hgrown : formInProgram.Grown :=
    .add (.newScope .root .form "bar" "zfoo.prog.abap" ⟨⟨2, 1⟩, ⟨5, 1⟩⟩)
      (.single .program "zfoo" "zfoo.prog.abap" ⟨⟨1, 1⟩, ⟨9, 1⟩⟩) (by decide) rfl
  have hsize : formInProgram.scopes.size < UInt32.size := by decide
  obtain ⟨valid, -, -, -, -, hup, -⟩ := grown_sound hgrown hsize
  obtain ⟨chain, hchain, -, -, hlast⟩ := hup ⟨1⟩ (by decide)
  exact ⟨hgrown, hsize, valid, chain, hchain, hlast⟩

end ScopeGraph

end AbapLowering
