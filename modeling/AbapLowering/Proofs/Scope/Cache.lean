import AbapLowering.Proofs.Location
import AbapLowering.Proofs.Scope.Search
import AbapLowering.Scope.View

/-!
# The leaf found last

Questions about positions remember the leaf that was found last and take a position that it covers
to lie in it, whatever else covers the position. This is right where scopes are nested as the blocks
of a source file are:

- `Nested`: a scope covers the scopes of the same file below it, and other scopes of that file have
  no position in common;
- `Linked.locate_of_leaf`: there a search finds the leaf around a position, if there is one;
- `Faithful`: what is remembered agrees with the graph. Looking for a position keeps it so
  (`Linked.reuse_eq_locate`), and so does every question, which gets the same answer as without
  memory (`Linked.run_eq_direct`);
- `View.answers_eq_direct`: any questions in any order get the answers they would get on their own.
-/

namespace AbapLowering

namespace ScopeGraph

variable {g : ScopeGraph} {file : String}

/-! ## Nested scopes -/

/-- The scopes of a file are nested like blocks. -/
structure Nested (g : ScopeGraph) (file : String) : Prop where
  inside : ∀ {outer inner s t}, g.Above .root outer → g.Ancestor outer inner →
    g.scope? outer = some s → g.scope? inner = some t → s.file = file → t.file = file →
    ∀ p, t.coverage.contains p = true → s.coverage.contains p = true
  apart : ∀ {a b s t}, g.Above .root a → g.Above .root b → a ≠ b →
    ¬ g.Ancestor a b → ¬ g.Ancestor b a →
    g.scope? a = some s → g.scope? b = some t → s.file = file → t.file = file →
    ∀ p, s.coverage.contains p = true → t.coverage.contains p = false

/-- A leaf of the file that can be reached from the root. -/
structure Leaf (g : ScopeGraph) (file : String) (id : ScopeId) (s : Scope) : Prop where
  above : g.Above .root id
  exists_scope : g.scope? id = some s
  file_eq : s.file = file
  isLeaf : s.isLeaf = true

variable {leaf : ScopeId} {s : Scope} {p : Position}

/-- Nothing lies below a leaf. -/
theorem Leaf.not_ancestor (hleaf : g.Leaf file leaf s) (id : ScopeId) : ¬ g.Ancestor leaf id := by
  intro h
  obtain ⟨child, ⟨t, ht, hchild⟩, -⟩ := Relation.TransGen.head'_iff.mp h
  cases Option.some.inj (hleaf.exists_scope.symm.trans ht)
  have hempty : s.children = [] := by simpa [Scope.isLeaf] using hleaf.isLeaf
  simp [hempty] at hchild

/-- Among nested scopes, one that covers a position of a leaf lies above the leaf. -/
theorem Leaf.above_of_contains (hleaf : g.Leaf file leaf s) (nested : g.Nested file)
    (hin : s.coverage.contains p = true) {id : ScopeId} {t : Scope} (habove : g.Above .root id)
    (ht : g.scope? id = some t) (hfile : t.file = file) (hcovers : t.coverage.contains p = true) :
    g.Above id leaf := by
  by_cases heq : id = leaf
  · exact heq ▸ .refl
  · by_cases hup : g.Ancestor id leaf
    · exact hup.to_reflTransGen
    · have hout := nested.apart habove hleaf.above heq hup (hleaf.not_ancestor id) ht
        hleaf.exists_scope hfile hleaf.file_eq p hcovers
      rw [hin] at hout
      cases hout

/-- What leads to a leaf of the file from a scope, unless the scope is the leaf, is one of the
scope's children. -/
theorem exists_child_above {id : ScopeId} {t : Scope} (ht : g.scope? id = some t) (hne : id ≠ leaf)
    (habove : g.Above id leaf) : ∃ child ∈ t.children, g.Above child leaf := by
  rcases Relation.ReflTransGen.cases_head habove with heq | ⟨child, ⟨t', ht', hchild⟩, hdown⟩
  · exact absurd heq hne
  · cases Option.some.inj (ht.symm.trans ht')
    exact ⟨child, hchild, hdown⟩

/-- A search below scopes that lead to a leaf around the position finds the leaf: a scope that does
not cover the position is not above the leaf, and a scope that covers it is. -/
theorem Leaf.found_of_finds (hleaf : g.Leaf file leaf s) (nested : g.Nested file)
    (hin : s.coverage.contains p = true) {ids : List ScopeId} {found : Option ScopeId}
    (h : g.Finds p file ids found) (hids : ∀ id ∈ ids, g.Above .root id)
    (hleads : ∃ id ∈ ids, g.Above id leaf) : found = some leaf := by
  have hbelow : ∀ {id : ScopeId} {t : Scope}, g.scope? id = some t → g.Above .root id →
      ∀ child ∈ t.children, g.Above .root child :=
    fun ht habove child hchild => habove.tail ⟨_, ht, hchild⟩
  induction h with
  | nil => simp at hleads
  | @hidden id t rest _ ht hfile hout _ ih =>
    -- the scope that leads to the leaf covers what the leaf covers, so it is not passed over
    obtain ⟨habove, hrest⟩ := List.forall_mem_cons.mp hids
    obtain ⟨top, htop, hup⟩ := hleads
    rcases List.mem_cons.mp htop with rfl | htop
    · have hcovers : t.coverage.contains p = true := by
        rcases Relation.reflTransGen_iff_eq_or_transGen.mp hup with rfl | hup
        · cases Option.some.inj (ht.symm.trans hleaf.exists_scope)
          exact hin
        · exact nested.inside habove hup ht hleaf.exists_scope hfile hleaf.file_eq p hin
      rw [hout] at hcovers
      cases hcovers
    · exact ih hrest ⟨top, htop, hup⟩
  | inside ht _ hfinds ih =>
    -- what is found covers the position too, so it lies above the leaf
    obtain ⟨habove, -⟩ := List.forall_mem_cons.mp hids
    obtain ⟨⟨child, hchild, hdown⟩, t, hinner, hfile, hcovers⟩ := hfinds.sound rfl
    have hreach := (hbelow ht habove child hchild).trans hdown
    have hup := hleaf.above_of_contains nested hin hreach hinner hfile hcovers
    exact ih (hbelow ht habove) ⟨child, hchild, hdown.trans hup⟩
  | @here id t rest ht hfile hcovers _ ih =>
    -- a scope above the leaf has a child to search further
    obtain ⟨habove, -⟩ := List.forall_mem_cons.mp hids
    have hup := hleaf.above_of_contains nested hin habove ht hfile hcovers
    by_cases heq : id = leaf
    · rw [heq]
    · cases ih (hbelow ht habove) (exists_child_above ht heq hup)
  | @beside id t rest _ ht hfile _ _ ihbelow ihrest =>
    -- a scope of another file is not the leaf, so the leaf lies below one of its children
    obtain ⟨habove, hrest⟩ := List.forall_mem_cons.mp hids
    obtain ⟨top, htop, hup⟩ := hleads
    rcases List.mem_cons.mp htop with rfl | htop
    · have hne : top ≠ leaf := by
        rintro rfl
        cases Option.some.inj (ht.symm.trans hleaf.exists_scope)
        exact hfile hleaf.file_eq
      cases ihbelow (hbelow ht habove) (exists_child_above ht hne hup)
    · exact ihrest hrest ⟨top, htop, hup⟩

/-! ## What is remembered -/

/-- What is remembered agrees with the graph: the search finds the leaf around each position that
the leaf covers. -/
def Faithful (g : ScopeGraph) (file : String) (slot : Option CacheSlot) : Prop :=
  ∀ hit, slot = some hit → ∀ p, hit.coverage.contains p = true →
    g.locate p file = .ok (some hit.scope)

theorem faithful_none : g.Faithful file none := fun _ h => nomatch h

/-- A graph that can be searched and whose scopes of one file are nested. -/
structure Searchable (g : ScopeGraph) (file : String) : Prop where
  linked : g.Linked
  acyclic : ¬ g.Ancestor .root .root
  nested : g.Nested file

/-- In a graph that passes the check a root without parent does not lie on a circle. -/
theorem searchable_of_validate (valid : g.validate = .ok ())
    (htop : ∀ s, g.scope? .root = some s → s.parent = none) (nested : g.Nested file) :
    g.Searchable file := by
  have linked := linked_of_validate valid
  obtain ⟨s, hs⟩ := linked.root_exists
  exact ⟨linked, linked.not_ancestor_self_of_rooted (.top hs (htop s hs)), nested⟩

/-- A leaf that can be reached is found at each position that it covers. -/
theorem Searchable.locate_of_leaf (hg : g.Searchable file) (hleaf : g.Leaf file leaf s)
    (hin : s.coverage.contains p = true) : g.locate p file = .ok (some leaf) := by
  obtain ⟨found, hfound⟩ := hg.linked.exists_locate hg.acyclic p file
  have hroot : ∀ id ∈ [ScopeId.root], g.Above .root id := by
    simp [Above, Relation.ReflTransGen.refl]
  rw [hfound, hleaf.found_of_finds hg.nested hin (finds_of_locate hfound) hroot
    ⟨.root, List.mem_cons_self, hleaf.above⟩]

/-- What is remembered after a search agrees with the graph. -/
theorem Searchable.faithful_slotFor (hg : g.Searchable file) {found : Option ScopeId}
    (hfound : g.locate p file = .ok found) :
    ∃ slot, g.slotFor found = .ok slot ∧ g.Faithful file slot := by
  cases found with
  | none => exact ⟨none, rfl, faithful_none⟩
  | some id =>
    obtain ⟨⟨top, htop, habove⟩, s, hs, hfile, -⟩ := (finds_of_locate hfound).sound rfl
    rw [List.mem_singleton] at htop
    -- only leaves are remembered: in another scope a child could cover a later position
    refine ⟨if s.isLeaf then some ⟨s.coverage, id⟩ else none, ?_, ?_⟩
    · simp [slotFor, scope_eq_ok hs, bind, Except.bind, pure, Except.pure]
    · intro hit hslot q hq
      split at hslot
      next hisLeaf =>
        cases hslot
        exact hg.locate_of_leaf ⟨htop ▸ habove, hs, hfile, hisLeaf⟩ hq
      next => cases hslot

/-- Looking for a position with what is remembered finds what a search finds, and what is remembered
then agrees with the graph again. -/
theorem Searchable.reuse_eq_locate (hg : g.Searchable file) {slot : Option CacheSlot}
    (hslot : g.Faithful file slot) (p : Position) :
    ∃ found slot', g.locate p file = .ok found ∧ g.reuse file slot p = .ok (found, slot') ∧
      g.Faithful file slot' := by
  unfold reuse
  split
  next hit hfilter =>
    obtain ⟨heq, hcovers⟩ := Option.filter_eq_some_iff.mp hfilter
    exact ⟨some hit.scope, slot, hslot hit heq p hcovers, rfl, hslot⟩
  next =>
    obtain ⟨found, hfound⟩ := hg.linked.exists_locate hg.acyclic p file
    obtain ⟨slot', hslot', hfaithful⟩ := hg.faithful_slotFor hfound
    exact ⟨found, slot', hfound, by simp [hfound, hslot', bind, Except.bind, pure, Except.pure],
      hfaithful⟩

/-- A question gets the same answer, or fails in the same way, with and without what is
remembered. -/
theorem Searchable.run_eq_direct (hg : g.Searchable file) {α : Type} (q : Query α)
    {slot : Option CacheSlot} (hslot : g.Faithful file slot) :
    ∃ slot', g.Faithful file slot' ∧ q.run g file slot =
      match q.direct g file with
      | .ok a => .ok a slot'
      | .error why => .error why slot' := by
  induction q generalizing slot with
  | answer a => exact ⟨slot, hslot, rfl⟩
  | abort why => exact ⟨slot, hslot, rfl⟩
  | locate position next ih =>
    obtain ⟨found, between, hfound, hreuse, hbetween⟩ := hg.reuse_eq_locate hslot position
    obtain ⟨slot', hslot', hrun⟩ := ih found hbetween
    refine ⟨slot', hslot', ?_⟩
    simp only [Query.run, hreuse, hrun, Query.direct, hfound]

end ScopeGraph

/-! ## Sequences of questions -/

/-- What can be asked about the positions and tokens of a unit. -/
inductive Question : Type → Type 1
  | scopeAround (position : Position) : Question (Option ScopeId)
  | scopeAt (position : Position) (context : String) : Question ScopeId
  | resolve (token : Token) : Question Resolution
  | attributeInterface (token : Token) : Question (Option String)
  | methodReference (token : Token) : Question (Option MethodReference)
  | isBuiltinCall (token : Token) : Question Bool
  | variableNamed (token : Token) : Question (Option Variable)
  | classAt (position : Position) : Question (Option ClassDefinition)
  | interfaceAt (position : Position) : Question (Option InterfaceDefinition)
  | enclosingMethod (position : Position) : Question (Option EnclosingMethod)

/-- How a question is answered. -/
def Question.query (v : View) {α : Type} : Question α → Query α
  | .scopeAround position => Query.scopeAround position
  | .scopeAt position context => v.scopeAt position context
  | .resolve token => v.resolve token
  | .attributeInterface token => v.attributeInterface? token
  | .methodReference token => v.methodReference? token
  | .isBuiltinCall token => v.isBuiltinCall token
  | .variableNamed token => v.variableNamed token
  | .classAt position => v.classAt position
  | .interfaceAt position => v.interfaceAt position
  | .enclosingMethod position => v.enclosingMethod position

namespace View

/-- The answers to some questions asked one after the other, the scope found last being remembered
from each to the next. -/
def answers (v : View) : Option CacheSlot → List (Σ α, Question α) → List (Σ α, Except Abort α)
  | _, [] => []
  | slot, ⟨α, question⟩ :: rest =>
    match (question.query v).run v.graph v.file slot with
    | .ok a slot => ⟨α, .ok a⟩ :: v.answers slot rest
    | .error why slot => ⟨α, .error why⟩ :: v.answers slot rest

/-- The answer to a question when nothing is remembered. -/
def directAnswer (v : View) (asked : Σ α, Question α) : Σ α, Except Abort α :=
  ⟨asked.1, (asked.2.query v).direct v.graph v.file⟩

theorem answers_of_faithful {v : View} (hg : v.graph.Searchable v.file)
    (questions : List (Σ α, Question α)) {slot : Option CacheSlot}
    (hslot : v.graph.Faithful v.file slot) :
    v.answers slot questions = questions.map v.directAnswer := by
  induction questions generalizing slot with
  | nil => rfl
  | cons asked rest ih =>
    obtain ⟨α, question⟩ := asked
    obtain ⟨slot', hslot', hrun⟩ := hg.run_eq_direct (question.query v) hslot
    cases hdirect : (question.query v).direct v.graph v.file with
    | ok a => simp only [answers, hrun, hdirect, List.map_cons, directAnswer, ih hslot']
    | error why => simp only [answers, hrun, hdirect, List.map_cons, directAnswer, ih hslot']

/-- What is remembered between questions never shows: in a graph that passes the check, has a root
without parent and scopes of this file nested like blocks, each question gets the answer that
walking the graph for every position gives, whatever was asked before. -/
theorem answers_eq_direct {v : View} (valid : v.graph.validate = .ok ())
    (htop : ∀ s, v.graph.scope? .root = some s → s.parent = none)
    (nested : v.graph.Nested v.file) (questions : List (Σ α, Question α)) :
    v.answers none questions = questions.map v.directAnswer :=
  answers_of_faithful (ScopeGraph.searchable_of_validate valid htop nested) questions
    ScopeGraph.faithful_none

end View

/-! ## A program with one form -/

namespace ScopeGraph

theorem eq_root_or_one_of_scope? {id : ScopeId} {s : Scope}
    (h : formInProgram.scope? id = some s) : id = .root ∨ id = ⟨1⟩ := by
  have hlt : id.index < 2 := (Array.getElem?_eq_some_iff.mp h).1
  rw [← ofIndex_index id]
  obtain hzero | hone : id.index = 0 ∨ id.index = 1 := by omega
  · exact .inl (by rw [hzero]; rfl)
  · exact .inr (by rw [hone]; rfl)

/-- The form lies in the program. -/
theorem nested_formInProgram (file : String) : formInProgram.Nested file := by
  have hchild : formInProgram.Child .root ⟨1⟩ := ⟨_, rfl, by decide⟩
  -- the inner scope has no children
  have hform : ∀ id, ¬ formInProgram.Ancestor ⟨1⟩ id := by
    intro id h
    obtain ⟨_, ⟨s, hs, hmem⟩, -⟩ := Relation.TransGen.head'_iff.mp h
    cases hs
    cases hmem
  constructor
  · intro outer inner s t _ hdown hs ht _ _ p hp
    rcases eq_root_or_one_of_scope? hs with rfl | rfl
    · rcases eq_root_or_one_of_scope? ht with rfl | rfl
      · cases Option.some.inj (hs.symm.trans ht)
        exact hp
      · cases hs
        cases ht
        exact Span.contains_of_contains (by decide) (by decide) hp
    · exact absurd hdown (hform inner)
  · intro a b s t _ _ hne hab hba hs ht _ _ p _
    rcases eq_root_or_one_of_scope? hs with rfl | rfl <;>
      rcases eq_root_or_one_of_scope? ht with rfl | rfl
    · exact absurd rfl hne
    · exact absurd (.single hchild) hab
    · exact absurd (.single hchild) hba
    · exact absurd rfl hne

end ScopeGraph

theorem View.answers_formInProgram :
    let v : View := ⟨.formInProgram, .empty, "zfoo.prog.abap", ⟨.prog, "ZFOO"⟩⟩
    v.graph.validate = .ok () ∧ (∀ s, v.graph.scope? .root = some s → s.parent = none) ∧
      v.graph.Nested v.file ∧
      v.answers none [⟨_, .scopeAround ⟨3, 1⟩⟩, ⟨_, .isBuiltinCall ⟨"lines", ⟨4, 5⟩⟩⟩,
          ⟨_, .resolve ⟨"foo", ⟨7, 1⟩⟩⟩, ⟨_, .scopeAround ⟨9, 2⟩⟩] =
        [⟨Option ScopeId, .ok (some ⟨1⟩)⟩, ⟨Bool, .ok false⟩, ⟨Resolution, .ok .localName⟩,
          ⟨Option ScopeId, .ok none⟩] := by
  intro v
  have valid : v.graph.validate = .ok () := by rfl
  have htop : ∀ s, v.graph.scope? .root = some s → s.parent = none := by
    rintro s ⟨⟩
    rfl
  have nested := ScopeGraph.nested_formInProgram v.file
  exact ⟨valid, htop, nested, (View.answers_eq_direct valid htop nested _).trans (by rfl)⟩

end AbapLowering
