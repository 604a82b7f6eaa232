import AbapLowering.Proofs.Scope.Search

/-!
# The innermost scope around a position

Which scope the search for a position finds, said without the search:

- `Admissible`: scopes of the file that cover the position and that no scope of the file above them
  hides;
- `Innermost`: admissible scopes with no admissible scope below them;
- `Preorder`: the scopes in the order in which they are written, each followed by what lies below
  it.

The search finds the first of the innermost scopes in this order, and nothing only if no scope is
admissible (`locate_finds_first_innermost`). The proof follows the rules of the search without a
bound (`Finds.first_innermost`).
-/

namespace AbapLowering

namespace ScopeGraph

variable {g : ScopeGraph} {p : Position} {file : String} {ids order : List ScopeId} {id : ScopeId}

/-- A scope of the file that can be reached from the root and covers the position, as does every
scope of the file that it lies below. -/
structure Admissible (g : ScopeGraph) (p : Position) (file : String) (id : ScopeId) : Prop where
  above : g.Above .root id
  in_file : ∃ s, g.scope? id = some s ∧ s.file = file
  covers : ∀ outer s, g.Above outer id → g.scope? outer = some s → s.file = file →
    s.coverage.contains p = true

/-- An admissible scope with no admissible scope below it. -/
def Innermost (g : ScopeGraph) (p : Position) (file : String) (id : ScopeId) : Prop :=
  g.Admissible p file id ∧ ∀ inner, g.Ancestor id inner → ¬ g.Admissible p file inner

/-- `order` lists some scopes and what lies below them, each scope before its children. -/
inductive Preorder (g : ScopeGraph) : List ScopeId → List ScopeId → Prop
  | nil : Preorder g [] []
  | cons {id s rest below beside} : g.scope? id = some s → Preorder g s.children below →
    Preorder g rest beside → Preorder g (id :: rest) (id :: (below ++ beside))

/-- The graph with the scopes of other files moved somewhere else. -/
def moveForeign (g : ScopeGraph) (file : String) (place : Scope → Span) : ScopeGraph :=
  ⟨g.scopes.map fun s => if s.file = file then s else { s with coverage := place s }⟩

/-! ## The order of the scopes -/

/-- What lies at or below a scope is the scope or lies at or below one of its children. -/
theorem above_iff {inner : ScopeId} {s : Scope} (hs : g.scope? id = some s) :
    g.Above id inner ↔ inner = id ∨ ∃ child ∈ s.children, g.Above child inner := by
  constructor
  · intro h
    rcases Relation.ReflTransGen.cases_head h with heq | ⟨child, ⟨t, ht, hchild⟩, hdown⟩
    · exact .inl heq.symm
    · cases Option.some.inj (hs.symm.trans ht)
      exact .inr ⟨child, hchild, hdown⟩
  · rintro (rfl | ⟨child, hchild, hdown⟩)
    · exact .refl
    · exact .head ⟨s, hs, hchild⟩ hdown

theorem ancestor_iff {inner : ScopeId} {s : Scope} (hs : g.scope? id = some s) :
    g.Ancestor id inner ↔ ∃ child ∈ s.children, g.Above child inner := by
  rw [Ancestor, Relation.TransGen.head'_iff]
  constructor
  · rintro ⟨child, ⟨t, ht, hchild⟩, hdown⟩
    cases Option.some.inj (hs.symm.trans ht)
    exact ⟨child, hchild, hdown⟩
  · rintro ⟨child, hchild, hdown⟩
    exact ⟨child, ⟨s, hs, hchild⟩, hdown⟩

/-- The order lists just what lies at or below the scopes. -/
theorem Preorder.mem_iff (h : g.Preorder ids order) :
    id ∈ order ↔ ∃ top ∈ ids, g.Above top id := by
  induction h with
  | nil => simp
  | cons hs _ _ ihbelow ihbeside =>
    simp [above_iff hs, ihbelow, ihbeside, or_assoc]

/-- An order starts with the first scope, then comes what lies below it, then the rest. -/
theorem Preorder.exists_of_cons {s : Scope} (hs : g.scope? id = some s)
    (h : g.Preorder (id :: ids) order) :
    ∃ below beside, g.Preorder s.children below ∧ g.Preorder ids beside ∧
      order = id :: (below ++ beside) := by
  cases h with
  | @cons _ t _ below beside ht hbelow hbeside =>
    cases Option.some.inj (hs.symm.trans ht)
    exact ⟨below, beside, hbelow, hbeside, rfl⟩

/-- Scopes whose children can be listed in order can be listed in order. -/
theorem exists_preorder_of_forall
    (h : ∀ id ∈ ids, ∃ s below, g.scope? id = some s ∧ g.Preorder s.children below) :
    ∃ order, g.Preorder ids order := by
  induction ids with
  | nil => exact ⟨[], .nil⟩
  | cons id rest ih =>
    obtain ⟨hhere, hrest⟩ := List.forall_mem_cons.mp h
    obtain ⟨s, below, hs, hbelow⟩ := hhere
    obtain ⟨beside, hbeside⟩ := ih hrest
    exact ⟨_, .cons hs hbelow hbeside⟩

/-- What lies below a scope can be listed in order unless it has circles. -/
theorem Linked.exists_preorder_children (linked : g.Linked) (habove : g.Above .root id)
    (hacc : Acc (fun inner outer => g.Child outer inner) id) :
    ∃ s below, g.scope? id = some s ∧ g.Preorder s.children below := by
  induction hacc with
  | intro id _ ih =>
    obtain ⟨s, hs⟩ := linked.exists_scope habove
    have hchildren : ∀ child ∈ s.children,
        ∃ t below, g.scope? child = some t ∧ g.Preorder t.children below := by
      intro child hchild
      have hlink : g.Child id child := ⟨s, hs, hchild⟩
      exact ih child hlink (habove.tail hlink)
    obtain ⟨below, hbelow⟩ := exists_preorder_of_forall hchildren
    exact ⟨s, below, hs, hbelow⟩

/-- In a graph whose root does not lie on a circle all that can be reached from the root can be
listed in order: a search for a file that no scope belongs to goes through all of it. -/
theorem Linked.exists_preorder (linked : g.Linked) (hacyclic : ¬ g.Ancestor .root .root)
    (hids : ∀ id ∈ ids, g.Above .root id) : ∃ order, g.Preorder ids order := by
  obtain ⟨file, hforeign⟩ := exists_foreign_file g
  obtain ⟨found, hfound⟩ := linked.exists_locate hacyclic default file
  have hroot := ((finds_of_locate hfound).acc_of_foreign hforeign).2 .root List.mem_cons_self
  have hacc : ∀ {id}, g.Above .root id → Acc (fun inner outer => g.Child outer inner) id := by
    intro id habove
    induction habove with
    | refl => exact hroot
    | tail _ hlink ih => exact ih.inv hlink
  exact exists_preorder_of_forall fun id hid =>
    linked.exists_preorder_children (hids id hid) (hacc (hids id hid))

/-! ## What the search finds -/

/-- No scope of the file above a scope hides it. -/
def Open (g : ScopeGraph) (p : Position) (file : String) (id : ScopeId) : Prop :=
  g.Above .root id ∧ ∀ outer s, g.Ancestor outer id → g.scope? outer = some s → s.file = file →
    s.coverage.contains p = true

/-- Nothing is above a root without parent. -/
theorem Linked.open_root (linked : g.Linked) {s : Scope} (hs : g.scope? .root = some s)
    (hnone : s.parent = none) : ∀ id ∈ [ScopeId.root], g.Open p file id := by
  intro id hid
  cases List.mem_singleton.mp hid
  refine ⟨.refl, fun outer _ hup => ?_⟩
  obtain ⟨last, -, hlast⟩ := Relation.TransGen.tail'_iff.mp hup
  obtain ⟨t, ht, hparent⟩ := linked.child_back hlast
  cases Option.some.inj (hs.symm.trans ht)
  rw [hnone] at hparent
  cases hparent

/-- Below a scope that hides nothing its children are open. -/
theorem Linked.open_child (linked : g.Linked) {s : Scope} {child : ScopeId}
    (hopen : g.Open p file id) (hs : g.scope? id = some s)
    (hin : s.file = file → s.coverage.contains p = true) (hchild : child ∈ s.children) :
    g.Open p file child := by
  have hlink : g.Child id child := ⟨s, hs, hchild⟩
  refine ⟨hopen.1.tail hlink, fun outer t hup ht hfile => ?_⟩
  -- the way down to the child leads through its one parent
  obtain ⟨last, hdown, hlast⟩ := Relation.TransGen.tail'_iff.mp hup
  cases linked.child_unique hlast hlink
  rcases Relation.reflTransGen_iff_eq_or_transGen.mp hdown with heq | hdown
  · subst heq
    cases Option.some.inj (hs.symm.trans ht)
    exact hin hfile
  · exact hopen.2 outer t hdown ht hfile

/-- An open scope of the file that covers the position is admissible. -/
theorem Open.admissible {s : Scope} (hopen : g.Open p file id) (hs : g.scope? id = some s)
    (hfile : s.file = file) (hin : s.coverage.contains p = true) : g.Admissible p file id := by
  refine ⟨hopen.1, ⟨s, hs, hfile⟩, fun outer t hup ht hfile' => ?_⟩
  rcases Relation.reflTransGen_iff_eq_or_transGen.mp hup with heq | hup
  · subst heq
    cases Option.some.inj (hs.symm.trans ht)
    exact hin
  · exact hopen.2 outer t hup ht hfile'

/-- What the search finds among some open scopes, said by the order of what lies below them. -/
def FirstInnermost (g : ScopeGraph) (p : Position) (file : String) (order : List ScopeId) :
    Option ScopeId → Prop
  | none => ∀ id ∈ order, ¬ g.Admissible p file id
  | some id => g.Innermost p file id ∧ ∃ before after, order = before ++ id :: after ∧
    ∀ other ∈ before, ¬ g.Innermost p file other

/-- What is not innermost can be put in front. -/
theorem FirstInnermost.append_left {found : Option ScopeId} {front : List ScopeId}
    (h : g.FirstInnermost p file order found)
    (hfront : ∀ id ∈ front, ¬ g.Innermost p file id)
    (hnone : found = none → ∀ id ∈ front, ¬ g.Admissible p file id) :
    g.FirstInnermost p file (front ++ order) found := by
  cases found with
  | none =>
    intro id hid
    rcases List.mem_append.mp hid with hid | hid
    · exact hnone rfl id hid
    · exact h id hid
  | some id =>
    obtain ⟨hinner, before, after, rfl, hbefore⟩ := h
    refine ⟨hinner, front ++ before, after, (List.append_assoc ..).symm, fun other hother => ?_⟩
    rcases List.mem_append.mp hother with hother | hother
    · exact hfront other hother
    · exact hbefore other hother

/-- The search finds the first of the innermost scopes. -/
theorem Linked.first_innermost (linked : g.Linked) {found : Option ScopeId}
    (h : g.Finds p file ids found) (hopen : ∀ id ∈ ids, g.Open p file id)
    (horder : g.Preorder ids order) : g.FirstInnermost p file order found := by
  have hadmissible : ∀ {front : List ScopeId}, (∀ id ∈ front, ¬ g.Admissible p file id) →
      ∀ id ∈ front, ¬ g.Innermost p file id :=
    fun hfront id hid hinner => hfront id hid hinner.1
  induction h generalizing order with
  | nil =>
    cases horder
    exact fun _ h => nomatch h
  | @hidden id s rest found hs hfile hout _ ih =>
    obtain ⟨-, hrest⟩ := List.forall_mem_cons.mp hopen
    obtain ⟨below, beside, hbelow, hbeside, rfl⟩ := horder.exists_of_cons hs
    -- this scope hides itself and everything below it
    have hfront : ∀ inner ∈ id :: below, ¬ g.Admissible p file inner := by
      intro inner hinner hadm
      have hdown : g.Above id inner := by
        rw [above_iff hs, ← hbelow.mem_iff]
        exact List.mem_cons.mp hinner
      have hcovers := hadm.covers id s hdown hs hfile
      rw [hout] at hcovers
      cases hcovers
    exact (ih hrest hbeside).append_left (hadmissible hfront) fun _ => hfront
  | @inside id s rest inner hs hin _ ih =>
    obtain ⟨hhere, -⟩ := List.forall_mem_cons.mp hopen
    obtain ⟨below, beside, hbelow, hbeside, rfl⟩ := horder.exists_of_cons hs
    obtain ⟨hinner, before, after, rfl, hbefore⟩ :=
      ih (fun _ => linked.open_child hhere hs hin) hbelow
    -- what is found lies below this scope, so this scope is not innermost
    have hdown : g.Ancestor id inner := by
      rw [ancestor_iff hs, ← hbelow.mem_iff]
      exact List.mem_append_right _ List.mem_cons_self
    refine ⟨hinner, id :: before, after ++ beside, by simp, ?_⟩
    intro other hother hother'
    rcases List.mem_cons.mp hother with rfl | hother
    · exact hother'.2 inner hdown hinner.1
    · exact hbefore other hother hother'
  | @here id s rest hs hfile hin _ ih =>
    obtain ⟨hhere, -⟩ := List.forall_mem_cons.mp hopen
    obtain ⟨below, beside, hbelow, hbeside, rfl⟩ := horder.exists_of_cons hs
    have hnone : ∀ inner ∈ below, ¬ g.Admissible p file inner :=
      ih (fun _ => linked.open_child hhere hs fun _ => hin) hbelow
    refine ⟨⟨hhere.admissible hs hfile hin, fun inner hdown => ?_⟩, [], below ++ beside, rfl,
      fun _ h => nomatch h⟩
    rw [ancestor_iff hs, ← hbelow.mem_iff] at hdown
    exact hnone inner hdown
  | @beside id s rest found hs hfile _ _ ihbelow ihrest =>
    obtain ⟨hhere, hrest⟩ := List.forall_mem_cons.mp hopen
    obtain ⟨below, beside, hbelow, hbeside, rfl⟩ := horder.exists_of_cons hs
    have hnone : ∀ inner ∈ below, ¬ g.Admissible p file inner :=
      ihbelow (fun _ => linked.open_child hhere hs fun heq => absurd heq hfile) hbelow
    -- a scope of another file is never admissible, but what lies below it may be
    have hfront : ∀ inner ∈ id :: below, ¬ g.Admissible p file inner := by
      intro inner hinner hadm
      rcases List.mem_cons.mp hinner with rfl | hinner
      · obtain ⟨t, ht, hfile'⟩ := hadm.in_file
        cases Option.some.inj (hs.symm.trans ht)
        exact hfile hfile'
      · exact hnone inner hinner hadm
    exact (ihrest hrest hbeside).append_left (hadmissible hfront) fun _ => hfront

/-! ## Several children -/

/-- A search through some scopes goes through the first of them first. -/
theorem Finds.of_append {l r : List ScopeId} {found : Option ScopeId}
    (h : g.Finds p file (l ++ r) found) :
    ∃ first, g.Finds p file l first ∧ (first = none ∨ first = found) := by
  induction l generalizing found with
  | nil => exact ⟨none, .nil, .inl rfl⟩
  | cons id rest ih =>
    cases h with
    | hidden hs hfile hout hrest =>
      obtain ⟨first, hfirst, heq⟩ := ih hrest
      exact ⟨first, .hidden hs hfile hout hfirst, heq⟩
    | inside hs hin hbelow => exact ⟨_, .inside hs hin hbelow, .inr rfl⟩
    | here hs hfile hin hbelow => exact ⟨_, .here hs hfile hin hbelow, .inr rfl⟩
    | beside hs hfile hbelow hrest =>
      obtain ⟨first, hfirst, heq⟩ := ih hrest
      exact ⟨first, .beside hs hfile hbelow hfirst, heq⟩

/-- What a search finds below a scope it finds by searching the children of the scope. -/
theorem Linked.finds_children (linked : g.Linked) {outer inner : ScopeId}
    (h : g.Finds p file ids (some inner)) (hids : ∀ top ∈ ids, ¬ g.Ancestor outer top)
    (hdown : g.Ancestor outer inner) :
    ∃ s, g.scope? outer = some s ∧ g.Finds p file s.children (some inner) := by
  generalize hfound : some inner = found at h
  induction h with
  | nil => cases hfound
  | hidden _ _ _ _ ih => exact ih (List.forall_mem_cons.mp hids).2 hfound
  | @inside id s rest inner hs _ hbelow ih =>
    cases hfound
    by_cases heq : outer = id
    · exact ⟨s, heq ▸ hs, hbelow⟩
    · -- what is above a child of this scope, but is not this scope, is above this scope
      refine ih (fun child hchild hup => ?_) rfl
      obtain ⟨last, hupto, hlast⟩ := Relation.TransGen.tail'_iff.mp hup
      cases linked.child_unique hlast ⟨s, hs, hchild⟩
      rcases Relation.reflTransGen_iff_eq_or_transGen.mp hupto with heq' | hup
      · exact heq heq'.symm
      · exact (List.forall_mem_cons.mp hids).1 hup
  | here =>
    cases hfound
    exact absurd hdown (List.forall_mem_cons.mp hids).1
  | beside _ _ _ _ _ ihrest => exact ihrest (List.forall_mem_cons.mp hids).2 hfound

/-- Earlier children are preferred: if one of them leads to an admissible scope, what is found below
their parent is found below one of them. -/
theorem Linked.found_in_earlier (linked : g.Linked) (hacyclic : ¬ g.Ancestor .root .root)
    {outer inner found : ScopeId} {s : Scope} {l r : List ScopeId}
    (h : g.Finds p file [.root] (some found)) (hfound : g.Admissible p file found)
    (hreach : g.Above .root outer) (hs : g.scope? outer = some s) (hchildren : s.children = l ++ r)
    (hdown : g.Ancestor outer found) (hadm : g.Admissible p file inner)
    (hinner : ∃ top ∈ l, g.Above top inner) : ∃ top ∈ l, g.Above top found := by
  have hchild : ∀ top ∈ l, g.Child outer top := fun top htop =>
    ⟨s, hs, hchildren ▸ List.mem_append_left _ htop⟩
  have hopen : ∀ top ∈ l, g.Open p file top := by
    intro top htop
    refine ⟨hreach.tail (hchild top htop), fun above t hup ht hfile => ?_⟩
    obtain ⟨last, hupto, hlast⟩ := Relation.TransGen.tail'_iff.mp hup
    cases linked.child_unique hlast (hchild top htop)
    exact hfound.covers above t (hupto.trans hdown.to_reflTransGen) ht hfile
  have htop : ∀ top ∈ [ScopeId.root], ¬ g.Ancestor outer top := by
    intro top hmem hup
    cases List.mem_singleton.mp hmem
    exact hacyclic (Relation.TransGen.trans_right hreach hup)
  obtain ⟨t, ht, hfinds⟩ := linked.finds_children h htop hdown
  cases Option.some.inj (hs.symm.trans ht)
  rw [hchildren] at hfinds
  obtain ⟨first, hfirst, rfl | rfl⟩ := hfinds.of_append
  · -- the search of the earlier children does not miss the admissible scope
    obtain ⟨order, horder⟩ := linked.exists_preorder hacyclic fun top htop => (hopen top htop).1
    exact absurd hadm (linked.first_innermost hfirst hopen horder inner (horder.mem_iff.mpr hinner))
  · exact (hfirst.sound rfl).1

/-! ## Scopes of other files -/

theorem scope?_moveForeign (place : Scope → Span) (id : ScopeId) :
    (g.moveForeign file place).scope? id =
      (g.scope? id).map fun s => if s.file = file then s else { s with coverage := place s } := by
  simp [moveForeign, scope?]

/-- Where the scopes of other files are does not matter to the search. -/
theorem locateFrom_moveForeign (place : Scope → Span) (depth : Nat) (id : ScopeId) :
    (g.moveForeign file place).locateFrom p file depth id = g.locateFrom p file depth id := by
  induction depth generalizing id with
  | zero => rfl
  | succ depth ih =>
    have hsame : (g.moveForeign file place).locateFrom p file depth = g.locateFrom p file depth :=
      funext ih
    cases hs : g.scope? id with
    | none => simp [locateFrom, scope, scope?_moveForeign, hs, bind, Except.bind]
    | some s =>
      have hmoved : (g.moveForeign file place).scope? id =
          some (if s.file = file then s else { s with coverage := place s }) := by
        rw [scope?_moveForeign, hs, Option.map_some]
      rw [locateFrom_succ hs, locateFrom_succ hmoved, hsame]
      by_cases hfile : s.file = file <;> simp [hfile]

theorem locate_moveForeign (place : Scope → Span) :
    (g.moveForeign file place).locate p file = g.locate p file := by
  rw [locate, locate, locateFrom_moveForeign]
  simp [moveForeign]

/-! ## The answer of the search -/

/-- What the search finds in a graph that passes the check and whose root has no parent. The scopes
that can be reached from the root have an order, each before its children, and the search always
ends. It finds nothing iff no scope is admissible. Otherwise it finds the first scope in the order
that is innermost, which is a scope of the file. Scopes of other files hide nothing, wherever they
are. Below any scope, earlier children are preferred to later ones. -/
theorem locate_finds_first_innermost (valid : g.validate = .ok ())
    (htop : ∀ s, g.scope? .root = some s → s.parent = none) :
    (∃ order, g.Preorder [.root] order) ∧
    ∀ order, g.Preorder [.root] order →
      (∀ id, id ∈ order ↔ g.Above .root id) ∧
      ∀ p file, ∃ found, g.locate p file = .ok found ∧
        (found = none ↔ ∀ id, ¬ g.Admissible p file id) ∧
        (∀ place, (g.moveForeign file place).locate p file = .ok found) ∧
        ∀ id, found = some id →
          (∃ before after, order = before ++ id :: after ∧ g.Innermost p file id ∧
            ∀ other ∈ before, ¬ g.Innermost p file other) ∧
          (∃ s, g.scope? id = some s ∧ s.file = file) ∧
          ∀ outer s l r inner, g.Above .root outer → g.scope? outer = some s →
            s.children = l ++ r → g.Ancestor outer id → g.Admissible p file inner →
            (∃ top ∈ l, g.Above top inner) → ∃ top ∈ l, g.Above top id := by
  have linked := linked_of_validate valid
  obtain ⟨root, hroot⟩ := linked.root_exists
  have hnone := htop root hroot
  -- the root has no parent, so no scope below it is its own ancestor
  have hacyclic : ¬ g.Ancestor .root .root :=
    linked.not_ancestor_self_of_rooted (.top hroot hnone)
  have habove : ∀ id ∈ [ScopeId.root], g.Above .root id := by
    intro id hid
    cases List.mem_singleton.mp hid
    exact .refl
  refine ⟨linked.exists_preorder hacyclic habove, fun order horder => ?_⟩
  have hmem : ∀ id, id ∈ order ↔ g.Above .root id := by
    intro id
    rw [horder.mem_iff]
    simp
  refine ⟨hmem, fun p file => ?_⟩
  obtain ⟨found, hfound⟩ := linked.exists_locate hacyclic p file
  have hfirst := linked.first_innermost (finds_of_locate hfound) (linked.open_root hroot hnone) horder
  refine ⟨found, hfound, ⟨?_, ?_⟩, fun place => (locate_moveForeign place).trans hfound, ?_⟩
  · rintro rfl id hadm
    exact hfirst id ((hmem id).mpr hadm.above) hadm
  · intro hnone
    cases found with
    | none => rfl
    | some id => exact absurd hfirst.1.1 (hnone id)
  · rintro id rfl
    obtain ⟨hinner, before, after, heq, hbefore⟩ := hfirst
    refine ⟨⟨before, after, heq, hinner, hbefore⟩, hinner.1.in_file, ?_⟩
    intro outer s l r inner hreach hs hchildren hdown hadm hleads
    exact linked.found_in_earlier hacyclic (finds_of_locate hfound) hinner.1 hreach hs hchildren
      hdown hadm hleads

theorem locate_finds_first_innermost_formInProgram : formInProgram.validate = .ok () ∧
    (∀ s, formInProgram.scope? .root = some s → s.parent = none) ∧
    formInProgram.locate ⟨3, 1⟩ "zfoo.prog.abap" = .ok (some ⟨1⟩) ∧
    formInProgram.Innermost ⟨3, 1⟩ "zfoo.prog.abap" ⟨1⟩ := by
  have valid : formInProgram.validate = .ok () := by rfl
  have htop : ∀ s, formInProgram.scope? .root = some s → s.parent = none := by
    rintro s ⟨⟩
    rfl
  obtain ⟨⟨order, horder⟩, hall⟩ := locate_finds_first_innermost valid htop
  obtain ⟨found, hfound, -, -, hinner⟩ := (hall order horder).2 ⟨3, 1⟩ "zfoo.prog.abap"
  have hlocate : formInProgram.locate ⟨3, 1⟩ "zfoo.prog.abap" = .ok (some ⟨1⟩) := by rfl
  cases hfound.symm.trans hlocate
  obtain ⟨⟨_, _, -, hform, -⟩, -⟩ := hinner ⟨1⟩ rfl
  exact ⟨valid, htop, hlocate, hform⟩

end ScopeGraph

end AbapLowering
