import AbapLowering.Proofs.Scope.Links
import Mathlib.Data.Fintype.EquivFin

/-!
# Walks through a scope graph

The two walks of a scope graph have a bound on their depth. Here they are compared with walks that
have none:

- `Finds`: what looking for the innermost scope comes to, if the search ends at all. The bounded
  search gives this answer (`finds_of_locate`), and its bound is large enough in every graph whose
  links agree and whose root does not lie on a circle (`Linked.exists_locate`);
- `Rooted`: where the way up from a scope ends. There the bounded way up ends too
  (`ancestors_iff_rooted`), and with it every question that is asked on the way
  (`climb_of_ancestors`).

Checking the links does not keep the root off a circle. `search_ends_iff` says which of the graphs
that pass the check are safe to walk, and `circle` is one that is not.
-/

namespace AbapLowering

namespace ScopeGraph

variable {g : ScopeGraph} {p : Position} {file : String}

/-! ## The search without a bound -/

/-- What looking for the innermost scope around a position comes to, among some scopes in order and
what lies below them. There is an answer only if the search ends and every link leads to a scope. -/
inductive Finds (g : ScopeGraph) (p : Position) (file : String) :
    List ScopeId → Option ScopeId → Prop
  | nil : Finds g p file [] none
  /-- A scope of the file that does not cover the position hides what is below it. -/
  | hidden {id s rest found} : g.scope? id = some s → s.file = file →
    s.coverage.contains p = false → Finds g p file rest found → Finds g p file (id :: rest) found
  | inside {id s rest inner} : g.scope? id = some s →
    (s.file = file → s.coverage.contains p = true) → Finds g p file s.children (some inner) →
    Finds g p file (id :: rest) (some inner)
  | here {id s rest} : g.scope? id = some s → s.file = file → s.coverage.contains p = true →
    Finds g p file s.children none → Finds g p file (id :: rest) (some id)
  /-- A scope of another file is looked through. -/
  | beside {id s rest found} : g.scope? id = some s → s.file ≠ file →
    Finds g p file s.children none → Finds g p file rest found →
    Finds g p file (id :: rest) found

/-- A search has one answer. -/
theorem Finds.unique {ids : List ScopeId} {a b : Option ScopeId} (ha : g.Finds p file ids a)
    (hb : g.Finds p file ids b) : a = b := by
  induction ha generalizing b with
  | nil => cases hb; rfl
  | hidden hs hfile hout _ ih =>
    cases hb with
    | hidden _ _ _ hrest => exact ih hrest
    | _ => simp_all
  | inside hs hin _ ih =>
    cases hb with
    | hidden => simp_all
    | inside ht _ hbelow =>
      cases Option.some.inj (hs.symm.trans ht)
      exact ih hbelow
    | here ht _ _ hnone | beside ht _ hnone =>
      cases Option.some.inj (hs.symm.trans ht)
      cases ih hnone
  | here hs hfile hin _ ih =>
    cases hb with
    | inside ht _ hbelow =>
      cases Option.some.inj (hs.symm.trans ht)
      cases ih hbelow
    | here => rfl
    | _ => simp_all
  | beside hs hfile _ _ ihbelow ihrest =>
    cases hb with
    | inside ht _ hbelow =>
      cases Option.some.inj (hs.symm.trans ht)
      cases ihbelow hbelow
    | beside _ _ _ hrest => exact ihrest hrest
    | _ => simp_all

/-- What is found lies below one of the scopes, belongs to the file and covers the position. -/
theorem Finds.sound {ids : List ScopeId} {found : Option ScopeId} (h : g.Finds p file ids found)
    {inner : ScopeId} (hinner : found = some inner) :
    (∃ id ∈ ids, g.Above id inner) ∧
      ∃ s, g.scope? inner = some s ∧ s.file = file ∧ s.coverage.contains p = true := by
  induction h with
  | nil => cases hinner
  | hidden _ _ _ _ ih =>
    obtain ⟨⟨id, hid, habove⟩, hs⟩ := ih hinner
    exact ⟨⟨id, List.mem_cons_of_mem _ hid, habove⟩, hs⟩
  | inside hs _ _ ih =>
    obtain ⟨⟨child, hchild, habove⟩, hscope⟩ := ih hinner
    exact ⟨⟨_, List.mem_cons_self, .head ⟨_, hs, hchild⟩ habove⟩, hscope⟩
  | here hs hfile hin _ _ =>
    cases hinner
    exact ⟨⟨_, List.mem_cons_self, .refl⟩, _, hs, hfile, hin⟩
  | beside _ _ _ _ _ ih =>
    obtain ⟨⟨id, hid, habove⟩, hs⟩ := ih hinner
    exact ⟨⟨id, List.mem_cons_of_mem _ hid, habove⟩, hs⟩

/-! ## The search with a bound -/

/-- One step of the bounded search at a scope that exists. -/
theorem locateFrom_succ {depth : Nat} {id : ScopeId} {s : Scope} (hs : g.scope? id = some s) :
    g.locateFrom p file (depth + 1) id =
      if s.file = file ∧ s.coverage.contains p = false then .ok none
      else (s.children.findSomeM? (g.locateFrom p file depth)).map
        (·.or (if s.file = file then some id else none)) := by
  rw [locateFrom, scope_eq_ok hs]
  by_cases hhidden : s.file = file ∧ s.coverage.contains p = false
  · simp [bind, Except.bind, pure, Except.pure, hhidden]
  · cases hbelow : s.children.findSomeM? (g.locateFrom p file depth) with
    | error e => simp [bind, Except.bind, Except.map, hhidden, hbelow]
    | ok inner =>
      cases inner <;> simp [bind, Except.bind, pure, Except.pure, Except.map, hhidden, hbelow]

/-- What a step of the bounded search that ends has found out. -/
theorem locateFrom_succ_eq_ok {depth : Nat} {id : ScopeId} {found : Option ScopeId}
    (h : g.locateFrom p file (depth + 1) id = .ok found) :
    ∃ s, g.scope? id = some s ∧
      ((s.file = file ∧ s.coverage.contains p = false ∧ found = none) ∨
        ((s.file = file → s.coverage.contains p = true) ∧
          ∃ inner, s.children.findSomeM? (g.locateFrom p file depth) = .ok inner ∧
            found = inner.or (if s.file = file then some id else none))) := by
  cases hs : g.scope? id with
  | none => simp [locateFrom, scope, hs, bind, Except.bind] at h
  | some s =>
    refine ⟨s, rfl, ?_⟩
    rw [locateFrom_succ hs] at h
    split at h
    next hhidden =>
      cases h
      exact .inl ⟨hhidden.1, hhidden.2, rfl⟩
    next hvisible =>
      cases hinner : s.children.findSomeM? (g.locateFrom p file depth) with
      | error e => simp [hinner, Except.map] at h
      | ok inner =>
        rw [hinner] at h
        cases h
        exact .inr ⟨by simpa using hvisible, inner, rfl, rfl⟩

/-- The bounded search over some scopes in order, first scope first. -/
theorem findSomeM?_cons_eq_ok_iff {α β ε : Type} {f : α → Except ε (Option β)} {a : α}
    {rest : List α} {found : Option β} :
    (a :: rest).findSomeM? f = .ok found ↔
      ∃ first, f a = .ok first ∧
        ((∃ b, first = some b ∧ found = some b) ∨
          (first = none ∧ rest.findSomeM? f = .ok found)) := by
  rw [List.findSomeM?_cons]
  cases f a with
  | error e => simp [bind, Except.bind]
  | ok first => cases first <;> simp [bind, Except.bind, pure, Except.pure, eq_comm]

/-- A bounded search that ends gives the answer of the search without a bound. -/
theorem finds_of_findSomeM? (depth : Nat) {ids : List ScopeId} {found : Option ScopeId}
    (h : ids.findSomeM? (g.locateFrom p file depth) = .ok found) : g.Finds p file ids found := by
  -- the bound falls from a scope to its children and stays the same from a scope to the next
  induction depth generalizing ids found with
  | zero =>
    cases ids with
    | nil => cases h; exact .nil
    | cons id rest =>
      obtain ⟨_, h, -⟩ := findSomeM?_cons_eq_ok_iff.mp h
      cases h
  | succ depth ihdepth =>
    induction ids generalizing found with
    | nil => cases h; exact .nil
    | cons id rest ihrest =>
      obtain ⟨first, hfirst, hsplit⟩ := findSomeM?_cons_eq_ok_iff.mp h
      obtain ⟨s, hs, ⟨hfile, hout, rfl⟩ | ⟨hin, inner, hbelow, rfl⟩⟩ :=
        locateFrom_succ_eq_ok hfirst
      · obtain ⟨_, h, -⟩ | ⟨-, hrest⟩ := hsplit
        · cases h
        · exact .hidden hs hfile hout (ihrest hrest)
      · have hchildren := ihdepth hbelow
        cases inner with
        | some inner => simp_all [Finds.inside hs hin hchildren]
        | none =>
          by_cases hfile : s.file = file
          · simp_all [Finds.here hs hfile (hin hfile) hchildren]
          · exact .beside hs hfile hchildren (ihrest (by simp_all))

theorem finds_of_locate {found : Option ScopeId} (h : g.locate p file = .ok found) :
    g.Finds p file [.root] found := by
  refine finds_of_findSomeM? (g.scopes.size + 1)
    (findSomeM?_cons_eq_ok_iff.mpr ⟨found, h, ?_⟩)
  cases found with
  | none => exact .inr ⟨rfl, rfl⟩
  | some id => exact .inl ⟨id, rfl, rfl⟩

theorem exists_findSomeM? {α β ε : Type} {f : α → Except ε (Option β)} {l : List α}
    (h : ∀ a ∈ l, ∃ found, f a = .ok found) : ∃ found, l.findSomeM? f = .ok found := by
  induction l with
  | nil => exact ⟨none, rfl⟩
  | cons a rest ih =>
    obtain ⟨first, hfirst⟩ := h a List.mem_cons_self
    obtain ⟨found, hfound⟩ := ih fun b hb => h b (List.mem_cons_of_mem _ hb)
    cases first with
    | some b => exact ⟨some b, findSomeM?_cons_eq_ok_iff.mpr ⟨_, hfirst, .inl ⟨b, rfl, rfl⟩⟩⟩
    | none => exact ⟨found, findSomeM?_cons_eq_ok_iff.mpr ⟨_, hfirst, .inr ⟨rfl, hfound⟩⟩⟩

/-- The bound is large enough: `walk` are the scopes on the way down to `id`, none of them met
twice, so there are not enough scopes to use the bound up. -/
theorem Linked.exists_locateFrom (linked : g.Linked) (hacyclic : ¬ g.Ancestor .root .root) :
    ∀ {depth : Nat} (walk : List ScopeId) {id : ScopeId}, g.Above .root id → walk.Nodup →
      (∀ w ∈ walk, g.Above .root w ∧ g.Ancestor w id) → g.scopes.size < walk.length + depth →
      ∃ found, g.locateFrom p file depth id = .ok found := by
  intro depth
  induction depth with
  | zero =>
    -- the bound is used up, so the walk holds more scopes than there are
    intro walk id _ hnodup hwalk hbound
    have hle := length_le_of_nodup hnodup fun w hw => linked.exists_scope (hwalk w hw).1
    omega
  | succ depth ih =>
    intro walk id habove hnodup hwalk hbound
    -- a scope met twice would close a circle, which leads back up to the root
    have hfresh : id ∉ walk := fun hid =>
      hacyclic (linked.ancestor_self_of_above habove (hwalk id hid).2)
    obtain ⟨s, hs⟩ := linked.exists_scope habove
    rw [locateFrom_succ hs]
    split
    · exact ⟨none, rfl⟩
    · have hchildren : ∀ child ∈ s.children,
          ∃ found, g.locateFrom p file depth child = .ok found := by
        intro child hchild
        have hlink : g.Child id child := ⟨s, hs, hchild⟩
        refine ih (id :: walk) (habove.tail hlink) (List.nodup_cons.mpr ⟨hfresh, hnodup⟩)
          (fun w hw => ?_) (by simp only [List.length_cons]; omega)
        rcases List.mem_cons.mp hw with rfl | hw
        · exact ⟨habove, .single hlink⟩
        · exact ⟨(hwalk w hw).1, (hwalk w hw).2.tail hlink⟩
      obtain ⟨inner, hinner⟩ := exists_findSomeM? hchildren
      exact ⟨_, by rw [hinner]; rfl⟩

/-- In a graph whose links agree and whose root does not lie on a circle every search ends. -/
theorem Linked.exists_locate (linked : g.Linked) (hacyclic : ¬ g.Ancestor .root .root)
    (p : Position) (file : String) : ∃ found, g.locate p file = .ok found :=
  linked.exists_locateFrom hacyclic [] .refl .nil (by simp) (by simp)

theorem exists_error_of_findSomeM? {α β ε : Type} {f : α → Except ε (Option β)} {l : List α}
    {e : ε} (h : l.findSomeM? f = .error e) : ∃ a ∈ l, f a = .error e := by
  induction l with
  | nil => cases h
  | cons a rest ih =>
    rw [List.findSomeM?_cons] at h
    cases hfirst : f a with
    | error e' =>
      rw [hfirst] at h
      cases h
      exact ⟨a, List.mem_cons_self, hfirst⟩
    | ok first =>
      rw [hfirst] at h
      cases first with
      | some b => cases h
      | none =>
        obtain ⟨b, hb, herror⟩ := ih h
        exact ⟨b, List.mem_cons_of_mem _ hb, herror⟩

/-- A search that starts at the root meets only scopes that exist. -/
theorem Linked.locateFrom_ne_noSuchScope (linked : g.Linked) {depth : Nat} {id : ScopeId}
    (habove : g.Above .root id) (missing : ScopeId) :
    g.locateFrom p file depth id ≠ .error (.noSuchScope missing) := by
  induction depth generalizing id with
  | zero => simp [locateFrom]
  | succ depth ih =>
    obtain ⟨s, hs⟩ := linked.exists_scope habove
    rw [locateFrom_succ hs]
    split
    · simp
    · cases hbelow : s.children.findSomeM? (g.locateFrom p file depth) with
      | ok inner => simp [Except.map]
      | error e =>
        obtain ⟨child, hchild, herror⟩ := exists_error_of_findSomeM? hbelow
        rintro ⟨⟩
        exact ih (habove.tail ⟨s, hs, hchild⟩) herror

/-! ## Searches that do not end -/

/-- There is a file that no scope belongs to. -/
theorem exists_foreign_file (g : ScopeGraph) :
    ∃ file, ∀ id s, g.scope? id = some s → s.file ≠ file := by
  obtain ⟨file, hfile⟩ :=
    Infinite.exists_notMem_finset (g.scopes.toList.map (·.file)).toFinset
  refine ⟨file, fun id s hs heq => hfile ?_⟩
  rw [List.mem_toFinset, List.mem_map]
  exact ⟨s, Array.mem_toList_iff.mpr (Array.mem_of_getElem? hs), heq⟩

/-- A search for a file that no scope belongs to goes through everything below the scopes, and ends
only if that has no circles. -/
theorem Finds.acc_of_foreign (hforeign : ∀ id s, g.scope? id = some s → s.file ≠ file)
    {ids : List ScopeId} {found : Option ScopeId} (h : g.Finds p file ids found) :
    found = none ∧ ∀ id ∈ ids, Acc (fun inner outer => g.Child outer inner) id := by
  induction h with
  | nil => exact ⟨rfl, by simp⟩
  | hidden hs hfile => exact absurd hfile (hforeign _ _ hs)
  | inside _ _ _ ih => cases ih.1
  | here hs hfile => exact absurd hfile (hforeign _ _ hs)
  | beside hs _ _ _ ihbelow ihrest =>
    refine ⟨ihrest.1, List.forall_mem_cons.mpr ⟨?_, ihrest.2⟩⟩
    constructor
    rintro child ⟨t, ht, hchild⟩
    cases Option.some.inj (hs.symm.trans ht)
    exact ihbelow.2 child hchild

theorem not_ancestor_self_of_acc {id : ScopeId}
    (h : Acc (fun inner outer => g.Child outer inner) id) : ¬ g.Ancestor id id := by
  induction h with
  | intro id _ ih =>
    intro hcircle
    obtain ⟨child, hlink, hdown⟩ := Relation.TransGen.head'_iff.mp hcircle
    exact ih child hlink (Relation.TransGen.tail' hdown hlink)

/-- If every search ends, the root does not lie on a circle. -/
theorem not_ancestor_root_of_finds
    (h : ∀ p file, ∃ found, g.Finds p file [.root] found) : ¬ g.Ancestor .root .root := by
  -- in a file that no scope belongs to nothing ends the search early
  obtain ⟨file, hforeign⟩ := exists_foreign_file g
  obtain ⟨found, hfound⟩ := h default file
  exact not_ancestor_self_of_acc
    ((hfound.acc_of_foreign hforeign).2 .root List.mem_cons_self)

/-! ## The way up -/

/-- One step of the bounded way up from a scope that exists. -/
theorem ancestorsFrom_succ {height : Nat} {id : ScopeId} {s : Scope} (hs : g.scope? id = some s) :
    g.ancestorsFrom (height + 1) id =
      match s.parent with
      | none => .ok [id]
      | some parent => (g.ancestorsFrom height parent).map (id :: ·) := by
  rw [ancestorsFrom, scope_eq_ok hs]
  cases hparent : s.parent with
  | none => simp [bind, Except.bind, hparent, pure, Except.pure]
  | some parent =>
    cases hrest : g.ancestorsFrom height parent with
    | error e => simp [bind, Except.bind, hparent, hrest, Except.map]
    | ok rest => simp [bind, Except.bind, hparent, hrest, pure, Except.pure, Except.map]

theorem ancestorsFrom_succ_eq_ok {height : Nat} {id : ScopeId} {chain : List ScopeId}
    (h : g.ancestorsFrom (height + 1) id = .ok chain) :
    ∃ s, g.scope? id = some s ∧
      ((s.parent = none ∧ chain = [id]) ∨
        ∃ parent rest, s.parent = some parent ∧ g.ancestorsFrom height parent = .ok rest ∧
          chain = id :: rest) := by
  cases hs : g.scope? id with
  | none => simp [ancestorsFrom, scope, hs, bind, Except.bind] at h
  | some s =>
    refine ⟨s, rfl, ?_⟩
    rw [ancestorsFrom_succ hs] at h
    cases hparent : s.parent with
    | none =>
      rw [hparent] at h
      cases h
      exact .inl ⟨rfl, rfl⟩
    | some parent =>
      rw [hparent] at h
      cases hrest : g.ancestorsFrom height parent with
      | error e => simp [hrest, Except.map] at h
      | ok rest =>
        simp only [hrest] at h
        cases h
        exact .inr ⟨parent, rest, rfl, hrest, rfl⟩

/-- The bounded way up ends at a scope without parent. -/
theorem rooted_of_ancestorsFrom {height : Nat} {id : ScopeId} {chain : List ScopeId}
    (h : g.ancestorsFrom height id = .ok chain) :
    g.Rooted id ∧ ∃ last s, chain.getLast? = some last ∧ g.scope? last = some s ∧
      s.parent = none := by
  induction height generalizing id chain with
  | zero => cases h
  | succ height ih =>
    obtain ⟨s, hs, ⟨hnone, rfl⟩ | ⟨parent, rest, hparent, hrest, rfl⟩⟩ :=
      ancestorsFrom_succ_eq_ok h
    · exact ⟨.top hs hnone, id, s, rfl, hs, hnone⟩
    · obtain ⟨hrooted, last, t, hlast, ht, htop⟩ := ih hrest
      refine ⟨.up hs hparent hrooted, last, t, ?_, ht, htop⟩
      rw [List.getLast?_cons, hlast]
      rfl

/-- The bound is large enough: `walk` are the scopes on the way up to `id`. -/
theorem Linked.exists_ancestorsFrom (linked : g.Linked) {height : Nat} (walk : List ScopeId)
    {id : ScopeId} (hrooted : g.Rooted id) (hnodup : walk.Nodup)
    (hwalk : ∀ w ∈ walk, (∃ s, g.scope? w = some s) ∧ g.Ancestor id w)
    (hbound : g.scopes.size < walk.length + height) :
    ∃ chain, g.ancestorsFrom height id = .ok chain := by
  induction height generalizing walk id with
  | zero =>
    have hle := length_le_of_nodup hnodup fun w hw => (hwalk w hw).1
    omega
  | succ height ih =>
    -- the scopes of the walk lie below this one, which lies on no circle
    have hfresh : id ∉ walk := fun hid =>
      linked.not_ancestor_self_of_rooted hrooted (hwalk id hid).2
    cases hrooted with
    | top hs hnone =>
      refine ⟨[id], ?_⟩
      rw [ancestorsFrom_succ hs, hnone]
    | up hs hparent hup =>
      have hlink := linked.parent_back hs hparent
      obtain ⟨rest, hrest⟩ := ih (id :: walk) hup (List.nodup_cons.mpr ⟨hfresh, hnodup⟩)
        (fun w hw => by
          rcases List.mem_cons.mp hw with rfl | hw
          · exact ⟨⟨_, hs⟩, .single hlink⟩
          · exact ⟨(hwalk w hw).1, .head hlink (hwalk w hw).2⟩)
        (by simp only [List.length_cons]; omega)
      refine ⟨id :: rest, ?_⟩
      simp only [ancestorsFrom_succ hs, hparent, hrest]
      rfl

/-- A way up that starts at a scope meets only scopes that exist. -/
theorem Linked.ancestorsFrom_ne_noSuchScope (linked : g.Linked) {height : Nat} {id : ScopeId}
    {s : Scope} (hs : g.scope? id = some s) (missing : ScopeId) :
    g.ancestorsFrom height id ≠ .error (.noSuchScope missing) := by
  induction height generalizing id s with
  | zero => simp [ancestorsFrom]
  | succ height ih =>
    rw [ancestorsFrom_succ hs]
    cases hparent : s.parent with
    | none => simp
    | some parent =>
      obtain ⟨t, ht, -⟩ := linked.parent_back hs hparent
      cases hrest : g.ancestorsFrom height parent with
      | ok rest => simp [hrest, Except.map]
      | error e =>
        simp only [hrest]
        rintro ⟨⟩
        exact ih ht hrest

/-- The way up ends iff it leads to a scope without parent. -/
theorem Linked.ancestors_iff_rooted (linked : g.Linked) {id : ScopeId} :
    (∃ chain, g.ancestors id = .ok chain) ↔ g.Rooted id :=
  ⟨fun ⟨_, h⟩ => (rooted_of_ancestorsFrom h).1, fun h =>
    linked.exists_ancestorsFrom [] h .nil (by simp) (by simp)⟩

/-- Where the way up ends, so does everything that is looked for on it: the first scope of the way
with an answer gives it. -/
theorem climbFrom_of_ancestorsFrom {α : Type} (ask : ScopeId → Scope → Option α) {height : Nat}
    {id : ScopeId} {chain : List ScopeId} (h : g.ancestorsFrom height id = .ok chain) :
    g.climbFrom ask height id =
      .ok (chain.findSome? fun id => (g.scope? id).bind (ask id)) := by
  induction height generalizing id chain with
  | zero => cases h
  | succ height ih =>
    obtain ⟨s, hs, hsplit⟩ := ancestorsFrom_succ_eq_ok h
    rw [climbFrom, scope_eq_ok hs]
    cases hask : ask id s with
    | some answer =>
      obtain ⟨-, rfl⟩ | ⟨parent, rest, -, -, rfl⟩ := hsplit <;>
        simp [bind, Except.bind, pure, Except.pure, hask, hs]
    | none =>
      obtain ⟨hnone, rfl⟩ | ⟨parent, rest, hparent, hrest, rfl⟩ := hsplit
      · simp [bind, Except.bind, pure, Except.pure, hask, hs, hnone]
      · simp [bind, Except.bind, hask, hs, hparent, ih hrest]

theorem climb_of_ancestors {α : Type} (ask : ScopeId → Scope → Option α) {id : ScopeId}
    {chain : List ScopeId} (h : g.ancestors id = .ok chain) :
    g.climb ask id = .ok (chain.findSome? fun id => (g.scope? id).bind (ask id)) :=
  climbFrom_of_ancestorsFrom ask h

/-! ## What the check of the links is worth -/

/-- Which of the graphs that pass the check are safe to walk. No walk meets a scope that does not
exist. All searches end iff the root does not lie on a circle. From a scope that is found the way up
ends iff it does from the root, and then the root does not lie on a circle. A way up that ends leads
to a scope without parent, and everything that is looked for on it ends as well. -/
theorem search_ends_iff (valid : g.validate = .ok ()) :
    (∀ p file missing, g.locate p file ≠ .error (.noSuchScope missing)) ∧
    (∀ p file id missing, g.locate p file = .ok (some id) →
      g.ancestors id ≠ .error (.noSuchScope missing)) ∧
    ((∀ p file, ∃ found, g.Finds p file [.root] found ∧ g.locate p file = .ok found) ↔
      ¬ g.Ancestor .root .root) ∧
    (∀ p file id, g.locate p file = .ok (some id) →
      ((∃ chain, g.ancestors id = .ok chain) ↔ ∃ chain, g.ancestors .root = .ok chain)) ∧
    ((∃ chain, g.ancestors .root = .ok chain) → ¬ g.Ancestor .root .root) ∧
    (∀ id chain, g.ancestors id = .ok chain →
      (∃ last s, chain.getLast? = some last ∧ g.scope? last = some s ∧ s.parent = none) ∧
      ∀ {α : Type} (ask : ScopeId → Scope → Option α), ∃ answer, g.climb ask id = .ok answer) := by
  have linked := linked_of_validate valid
  refine ⟨fun _ _ => linked.locateFrom_ne_noSuchScope .refl, fun p file id missing h => ?_,
    ⟨fun h => ?_, fun h p file => ?_⟩, fun p file id h => ?_, fun h => ?_,
    fun id chain h => ⟨(rooted_of_ancestorsFrom h).2, fun ask => ⟨_, climb_of_ancestors ask h⟩⟩⟩
  · obtain ⟨-, s, hs, -⟩ := (finds_of_locate h).sound rfl
    exact linked.ancestorsFrom_ne_noSuchScope hs missing
  -- if the root were its own ancestor, some search would go on for ever
  · exact not_ancestor_root_of_finds fun p file =>
      let ⟨found, hfound, _⟩ := h p file
      ⟨found, hfound⟩
  · obtain ⟨found, hfound⟩ := linked.exists_locate h p file
    exact ⟨found, finds_of_locate hfound, hfound⟩
  -- what is found is below the root, and its ancestors end where those of the root do
  · obtain ⟨⟨top, htop, habove⟩, -⟩ := (finds_of_locate h).sound rfl
    rw [List.mem_singleton] at htop
    rw [linked.ancestors_iff_rooted, linked.ancestors_iff_rooted]
    exact linked.rooted_iff_of_above (htop ▸ habove)
  · exact linked.not_ancestor_self_of_rooted (linked.ancestors_iff_rooted.mp h)

/-- A program with one form. -/
def formInProgram : ScopeGraph :=
  ⟨#[{ Scope.fresh .program "zfoo" "zfoo.prog.abap" ⟨⟨1, 1⟩, ⟨9, 1⟩⟩ none with children := [⟨1⟩] },
    .fresh .form "bar" "zfoo.prog.abap" ⟨⟨2, 1⟩, ⟨5, 1⟩⟩ (some .root)]⟩

theorem search_ends_formInProgram : formInProgram.validate = .ok () ∧
    (∀ p file, ∃ found, formInProgram.Finds p file [.root] found ∧
      formInProgram.locate p file = .ok found) ∧
    formInProgram.locate ⟨3, 1⟩ "zfoo.prog.abap" = .ok (some ⟨1⟩) ∧
    ∃ chain, formInProgram.ancestors ⟨1⟩ = .ok chain := by
  have valid : formInProgram.validate = .ok () := by rfl
  have hfound : formInProgram.locate ⟨3, 1⟩ "zfoo.prog.abap" = .ok (some ⟨1⟩) := by rfl
  have hroot : ∃ chain, formInProgram.ancestors .root = .ok chain := ⟨[.root], by rfl⟩
  obtain ⟨-, -, hends, hup, hacyclic, -⟩ := search_ends_iff valid
  exact ⟨valid, hends.mpr (hacyclic hroot), hfound, (hup _ _ _ hfound).mpr hroot⟩

/-- A program that is its own parent. -/
def circle : ScopeGraph :=
  ⟨#[{ Scope.fresh .program "zfoo" "zfoo.prog.abap" ⟨⟨1, 1⟩, ⟨9, 1⟩⟩ (some .root) with
    children := [.root] }]⟩

theorem circle_finds_nothing {ids : List ScopeId} {found : Option ScopeId}
    (h : circle.Finds ⟨1, 1⟩ "zfoo.prog.abap" ids found) : ids ≠ [.root] := by
  induction h with
  | nil => simp
  | hidden hs _ hout =>
    rintro ⟨⟩
    cases hs
    cases hout
  | inside hs _ _ ih | here hs _ _ _ ih =>
    rintro ⟨⟩
    cases hs
    exact ih rfl
  | beside hs hfile =>
    rintro ⟨⟩
    cases hs
    exact hfile rfl

/-- The circle passes the check, but looking for a position in it does not end. -/
theorem validate_circle : circle.validate = .ok () ∧
    (∀ found, ¬ circle.Finds ⟨1, 1⟩ "zfoo.prog.abap" [.root] found) ∧
    circle.locate ⟨1, 1⟩ "zfoo.prog.abap" = .error .endless ∧
    ¬ circle.Rooted .root := by
  refine ⟨by rfl, fun found h => circle_finds_nothing h rfl, by rfl, fun h => ?_⟩
  exact (linked_of_validate (g := circle) (by rfl)).not_ancestor_self_of_rooted h
    (.single ⟨_, rfl, List.mem_cons_self⟩)

end ScopeGraph

end AbapLowering
