import AbapLowering.Emission.Members
import Mathlib.Data.List.Nodup

/-!
# Walks through interfaces

Interfaces include others, perhaps in circles. Two ways to walk through all that some names lead to
are defined here as relations, without a queue: `DepthFirst` goes from each name to all below it
before the next, `BreadthFirst` goes level by level. On every walk each key is met once, and what is
met is what can be reached (`IsWalk`). Both walks exist for every graph whose names are known
(`exists_depthFirst`, `exists_breadthFirst`), and `visitInterfaces` takes them.
-/

namespace AbapLowering

namespace InterfaceVisit

/-- Names are told apart by their form in upper case. -/
def key (visit : InterfaceVisit) : String := Text.toUpper visit.name

/-- The interface that was met, if the name is one of an interface. -/
def interface? (visit : InterfaceVisit) : Option InterfaceDefinition :=
  match visit.found with
  | .ok found => found
  | .error _ => none

/-- The names that lead on from a visit. -/
def included (visit : InterfaceVisit) : List String :=
  match visit.interface? with
  | some i => i.implementing
  | none => []

/-- Whether the lookup itself went wrong. -/
def IsFaulty (visit : InterfaceVisit) : Prop := ∃ fault, visit.found = .error fault

theorem enqueue_of_not_faulty {visit : InterfaceVisit} (h : ¬ visit.IsFaulty) (order : WalkOrder)
    (waiting : List String) :
    visit.enqueue order waiting = order.enqueue visit.included waiting := by
  unfold enqueue included interface?
  cases hfound : visit.found with
  | error fault => exact absurd ⟨fault, hfound⟩ h
  | ok found =>
    cases found with
    | some i => rfl
    | none => cases order <;> simp [WalkOrder.enqueue]

end InterfaceVisit

open InterfaceVisit (key)

section

variable (find : String → Except GraphFault (Option InterfaceDefinition))

/-! ## What a walk is -/

/-- Meeting a name. -/
def visitOf (name : String) : InterfaceVisit := ⟨name, find name⟩

/-- A name can be reached from some names through the interfaces that are found. -/
inductive Reaches (roots : List String) : String → Prop
  | root {name : String} : name ∈ roots → Reaches roots name
  | included {outer name : String} {i : InterfaceDefinition} : Reaches roots outer →
    find outer = .ok (some i) → name ∈ i.implementing → Reaches roots name

/-- From the first name to everything below it that was not seen, and then to the other names. -/
inductive DepthFirst : (seen names : List String) → List InterfaceVisit → Prop
  | nil {seen : List String} : DepthFirst seen [] []
  | skip {seen rest : List String} {name : String} {visits : List InterfaceVisit} :
    Text.toUpper name ∈ seen → DepthFirst seen rest visits → DepthFirst seen (name :: rest) visits
  | visit {seen rest : List String} {name : String} {below visits : List InterfaceVisit} :
    Text.toUpper name ∉ seen →
    DepthFirst (Text.toUpper name :: seen) (visitOf find name).included below →
    DepthFirst ((visitOf find name :: below).map key ++ seen) rest visits →
    DepthFirst seen (name :: rest) (visitOf find name :: (below ++ visits))

/-- The names that were not seen, each at its first place. -/
def freshNames (seen : List String) : List String → List String
  | [] => []
  | name :: rest =>
    if Text.toUpper name ∈ seen then freshNames seen rest
    else name :: freshNames (Text.toUpper name :: seen) rest

/-- Through all names of a level that were not seen, and then to the level of what they include. -/
inductive BreadthFirst : (seen level : List String) → List InterfaceVisit → Prop
  | done {seen level : List String} : freshNames seen level = [] → BreadthFirst seen level []
  | level {seen level : List String} {visits : List InterfaceVisit} :
    freshNames seen level ≠ [] →
    BreadthFirst ((freshNames seen level).map Text.toUpper ++ seen)
      ((freshNames seen level).flatMap fun name => (visitOf find name).included) visits →
    BreadthFirst seen level ((freshNames seen level).map (visitOf find) ++ visits)

/-- Every key that some names lead to is met just once, unless it was seen before. -/
structure IsWalk (seen names : List String) (visits : List InterfaceVisit) : Prop where
  looked : ∀ visit ∈ visits, visit = visitOf find visit.name
  nodup : (visits.map key).Nodup
  fresh : ∀ visit ∈ visits, visit.key ∉ seen
  covers : ∀ name ∈ names, Text.toUpper name ∈ visits.map key ++ seen
  closed : ∀ visit ∈ visits, ∀ name ∈ visit.included, Text.toUpper name ∈ visits.map key ++ seen
  reached : ∀ visit ∈ visits, Reaches find names visit.name

end

variable {find : String → Except GraphFault (Option InterfaceDefinition)}

/-- More roots reach more. -/
theorem Reaches.mono {roots roots' : List String} (hroots : ∀ name ∈ roots, Reaches find roots' name)
    {name : String} (h : Reaches find roots name) : Reaches find roots' name := by
  induction h with
  | root hname => exact hroots _ hname
  | included _ hfound hname ih => exact .included ih hfound hname

/-- What leads on from a visit is included by what was found there. -/
theorem find_of_mem_included {outer name : String} (h : name ∈ (visitOf find outer).included) :
    ∃ i, find outer = .ok (some i) ∧ name ∈ i.implementing := by
  unfold InterfaceVisit.included InterfaceVisit.interface? visitOf at h
  cases hfind : find outer with
  | error fault => simp [hfind] at h
  | ok found =>
    cases found with
    | none => simp [hfind] at h
    | some i => exact ⟨i, rfl, by simpa [hfind] using h⟩

theorem Reaches.of_included {roots : List String} {outer name : String}
    (houter : Reaches find roots outer) (h : name ∈ (visitOf find outer).included) :
    Reaches find roots name := by
  obtain ⟨i, hfound, hname⟩ := find_of_mem_included h
  exact .included houter hfound hname

/-! ## Both ways are walks -/

namespace IsWalk

variable {seen names names' : List String} {first second visits : List InterfaceVisit}

/-- One walk after the other. -/
theorem append (hfirst : IsWalk find seen names first)
    (hsecond : IsWalk find (first.map key ++ seen) names' second) :
    IsWalk find seen (names ++ names') (first ++ second) := by
  have hsooner {k : String} (h : k ∈ first.map key ++ seen) :
      k ∈ (first ++ second).map key ++ seen := by
    simp only [List.map_append, List.mem_append] at h ⊢
    exact h.imp .inl id
  have hlater {k : String} (h : k ∈ second.map key ++ (first.map key ++ seen)) :
      k ∈ (first ++ second).map key ++ seen := by
    simp only [List.map_append, List.mem_append] at h ⊢
    rcases h with h | h | h
    · exact .inl (.inr h)
    · exact .inl (.inl h)
    · exact .inr h
  -- for the second walk, the keys of the first count as seen
  constructor
  case looked =>
    intro visit hvisit
    exact (List.mem_append.mp hvisit).elim (hfirst.looked visit) (hsecond.looked visit)
  case nodup =>
    rw [List.map_append]
    refine hfirst.nodup.append hsecond.nodup fun k hk hk' => ?_
    obtain ⟨visit, hvisit, rfl⟩ := List.mem_map.mp hk'
    exact hsecond.fresh visit hvisit (List.mem_append_left _ hk)
  case fresh =>
    intro visit hvisit
    rcases List.mem_append.mp hvisit with hvisit | hvisit
    · exact hfirst.fresh visit hvisit
    · exact fun hseen => hsecond.fresh visit hvisit (List.mem_append_right _ hseen)
  case covers =>
    intro name hname
    exact (List.mem_append.mp hname).elim (fun h => hsooner (hfirst.covers name h))
      fun h => hlater (hsecond.covers name h)
  case closed =>
    intro visit hvisit name hname
    exact (List.mem_append.mp hvisit).elim (fun h => hsooner (hfirst.closed visit h name hname))
      fun h => hlater (hsecond.closed visit h name hname)
  case reached =>
    intro visit hvisit
    rcases List.mem_append.mp hvisit with hvisit | hvisit
    · exact (hfirst.reached visit hvisit).mono fun name h => .root (List.mem_append_left _ h)
    · exact (hsecond.reached visit hvisit).mono fun name h => .root (List.mem_append_right _ h)

/-- Names that were not seen, and then a walk through what they include. -/
theorem prepend (fresh : List String) (hnodup : (fresh.map Text.toUpper).Nodup)
    (hfresh : ∀ name ∈ fresh, name ∈ names ∧ Text.toUpper name ∉ seen)
    (hnames : ∀ name ∈ names, Text.toUpper name ∈ fresh.map Text.toUpper ++ seen)
    (h : IsWalk find (fresh.map Text.toUpper ++ seen)
      (fresh.flatMap fun name => (visitOf find name).included) visits) :
    IsWalk find seen names (fresh.map (visitOf find) ++ visits) := by
  have hkeys : (fresh.map (visitOf find)).map key = fresh.map Text.toUpper := by
    rw [List.map_map]
    rfl
  have hlater {k : String} (hk : k ∈ visits.map key ++ (fresh.map Text.toUpper ++ seen)) :
      k ∈ (fresh.map (visitOf find) ++ visits).map key ++ seen := by
    rw [List.map_append, hkeys]
    simp only [List.mem_append] at hk ⊢
    rcases hk with hk | hk | hk
    · exact .inl (.inr hk)
    · exact .inl (.inl hk)
    · exact .inr hk
  -- a visit is of one of the new names or one of the later visits
  have hmem {visit : InterfaceVisit} (hvisit : visit ∈ fresh.map (visitOf find) ++ visits) :
      (∃ name ∈ fresh, visit = visitOf find name) ∨ visit ∈ visits := by
    refine (List.mem_append.mp hvisit).imp_left fun hvisit => ?_
    obtain ⟨name, hname, rfl⟩ := List.mem_map.mp hvisit
    exact ⟨name, hname, rfl⟩
  constructor
  case looked =>
    intro visit hvisit
    rcases hmem hvisit with ⟨name, -, rfl⟩ | hvisit
    · rfl
    · exact h.looked visit hvisit
  case nodup =>
    rw [List.map_append, hkeys]
    refine hnodup.append h.nodup fun k hk hk' => ?_
    obtain ⟨visit, hvisit, rfl⟩ := List.mem_map.mp hk'
    exact h.fresh visit hvisit (List.mem_append_left _ hk)
  case fresh =>
    intro visit hvisit
    rcases hmem hvisit with ⟨name, hname, rfl⟩ | hvisit
    · exact (hfresh name hname).2
    · exact fun hseen => h.fresh visit hvisit (List.mem_append_right _ hseen)
  case covers => exact fun name hname => hlater (List.mem_append_right _ (hnames name hname))
  case closed =>
    intro visit hvisit name' hname'
    rcases hmem hvisit with ⟨name, hname, rfl⟩ | hvisit
    · exact hlater (h.covers name' (List.mem_flatMap.mpr ⟨name, hname, hname'⟩))
    · exact hlater (h.closed visit hvisit name' hname')
  -- what comes below a new name is reached through it
  case reached =>
    intro visit hvisit
    rcases hmem hvisit with ⟨name, hname, rfl⟩ | hvisit
    · exact .root (hfresh name hname).1
    · refine (h.reached visit hvisit).mono fun name' hname' => ?_
      obtain ⟨name, hname, hname'⟩ := List.mem_flatMap.mp hname'
      exact .of_included (.root (hfresh name hname).1) hname'

end IsWalk

/-- A depth-first walk meets each key once. -/
theorem DepthFirst.isWalk {seen names : List String} {visits : List InterfaceVisit}
    (h : DepthFirst find seen names visits) : IsWalk find seen names visits := by
  induction h with
  | nil => exact ⟨nofun, List.nodup_nil, nofun, nofun, nofun, nofun⟩
  | @skip seen rest name visits hseen _ ih =>
    refine { ih with covers := ?_, reached := ?_ }
    · intro name' hname'
      rcases List.mem_cons.mp hname' with rfl | hname'
      · exact List.mem_append_right _ hseen
      · exact ih.covers name' hname'
    · intro visit hvisit
      exact (ih.reached visit hvisit).mono fun name' h => .root (List.mem_cons_of_mem _ h)
  | @visit seen rest name below visits hnew _ _ ihbelow ihrest =>
    -- the name and all below it are a walk of their own, which comes before the rest
    have hfirst : IsWalk find seen [name] (visitOf find name :: below) := by
      refine IsWalk.prepend [name] (List.nodup_singleton _) ?_ ?_ ?_
      · simpa using hnew
      · simp
      · simpa using ihbelow
    exact hfirst.append ihrest

/-- Fresh names differ in their keys, none was seen, and no other name of the level is new. -/
theorem freshNames_spec (seen level : List String) :
    ((freshNames seen level).map Text.toUpper).Nodup ∧
      (∀ name ∈ freshNames seen level, name ∈ level ∧ Text.toUpper name ∉ seen) ∧
      ∀ name ∈ level, Text.toUpper name ∈ (freshNames seen level).map Text.toUpper ++ seen := by
  induction level generalizing seen with
  | nil => exact ⟨List.nodup_nil, nofun, nofun⟩
  | cons name rest ih =>
    unfold freshNames
    split
    next hseen =>
      obtain ⟨hnodup, hfresh, hcovers⟩ := ih seen
      refine ⟨hnodup, fun name' h => ⟨List.mem_cons_of_mem _ (hfresh name' h).1, (hfresh name' h).2⟩, ?_⟩
      intro name' hname'
      rcases List.mem_cons.mp hname' with rfl | hname'
      · exact List.mem_append_right _ hseen
      · exact hcovers name' hname'
    -- the name is fresh, and counts as seen for those behind it
    next hnew =>
      obtain ⟨hnodup, hfresh, hcovers⟩ := ih (Text.toUpper name :: seen)
      refine ⟨?_, ?_, ?_⟩
      · refine List.nodup_cons.mpr ⟨fun h => ?_, hnodup⟩
        obtain ⟨name', hname', heq⟩ := List.mem_map.mp h
        exact (hfresh name' hname').2 (heq ▸ List.mem_cons_self)
      · intro name' hname'
        rcases List.mem_cons.mp hname' with rfl | hname'
        · exact ⟨List.mem_cons_self, hnew⟩
        · obtain ⟨hmem, hnot⟩ := hfresh name' hname'
          exact ⟨List.mem_cons_of_mem _ hmem, fun h => hnot (List.mem_cons_of_mem _ h)⟩
      · intro name' hname'
        rcases List.mem_cons.mp hname' with rfl | hname'
        · simp
        · have hcovered := hcovers name' hname'
          simp only [List.map_cons, List.cons_append, List.mem_append, List.mem_cons]
            at hcovered ⊢
          exact or_left_comm.mp hcovered

/-- A breadth-first walk meets each key once. -/
theorem BreadthFirst.isWalk {seen level : List String} {visits : List InterfaceVisit}
    (h : BreadthFirst find seen level visits) : IsWalk find seen level visits := by
  induction h with
  | @done seen level hnone =>
    have hcovers := (freshNames_spec seen level).2.2
    rw [hnone] at hcovers
    exact ⟨nofun, List.nodup_nil, nofun, hcovers, nofun, nofun⟩
  | @level seen level visits _ _ ih =>
    obtain ⟨hnodup, hfresh, hcovers⟩ := freshNames_spec seen level
    exact ih.prepend _ hnodup hfresh hcovers

/-! ## Both walks exist and are taken -/

/-- The keys that were not seen. -/
def unseen (known seen : List String) : List String := known.filter (· ∉ seen)

/-- Every key that an interface leads to is known. -/
def Encloses (find : String → Except GraphFault (Option InterfaceDefinition))
    (known : List String) : Prop :=
  ∀ name, ∀ name' ∈ (visitOf find name).included, Text.toUpper name' ∈ known

variable {known seen : List String} {name : String}

theorem unseen_nil (known : List String) : unseen known [] = known := by
  simp [unseen]

/-- To see a key is to take it from those that were not seen. -/
theorem without_unseen (known seen : List String) (k : String) :
    without k (unseen known seen) = unseen known (k :: seen) := by
  simp [without, unseen, List.filter_filter, not_or]

/-- There are fewer unseen keys after each visit, so a walk comes to an end. -/
theorem length_unseen_lt (hknown : Text.toUpper name ∈ known) (hnew : Text.toUpper name ∉ seen) :
    (unseen known (Text.toUpper name :: seen)).length < (unseen known seen).length := by
  rw [← without_unseen]
  exact length_without_lt (by simp [unseen, hknown, hnew])

theorem length_unseen_le {seen' : List String} (h : seen ⊆ seen') :
    (unseen known seen').length ≤ (unseen known seen).length := by
  refine (List.monotone_filter_right known fun k hk => ?_).length_le
  simp only [decide_eq_true_eq] at hk ⊢
  exact fun hseen => hk (h hseen)

theorem unseen_congr {seen' : List String} (h : ∀ k, k ∈ seen ↔ k ∈ seen') :
    unseen known seen = unseen known seen' := by
  simp only [unseen, h]

/-- A name that was seen is passed over. -/
theorem visitInterfaces_of_seen (order : WalkOrder) (h : Text.toUpper name ∈ seen)
    (waiting : List String) :
    visitInterfaces order find (unseen known seen) (name :: waiting) =
      visitInterfaces order find (unseen known seen) waiting := by
  rw [visitInterfaces, if_neg]
  simp [unseen, h]

/-- A new name is visited, and what it leads to is put in the queue. -/
theorem visitInterfaces_of_new (order : WalkOrder) (hknown : Text.toUpper name ∈ known)
    (hnew : Text.toUpper name ∉ seen) (waiting : List String) :
    visitInterfaces order find (unseen known seen) (name :: waiting) =
      visitOf find name :: visitInterfaces order find (unseen known (Text.toUpper name :: seen))
        ((visitOf find name).enqueue order waiting) := by
  have hunseen : Text.toUpper name ∈ unseen known seen := by simp [unseen, hknown, hnew]
  rw [visitInterfaces, if_pos hunseen, without_unseen]
  rfl

/-- A walk that comes upon a faulty lookup. -/
def Fails (visits : List InterfaceVisit) : Prop := ∃ visit ∈ visits, visit.IsFaulty

theorem Fails.later (first : List InterfaceVisit) {second : List InterfaceVisit}
    (h : Fails second) :
    Fails (first ++ second) := by
  obtain ⟨visit, hvisit, hfaulty⟩ := h
  exact ⟨visit, List.mem_append_right _ hvisit, hfaulty⟩

/-- There is a depth-first walk from all known names, and it is taken before the names that wait,
unless a lookup is faulty. -/
theorem exists_depthFirst (hknown : Encloses find known) (seen names : List String)
    (hnames : ∀ name ∈ names, Text.toUpper name ∈ known) :
    ∃ visits, DepthFirst find seen names visits ∧ ∀ waiting,
      visitInterfaces .depthFirst find (unseen known seen) (names ++ waiting) =
          visits ++ visitInterfaces .depthFirst find (unseen known (visits.map key ++ seen)) waiting ∨
        Fails (visitInterfaces .depthFirst find (unseen known seen) (names ++ waiting)) := by
  match names with
  | [] => exact ⟨[], .nil, fun waiting => .inl rfl⟩
  | name :: rest =>
    have hname := hnames name List.mem_cons_self
    have hrest : ∀ name ∈ rest, Text.toUpper name ∈ known := fun name h =>
      hnames name (List.mem_cons_of_mem _ h)
    -- a name that was seen is passed over; a new one comes first, then what it includes, then the
    -- rest
    by_cases hseen : Text.toUpper name ∈ seen
    · obtain ⟨visits, hvisits, htaken⟩ := exists_depthFirst hknown seen rest hrest
      refine ⟨visits, .skip hseen hvisits, fun waiting => ?_⟩
      rw [List.cons_append, visitInterfaces_of_seen _ hseen]
      exact htaken waiting
    · have hlt := length_unseen_lt hname hseen
      obtain ⟨below, hbelow, htaken⟩ := exists_depthFirst hknown (Text.toUpper name :: seen)
        (visitOf find name).included (hknown name)
      -- fewer keys are unseen after each visit, so both calls end
      have hle : (unseen known ((visitOf find name :: below).map key ++ seen)).length <
          (unseen known seen).length := by
        refine Nat.lt_of_le_of_lt (length_unseen_le ?_) hlt
        exact List.cons_subset_cons _ (List.subset_append_right _ _)
      obtain ⟨visits, hvisits, htaken'⟩ := exists_depthFirst hknown
        ((visitOf find name :: below).map key ++ seen) rest hrest
      refine ⟨_, .visit hseen hbelow hvisits, fun waiting => ?_⟩
      rw [List.cons_append, visitInterfaces_of_new _ hname hseen]
      -- nothing behind a faulty interface matters
      by_cases hfaulty : (visitOf find name).IsFaulty
      · exact .inr ⟨_, List.mem_cons_self, hfaulty⟩
      · rw [InterfaceVisit.enqueue_of_not_faulty hfaulty, WalkOrder.enqueue]
        have hbelow : unseen known (below.map key ++ Text.toUpper name :: seen) =
            unseen known ((visitOf find name :: below).map key ++ seen) :=
          unseen_congr fun k => List.perm_middle.mem_iff
        have hall : unseen known (visits.map key ++ ((visitOf find name :: below).map key ++ seen)) =
            unseen known ((visitOf find name :: (below ++ visits)).map key ++ seen) := by
          refine unseen_congr fun k => ?_
          simp only [List.map_cons, List.map_append, List.mem_append, List.mem_cons]
          tauto
        rcases htaken (rest ++ waiting) with htaken | hfails
        · rw [htaken, hbelow]
          rcases htaken' waiting with htaken' | hfails
          · rw [htaken', hall, List.cons_append, List.append_assoc]
            exact .inl rfl
          · exact .inr (.later (visitOf find name :: below) hfails)
        · exact .inr (.later [visitOf find name] hfails)
termination_by ((unseen known seen).length, names.length)

/-- The names of a level are met before what they include, which waits at the end of the queue. -/
theorem visitInterfaces_level (seen level : List String)
    (hlevel : ∀ name ∈ level, Text.toUpper name ∈ known) (next : List String) :
    visitInterfaces .breadthFirst find (unseen known seen) (level ++ next) =
        (freshNames seen level).map (visitOf find) ++ visitInterfaces .breadthFirst find
          (unseen known ((freshNames seen level).map Text.toUpper ++ seen))
          (next ++ (freshNames seen level).flatMap fun name => (visitOf find name).included) ∨
      Fails (visitInterfaces .breadthFirst find (unseen known seen) (level ++ next)) := by
  induction level generalizing seen next with
  | nil => exact .inl (by simp [freshNames])
  | cons name rest ih =>
    have hname := hlevel name List.mem_cons_self
    have hrest : ∀ name ∈ rest, Text.toUpper name ∈ known := fun name h =>
      hlevel name (List.mem_cons_of_mem _ h)
    unfold freshNames
    split
    next hseen =>
      rw [List.cons_append, visitInterfaces_of_seen _ hseen]
      exact ih seen hrest next
    next hnew =>
      rw [List.cons_append, visitInterfaces_of_new _ hname hnew]
      -- what is included by a name of this level waits behind the level
      by_cases hfaulty : (visitOf find name).IsFaulty
      · exact .inr ⟨_, List.mem_cons_self, hfaulty⟩
      · rw [InterfaceVisit.enqueue_of_not_faulty hfaulty, WalkOrder.enqueue, List.append_assoc]
        have hcongr : unseen known ((freshNames (Text.toUpper name :: seen) rest).map Text.toUpper ++
            Text.toUpper name :: seen) =
            unseen known ((name :: freshNames (Text.toUpper name :: seen) rest).map Text.toUpper ++
              seen) :=
          unseen_congr fun k => List.perm_middle.mem_iff
        rcases ih (Text.toUpper name :: seen) hrest (next ++ (visitOf find name).included)
          with htaken | hfails
        · rw [htaken, hcongr, List.append_assoc]
          exact .inl rfl
        · exact .inr (.later [visitOf find name] hfails)

/-- There is a breadth-first walk from all known names, and it is taken unless a lookup is faulty. -/
theorem exists_breadthFirst (hknown : Encloses find known) (seen level : List String)
    (hlevel : ∀ name ∈ level, Text.toUpper name ∈ known) :
    ∃ visits, BreadthFirst find seen level visits ∧
      (visitInterfaces .breadthFirst find (unseen known seen) level = visits ∨
        Fails (visitInterfaces .breadthFirst find (unseen known seen) level)) := by
  have hstep := @visitInterfaces_level find known seen level hlevel []
  rw [List.append_nil, List.nil_append] at hstep
  cases hfresh : freshNames seen level with
  | nil =>
    rw [hfresh] at hstep
    refine ⟨[], .done hfresh, hstep.imp_left fun htaken => ?_⟩
    rw [htaken, List.flatMap_nil, visitInterfaces]
    rfl
  | cons name rest =>
    obtain ⟨-, hmem, -⟩ := freshNames_spec seen level
    obtain ⟨hname, hnew⟩ := hmem name (hfresh ▸ List.mem_cons_self)
    -- a level with a fresh name leaves fewer keys unseen
    have hlt : (unseen known ((freshNames seen level).map Text.toUpper ++ seen)).length <
        (unseen known seen).length := by
      refine Nat.lt_of_le_of_lt (length_unseen_le ?_) (length_unseen_lt (hlevel name hname) hnew)
      rw [hfresh]
      exact List.cons_subset_cons _ (List.subset_append_right _ _)
    obtain ⟨visits, hvisits, htaken⟩ := exists_breadthFirst hknown
      ((freshNames seen level).map Text.toUpper ++ seen)
      ((freshNames seen level).flatMap fun name => (visitOf find name).included)
      fun name' hname' => by
        obtain ⟨outer, -, hname'⟩ := List.mem_flatMap.mp hname'
        exact hknown outer name' hname'
    refine ⟨_, .level (by simp [hfresh]) hvisits, ?_⟩
    rcases hstep with hstep | hfails
    · rw [hstep]
      exact htaken.imp (fun htaken => congrArg _ htaken) (.later _)
    · exact .inr hfails
termination_by (unseen known seen).length

/-! ## What a walk comes upon -/

/-- The interfaces that are met, in order. -/
def interfacesOf (visits : List InterfaceVisit) : List InterfaceDefinition :=
  visits.filterMap (·.interface?)

/-- The name of a visit, if there is no interface of that name. -/
def InterfaceVisit.missing? (visit : InterfaceVisit) : Option String :=
  match visit.found with
  | .ok none => some visit.name
  | _ => none

/-- The names that are met but not found, in order. -/
def missingOf (visits : List InterfaceVisit) : List String := visits.filterMap (·.missing?)

/-- A visit meets an interface if its name is found. -/
theorem interface?_visitOf {name : String} {i : InterfaceDefinition} :
    (visitOf find name).interface? = some i ↔ find name = .ok (some i) := by
  unfold InterfaceVisit.interface? visitOf
  cases find name <;> simp

/-- A visit is in vain if its name is not found. -/
theorem missing?_visitOf {name missing : String} :
    (visitOf find name).missing? = some missing ↔ find name = .ok none ∧ name = missing := by
  unfold InterfaceVisit.missing? visitOf
  cases find name with
  | error fault => simp
  | ok found => cases found <;> simp

namespace IsWalk

variable {names : List String} {visits : List InterfaceVisit}

/-- If lookups do not tell names of one key apart, a walk meets all that can be reached. -/
theorem exists_visit (h : IsWalk find [] names visits)
    (hfolds : ∀ a b, Reaches find names a → Reaches find names b →
      Text.toUpper a = Text.toUpper b → find a = find b) {name : String}
    (hname : Reaches find names name) :
    ∃ visit ∈ visits, visit.key = Text.toUpper name ∧ find visit.name = find name := by
  have hmet : Text.toUpper name ∈ visits.map key := by
    induction hname with
    | root hroot => simpa using h.covers _ hroot
    | @included outer name i houter hfound hincluded ih =>
      obtain ⟨visit, hvisit, hkey⟩ := List.mem_map.mp ih
      have hsame : find visit.name = .ok (some i) :=
        (hfolds _ _ (h.reached visit hvisit) houter hkey).trans hfound
      have hmem : name ∈ visit.included := by
        rw [h.looked visit hvisit, InterfaceVisit.included, interface?_visitOf.mpr hsame]
        exact hincluded
      simpa using h.closed visit hvisit name hmem
  obtain ⟨visit, hvisit, hkey⟩ := List.mem_map.mp hmet
  exact ⟨visit, hvisit, hkey, hfolds _ _ (h.reached visit hvisit) hname hkey⟩

/-- The interfaces that are met are those that can be reached. -/
theorem mem_interfacesOf (h : IsWalk find [] names visits)
    (hfolds : ∀ a b, Reaches find names a → Reaches find names b →
      Text.toUpper a = Text.toUpper b → find a = find b) {i : InterfaceDefinition} :
    i ∈ interfacesOf visits ↔ ∃ name, Reaches find names name ∧ find name = .ok (some i) := by
  constructor
  · intro hi
    obtain ⟨visit, hvisit, hinterface⟩ := List.mem_filterMap.mp hi
    rw [h.looked visit hvisit, interface?_visitOf] at hinterface
    exact ⟨visit.name, h.reached visit hvisit, hinterface⟩
  · rintro ⟨name, hname, hfound⟩
    obtain ⟨visit, hvisit, -, hsame⟩ := h.exists_visit hfolds hname
    refine List.mem_filterMap.mpr ⟨visit, hvisit, ?_⟩
    rw [h.looked visit hvisit, interface?_visitOf, hsame, hfound]

/-- The names that are met in vain are, up to case, those that can be reached in vain. -/
theorem mem_missingOf (h : IsWalk find [] names visits)
    (hfolds : ∀ a b, Reaches find names a → Reaches find names b →
      Text.toUpper a = Text.toUpper b → find a = find b) {k : String} :
    k ∈ (missingOf visits).map Text.toUpper ↔
      ∃ name, Reaches find names name ∧ find name = .ok none ∧ Text.toUpper name = k := by
  constructor
  · intro hk
    obtain ⟨name, hname, rfl⟩ := List.mem_map.mp hk
    obtain ⟨visit, hvisit, hmissing⟩ := List.mem_filterMap.mp hname
    rw [h.looked visit hvisit, missing?_visitOf] at hmissing
    obtain ⟨hnone, rfl⟩ := hmissing
    exact ⟨visit.name, h.reached visit hvisit, hnone, rfl⟩
  · rintro ⟨name, hname, hnone, rfl⟩
    obtain ⟨visit, hvisit, hkey, hsame⟩ := h.exists_visit hfolds hname
    refine List.mem_map.mpr ⟨visit.name, List.mem_filterMap.mpr ⟨visit, hvisit, ?_⟩, hkey⟩
    rw [h.looked visit hvisit, missing?_visitOf]
    exact ⟨hsame.trans hnone, rfl⟩

/-- What is kept of some visits has their keys, in order. -/
theorem sublist_map_key {α : Type} {keep : InterfaceVisit → Option α} {keyOf : α → String}
    (h : ∀ visit ∈ visits, ∀ a, keep visit = some a → keyOf a = visit.key) :
    ((visits.filterMap keep).map keyOf).Sublist (visits.map key) := by
  induction visits with
  | nil => exact .slnil
  | cons visit rest ih =>
    have hrest := ih fun visit hvisit => h visit (List.mem_cons_of_mem _ hvisit)
    rw [List.map_cons]
    cases hkeep : keep visit with
    | none =>
      rw [List.filterMap_cons_none hkeep]
      exact hrest.cons _
    | some a =>
      rw [List.filterMap_cons_some hkeep, List.map_cons, h visit List.mem_cons_self a hkeep]
      exact hrest.cons_cons _

/-- No name is missed twice. -/
theorem nodup_missingOf (h : IsWalk find [] names visits) :
    ((missingOf visits).map Text.toUpper).Nodup := by
  refine h.nodup.sublist (sublist_map_key fun visit hvisit name hname => ?_)
  rw [h.looked visit hvisit, missing?_visitOf] at hname
  exact congrArg Text.toUpper hname.2.symm

/-- No interface is met twice, if interfaces are found under their own names. -/
theorem nodup_interfacesOf (h : IsWalk find [] names visits)
    (hown : ∀ name i, Reaches find names name → find name = .ok (some i) →
      Text.toUpper i.name = Text.toUpper name) :
    ((interfacesOf visits).map fun i => Text.toUpper i.name).Nodup := by
  refine h.nodup.sublist (sublist_map_key fun visit hvisit i hi => ?_)
  rw [h.looked visit hvisit, interface?_visitOf] at hi
  exact hown _ i (h.reached visit hvisit) hi

end IsWalk

/-- A walk from some names comes upon all that they lead to, and upon nothing twice. -/
structure Exhausts (find : String → Except GraphFault (Option InterfaceDefinition))
    (names : List String) (visits : List InterfaceVisit) : Prop where
  interfaces : ∀ i, i ∈ interfacesOf visits ↔
    ∃ name, Reaches find names name ∧ find name = .ok (some i)
  distinct : ((interfacesOf visits).map fun i => Text.toUpper i.name).Nodup
  missing : ∀ k, k ∈ (missingOf visits).map Text.toUpper ↔
    ∃ name, Reaches find names name ∧ find name = .ok none ∧ Text.toUpper name = k
  missedOnce : ((missingOf visits).map Text.toUpper).Nodup

theorem IsWalk.exhausts {names : List String} {visits : List InterfaceVisit}
    (h : IsWalk find [] names visits)
    (hfolds : ∀ a b, Reaches find names a → Reaches find names b →
      Text.toUpper a = Text.toUpper b → find a = find b)
    (hown : ∀ name i, Reaches find names name → find name = .ok (some i) →
      Text.toUpper i.name = Text.toUpper name) : Exhausts find names visits :=
  ⟨fun _ => h.mem_interfacesOf hfolds, h.nodup_interfacesOf hown, fun _ => h.mem_missingOf hfolds,
    h.nodup_missingOf⟩

/-- Two walks from the same names come upon the same interfaces. -/
theorem Exhausts.perm {names : List String} {visits visits' : List InterfaceVisit}
    (h : Exhausts find names visits) (h' : Exhausts find names visits') :
    (interfacesOf visits).Perm (interfacesOf visits') := by
  refine (List.perm_ext_iff_of_nodup h.distinct.of_map h'.distinct.of_map).mpr fun i => ?_
  rw [h.interfaces, h'.interfaces]

end AbapLowering
