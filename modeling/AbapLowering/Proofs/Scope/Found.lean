import AbapLowering.Scope.View

/-!
# What is found

What a walk through the scopes finds stands in one of them (`ScopeGraph.exists_of_climb`), and what
is found in a map is one of its entries. A property of the answers to a question about a unit
(`Query.All`) holds if it holds of the last answer, given what the questions before it found. So all
names in answers come from scopes or from the global objects (`View.resolve_isFrom`,
`View.attributeInterface_isFrom`, `View.methodReference_isFrom`, `View.classAddress_isFrom`).
-/

namespace AbapLowering

/-- What is found is an entry. -/
theorem Dict.mem_entries_of_find? {α : Type} {d : Dict α} {k : String} {a : α}
    (h : d.find? k = some a) : (k, a) ∈ d.entries := by
  obtain ⟨before, after, hentries, -⟩ := List.lookup_eq_some_iff.mp h
  rw [hentries]
  exact List.mem_append_right _ List.mem_cons_self

theorem Dict.mem_values_of_find? {α : Type} {d : Dict α} {k : String} {a : α}
    (h : d.find? k = some a) : a ∈ d.values :=
  List.mem_map_of_mem (f := Prod.snd) (mem_entries_of_find? h)

namespace ScopeGraph

variable {g : ScopeGraph} {id : ScopeId}

theorem mem_of_scope {s : Scope} (h : g.scope id = .ok s) : s ∈ g.scopes.toList := by
  unfold scope at h
  split at h
  next t ht =>
    cases h
    exact Array.mem_toList_iff.mpr (Array.mem_of_getElem? ht)
  next => cases h

/-- What is found on the way up stands in a scope. -/
theorem scope_of_climb {α : Type} {ask : ScopeId → Scope → Option α} {a : α}
    (h : g.climb ask id = .ok (some a)) : ∃ id s, g.scope id = .ok s ∧ ask id s = some a := by
  unfold climb at h
  -- the bound is of no matter once there is an answer
  generalize g.scopes.size + 1 = height at h
  induction height generalizing id with
  | zero => cases h
  | succ height ih =>
    rw [climbFrom] at h
    cases hs : g.scope id with
    | error fault =>
      rw [hs] at h
      cases h
    | ok s =>
      rw [hs] at h
      cases hask : ask id s with
      | some answer =>
        have hanswer : answer = a := by
          simpa [bind, Except.bind, hask, pure, Except.pure] using h
        exact ⟨id, s, hs, hanswer ▸ hask⟩
      | none =>
        cases hparent : s.parent with
        | none => simp [bind, Except.bind, hask, hparent, pure, Except.pure] at h
        | some parent =>
          have hnext : g.climbFrom ask height parent = .ok (some a) := by
            simpa [bind, Except.bind, hask, hparent] using h
          exact ih hnext

/-- What is found on the way up is found at some scope. -/
theorem exists_of_climb {α : Type} {ask : ScopeId → Scope → Option α} {a : α}
    (h : g.climb ask id = .ok (some a)) : ∃ id, ∃ s ∈ g.scopes.toList, ask id s = some a := by
  obtain ⟨id, s, hs, hask⟩ := scope_of_climb h
  exact ⟨id, s, mem_of_scope hs, hask⟩

end ScopeGraph

namespace View

variable {v : View} {scope : Option ScopeId} {name : String}

/-- What is found is found in the scopes, or else globally. -/
theorem found_or {α : Type} {inScopes : Except GraphFault (Option α)} {global : Option α} {a : α}
    (h : (do return (← inScopes).or global) = Except.ok (some a)) :
    inScopes = .ok (some a) ∨ global = some a := by
  cases inScopes with
  | error fault => cases h
  | ok found =>
    cases found with
    | none => exact .inr (Except.ok.inj h)
    | some a' => exact .inl (congrArg Except.ok (Except.ok.inj h))

/-- A class that is found stands in a scope or in the registry. -/
theorem mem_of_findClass? {c : ClassDefinition} (h : v.findClass? scope name = .ok (some c)) :
    (∃ s ∈ v.graph.scopes.toList, c ∈ s.classes.values) ∨ c ∈ v.registry.classes.values := by
  cases scope with
  | none => exact .inr (Dict.mem_values_of_find? (k := Text.toUpper name) (Except.ok.inj h))
  | some scope =>
    rcases found_or h with hlocal | hglobal
    · obtain ⟨_, s, hs, hfind⟩ := ScopeGraph.exists_of_climb hlocal
      exact .inl ⟨s, hs, Dict.mem_values_of_find? hfind⟩
    · exact .inr (Dict.mem_values_of_find? (k := Text.toUpper name) hglobal)

/-- An interface that is found is kept in a scope or in the registry. -/
theorem mem_entries_of_findInterface? {i : InterfaceDefinition}
    (h : v.findInterface? scope name = .ok (some i)) :
    (∃ s ∈ v.graph.scopes.toList, (Text.toLower name, i) ∈ s.interfaces.entries) ∨
      (Text.toUpper name, i) ∈ v.registry.interfaces.entries := by
  cases scope with
  | none => exact .inr (Dict.mem_entries_of_find? (Except.ok.inj h))
  | some scope =>
    rcases found_or h with hlocal | hglobal
    · obtain ⟨_, s, hs, hfind⟩ := ScopeGraph.exists_of_climb hlocal
      exact .inl ⟨s, hs, Dict.mem_entries_of_find? hfind⟩
    · exact .inr (Dict.mem_entries_of_find? hglobal)

end View

namespace Query

variable {α β : Type} {P : α → Prop} {Q : β → Prop}

/-- Whether every answer satisfies `P`, whatever scopes are found on the way. -/
def All (P : α → Prop) : Query α → Prop
  | .answer a => P a
  | .abort _ => True
  | .locate _ next => ∀ found, (next found).All P

namespace All

/-- One after the other, where the second may rely on the first answer. -/
theorem bind {q : Query α} {f : α → Query β} (hq : q.All P) (hf : ∀ a, P a → (f a).All Q) :
    (q >>= f).All Q := by
  induction q with
  | answer a => exact hf a hq
  | abort why => trivial
  | locate position next ih => exact fun found => ih found (hq found)

theorem true (q : Query α) : q.All fun _ => True := by
  induction q with
  | answer a => trivial
  | abort why => trivial
  | locate position next ih => exact ih

/-- What is asked before does not matter. -/
theorem after {q : Query α} {f : α → Query β} (hf : ∀ a, (f a).All Q) : (q >>= f).All Q :=
  (true q).bind fun a _ => hf a

/-- The answer of a walk has the property if it is one. -/
theorem walk {walk : Except GraphFault α} (h : ∀ a, walk = .ok a → P a) : (ofWalk walk).All P := by
  cases walk with
  | ok a => exact h a rfl
  | error fault => trivial

theorem lift {walk : Except GraphFault α} (h : ∀ a, walk = .ok a → P a) :
    (liftM walk : Query α).All P := All.walk h

/-- An answer that is given satisfies what all do. -/
theorem of_run {q : Query α} (hq : q.All P) {g : ScopeGraph} {file : String}
    {slot slot' : Option CacheSlot} {a : α} (h : q.run g file slot = .ok a slot') : P a := by
  induction q generalizing slot with
  | answer b =>
    cases h
    exact hq
  | abort why => cases h
  | locate position next ih =>
    unfold run at h
    split at h
    next found slot hfound => exact ih found (hq found) h
    next => cases h

/-- The property can be made weaker. -/
theorem mono {q : Query α} (hq : q.All P) {P' : α → Prop} (hP : ∀ a, P a → P' a) : q.All P' := by
  induction q with
  | answer a => exact hP a hq
  | abort why => trivial
  | locate position next ih => exact fun found => ih found (hq found)

end All

end Query

/-! ## Where names come from -/

/-- What a name is bound to is named by a scope or by a global object. -/
def Resolution.IsFrom (v : View) : Resolution → Prop
  | .staticAttribute owner => ∃ s ∈ v.graph.scopes.toList,
      s.kind = .classImplementation ∧ owner = Text.toLower s.name
  | .interfaceAttribute owner | .foreignAttribute owner =>
    ∃ object ∈ v.registry.files.values, owner = Text.toLower object.name
  | .localName | .superReference | .instanceAttribute | .builtin => True

namespace View

variable {v : View}

/-- An owner that is found is one of the registry. -/
theorem mem_of_ownerOf? {file : String} {object : ObjectRef}
    (h : v.registry.ownerOf? file = some object) : object ∈ v.registry.files.values :=
  Dict.mem_values_of_find? h

/-- What declares a name is a scope of the graph. -/
theorem mem_of_declaration? {scope : ScopeId} {name : String} {found : Option (Scope × Variable)}
    (h : v.declaration? scope name = .ok found) :
    ∀ entry ∈ found, entry.1 ∈ v.graph.scopes.toList := by
  rintro ⟨s, x⟩ hentry
  obtain rfl : found = some (s, x) := hentry
  obtain ⟨_, s', hs', hfind⟩ := ScopeGraph.exists_of_climb h
  obtain ⟨y, -, heq⟩ := Option.map_eq_some_iff.mp hfind
  cases heq
  exact hs'

theorem mem_of_foreignOwner? {reference : Option Reference} {object : ObjectRef}
    (h : v.foreignOwner? reference = some object) : object ∈ v.registry.files.values := by
  obtain ⟨made, -, h⟩ := Option.bind_eq_some_iff.mp h
  split at h
  next _ file _ _ =>
    split at h
    next => cases h
    next =>
      obtain ⟨found, hfound, h⟩ := Option.bind_eq_some_iff.mp h
      split at h
      next => cases h
      next =>
        cases h
        exact mem_of_ownerOf? hfound
  next => cases h

theorem foreignResolution_isFrom {object : ObjectRef} (h : object ∈ v.registry.files.values) :
    (foreignResolution object).IsFrom v := by
  unfold foreignResolution
  dsimp only
  split <;> exact ⟨object, h, rfl⟩

/-- What a name is bound to in its own object comes from the graph. -/
theorem ownResolution_isFrom {name : String} {declared : Option (Scope × Variable)}
    (h : ∀ entry ∈ declared, entry.1 ∈ v.graph.scopes.toList) :
    (ownResolution name declared).IsFrom v := by
  unfold ownResolution
  split
  next s x hfilter =>
    obtain ⟨hdeclared, hkind⟩ := Option.filter_eq_some_iff.mp hfilter
    exact ⟨s, h (s, x) hdeclared, by simpa using (Bool.and_eq_true_iff.mp hkind).2, rfl⟩
  next =>
    split
    · trivial
    · split
      · trivial
      · split
        · trivial
        · split <;> trivial

/-- Whatever a token is bound to comes from the view. -/
theorem resolve_isFrom (token : Token) : (v.resolve token).All (Resolution.IsFrom v) := by
  refine .after fun scope => ?_
  refine .bind (.lift fun declared hdeclared => mem_of_declaration? hdeclared)
    fun declared hdeclared => ?_
  have hown : (ownResolution token.text declared).IsFrom v := ownResolution_isFrom hdeclared
  split
  · refine .after fun reference => ?_
    split
    next owner howner => exact foreignResolution_isFrom (mem_of_foreignOwner? howner)
    next => exact hown
  · exact hown

/-- A file that belongs to an interface gives the name of a global object. -/
theorem ownerInterface_isFrom (file : String) :
    (match v.registry.ownerOf? file with
      | some owner => return if owner.type = .intf then some (Text.toLower owner.name) else none
      | none => return none : Query (Option String)).All fun found => ∀ name ∈ found,
        ∃ object ∈ v.registry.files.values, name = Text.toLower object.name := by
  split
  next owner howner =>
    intro name hname
    split at hname
    next =>
      cases hname
      exact ⟨owner, mem_of_ownerOf? howner, rfl⟩
    next => cases hname
  next => exact nofun

/-- The interface of an attribute is a scope around its declaration, or a global object. -/
theorem attributeInterface_isFrom (token : Token) :
    (v.attributeInterface? token).All fun found => ∀ name ∈ found,
      (∃ s ∈ v.graph.scopes.toList, s.kind = .interfaceBody ∧ name = Text.toLower s.name) ∨
        ∃ object ∈ v.registry.files.values, name = Text.toLower object.name := by
  unfold View.attributeInterface?
  refine .after fun reference => ?_
  split
  next _ file position _ =>
    dsimp only
    -- a declaration in another file is known by the object that the file belongs to
    have hglobal {inScope : String → Prop} := (v.ownerInterface_isFrom file).mono
      fun _ hfound name hname => Or.inr (a := inScope name) (hfound name hname)
    split
    next =>
      refine .after fun scope => ?_
      split
      next scope =>
        refine .bind (.lift fun s hs => ScopeGraph.mem_of_scope hs) fun s hs => ?_
        split
        next hkind =>
          rintro name ⟨⟩
          exact .inl ⟨s, hs, hkind, rfl⟩
        next => exact hglobal
      next => exact hglobal
    next => exact hglobal
  next => exact nofun

/-- A method that is called stands in a reference. -/
theorem methodReference_isFrom (token : Token) :
    (v.methodReference? token).All fun found => ∀ called ∈ found,
      ∃ s ∈ v.graph.scopes.toList, ∃ reference ∈ s.references, ∃ definition owner ownerKind,
        reference.resolved = some (.method definition owner ownerKind) ∧
          called = ⟨definition, callName reference.kind definition owner ownerKind⟩ := by
  have hfound : (v.referenceOf token methodReferences).All fun found => ∀ reference ∈ found,
      ∃ s ∈ v.graph.scopes.toList, reference ∈ s.references := by
    refine .after fun scope => ?_
    cases scope with
    | none => exact nofun
    | some scope =>
      refine .bind (.lift fun s hs => ScopeGraph.mem_of_scope hs) fun s hs reference hreference => ?_
      exact ⟨s, hs, List.mem_of_find?_eq_some hreference⟩
  refine .bind hfound fun found hfound => ?_
  split
  next kind _ definition owner ownerKind =>
    rintro called ⟨⟩
    obtain ⟨s, hs, hreference⟩ := hfound _ rfl
    exact ⟨s, hs, _, hreference, definition, owner, ownerKind, rfl, rfl⟩
  next => exact nofun

/-- An address is that of a global name, or of a definition in a scope. -/
theorem classAddress_isFrom (name : String) (position : Position) {P : String → Prop}
    (hglobal : P (ClassKey.global name))
    (hclass : ∀ s ∈ v.graph.scopes.toList, ∀ c ∈ s.classes.values,
      P (ClassKey.ofDefinition v.registry c.toDefinition))
    (hinterface : ∀ s ∈ v.graph.scopes.toList, ∀ i ∈ s.interfaces.values,
      P (ClassKey.ofDefinition v.registry i.toDefinition)) :
    (v.classAddress name position).All fun address =>
      ∃ key, P key ∧ address = ClassKey.lookup key := by
  refine .after fun scope => ?_
  cases scope with
  | none => exact ⟨_, hglobal, rfl⟩
  | some scope =>
    -- a class that is found is declared in some scope
    have hlocal : ∀ found, v.graph.findClass? scope name = .ok found →
        ∀ c ∈ found, P (ClassKey.ofDefinition v.registry c.toDefinition) := by
      rintro found hfound c rfl
      obtain ⟨_, s, hs, hfind⟩ := ScopeGraph.exists_of_climb hfound
      exact hclass s hs c (Dict.mem_values_of_find? hfind)
    have hlocal' : ∀ found, v.graph.findInterface? scope name = .ok found →
        ∀ i ∈ found, P (ClassKey.ofDefinition v.registry i.toDefinition) := by
      rintro found hfound i rfl
      obtain ⟨_, s, hs, hfind⟩ := ScopeGraph.exists_of_climb hfound
      exact hinterface s hs i (Dict.mem_values_of_find? hfind)
    refine .bind (.lift hlocal) fun found hfound => ?_
    cases found with
    | some c => exact ⟨_, hfound c rfl, rfl⟩
    | none =>
      refine .bind (.lift hlocal') fun found hfound => ?_
      cases found with
      | some i => exact ⟨_, hfound i rfl, rfl⟩
      | none => exact ⟨_, hglobal, rfl⟩

end View

end AbapLowering
