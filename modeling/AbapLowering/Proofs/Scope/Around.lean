import AbapLowering.Proofs.Emission.Outcome

/-!
# Questions about one position

Many questions only need the scope around one position and then walk upwards from it. The search for
this scope is all that leaves something behind, and what it leaves behind leads to the same scope
again (`Emit.ask_around_iff`, `Emit.ask_scopeAround_again`). So it is with what a variable is declared
as and with where a class or an interface is addressed (`View.variableNamed_eq`,
`View.classAddress_eq`). A question that goes on after another one is answered step by step
(`Emit.exists_of_ask_bind`).
-/

namespace AbapLowering

/-! ## The scope that is remembered -/

namespace ScopeGraph

variable {g : ScopeGraph} {file : String} {p : Position} {slot slot' : Option CacheSlot}
  {found : Option ScopeId}

/-- A walk after another one has an answer if both have. -/
theorem bind_eq_ok_iff {α β : Type} {walk : Except GraphFault α} {f : α → Except GraphFault β}
    {b : β} : walk >>= f = .ok b ↔ ∃ a, walk = .ok a ∧ f a = .ok b := by
  cases walk with
  | error fault => exact ⟨nofun, fun ⟨_, h, _⟩ => nomatch h⟩
  | ok a => exact ⟨fun h => ⟨a, rfl, h⟩, fun ⟨_, h, hf⟩ => Except.ok.inj h ▸ hf⟩

/-- What is remembered is the scope that was found. -/
theorem found_of_slotFor {kept : CacheSlot} (h : g.slotFor found = .ok (some kept)) :
    found = some kept.scope := by
  cases found with
  | none => cases h
  | some id =>
    obtain ⟨s, -, h⟩ := bind_eq_ok_iff.mp h
    split at h
    · cases h
      rfl
    · cases h

theorem reuse_of_miss (hmiss : slot.filter (fun kept => kept.coverage.contains p) = none) :
    g.reuse file slot p = .ok (found, slot') ↔
      g.locate p file = .ok found ∧ g.slotFor found = .ok slot' := by
  rw [reuse, hmiss]
  dsimp only
  rw [bind_eq_ok_iff]
  constructor
  · rintro ⟨a, ha, h⟩
    obtain ⟨kept, hkept, h⟩ := bind_eq_ok_iff.mp h
    cases h
    exact ⟨ha, hkept⟩
  · rintro ⟨ha, hkept⟩
    exact ⟨found, ha, by rw [hkept]; rfl⟩

/-- What is remembered after a scope was found leads to the same scope again. -/
theorem reuse_again (h : g.reuse file slot p = .ok (found, slot')) :
    g.reuse file slot' p = .ok (found, slot') := by
  cases hfilter : slot.filter fun kept => kept.coverage.contains p with
  | some hit =>
    have hsame := h
    rw [reuse, hfilter] at hsame
    cases hsame
    exact h
  | none =>
    have hfound := (reuse_of_miss hfilter).mp h
    cases hfilter' : slot'.filter fun kept => kept.coverage.contains p with
    | some hit =>
      obtain ⟨rfl, -⟩ := Option.filter_eq_some_iff.mp hfilter'
      rw [reuse, hfilter', found_of_slotFor hfound.2]
    | none => exact (reuse_of_miss hfilter').mpr hfound

end ScopeGraph

/-! ## Answers -/

namespace Query

variable {α β : Type} {g : ScopeGraph} {file : String} {slot slot' : Option CacheSlot}

/-- An answer after another question comes from the answer to that one. -/
theorem run_bind_eq_ok_iff {q : Query α} {f : α → Query β} {b : β} :
    (q >>= f).run g file slot = .ok b slot' ↔
      ∃ a slot₁, q.run g file slot = .ok a slot₁ ∧ (f a).run g file slot₁ = .ok b slot' := by
  induction q generalizing slot with
  | answer a =>
    refine ⟨fun h => ⟨a, slot, rfl, h⟩, ?_⟩
    rintro ⟨_, _, ha, h⟩
    cases ha
    exact h
  | abort why => exact ⟨nofun, fun ⟨_, _, h, _⟩ => nomatch h⟩
  | locate position next ih =>
    rw [locate_bind, run, run]
    split
    next found slot₁ _ => exact ih found
    next => exact ⟨nofun, fun ⟨_, _, h, _⟩ => nomatch h⟩

theorem run_ofWalk_eq_ok_iff {walk : Except GraphFault α} {a : α} :
    (ofWalk walk).run g file slot = .ok a slot' ↔ walk = .ok a ∧ slot' = slot := by
  cases walk with
  | error fault => exact ⟨nofun, fun h => nomatch h.1⟩
  | ok b =>
    constructor
    · intro h
      cases h
      exact ⟨rfl, rfl⟩
    · rintro ⟨h, rfl⟩
      cases h
      rfl

theorem run_scopeAround_eq_ok_iff {p : Position} {found : Option ScopeId} :
    (scopeAround p).run g file slot = .ok found slot' ↔
      g.reuse file slot p = .ok (found, slot') := by
  rw [scopeAround, run]
  cases g.reuse file slot p with
  | error fault => exact ⟨nofun, nofun⟩
  | ok result =>
    constructor
    · intro h
      cases h
      rfl
    · intro h
      cases h
      rfl

/-- A question about the scope around a position. -/
def around (p : Position) (walk : Option ScopeId → Except GraphFault α) : Query α :=
  scopeAround p >>= fun found => ofWalk (walk found)

end Query

namespace Emit

variable {α β : Type} {context : Context} {s s' : EmissionState} {p : Position}

theorem ask_eq_ok_iff {question : View → Query α} {a : α} :
    ask question context s = .ok a s' ↔
      ∃ slot, (question context.view).run context.view.graph context.view.file s.slot = .ok a slot ∧
        s' = { s with slot } := by
  unfold ask
  cases (question context.view).run context.view.graph context.view.file s.slot with
  | error why slot => exact ⟨nofun, fun ⟨_, h, _⟩ => nomatch h⟩
  | ok b slot =>
    constructor
    · intro h
      cases h
      exact ⟨slot, rfl, rfl⟩
    · rintro ⟨_, h, rfl⟩
      cases h
      rfl

/-- A question that starts with another one gets both answered, one after the other. -/
theorem exists_of_ask_bind {first : View → Query α} {next : View → α → Query β} {b : β}
    (h : ask (fun v => first v >>= next v) context s = .ok b s') :
    ∃ a t, ask first context s = .ok a t ∧ ask (fun v => next v a) context t = .ok b s' := by
  obtain ⟨slot, hrun, rfl⟩ := ask_eq_ok_iff.mp h
  obtain ⟨a, slot₁, hfirst, hnext⟩ := Query.run_bind_eq_ok_iff.mp hrun
  exact ⟨a, _, ask_eq_ok_iff.mpr ⟨slot₁, hfirst, rfl⟩, ask_eq_ok_iff.mpr ⟨slot, hnext, rfl⟩⟩

theorem walk_eq_ok_iff {w : View → Except GraphFault α} {a : α} :
    walk w context s = .ok a s' ↔ w context.view = .ok a ∧ s' = s := by
  simp only [walk, ask_eq_ok_iff, Query.run_ofWalk_eq_ok_iff]
  constructor
  · rintro ⟨slot, ⟨ha, rfl⟩, rfl⟩
    exact ⟨ha, rfl⟩
  · rintro ⟨ha, rfl⟩
    exact ⟨s'.slot, ⟨ha, rfl⟩, rfl⟩

theorem ask_scopeAround_iff {found : Option ScopeId} :
    ask (fun _ => .scopeAround p) context s = .ok found s' ↔
      ∃ slot, context.view.graph.reuse context.view.file s.slot p = .ok (found, slot) ∧
        s' = { s with slot } := by
  simp only [ask_eq_ok_iff, Query.run_scopeAround_eq_ok_iff]

/-- The scope that was found is found again, and nothing else happens. -/
theorem ask_scopeAround_again {found : Option ScopeId}
    (h : ask (fun _ => .scopeAround p) context s = .ok found s') :
    ask (fun _ => .scopeAround p) context s' = .ok found s' := by
  obtain ⟨slot, hreuse, rfl⟩ := ask_scopeAround_iff.mp h
  exact ask_scopeAround_iff.mpr ⟨slot, ScopeGraph.reuse_again hreuse, rfl⟩

/-- A question about the scope around a position has an answer if this scope is found and the walk
that starts there has one, and only the search for the scope leaves something behind. -/
theorem ask_around_iff {question : View → Query α}
    {walk : Option ScopeId → Except GraphFault α} (h : question context.view = .around p walk)
    {a : α} : ask question context s = .ok a s' ↔
      ∃ found, ask (fun _ => .scopeAround p) context s = .ok found s' ∧ walk found = .ok a := by
  simp only [ask_eq_ok_iff, h, Query.around, Query.run_bind_eq_ok_iff, Query.run_ofWalk_eq_ok_iff]
  constructor
  · rintro ⟨slot, ⟨found, _, hfound, ha, rfl⟩, rfl⟩
    exact ⟨found, ⟨slot, hfound, rfl⟩, ha⟩
  · rintro ⟨found, ⟨slot, hfound, rfl⟩, ha⟩
    exact ⟨slot, ⟨found, slot, hfound, ha, rfl⟩, rfl⟩

end Emit

namespace View

variable {v : View}

theorem variableNamed_eq (token : Token) :
    v.variableNamed token = .around token.start fun scope =>
      scope.elim (.ok none) fun scope => v.graph.findVariable? scope token.text := by
  refine congrArg (Query.locate token.start) (funext fun found => ?_)
  cases found <;> rfl

/-! ## What a reference leads to -/

/-- What the scopes know under a name: the innermost class, or else the innermost interface. -/
def localDefinition? (v : View) (scope : Option ScopeId) (name : String) :
    Except GraphFault (Option Definition) := do
  match scope with
  | none => return none
  | some scope =>
    match ← v.graph.findClass? scope name with
    | some c => return some c.toDefinition
    | none => return (← v.graph.findInterface? scope name).map (·.toDefinition)

/-- The key that a reference leads to, by what the scopes know under its name. -/
def keyOf (v : View) (name : String) : Option Definition → String
  | some d => ClassKey.ofDefinition v.registry d
  | none => ClassKey.global name

/-- A reference is addressed by the key of what the scopes know under its name. -/
theorem classAddress_eq (name : String) (p : Position) :
    v.classAddress name p = .around p fun scope => do
      return ClassKey.lookup (v.keyOf name (← v.localDefinition? scope name)) := by
  rw [classAddress, Query.around]
  refine congrArg (Query.scopeAround p >>= ·) (funext fun found => ?_)
  cases found with
  | none => rfl
  | some scope =>
    dsimp only [localDefinition?]
    cases v.graph.findClass? scope name with
    | error fault => rfl
    | ok c =>
      cases c with
      | some c => rfl
      | none =>
        cases v.graph.findInterface? scope name with
        | error fault => rfl
        | ok i => cases i <;> rfl

end View

/-- The address of a class or interface is that of what the scopes around a position know. -/
theorem Emit.classAddress_iff {name address : String} {p : Position} {context : Context}
    {s s' : EmissionState} {scope : Option ScopeId}
    (hscope : Emit.ask (fun _ => Query.scopeAround p) context s = .ok scope s') :
    Emit.classAddress name p context s = .ok address s' ↔
      ∃ found, context.view.localDefinition? scope name = .ok found ∧
        address = ClassKey.lookup (context.view.keyOf name found) := by
  rw [Emit.classAddress, Emit.ask_around_iff (View.classAddress_eq name p)]
  constructor
  · rintro ⟨_, hscope', h⟩
    cases hscope.symm.trans hscope'
    obtain ⟨found, hfound, h⟩ := ScopeGraph.bind_eq_ok_iff.mp h
    exact ⟨found, hfound, (Except.ok.inj h).symm⟩
  · rintro ⟨found, hfound, rfl⟩
    exact ⟨scope, hscope, ScopeGraph.bind_eq_ok_iff.mpr ⟨found, hfound, rfl⟩⟩

theorem Emit.classAddress_of_localDefinition {name : String} {p : Position} {context : Context}
    {s s' : EmissionState} {scope : Option ScopeId} {found : Option Definition}
    (hscope : Emit.ask (fun _ => Query.scopeAround p) context s = .ok scope s')
    (hfound : context.view.localDefinition? scope name = .ok found) :
    Emit.classAddress name p context s =
      .ok (ClassKey.lookup (context.view.keyOf name found)) s' :=
  (Emit.classAddress_iff hscope).mpr ⟨found, hfound, rfl⟩

/-- An address belongs to one key. -/
theorem ClassKey.lookup_inj {key key' : String} : lookup key = lookup key' ↔ key = key' := by
  refine ⟨fun h => ?_, congrArg lookup⟩
  have hchars := congrArg String.toList h
  simp only [lookup, String.toList_append, List.append_assoc] at hchars
  exact String.toList_inj.mp
    (List.append_cancel_right (List.append_cancel_left hchars))

end AbapLowering
