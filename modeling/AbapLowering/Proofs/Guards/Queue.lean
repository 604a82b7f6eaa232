import AbapLowering.Proofs.Emission.BuiltTree

/-!
# The queue of guards

What waits in the queue when something is emitted has no influence on it, as long as the queue is not
emptied: it only grows, by the lines of guards.

- `Emit.Appends`: emitting that adds the lines of some guards to the queue, whatever waits there, and
  does the same otherwise. With the check for exception classes on, only guards are added whose
  exception class is known;
- what is built without emptying the queue appends (`Built.appends`), and without guards it leaves
  the queue as it is (`Built.leaves`);
- `Emit.MeetsGuard`: emitting that meets a guard. If the exception class of the guard is missing,
  it stops there (`MeetsGuard.stops`).
-/

namespace AbapLowering

/-! ## States with another queue -/

/-- The same state with another queue. -/
def EmissionState.withQueue (s : EmissionState) (queue : List String) : EmissionState :=
  { s with hoisted := queue }

namespace EmissionState

variable (s : EmissionState) (queue queue' : List String)

@[simp] theorem hoisted_withQueue : (s.withQueue queue).hoisted = queue := rfl

@[simp] theorem withQueue_withQueue : (s.withQueue queue).withQueue queue' = s.withQueue queue' :=
  rfl

@[simp] theorem withQueue_hoisted : s.withQueue s.hoisted = s := rfl

/-- A state has the queue that it has. -/
theorem withQueue_of_eq {s : EmissionState} {queue : List String} (h : s.hoisted = queue) :
    s.withQueue queue = s := by
  rw [← h, withQueue_hoisted]

end EmissionState

/-- The lines of some guards. -/
def Guard.linesOf (guards : List Guard) : List String := guards.flatMap Guard.lines

@[simp] theorem Guard.linesOf_nil : Guard.linesOf [] = [] := rfl

/-- The lines of guards behind others. -/
@[simp] theorem Guard.linesOf_append (guards guards' : List Guard) :
    Guard.linesOf (guards ++ guards') = Guard.linesOf guards ++ Guard.linesOf guards' :=
  List.flatMap_append

/-- Whether a guard may be queued: if that is checked, its exception class is known. -/
def Guard.Allowed (context : Context) (g : Guard) : Prop :=
  context.config.checkFallbackExceptions = true →
    context.view.registry.contains g.kind.exception = true

namespace Emit

variable {α β : Type} {context : Context} {s s' t : EmissionState}

/-! ## Queueing a guard -/

/-- A guard that may be queued is queued at the end. -/
theorem requireTarget_of_allowed {kind : GuardKind} {target : String}
    (h : Guard.Allowed context ⟨kind, target⟩) (s : EmissionState) :
    requireTarget kind target context s =
      .ok () (s.withQueue (s.hoisted ++ Guard.lines ⟨kind, target⟩)) := by
  have hfound : ¬ (context.config.checkFallbackExceptions &&
      !context.view.registry.contains kind.exception) = true := by
    rw [Bool.and_eq_true, Bool.not_eq_true', Bool.eq_false_iff]
    exact fun hmissing => hmissing.2 (h hmissing.1)
  rw [requireTarget_apply, if_neg hfound, List.append_assoc]
  rfl

/-- Without its exception class a guard is not queued. -/
theorem requireTarget_of_not_allowed {kind : GuardKind} {target : String}
    (h : ¬ Guard.Allowed context ⟨kind, target⟩) (s : EmissionState) :
    requireTarget kind target context s = .error (.error (.missingFallback kind.exception)) s := by
  have hmissing : (context.config.checkFallbackExceptions &&
      !context.view.registry.contains kind.exception) = true := by
    rw [Guard.Allowed, Classical.not_imp, Bool.not_eq_true] at h
    rw [h.1, h.2]
    rfl
  rw [requireTarget_apply, if_pos hmissing]

/-! ## Adding to the queue -/

/-- An outcome with another queue. -/
def requeue (queue : List String) :
    EStateM.Result Abort EmissionState α → EStateM.Result Abort EmissionState α
  | .ok a s => .ok a (s.withQueue queue)
  | .error why s => .error why (s.withQueue queue)

/-- What is emitted with some queue is emitted with any, and the lines of these guards are added. -/
def AppendsLines (guards : List Guard) (m : Emit α) (context : Context) (s : EmissionState) : Prop :=
  ∀ queue, m context (s.withQueue queue) = requeue (queue ++ Guard.linesOf guards) (m context s)

/-- Emitting that adds the lines of some guards to the queue, whatever waits there. -/
def Appends (m : Emit α) : Prop :=
  ∀ context s, ∃ guards, AppendsLines guards m context s ∧ ∀ g ∈ guards, g.Allowed context

/-! ## One after the other -/

namespace AppendsLines

variable {guards guards' : List Guard} {m : Emit α} {f : α → Emit β} {a : α} {why : Abort}

/-- A run that succeeds does so with any queue, and appends the same lines. -/
theorem ok (h : AppendsLines guards m context s) (hm : m context s = .ok a s')
    (queue : List String) : m context (s.withQueue queue) =
      .ok a (s'.withQueue (queue ++ Guard.linesOf guards)) := by
  rw [h queue, hm]
  rfl

/-- A run that fails does so with any queue, and appends the same lines. -/
theorem error (h : AppendsLines guards m context s) (hm : m context s = .error why s')
    (queue : List String) : m context (s.withQueue queue) =
      .error why (s'.withQueue (queue ++ Guard.linesOf guards)) := by
  rw [h queue, hm]
  rfl

/-- What waited when emitting began still waits, and then the lines of the guards. -/
theorem hoisted_of_ok (h : AppendsLines guards m context s) (hm : m context s = .ok a s') :
    s'.hoisted = s.hoisted ++ Guard.linesOf guards := by
  have hsame := h.ok hm s.hoisted
  rw [EmissionState.withQueue_hoisted, hm, EStateM.Result.ok.injEq] at hsame
  rw [hsame.2]
  rfl

/-- What fails first is all that is run. -/
theorem bind_of_error (h : AppendsLines guards m context s) (hm : m context s = .error why s') :
    AppendsLines guards (m >>= f) context s := by
  intro queue
  rw [bind_apply, bind_apply, h.error hm, hm]
  rfl

/-- One after the other appends the lines of both. -/
theorem bind_of_ok (h : AppendsLines guards m context s) (hm : m context s = .ok a s')
    (hf : AppendsLines guards' (f a) context s') :
    AppendsLines (guards ++ guards') (m >>= f) context s := by
  intro queue
  rw [bind_apply, bind_apply, h.ok hm, hm]
  dsimp only
  rw [hf, Guard.linesOf_append, List.append_assoc]

/-- What does not look at the queue adds nothing. -/
theorem nil (h : ∀ queue, m context (s.withQueue queue) = requeue queue (m context s)) :
    AppendsLines [] m context s := by
  intro queue
  rw [h, Guard.linesOf_nil, List.append_nil]

/-- A question appends nothing. -/
theorem ask (question : View → Query α) : AppendsLines [] (Emit.ask question) context s := by
  refine .nil fun queue => ?_
  unfold Emit.ask EmissionState.withQueue
  dsimp only
  cases (question context.view).run context.view.graph context.view.file s.slot <;> rfl

theorem typeConstructor (type : DataType) :
    AppendsLines [] (Emit.typeConstructor type) context s := by
  refine .nil fun queue => ?_
  rw [typeConstructor_apply, typeConstructor_apply]
  cases type.constructor context.config.isLenient <;> rfl

theorem register (line : String) : AppendsLines [] (Emit.register line) context s := by
  refine .nil fun queue => ?_
  change EStateM.Result.ok () _ = Emit.requeue queue (.ok () _)
  unfold Emit.requeue EmissionState.withQueue
  dsimp only
  -- registering looks only at the lines that are registered already
  by_cases hline : line ∈ s.registrations
  · rw [if_pos hline, if_pos hline]
  · rw [if_neg hline, if_neg hline]

/-- A guard is added where its exception class is known. -/
theorem requireTarget {kind : GuardKind} {target : String}
    (h : Guard.Allowed context ⟨kind, target⟩) :
    AppendsLines [⟨kind, target⟩] (Emit.requireTarget kind target) context s := by
  intro queue
  rw [requireTarget_of_allowed h, requireTarget_of_allowed h]
  simp [Emit.requeue, Guard.linesOf]

end AppendsLines

/-! ## What appends -/

/-- What is built without emptying the queue adds the lines of guards to it, and none if it is built
without guards. -/
theorem Built.appendsLines {effects : Effects} {m : Emit α} (h : m.Built effects)
    (hkeeps : effects.draining = false) (context : Context) (s : EmissionState) :
    ∃ guards, AppendsLines guards m context s ∧ (∀ g ∈ guards, g.Allowed context) ∧
      (effects.guards = false → guards = []) := by
  have hnone : ∀ {α : Type} {m : Emit α} {s : EmissionState}, AppendsLines [] m context s →
      ∃ guards, AppendsLines guards m context s ∧ (∀ g ∈ guards, g.Allowed context) ∧
        (effects.guards = false → guards = []) := fun h => ⟨[], h, nofun, fun _ => rfl⟩
  induction h generalizing s with
  | @bind α β m f _ _ ihm ihf =>
    obtain ⟨guards, happends, hallowed, hguards⟩ := ihm s
    cases hm : m context s with
    | error why s' => exact ⟨guards, happends.bind_of_error hm, hallowed, hguards⟩
    | ok a s' =>
      obtain ⟨guards', happends', hallowed', hguards'⟩ := ihf a s'
      refine ⟨guards ++ guards', happends.bind_of_ok hm happends',
        List.forall_mem_append.mpr ⟨hallowed, hallowed'⟩, fun hfalse => ?_⟩
      rw [hguards hfalse, hguards' hfalse, List.append_nil]
  | onView _ _ ih => exact ih context s
  | ask question => exact hnone (.ask question)
  | typeConstructor type => exact hnone (.typeConstructor type)
  | register line => exact hnone (.register line)
  -- the only effect that appends a guard
  | requireTarget kind target htrue =>
    by_cases hallowed : Guard.Allowed context ⟨kind, target⟩
    · refine ⟨[⟨kind, target⟩], .requireTarget hallowed, by simpa using hallowed, fun hfalse => ?_⟩
      rw [htrue] at hfalse
      cases hfalse
    · refine hnone (.nil fun queue => ?_)
      rw [requireTarget_of_not_allowed hallowed, requireTarget_of_not_allowed hallowed]
      rfl
  -- excluded, since the queue is kept
  | drain htrue =>
    rw [hkeeps] at htrue
    cases htrue
  | _ => exact hnone (.nil fun _ => rfl)

/-- What is built without emptying the queue only appends to it. -/
theorem Built.appends {effects : Effects} {m : Emit α} (h : m.Built effects)
    (hkeeps : effects.draining = false) : m.Appends := fun context s =>
  have ⟨guards, happends, hallowed, _⟩ := h.appendsLines hkeeps context s
  ⟨guards, happends, hallowed⟩

/-- So do operands and conditions. -/
theorem Built.appends_of_guarding {m : Emit α} (h : m.Built (.guarding false false)) :
    m.Appends :=
  h.appends rfl

/-- What is built without guards and without emptying the queue leaves it as it is. -/
theorem Built.leaves {draws : Bool} {m : Emit α} (h : m.Built ⟨draws, false, false⟩)
    (context : Context) (s : EmissionState) : AppendsLines [] m context s := by
  obtain ⟨guards, happends, -, hguards⟩ := h.appendsLines rfl context s
  rwa [hguards rfl] at happends

namespace Appends

variable {m : Emit α} {f : α → Emit β}

theorem pure (a : α) : Appends (Pure.pure a : Emit α) := fun _ _ => ⟨[], .nil fun _ => rfl, nofun⟩

theorem temporary : Appends Emit.temporary := fun _ _ => ⟨[], .nil fun _ => rfl, nofun⟩

theorem countStatement : Appends Emit.countStatement := fun _ _ => ⟨[], .nil fun _ => rfl, nofun⟩

theorem bind (hm : m.Appends) (hf : ∀ a, (f a).Appends) : (m >>= f).Appends := by
  intro context s
  obtain ⟨guards, happends, hallowed⟩ := hm context s
  cases hrun : m context s with
  | error why s' => exact ⟨guards, happends.bind_of_error hrun, hallowed⟩
  | ok a s' =>
    obtain ⟨guards', happends', hallowed'⟩ := hf a context s'
    exact ⟨guards ++ guards', happends.bind_of_ok hrun happends',
      List.forall_mem_append.mpr ⟨hallowed, hallowed'⟩⟩

end Appends

/-! ## Meeting a guard -/

/-- Whether emitting meets the guard of some target, in the state `t`. -/
inductive MeetsGuard (context : Context) (kind : GuardKind) (target : String) :
    {α : Type} → Emit α → EmissionState → EmissionState → Prop
  | guard (t : EmissionState) : MeetsGuard context kind target (requireTarget kind target) t t
  | within {α β : Type} {m : Emit α} {f : α → Emit β} {s t : EmissionState} :
    MeetsGuard context kind target m s t → MeetsGuard context kind target (m >>= f) s t
  | beyond {α β : Type} {m : Emit α} {f : α → Emit β} {a : α} {s s' t : EmissionState} :
    m context s = .ok a s' → MeetsGuard context kind target (f a) s' t →
      MeetsGuard context kind target (m >>= f) s t

/-- Emitting that meets a guard whose exception class is missing stops there. -/
theorem MeetsGuard.stops {kind : GuardKind} {target : String} {m : Emit α}
    (h : MeetsGuard context kind target m s t)
    (hcheck : context.config.checkFallbackExceptions = true)
    (hmissing : context.view.registry.contains kind.exception = false) :
    m context s = .error (.error (.missingFallback kind.exception)) t := by
  have hallowed : ¬ Guard.Allowed context ⟨kind, target⟩ := fun hallowed => by
    have hfound : context.view.registry.contains kind.exception = true := hallowed hcheck
    rw [hmissing] at hfound
    cases hfound
  induction h with
  | guard t => exact requireTarget_of_not_allowed hallowed t
  | within _ ih => rw [bind_apply, ih]
  | beyond hm _ ih =>
    rw [bind_of_ok hm]
    exact ih

end Emit

end AbapLowering
