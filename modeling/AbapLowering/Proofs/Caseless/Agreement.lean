import AbapLowering.Proofs.Emission.BuiltTree

/-!
# Agreement up to wording

Messages name things as the source does, so they show how a name is written. Two ways of emitting
agree if nothing else tells their outcomes apart:

- `unworded`: a finding, a fault or a state without what messages say;
- `Emit.AgreeBy`: from states that are the same without wording, both succeed with values that are
  related and such states, or both fail with such faults and states. `Emit.Agree` is the case of
  equal values;
- agreement is kept by one effect after the other (`Agree.bind`), and all that is built agrees with
  itself (`Built.agree`).
-/

namespace AbapLowering

/-- A finding without its message. -/
def Diagnostic.unworded (d : Diagnostic) : Diagnostic := { d with message := "" }

/-- A fault without the name that only its message shows. -/
def LoweringError.unworded : LoweringError → LoweringError
  | .unresolved wanted _ => .unresolved wanted ""
  | e => e

/-- Why lowering stops, without the name that only the message shows. -/
def Abort.unworded : Abort → Abort
  | .error e => .error e.unworded
  | .fault f => .fault f

/-- What emitting has left behind, without the messages of its findings. -/
def EmissionState.unworded (s : EmissionState) : EmissionState :=
  { s with diagnostics := s.diagnostics.map (·.unworded) }

/-- States that are the same without wording differ in the messages of findings only. -/
theorem EmissionState.eq_of_unworded {s t : EmissionState} (h : s.unworded = t.unworded) :
    ∃ diagnostics, t = { s with diagnostics } ∧
      s.diagnostics.map (·.unworded) = diagnostics.map (·.unworded) := by
  obtain ⟨issued, slot, hoisted, integers, registrations, diagnostics, statements⟩ := s
  obtain ⟨issued', slot', hoisted', integers', registrations', diagnostics', statements'⟩ := t
  simp only [EmissionState.unworded, EmissionState.mk.injEq] at h
  obtain ⟨rfl, rfl, rfl, rfl, rfl, hdiagnostics, rfl⟩ := h
  exact ⟨diagnostics', rfl, hdiagnostics⟩

namespace Emit

variable {α β γ δ : Type}

/-- Two outcomes that only wording tells apart, but for values that are related. -/
inductive SameOutcome (R : α → β → Prop) :
    EStateM.Result Abort EmissionState α → EStateM.Result Abort EmissionState β → Prop
  | ok {a b s t} : R a b → s.unworded = t.unworded → SameOutcome R (.ok a s) (.ok b t)
  | error {why why' s t} : why.unworded = why'.unworded → s.unworded = t.unworded →
    SameOutcome R (.error why s) (.error why' t)

/-- Only wording tells the outcomes apart, but for values that are related. -/
def AgreeBy (R : α → β → Prop) (m : Emit α) (n : Emit β) : Prop :=
  ∀ context s t, s.unworded = t.unworded → SameOutcome R (m context s) (n context t)

/-- Only wording tells the outcomes apart. -/
def Agree (m n : Emit α) : Prop := AgreeBy Eq m n

/-! ## Composition -/

/-- One after the other, where the second has to agree for all related values of the first. -/
theorem AgreeBy.bind {R : α → β → Prop} {S : γ → δ → Prop} {m : Emit α} {n : Emit β}
    {f : α → Emit γ} {g : β → Emit δ} (hm : AgreeBy R m n)
    (hf : ∀ a b, R a b → AgreeBy S (f a) (g b)) : AgreeBy S (m >>= f) (n >>= g) := by
  intro context s t hst
  have hfirst := hm context s t hst
  rw [bind_apply, bind_apply]
  generalize m context s = first at hfirst ⊢
  generalize n context t = first' at hfirst ⊢
  cases hfirst with
  | ok hab hst' => exact hf _ _ hab context _ _ hst'
  | error hwhy hst' => exact .error hwhy hst'

/-- Related values agree. -/
theorem AgreeBy.pure {R : α → β → Prop} {a : α} {b : β} (h : R a b) :
    AgreeBy R (Pure.pure a : Emit α) (Pure.pure b) := fun _ _ _ hst => .ok h hst

/-- Faults agree if they are the same without the name that only the message shows. -/
theorem AgreeBy.fail {R : α → β → Prop} {e e' : LoweringError} (h : e.unworded = e'.unworded) :
    AgreeBy R (Emit.fail e : Emit α) (Emit.fail e') :=
  fun _ _ _ hst => .error (congrArg Abort.error h) hst

namespace Agree

theorem pure (a : α) : Agree (Pure.pure a : Emit α) (Pure.pure a) := AgreeBy.pure rfl

/-- Equal values agree. -/
theorem of_eq {a b : α} (h : a = b) : Agree (Pure.pure a : Emit α) (Pure.pure b) :=
  AgreeBy.pure h

theorem fail {e e' : LoweringError} (h : e.unworded = e'.unworded) :
    Agree (Emit.fail e : Emit α) (Emit.fail e') := AgreeBy.fail h

/-- One after something that gives related values. -/
theorem bindBy {R : α → β → Prop} {m : Emit α} {n : Emit β} {f : α → Emit γ} {g : β → Emit γ}
    (hm : AgreeBy R m n) (hf : ∀ a b, R a b → Agree (f a) (g b)) : Agree (m >>= f) (n >>= g) :=
  AgreeBy.bind hm hf

/-- One after the other. -/
theorem bind {m n : Emit α} {f g : α → Emit β} (hm : Agree m n) (hf : ∀ a, Agree (f a) (g a)) :
    Agree (m >>= f) (n >>= g) :=
  bindBy hm fun a _ hab => hab ▸ hf a

end Agree

/-! ## Basic effects -/

/-- An effect that neither sees nor changes the findings. -/
theorem agree_modifyGet {f : EmissionState → α × EmissionState}
    (h : ∀ s diagnostics, f { s with diagnostics } = ((f s).1, { (f s).2 with diagnostics })) :
    Agree (modifyGet f : Emit α) (modifyGet f) := by
  intro context s t hst
  obtain ⟨diagnostics, rfl, hdiagnostics⟩ := EmissionState.eq_of_unworded hst
  have hkept : (f s).2.diagnostics = s.diagnostics :=
    congrArg (fun outcome => outcome.2.diagnostics) (h s s.diagnostics)
  change SameOutcome Eq (.ok (f s).1 (f s).2)
    (.ok (f { s with diagnostics }).1 (f { s with diagnostics }).2)
  rw [h s diagnostics]
  exact .ok rfl (by simp [EmissionState.unworded, hkept, hdiagnostics])

/-- Warnings at the same place differ in wording only. -/
theorem agree_warn (message message' : String) (position : Option Position) :
    Agree (warn message position) (warn message' position) := by
  intro context s t hst
  obtain ⟨diagnostics, rfl, hdiagnostics⟩ := EmissionState.eq_of_unworded hst
  refine .ok rfl ?_
  simpa [EmissionState.unworded, Diagnostic.unworded] using hdiagnostics

theorem agree_countStatement : Agree countStatement countStatement :=
  agree_modifyGet fun _ _ => rfl

/-- The answer to a question depends on the unit and on what was looked up last, not on findings. -/
theorem agree_ask (question : View → Query α) : Agree (ask question) (ask question) := by
  intro context s t hst
  obtain ⟨diagnostics, rfl, hdiagnostics⟩ := EmissionState.eq_of_unworded hst
  unfold ask
  dsimp only
  cases (question context.view).run context.view.graph context.view.file s.slot with
  | ok a slot => exact .ok rfl (by simp [EmissionState.unworded, hdiagnostics])
  | error why slot => exact .error rfl (by simp [EmissionState.unworded, hdiagnostics])

theorem agree_typeConstructor (type : DataType) :
    Agree (typeConstructor type) (typeConstructor type) := by
  intro context s t hst
  rw [typeConstructor_apply, typeConstructor_apply]
  cases type.constructor context.config.isLenient with
  | ok text => exact .ok rfl hst
  | error unresolved => exact .error rfl hst

/-- A guard is queued behind those that wait. -/
theorem agree_requireTarget (kind : GuardKind) (target : String) :
    Agree (requireTarget kind target) (requireTarget kind target) := by
  intro context s t hst
  rw [requireTarget_apply, requireTarget_apply]
  split
  · exact .error rfl hst
  · obtain ⟨diagnostics, rfl, hdiagnostics⟩ := EmissionState.eq_of_unworded hst
    exact .ok rfl (by simp [EmissionState.unworded, hdiagnostics])

/-- What emitting has left behind differs in wording only if what came before did so. -/
theorem Built.agree {m : Emit α} (h : m.Built .all) : Agree m m := by
  induction h with
  | pure a => exact .pure a
  | bind _ _ ihm ihf => exact .bind ihm ihf
  | throw why => exact fun _ _ _ hst => .error rfl hst
  | ask question => exact agree_ask question
  | onView _ _ ih => exact fun context s t hst => ih context context s t hst
  | typeConstructor type => exact agree_typeConstructor type
  | requireTarget kind target => exact agree_requireTarget kind target
  | warn message position => exact agree_warn message message position
  | register line =>
    refine agree_modifyGet fun s diagnostics => ?_
    dsimp only
    split <;> rfl
  | integer value => exact agree_modifyGet fun _ _ => rfl
  | drain => exact agree_modifyGet fun _ _ => rfl
  | temporary _ => exact agree_modifyGet fun _ _ => rfl

/-! ## Parts of emitted code -/

namespace Agree

/-- Items that are mapped first. -/
theorem mapM {f : γ → Emit β} {f' : α → Emit β} (g : α → γ) (items : List α)
    (h : ∀ a, Agree (f (g a)) (f' a)) : Agree ((items.map g).mapM f) (items.mapM f') := by
  induction items with
  | nil => exact .pure _
  | cons a rest ih =>
    rw [List.map_cons, List.mapM_cons, List.mapM_cons]
    exact .bind (h a) fun _ => .bind ih fun _ => .pure _

theorem named (key : String) {value value' : Emit String} (h : Agree value value') :
    Agree (Emit.named key value) (Emit.named key value') :=
  .bind h fun _ => .pure _

/-- An optional argument is given in both or in neither. -/
theorem namedIfGiven {f : γ → Emit String} {f' : α → Emit String} (g : α → γ) (key : String)
    (value : Option α) (h : ∀ a, Agree (f (g a)) (f' a)) :
    Agree (Emit.namedIfGiven key (value.map g) f) (Emit.namedIfGiven key value f') := by
  cases value with
  | none => exact .pure _
  | some a => exact .bind (named key (h a)) fun _ => .pure _

/-- Lists of arguments have the same length, so both are left out or neither. -/
theorem namedListIfAny {f : γ → Emit String} {f' : α → Emit String} (g : α → γ)
    (key separator : String) (items : List α) (h : ∀ a, Agree (f (g a)) (f' a)) :
    Agree (Emit.namedListIfAny key separator (items.map g) f)
      (Emit.namedListIfAny key separator items f') := by
  unfold Emit.namedListIfAny
  rw [List.isEmpty_map]
  split
  · exact .pure _
  · exact .bind (mapM g items h) fun _ => .pure _

end Agree

end Emit

end AbapLowering
