import AbapLowering.Emission.Tree
import Mathlib.Data.List.Forall2

/-!
# What emitting gives

Emitting is one effect after the other (`Emit.bind_apply`), and succeeds if each of them does
(`Emit.bind_eq_ok`). A property of what is emitted for a unit (`Emit.Yields`) therefore only needs
to hold of the last effect, given what the effects before it gave.
-/

namespace AbapLowering

/-- What can be had without the error is the success. -/
theorem eq_ok_of_toOption {ε α : Type} {outcome : Except ε α} {a : α}
    (h : outcome.toOption = some a) : outcome = .ok a := by
  cases outcome with
  | error why => cases h
  | ok found =>
    cases h
    rfl

/-- What is related to a list item by item has a partner for each item. -/
theorem exists_mem_of_forall₂ {α β : Type} {R : α → β → Prop} {as : List α} {bs : List β}
    (h : List.Forall₂ R as bs) {a : α} (ha : a ∈ as) : ∃ b ∈ bs, R a b := by
  induction h with
  | nil => cases ha
  | @cons a' b as bs hr _ ih =>
    rcases List.mem_cons.mp ha with rfl | ha
    · exact ⟨b, List.mem_cons_self, hr⟩
    · obtain ⟨b', hb', hr'⟩ := ih ha
      exact ⟨b', List.mem_cons_of_mem _ hb', hr'⟩

namespace Emit

variable {α β : Type}

/-- One after the other, where the second goes on from the state of the first. -/
theorem bind_apply (m : Emit α) (f : α → Emit β) (context : Context) (s : EmissionState) :
    (m >>= f) context s = match m context s with
      | .ok a s' => f a context s'
      | .error why s' => .error why s' := by
  change EStateM.bind (m context) (fun a => f a context) s = _
  unfold EStateM.bind
  cases m context s <;> rfl

theorem read_bind (f : Context → Emit α) (context : Context) (s : EmissionState) :
    (read >>= f) context s = f context context s := rfl

/-- If the first succeeds, the second is run. -/
theorem bind_of_ok {m : Emit α} {context : Context} {s s' : EmissionState} {a : α}
    (h : m context s = .ok a s') (f : α → Emit β) : (m >>= f) context s = f a context s' := by
  rw [bind_apply, h]

/-- If both succeed, each does. -/
theorem bind_eq_ok {m : Emit α} {f : α → Emit β} {context : Context} {s s'' : EmissionState}
    {b : β} (h : (m >>= f) context s = .ok b s'') :
    ∃ a s', m context s = .ok a s' ∧ f a context s' = .ok b s'' := by
  rw [bind_apply] at h
  split at h
  next a s' hm => exact ⟨a, s', hm, h⟩
  next => cases h

/-- Emitting one item after the other gives one result for each. -/
theorem forall₂_of_mapM {f : α → Emit β} {context : Context} {s s' : EmissionState}
    {items : List α} {results : List β} (h : items.mapM f context s = .ok results s') :
    List.Forall₂ (fun a b => ∃ t t', f a context t = .ok b t') items results := by
  induction items generalizing s results with
  | nil =>
    cases h
    exact .nil
  | cons a rest ih =>
    rw [List.mapM_cons] at h
    obtain ⟨b, t, hb, h⟩ := bind_eq_ok h
    obtain ⟨bs, u, hbs, h⟩ := bind_eq_ok h
    cases h
    exact .cons ⟨s, t, hb⟩ (ih hbs)

theorem typeConstructor_apply (type : DataType) (context : Context) (s : EmissionState) :
    typeConstructor type context s = match type.constructor context.config.isLenient with
      | .ok text => .ok text s
      | .error unresolved => .error (.error (.unknownType unresolved.name unresolved.reason)) s := by
  rw [typeConstructor, read_bind]
  cases type.constructor context.config.isLenient <;> rfl

/-- A guard is queued unless it may not be. -/
theorem requireTarget_apply (kind : GuardKind) (target : String) (context : Context)
    (s : EmissionState) :
    requireTarget kind target context s =
      if context.config.checkFallbackExceptions && !context.view.registry.contains kind.exception
      then .error (.error (.missingFallback kind.exception)) s
      else .ok () { s with hoisted := s.hoisted ++ [Guard.fallbackCheck ⟨kind, target⟩]
        ++ [Guard.targetCheck ⟨kind, target⟩] } := by
  rw [requireTarget, read_bind]
  dsimp only
  split <;> rfl

/-- A type whose constructor is emitted has one. -/
theorem typeConstructor_eq_ok {type : DataType} {text : String} {context : Context}
    {s s' : EmissionState} (h : typeConstructor type context s = .ok text s') :
    s' = s ∧ type.constructor context.config.isLenient = .ok text := by
  rw [typeConstructor_apply] at h
  split at h
  next hconstructor =>
    cases h
    exact ⟨rfl, hconstructor⟩
  next => cases h

/-- A guard that is accepted is queued as two lines. -/
theorem requireTarget_eq_ok {kind : GuardKind} {target : String} {context : Context}
    {s s' : EmissionState} {u : Unit} (h : requireTarget kind target context s = .ok u s') :
    s' = { s with hoisted := s.hoisted ++ [Guard.fallbackCheck ⟨kind, target⟩]
      ++ [Guard.targetCheck ⟨kind, target⟩] } := by
  rw [requireTarget_apply] at h
  split at h
  next => cases h
  next =>
    cases h
    rfl

/-- With guards that wait a condition becomes a call and the condition. -/
theorem guarded_apply (text : String) (context : Context) (s : EmissionState) :
    guarded text context s =
      .ok (if s.hoisted.isEmpty then text
        else "(() => \x7b " ++ " ".intercalate s.hoisted ++ " \x7d)(), " ++ text)
        { s with hoisted := [] } := by
  have hdrain : drain context s = .ok s.hoisted { s with hoisted := [] } := rfl
  rw [guarded, bind_of_ok hdrain]
  cases s.hoisted.isEmpty <;> rfl

/-- Whatever is emitted for a unit satisfies `P`. -/
def Yields (v : View) (m : Emit α) (P : α → Prop) : Prop :=
  ∀ config s a s', m ⟨v, config⟩ s = .ok a s' → P a

namespace Yields

variable {v : View} {P : α → Prop} {Q : β → Prop}

theorem pure {a : α} (h : P a) : Yields v (Pure.pure a : Emit α) P := by
  rintro _ _ _ _ ⟨⟩
  exact h

theorem fail (error : LoweringError) : Yields v (Emit.fail error : Emit α) P := by
  rintro _ _ _ _ ⟨⟩

/-- What is given by one after the other. -/
theorem bind {m : Emit α} {f : α → Emit β} (hm : Yields v m P)
    (hf : ∀ a, P a → Yields v (f a) Q) : Yields v (m >>= f) Q := by
  intro config s b s'' h
  obtain ⟨a, s', ha, hb⟩ := bind_eq_ok h
  exact hf a (hm _ _ _ _ ha) _ _ _ _ hb

/-- What is emitted before does not matter. -/
theorem after {m : Emit α} {f : α → Emit β} (hf : ∀ a, Yields v (f a) Q) :
    Yields v (m >>= f) Q :=
  .bind (P := fun _ => True) (fun _ _ _ _ _ => trivial) fun a _ => hf a

end Yields

end Emit

/-- A structure is opened by its first statement, and finding it has no effects. -/
theorem StructureNode.opening_eq_ok {node : StructureNode} {kind : String} {context : Context}
    {s s' : EmissionState} {opening : StatementNode}
    (h : node.opening kind context s = .ok opening s') :
    node.firstStatement? = some opening ∧ s' = s := by
  unfold StructureNode.opening at h
  cases hfirst : node.firstStatement? with
  | none =>
    rw [hfirst] at h
    cases h
  | some first =>
    rw [hfirst] at h
    cases h
    exact ⟨rfl, rfl⟩

end AbapLowering
