import AbapLowering.Lowering
import AbapLowering.Proofs.Emission.BuiltTree

/-!
# Giving up strict checks

Two choices of a configuration only add reasons to stop: unknown types can be refused, and so can
dynamic calls whose exception class is not registered.

- `Config.relax`: a configuration with one of these checks given up, or both;
- `LoweringError.Strict`: the faults that only these checks find;
- `Emit.Relaxes`: emitting comes to the same outcome without the checks, unless one of them stops it.
  This holds of the basic effects (`Built.relaxes`) and so of trees (`Assembled.relaxes`).

So a unit that can be lowered is lowered to the same without the checks (`SourceUnit.lower_relax`).
-/

namespace AbapLowering

/-- A configuration with strict checks given up: with `types` unknown types are left to run time,
with `fallbacks` the exception classes of dynamic calls are not looked for. -/
def Config.relax (c : Config) (types fallbacks : Bool) : Config :=
  { c with
    unknownTypes := if types then .runtimeError else c.unknownTypes
    checkFallbackExceptions := !fallbacks && c.checkFallbackExceptions }

/-- The faults that are found only by the checks that are given up. -/
inductive LoweringError.Strict (types fallbacks : Bool) : LoweringError → Prop
  | unknownType (h : types = true) (name reason : String) :
    Strict types fallbacks (.unknownType name reason)
  | missingFallback (h : fallbacks = true) (className : String) :
    Strict types fallbacks (.missingFallback className)

/-! ## Types -/

namespace DataType

mutual

/-- A type that has a constructor has the same one where unknown types are left open. -/
theorem constructor_lenient : ∀ {type : DataType} {text : String},
    type.constructor false = .ok text → type.constructor true = .ok text
  | .structured components name, text, h => by
    rw [constructor] at h ⊢
    cases hfields : componentConstructors false components with
    | error why =>
      rw [hfields] at h
      cases h
    | ok fields =>
      rw [hfields] at h
      rw [componentConstructors_lenient hfields]
      exact h
  | .table row options, text, h => by
    rw [constructor] at h ⊢
    cases hrow : row.constructor false with
    | error why =>
      rw [hrow] at h
      cases h
    | ok row =>
      rw [hrow] at h
      rw [constructor_lenient hrow]
      exact h
  | .dataReference target, text, h => by
    rw [constructor] at h ⊢
    cases htarget : target.constructor false with
    | error why =>
      rw [htarget] at h
      cases h
    | ok target =>
      rw [htarget] at h
      rw [constructor_lenient htarget]
      exact h
  -- refused by the strict form
  | .unknown name reason, text, h => by
    rw [constructor] at h
    cases h
  | .integer _, _, h | .character _ _, _, h | .string _, _, h | .xString, _, h | .hex _, _, h
  | .packed _ _, _, h | .float, _, h | .date, _, h | .time, _, h | .numc _, _, h
  | .objectReference _, _, h | .generic _, _, h => h

theorem componentConstructors_lenient : ∀ {components : List Component} {fields : List String},
    componentConstructors false components = .ok fields →
      componentConstructors true components = .ok fields
  | [], _, h => h
  | ⟨name, type⟩ :: rest, fields, h => by
    rw [componentConstructors] at h ⊢
    cases htype : type.constructor false with
    | error why =>
      rw [htype] at h
      cases h
    | ok text =>
      cases hrest : componentConstructors false rest with
      | error why =>
        rw [htype, hrest] at h
        cases h
      | ok others =>
        rw [htype, hrest] at h
        rw [constructor_lenient htype, componentConstructors_lenient hrest]
        exact h

end

end DataType

/-! ## Emitting -/

namespace Emit

variable {α β : Type} {types fallbacks : Bool}

/-- Emitting that comes to the same without some checks, unless one of these checks stops it. -/
def Relaxes (types fallbacks : Bool) (m : Emit α) : Prop :=
  ∀ v config s, m ⟨v, config.relax types fallbacks⟩ s = m ⟨v, config⟩ s ∨
    ∃ e s', m ⟨v, config⟩ s = .error (.error e) s' ∧ e.Strict types fallbacks

theorem Relaxes.bind {m : Emit α} {f : α → Emit β} (hm : Relaxes types fallbacks m)
    (hf : ∀ a, Relaxes types fallbacks (f a)) : Relaxes types fallbacks (m >>= f) := by
  intro v config s
  rw [bind_apply, bind_apply]
  rcases hm v config s with heq | ⟨e, s', herror, he⟩
  · rw [heq]
    cases m ⟨v, config⟩ s with
    | ok a s' => exact hf a v config s'
    | error why s' => exact .inl rfl
  · exact .inr ⟨e, s', by rw [herror], he⟩

/-- Where unknown types are accepted, a constructor that exists is the same. -/
theorem relaxes_typeConstructor (type : DataType) :
    Relaxes types fallbacks (typeConstructor type) := by
  intro v config s
  rw [typeConstructor_apply, typeConstructor_apply]
  by_cases hlenient : (config.relax types fallbacks).isLenient = config.isLenient
  · exact .inl (by rw [hlenient])
  · -- the configuration is strict about types, and that is given up
    obtain ⟨htypes, hstrict⟩ : types = true ∧ config.isLenient = false := by
      cases types <;> simp_all [Config.relax, Config.isLenient]
    have hrelaxed : (config.relax types fallbacks).isLenient = true := by
      simp [Config.relax, Config.isLenient, htypes]
    rw [hrelaxed, hstrict]
    cases hconstructor : type.constructor false with
    | ok text =>
      rw [DataType.constructor_lenient hconstructor]
      exact .inl rfl
    | error unresolved => exact .inr ⟨_, s, rfl, .unknownType htypes _ _⟩

/-- Where fallbacks are allowed, a guard that may be queued is the same. -/
theorem relaxes_requireTarget (kind : GuardKind) (target : String) :
    Relaxes types fallbacks (requireTarget kind target) := by
  intro v config s
  rw [requireTarget_apply, requireTarget_apply]
  by_cases hmissing : config.checkFallbackExceptions && !v.registry.contains kind.exception
  · cases fallbacks with
    | false => exact .inl rfl
    | true => exact .inr ⟨_, s, if_pos hmissing, .missingFallback rfl _⟩
  · -- what is not refused with the check is not refused without it
    have hrelaxed : ((config.relax types fallbacks).checkFallbackExceptions &&
        !v.registry.contains kind.exception) = false := by
      cases fallbacks <;> simp_all [Config.relax]
    rw [if_neg hmissing, hrelaxed, if_neg Bool.false_ne_true]
    exact .inl rfl

/-- What is built succeeds with the same result under both switches. -/
theorem Built.relaxes {effects : Effects} {m : Emit α} (h : m.Built effects) :
    Relaxes types fallbacks m := by
  induction h with
  | bind _ _ ihm ihf => exact .bind ihm ihf
  | onView _ hview ih =>
    intro v config s
    rw [read_bind, read_bind, hview ⟨v, config.relax types fallbacks⟩ ⟨v, config⟩ rfl]
    exact ih ⟨v, config⟩ v config s
  | typeConstructor type => exact relaxes_typeConstructor type
  | requireTarget kind target => exact relaxes_requireTarget kind target
  | _ => exact fun _ _ _ => .inl rfl

theorem Assembled.relaxes {m : Emit α} (h : m.Assembled) : Relaxes types fallbacks m := by
  induction h with
  | built hm => exact hm.relaxes
  | countStatement => exact fun _ _ _ => .inl rfl
  | bind _ _ ihm ihf => exact .bind ihm ihf

end Emit

/-! ## Units -/

namespace SourceUnit

/-- Without some checks a unit is lowered to the same, or for the same reason not at all, unless one
of these checks stops it. -/
theorem lower_relax_eq_or (u : SourceUnit) (config : Config) (registry : Registry) (issued : Nat)
    (types fallbacks : Bool) :
    u.lower (config.relax types fallbacks) registry issued = u.lower config registry issued ∨
      ∃ e, (u.lower config registry issued).1 = .error (.error e) ∧ e.Strict types fallbacks := by
  unfold lower
  cases u.validate with
  | error why => exact .inl rfl
  | ok _ =>
    dsimp only
    have hroot : Emit.Relaxes types fallbacks u.root.emitRoot := u.root.assembled_emitRoot.relaxes
    rcases hroot (u.view registry) config (.initial issued) with heq | ⟨e, s, herror, he⟩
    · rw [heq]
      exact .inl rfl
    · rw [herror]
      exact .inr ⟨e, rfl, he⟩

/-- Giving up strict checks changes no result. A unit that can be lowered is lowered to the same,
temporaries included. If a unit cannot be lowered, then either that stays so for the same reason, or
the reason is one that only the checks given up find. And a unit that cannot be lowered without the
checks cannot be lowered with them. -/
theorem lower_relax (u : SourceUnit) (config : Config) (registry : Registry) (issued : Nat)
    (types fallbacks : Bool) :
    let strict := u.lower config registry issued
    let relaxed := u.lower (config.relax types fallbacks) registry issued
    (∀ out, strict.1 = .ok out → relaxed = strict) ∧
    (∀ why, strict.1 = .error why →
      relaxed = strict ∨ ∃ e, why = .error e ∧ e.Strict types fallbacks) ∧
    ∀ why, relaxed.1 = .error why → ∃ why', strict.1 = .error why' := by
  intro strict relaxed
  have hor : relaxed = strict ∨ ∃ e, strict.1 = .error (.error e) ∧ e.Strict types fallbacks :=
    u.lower_relax_eq_or config registry issued types fallbacks
  refine ⟨fun out hout => ?_, fun why hwhy => ?_, fun why hwhy => ?_⟩
  · rcases hor with heq | ⟨e, herror, -⟩
    · exact heq
    · rw [hout] at herror
      cases herror
  · rcases hor with heq | ⟨e, herror, he⟩
    · exact .inl heq
    · rw [hwhy] at herror
      exact .inr ⟨e, Except.error.inj herror, he⟩
  · rcases hor with heq | ⟨e, herror, -⟩
    · exact ⟨why, heq ▸ hwhy⟩
    · exact ⟨.error e, herror⟩

end SourceUnit

end AbapLowering
