import AbapLowering.Proofs.Guards.Queue
import Mathlib.Data.List.Forall2

/-!
# Which guards operands queue

An operand queues a guard for each class and each method in it that is named at run time.

- `Source.guardSites`, `MethodCall.guardSites`, `Condition.guardSites`: the places of these names, in
  the order of the guards. In a call it is what the method is called on, then the method, then the
  parameters, and the guard of a name comes after those that the name itself needs;
- `Emit.Queues context sites m`: `m` adds the lines of one guard for each of the sites, in order, to
  whatever waits, or, if it fails, for the first of them;
- operands and conditions queue just what their sites say (`Source.queues`, `Condition.queues`).
-/

namespace AbapLowering

/-- A place where something is named at run time and guarded. -/
inductive GuardSite where
  /-- The class of a call. -/
  | classOfCall (name : DynamicName)
  /-- The method of a call. -/
  | methodOfCall (name : DynamicName)

namespace GuardSite

/-- The kind of the guard. -/
def kind : GuardSite → GuardKind
  | classOfCall _ => .classOfCall
  | methodOfCall _ => .methodOfCall

/-- Whether some code is what is emitted for the name in some state. -/
def Names (context : Context) (target : String) : GuardSite → Prop
  | classOfCall name => ∃ s s', name.emitClass context s = .ok target s'
  | methodOfCall name => ∃ base s s', name.emitMethod base context s = .ok target s'

/-- Whether a guard is the one for a site, and may be queued. -/
def Fits (context : Context) (site : GuardSite) (g : Guard) : Prop :=
  g.kind = site.kind ∧ site.Names context g.target ∧ g.Allowed context

/-- Guards that fit their sites may be queued. -/
theorem allowed_of_fits {context : Context} {sites : List GuardSite} {guards : List Guard}
    (h : List.Forall₂ (Fits context) sites guards) : ∀ g ∈ guards, g.Allowed context := by
  induction h with
  | nil => simp
  | cons hfits _ ih => exact List.forall_mem_cons.mpr ⟨hfits.2.2, ih⟩

end GuardSite

/-! ## Sites -/

mutual

/-- The sites in an operand that is read. -/
def Source.guardSites : Source → List GuardSite
  | .constant _ | .component _ | .unsupported _ _ _ => []
  | .template parts => guardSitesOfParts parts
  | .field chain => chain.guardSites
  | .call call => call.guardSites
  | .builtin _ (some single) _ => single.guardSites
  | .builtin _ none parameters => guardSitesOfBindings parameters
  | .arithmetic left _ right => left.guardSites ++ right.guardSites

/-- The sites in the pieces of a template. -/
def guardSitesOfParts : List TemplatePart → List GuardSite
  | [] => []
  | part :: rest => part.guardSites ++ guardSitesOfParts rest

/-- The sites in a piece of a template. -/
def TemplatePart.guardSites : TemplatePart → List GuardSite
  | .text _ => []
  | .embed source => source.guardSites

/-- The sites in a field chain. -/
def FieldChain.guardSites : FieldChain → List GuardSite
  | ⟨head, _, offset, length⟩ =>
    head.guardSites ++ (guardSitesOfOffset offset ++ guardSitesOfLength length)

/-- The sites in what a chain starts with. -/
def ChainHead.guardSites : ChainHead → List GuardSite
  | .field _ | .fieldSymbol _ | .classRef _ => []
  | .call call => call.guardSites

/-- The sites in an offset. -/
def guardSitesOfOffset : Option Offset → List GuardSite
  | some (.field chain) => chain.guardSites
  | some (.literal _) | none => []

/-- The sites in a length. -/
def guardSitesOfLength : Option Length → List GuardSite
  | some (.field chain) => chain.guardSites
  | some (.literal _) | some .rest | none => []

/-- The sites in a call: those of what the method is called on, of the method and of the
parameters. -/
def MethodCall.guardSites : MethodCall → List GuardSite
  | ⟨receiver, method, parameters⟩ =>
    receiver.guardSites ++ (method.guardSites ++ parameters.guardSites)

/-- The sites in what a method is called on. A class named at run time comes after its name. -/
def Receiver.guardSites : Receiver → List GuardSite
  | .object chain => chain.guardSites
  | .dynamic name => name.guardSites ++ [.classOfCall name]
  | .implicit | .static _ | .super => []

/-- The sites in what is called. A method named at run time comes after its name. -/
def MethodRef.guardSites : MethodRef → List GuardSite
  | .named _ => []
  | .dynamic name => name.guardSites ++ [.methodOfCall name]

/-- The sites in a name in parentheses. -/
def DynamicName.guardSites : DynamicName → List GuardSite
  | .literal _ => []
  | .field chain => chain.guardSites

/-- The sites in the parameters of a call; an unnamed one stands alone. -/
def CallParameters.guardSites : CallParameters → List GuardSite
  | ⟨some single, _, _, _, _, _⟩ => single.guardSites
  | ⟨none, exporting, importing, changing, _, _⟩ =>
    guardSitesOfBindings exporting ++ (guardSitesOfTargets importing ++ guardSitesOfTargets changing)

/-- The sites in named operands that are read. -/
def guardSitesOfBindings : List Binding → List GuardSite
  | [] => []
  | ⟨_, value⟩ :: rest => value.guardSites ++ guardSitesOfBindings rest

/-- The sites in named operands that are written. -/
def guardSitesOfTargets : List TargetBinding → List GuardSite
  | [] => []
  | ⟨_, target⟩ :: rest => target.guardSites ++ guardSitesOfTargets rest

end

mutual

/-- The sites in a condition. -/
def Condition.guardSites : Condition → List GuardSite
  | .compare left _ right => left.guardSites ++ right.guardSites
  | .predicate operand _ _ => operand.guardSites
  | .within operand range _ => operand.guardSites ++ range.guardSites
  | .not inner | .paren inner => inner.guardSites
  | .and items | .or items => guardSitesOfConditions items
  | .unsupported _ _ _ => []

/-- The sites in some conditions. -/
def guardSitesOfConditions : List Condition → List GuardSite
  | [] => []
  | item :: rest => item.guardSites ++ guardSitesOfConditions rest

end

/-! ## Queueing -/

namespace Emit

variable {α β : Type}

/-- Whether these are the guards for some sites, or for the first of them if emitting failed. -/
def GuardsFit (context : Context) (sites : List GuardSite) (guards : List Guard) :
    EStateM.Result Abort EmissionState α → Prop
  | .ok _ _ => List.Forall₂ (GuardSite.Fits context) sites guards
  | .error _ _ => ∃ done, done <+: sites ∧ List.Forall₂ (GuardSite.Fits context) done guards

/-- So may the guards of a rendering that failed on its way. -/
theorem GuardsFit.allowed {context : Context} {sites : List GuardSite} {guards : List Guard}
    {outcome : EStateM.Result Abort EmissionState α} (h : GuardsFit context sites guards outcome) :
    ∀ g ∈ guards, g.Allowed context := by
  cases outcome with
  | ok a s => exact GuardSite.allowed_of_fits h
  | error why s =>
    obtain ⟨done, -, hfits⟩ := h
    exact GuardSite.allowed_of_fits hfits

/-- Emitting that adds the lines of the guards for some sites to the queue, in order. -/
def Queues (context : Context) (sites : List GuardSite) (m : Emit α) : Prop :=
  ∀ s, ∃ guards, AppendsLines guards m context s ∧ GuardsFit context sites guards (m context s)

namespace Queues

variable {context : Context} {sites sites' : List GuardSite}

/-- What queues nothing. -/
theorem of_leaves {m : Emit α} (h : ∀ s, AppendsLines [] m context s) : Queues context [] m := by
  intro s
  refine ⟨[], h s, ?_⟩
  cases m context s with
  | ok a s' => exact .nil
  | error why s' => exact ⟨[], List.prefix_refl [], .nil⟩

/-- What is built without guards queues none. -/
theorem of_built {m : Emit α} (h : m.Built ⟨false, false, false⟩) : Queues context [] m :=
  of_leaves (h.leaves context)

theorem pure (a : α) : Queues context [] (Pure.pure a : Emit α) :=
  of_leaves fun _ => .nil fun _ => rfl

/-- What fails gets to no site. -/
theorem fail (error : LoweringError) : Queues context sites (Emit.fail error : Emit α) := fun _ =>
  ⟨[], .nil fun _ => rfl, [], List.nil_prefix, .nil⟩

/-- The guard of a name is queued once the code of the name is known. -/
theorem requireTarget (site : GuardSite) {target : String} (h : site.Names context target) :
    Queues context [site] (Emit.requireTarget site.kind target) := by
  intro s
  by_cases hallowed : Guard.Allowed context ⟨site.kind, target⟩
  · refine ⟨[⟨site.kind, target⟩], .requireTarget hallowed, ?_⟩
    have hfits : List.Forall₂ (GuardSite.Fits context) [site] [⟨site.kind, target⟩] :=
      .cons ⟨rfl, h, hallowed⟩ .nil
    cases Emit.requireTarget site.kind target context s with
    | ok a s' => exact hfits
    | error why s' => exact ⟨[site], List.prefix_refl _, hfits⟩
  · refine ⟨[], .nil fun queue => ?_, ?_⟩
    · rw [requireTarget_of_not_allowed hallowed, requireTarget_of_not_allowed hallowed]
      rfl
    · rw [requireTarget_of_not_allowed hallowed]
      exact ⟨[], List.nil_prefix, .nil⟩

/-- One after the other, where what follows may depend on how the first one ended. -/
theorem bind_of {m : Emit α} {f : α → Emit β} (hm : Queues context sites m)
    (hf : ∀ a s s', m context s = .ok a s' → Queues context sites' (f a)) :
    Queues context (sites ++ sites') (m >>= f) := by
  intro s
  obtain ⟨guards, happends, hfit⟩ := hm s
  cases hrun : m context s with
  | error why s' =>
    rw [hrun] at hfit
    obtain ⟨done, hdone, hfit⟩ := hfit
    refine ⟨guards, happends.bind_of_error hrun, ?_⟩
    rw [bind_apply, hrun]
    exact ⟨done, hdone.trans (List.prefix_append _ _), hfit⟩
  | ok a s' =>
    rw [hrun] at hfit
    obtain ⟨guards', happends', hfit'⟩ := hf a s s' hrun s'
    refine ⟨guards ++ guards', happends.bind_of_ok hrun happends', ?_⟩
    rw [bind_of_ok hrun]
    cases hrest : f a context s' with
    | ok b s'' =>
      rw [hrest] at hfit'
      exact List.rel_append hfit hfit'
    | error why s'' =>
      rw [hrest] at hfit'
      -- all guards of the first part are there, and some of the second
      obtain ⟨done, hdone, hfit'⟩ := hfit'
      exact ⟨sites ++ done, (List.prefix_append_right_inj _).mpr hdone, List.rel_append hfit hfit'⟩

/-- The sites of the first come before those of the second. -/
theorem bind {m : Emit α} {f : α → Emit β} (hm : Queues context sites m)
    (hf : ∀ a, Queues context sites' (f a)) : Queues context (sites ++ sites') (m >>= f) :=
  hm.bind_of fun a _ _ _ => hf a

/-- What comes first queues nothing. -/
theorem after {m : Emit α} {f : α → Emit β} (hm : Queues context [] m)
    (hf : ∀ a, Queues context sites (f a)) : Queues context sites (m >>= f) := hm.bind hf

/-- What comes last queues nothing. -/
theorem before {m : Emit α} {f : α → Emit β} (hm : Queues context sites m)
    (hf : ∀ a, Queues context [] (f a)) : Queues context sites (m >>= f) := by
  have h := hm.bind hf
  rwa [List.append_nil] at h

/-- The value is used to build the result. -/
theorem give {m : Emit α} {g : α → β} (hm : Queues context sites m) :
    Queues context sites (m >>= fun a => Pure.pure (g a)) := hm.before fun _ => pure _

/-- A named argument queues the guards of its value. -/
theorem named (key : String) {value : Emit String} (h : Queues context sites value) :
    Queues context sites (Emit.named key value) := h.give

end Queues

end Emit

/-! ## Operands -/

section

open Emit (Queues)

variable {context : Context}

theorem Constant.queues (value : Constant) : value.emit.Queues context [] := .of_built value.built

mutual

/-- An operand queues a guard for each of its sites, in order. -/
theorem Source.queues : ∀ source : Source, source.emit.Queues context source.guardSites
  | .constant value => value.queues
  | .template parts => by
    rw [Source.emit, Source.guardSites]
    exact (queues_emitTemplate parts).give
  | .field chain => by
    rw [Source.emit, Source.guardSites]
    exact chain.queues .read
  | .call call => by
    rw [Source.emit, Source.guardSites]
    exact call.queues
  | .builtin name (some single) _ => by
    rw [Source.emit, Source.guardSites]
    exact single.queues.give
  | .builtin name none parameters => by
    rw [Source.emit, Source.guardSites]
    exact (queues_emitBindings parameters).give
  | .arithmetic left operator right => by
    rw [Source.emit, Source.guardSites]
    exact left.queues.bind fun _ => right.queues.give
  | .component path => .pure _
  | .unsupported name text span => .fail _

theorem queues_emitTemplate :
    ∀ parts : List TemplatePart, (emitTemplate parts).Queues context (guardSitesOfParts parts)
  | [] => .pure _
  | part :: rest => by
    rw [emitTemplate, guardSitesOfParts]
    exact part.queues.bind fun _ => (queues_emitTemplate rest).give

/-- The texts of a template have no sites. -/
theorem TemplatePart.queues : ∀ part : TemplatePart, part.emit.Queues context part.guardSites
  | .text text => .pure _
  | .embed source => by
    rw [TemplatePart.emit, TemplatePart.guardSites]
    exact source.queues.give

/-- The sites of a chain are those of its head, its offset and its length. -/
theorem FieldChain.queues (access : Access) :
    ∀ chain : FieldChain, (chain.emit access).Queues context chain.guardSites
  | ⟨head, segments, offset, length⟩ => by
    rw [FieldChain.emit, FieldChain.guardSites]
    refine head.queues.bind fun start => ?_
    refine (Queues.of_built (Operand.built_path start segments)).after fun _ => ?_
    exact (queues_emitOffset offset).bind fun _ => (queues_emitLength length).give

/-- The head of a chain has the sites of a call, if it is one. -/
theorem ChainHead.queues : ∀ head : ChainHead, head.emit.Queues context head.guardSites
  | .field name => (Queues.of_built (.qualifiedName name)).give
  | .fieldSymbol name => .pure _
  | .classRef name => .of_built (Operand.built_classHead name)
  | .call call => by
    rw [ChainHead.emit, ChainHead.guardSites]
    exact call.queues.give

theorem queues_emitOffset :
    ∀ offset : Option Offset, (emitOffset offset).Queues context (guardSitesOfOffset offset)
  | none => .pure _
  | some (.literal value) => .pure _
  | some (.field chain) => by
    rw [emitOffset, guardSitesOfOffset]
    exact (chain.queues .read).give

theorem queues_emitLength :
    ∀ length : Option Length, (emitLength length).Queues context (guardSitesOfLength length)
  | none => .pure _
  | some (.literal value) => .pure _
  | some (.field chain) => by
    rw [emitLength, guardSitesOfLength]
    exact (chain.queues .read).give
  | some .rest => .pure _

/-- The sites of a call are those of its receiver, its method and its parameters, in this order. -/
theorem MethodCall.queues : ∀ call : MethodCall, call.emit.Queues context call.guardSites
  | ⟨receiver, method, parameters⟩ => by
    rw [MethodCall.emit.eq_def, MethodCall.guardSites]
    split
    next name given heq =>
      cases heq
      split
      · exact (parameters.queues _).give
      · exact (Queues.of_built (Operand.built_namedMethod _ name)).after fun callee =>
          (parameters.queues callee.2).give
    next heq =>
      cases heq
      exact receiver.queues.bind fun base => (method.queues base).bind fun callee =>
        (parameters.queues callee.2).give

/-- A class that is named at run time has a site of its own, behind those of its name. -/
theorem Receiver.queues : ∀ receiver : Receiver, receiver.emit.Queues context receiver.guardSites
  | .implicit => .pure _
  | .object chain => by
    rw [Receiver.emit, Receiver.guardSites]
    exact (chain.queues .read).give
  | .static className => .of_built (.classAddress _ _)
  | .super => .pure _
  | .dynamic name => by
    rw [Receiver.emit, Receiver.guardSites]
    refine name.queues_emitClass.bind_of fun target s s' hname => ?_
    exact (Queues.requireTarget (.classOfCall name) ⟨s, s', hname⟩).give

/-- A method that is named at run time has a site of its own, behind those of its name. -/
theorem MethodRef.queues (base : String) :
    ∀ method : MethodRef, (method.emit base).Queues context method.guardSites
  | .named name => .of_built (Operand.built_namedMethod base name)
  | .dynamic name => by
    rw [MethodRef.emit, MethodRef.guardSites]
    refine (name.queues_emitMethod base).bind_of fun target s s' hname => ?_
    exact (Queues.requireTarget (.methodOfCall name) ⟨base, s, s', hname⟩).give

/-- The sites of a name are emitted before its own guard is queued. -/
theorem DynamicName.queues_emitClass :
    ∀ name : DynamicName, name.emitClass.Queues context name.guardSites
  | .literal value => .pure _
  | .field chain => by
    rw [DynamicName.emitClass, DynamicName.guardSites]
    exact (chain.queues .read).give

theorem DynamicName.queues_emitMethod (base : String) :
    ∀ name : DynamicName, (name.emitMethod base).Queues context name.guardSites
  | .literal value => .pure _
  | .field chain => by
    rw [DynamicName.emitMethod, DynamicName.guardSites]
    exact (chain.queues .read).give

/-- Parameters have the sites of their values. -/
theorem CallParameters.queues (callee : Operand.Callee) : ∀ parameters : CallParameters,
    (parameters.emit callee).Queues context parameters.guardSites
  | ⟨some single, _, _, _, _, _⟩ => by
    rw [CallParameters.emit, CallParameters.guardSites]
    exact single.queues.before fun value => .of_built (Operand.built_singleParameter callee value)
  | ⟨none, exporting, importing, changing, _, _⟩ => by
    rw [CallParameters.emit, CallParameters.guardSites]
    exact (queues_emitBindings exporting).bind fun _ =>
      (queues_emitTargetBindings importing).bind fun _ =>
        (queues_emitTargetBindings changing).give

/-- Actual parameters queue guards in the order in which they stand. -/
theorem queues_emitBindings : ∀ bindings : List Binding,
    (emitBindings bindings).Queues context (guardSitesOfBindings bindings)
  | [] => .pure _
  | ⟨name, value⟩ :: rest => by
    rw [emitBindings, guardSitesOfBindings]
    exact (value.queues.named _).bind fun _ => (queues_emitBindings rest).give

theorem queues_emitTargetBindings : ∀ bindings : List TargetBinding,
    (emitTargetBindings bindings).Queues context (guardSitesOfTargets bindings)
  | [] => .pure _
  | ⟨name, target⟩ :: rest => by
    rw [emitTargetBindings, guardSitesOfTargets]
    exact ((target.queues .write).named _).bind fun _ => (queues_emitTargetBindings rest).give

end

/-! ## Conditions -/

/-- A comparison has the sites of both sides. -/
theorem Condition.queues_emitCompare (left : Source) (operator : CompareOperator) (right : Source) :
    (Condition.emitCompare left operator right).Queues context
      (left.guardSites ++ right.guardSites) :=
  left.queues.bind fun _ => right.queues.give

mutual

/-- A condition queues the guards of all its operands, also of those that need not be evaluated. -/
theorem Condition.queues :
    ∀ condition : Condition, condition.emit.Queues context condition.guardSites
  | .compare left operator right => Condition.queues_emitCompare left operator right
  | .predicate operand predicate negated => operand.queues.give
  | .within operand range negated => operand.queues.bind fun _ => range.queues.give
  | .not (.predicate operand predicate negated) => operand.queues.give
  | .not (.within operand range negated) => operand.queues.bind fun _ => range.queues.give
  | .not (.compare left operator right) =>
    (Condition.queues_emitCompare left operator right).give
  -- negation asks for nothing itself
  | .not (.paren inner) => by
    rw [Condition.emit, Condition.guardSites, Condition.guardSites]
    exact inner.queues.give
  | .not (.not inner) => by
    rw [Condition.emit, Condition.guardSites]
    · exact (Condition.not inner).queues.give
    all_goals simp
  | .not (.and items) => by
    rw [Condition.emit, Condition.guardSites]
    · exact (Condition.and items).queues.give
    all_goals simp
  | .not (.or items) => by
    rw [Condition.emit, Condition.guardSites]
    · exact (Condition.or items).queues.give
    all_goals simp
  | .not (.unsupported name text span) => (Queues.fail _).give
  | .and items => by
    rw [Condition.emit, Condition.guardSites]
    exact (queues_emitConjuncts items).give
  | .or items => by
    rw [Condition.emit, Condition.guardSites]
    exact (queues_emitDisjuncts items).give
  | .paren inner => by
    rw [Condition.emit, Condition.guardSites]
    exact inner.queues.give
  | .unsupported name text span => .fail _

/-- Conditions that all have to hold queue the guards of each. -/
theorem queues_emitConjuncts : ∀ items : List Condition,
    (emitConjuncts items).Queues context (guardSitesOfConditions items)
  | [] => .pure _
  | item :: rest => by
    rw [emitConjuncts, guardSitesOfConditions]
    exact item.queues.bind fun _ => (queues_emitConjuncts rest).give

theorem queues_emitDisjuncts : ∀ items : List Condition,
    (emitDisjuncts items).Queues context (guardSitesOfConditions items)
  | [] => .pure _
  | item :: rest => by
    rw [emitDisjuncts, guardSitesOfConditions]
    exact item.queues.bind fun _ => (queues_emitDisjuncts rest).give

end

end

end AbapLowering
