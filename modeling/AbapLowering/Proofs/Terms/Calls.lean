import AbapLowering.Emission.Condition
import AbapLowering.Proofs.Code.Terms
import AbapLowering.Proofs.Emission.Outcome
import AbapLowering.Proofs.Scope.Found
import Mathlib.Data.List.Forall2

/-!
# Calls and their guards

The calls of an operand are those whose code is part of that of the operand (`Source.calls`), each
after an `await`. A call of something that is named at run time queues guards, and the target that a
guard tests may have calls in it again (`MethodCall.guardAwaits`). While an operand is emitted, just
the lines of such guards are queued: `Emit.Writes v g m P` says so, together with a property of what
is emitted, and every effect has a rule here.
-/

namespace AbapLowering

/-! ## Calls -/

mutual

/-- The calls in the code of an operand. -/
def Source.calls : Source → List MethodCall
  | .constant _ | .component _ | .unsupported _ _ _ => []
  | .template parts => callsOfParts parts
  | .field chain => chain.calls
  | .call call => call.calls
  | .builtin _ (some single) _ => single.calls
  | .builtin _ none parameters => callsOfBindings parameters
  | .arithmetic left _ right => left.calls ++ right.calls

/-- The calls in the pieces of a template. -/
def callsOfParts : List TemplatePart → List MethodCall
  | [] => []
  | part :: rest => part.calls ++ callsOfParts rest

/-- The calls in a piece of a template. -/
def TemplatePart.calls : TemplatePart → List MethodCall
  | .text _ => []
  | .embed source => source.calls

/-- The calls in a field chain. -/
def FieldChain.calls : FieldChain → List MethodCall
  | ⟨head, _, offset, length⟩ => head.calls ++ (callsOfOffset offset ++ callsOfLength length)

/-- The calls in what a chain starts with. -/
def ChainHead.calls : ChainHead → List MethodCall
  | .field _ | .fieldSymbol _ | .classRef _ => []
  | .call call => call.calls

/-- The calls in what tells where a substring starts. -/
def callsOfOffset : Option Offset → List MethodCall
  | some (.field chain) => chain.calls
  | some (.literal _) | none => []

/-- The calls in what tells how long a substring is. -/
def callsOfLength : Option Length → List MethodCall
  | some (.field chain) => chain.calls
  | some (.literal _) | some .rest | none => []

/-- A call and those within it. -/
def MethodCall.calls : MethodCall → List MethodCall
  | ⟨receiver, method, parameters⟩ =>
    ⟨receiver, method, parameters⟩ :: (receiver.calls ++ (method.calls ++ parameters.calls))

/-- The calls in what a method is called on. -/
def Receiver.calls : Receiver → List MethodCall
  | .implicit | .static _ | .super => []
  | .object chain => chain.calls
  | .dynamic name => name.calls

/-- The calls in the name of a method. -/
def MethodRef.calls : MethodRef → List MethodCall
  | .named _ => []
  | .dynamic name => name.calls

/-- The calls in a name in parentheses. -/
def DynamicName.calls : DynamicName → List MethodCall
  | .literal _ => []
  | .field chain => chain.calls

/-- The calls in the parameters of a call. -/
def CallParameters.calls : CallParameters → List MethodCall
  | ⟨some single, _, _, _, _, _⟩ => single.calls
  | ⟨none, exporting, importing, changing, _, _⟩ =>
    callsOfBindings exporting ++ (callsOfTargets importing ++ callsOfTargets changing)

/-- The calls in named operands that are read. -/
def callsOfBindings : List Binding → List MethodCall
  | [] => []
  | ⟨_, value⟩ :: rest => value.calls ++ callsOfBindings rest

/-- The calls in named operands that are written. -/
def callsOfTargets : List TargetBinding → List MethodCall
  | [] => []
  | ⟨_, target⟩ :: rest => target.calls ++ callsOfTargets rest

end

mutual

/-- The calls in the code of a condition. -/
def Condition.calls : Condition → List MethodCall
  | .compare left _ right => left.calls ++ right.calls
  | .predicate operand _ _ => operand.calls
  | .within operand range _ => operand.calls ++ range.calls
  | .not inner | .paren inner => inner.calls
  | .and items | .or items => callsOfConditions items
  | .unsupported _ _ _ => []

/-- The calls in the code of some conditions. -/
def callsOfConditions : List Condition → List MethodCall
  | [] => []
  | item :: rest => item.calls ++ callsOfConditions rest

end

/-- Whether there are calls. -/
def awaits (calls : List MethodCall) : Bool := !calls.isEmpty

@[simp] theorem awaits_nil : awaits [] = false := rfl

@[simp] theorem awaits_cons (call : MethodCall) (calls : List MethodCall) :
    awaits (call :: calls) = true := rfl

/-- Some code has an `await` if a part of it has one. -/
@[simp] theorem awaits_append (calls others : List MethodCall) :
    awaits (calls ++ others) = (awaits calls || awaits others) := by
  cases calls <;> simp [awaits]

/-- Without calls there is no `await`, and only then. -/
theorem awaits_eq_false_iff {calls : List MethodCall} : awaits calls = false ↔ calls = [] := by
  cases calls <;> simp

/-! ## Guards -/

/-- Whether the guard of a class that is named at run time has calls in it. -/
def Receiver.guardAwaits : Receiver → Bool
  | .dynamic name => awaits name.calls
  | .implicit | .object _ | .static _ | .super => false

/-- Whether the guard of a method that is named at run time has calls in it: the target is read from
what the method is called on. -/
def MethodRef.guardAwaits (receiver : Receiver) : MethodRef → Bool
  | .dynamic name => awaits receiver.calls || awaits name.calls
  | .named _ => false

/-- Whether the guards that a call queues have calls in them. -/
def MethodCall.guardAwaits (call : MethodCall) : Bool :=
  call.receiver.guardAwaits || call.method.guardAwaits call.receiver

/-- Whether the guards that calls queue have calls in them. -/
def guardsAwait (calls : List MethodCall) : Bool := calls.any MethodCall.guardAwaits

@[simp] theorem guardsAwait_nil : guardsAwait [] = false := rfl

@[simp] theorem guardsAwait_cons (call : MethodCall) (calls : List MethodCall) :
    guardsAwait (call :: calls) = (call.guardAwaits || guardsAwait calls) := rfl

/-- A guard has an `await` if the target of one of the calls contains a call. -/
@[simp] theorem guardsAwait_append (calls others : List MethodCall) :
    guardsAwait (calls ++ others) = (guardsAwait calls || guardsAwait others) := List.any_append

/-- The lines of some guards; it is marked whether an `await` stands in one of their targets. -/
inductive GuardLines : Bool → List String → Prop
  | nil : GuardLines false []
  | guard {b c lines} (kind : GuardKind) {target} : GuardLines b lines →
      Script.Term .access c target → GuardLines (b || c) (lines ++ Guard.lines ⟨kind, target⟩)

/-- The lines of guards behind others. -/
theorem GuardLines.append {b c : Bool} {lines others : List String} (h : GuardLines b lines)
    (h' : GuardLines c others) : GuardLines (b || c) (lines ++ others) := by
  induction h' with
  | nil => rwa [Bool.or_false, List.append_nil]
  | guard kind _ htarget ih =>
    rw [← Bool.or_assoc, ← List.append_assoc]
    exact .guard kind ih htarget

/-! ## What is queued -/

namespace Emit

variable {v : View} {α β : Type} {g g' : Bool} {P : α → Prop} {Q : β → Prop}

/-- Whatever is emitted for a unit satisfies `P`, and lines of guards are queued in which an `await`
stands iff `g` says so. -/
def Writes (v : View) (g : Bool) (m : Emit α) (P : α → Prop) : Prop :=
  ∀ config s a s', m ⟨v, config⟩ s = .ok a s' →
    P a ∧ ∃ lines, s'.hoisted = s.hoisted ++ lines ∧ GuardLines g lines

namespace Writes

/-- One after the other, where the second may rely on what the first gave. -/
theorem bind {m : Emit α} {f : α → Emit β} (hm : Writes v g m P)
    (hf : ∀ a, P a → Writes v g' (f a) Q) : Writes v (g || g') (m >>= f) Q := by
  intro config s b s'' h
  obtain ⟨a, s', ha, hb⟩ := bind_eq_ok h
  obtain ⟨hp, lines, hlines, hguards⟩ := hm _ _ _ _ ha
  obtain ⟨hq, lines', hlines', hguards'⟩ := hf a hp _ _ _ _ hb
  exact ⟨hq, lines ++ lines', by rw [hlines', hlines, List.append_assoc], hguards.append hguards'⟩

/-- What queues nothing comes first. -/
theorem after {m : Emit α} {f : α → Emit β} (hm : Writes v false m P)
    (hf : ∀ a, P a → Writes v g (f a) Q) : Writes v g (m >>= f) Q := bind hm hf

/-- A value queues no guard. -/
theorem pure {a : α} (h : P a) : Writes v false (Pure.pure a) P := by
  rintro _ _ _ _ ⟨⟩
  exact ⟨h, [], (List.append_nil _).symm, .nil⟩

/-- What is made of something emitted. -/
theorem map {m : Emit α} {f : α → β} (hm : Writes v g m P) (hf : ∀ a, P a → Q (f a)) :
    Writes v g (do return f (← m)) Q := by
  rw [← Bool.or_false g]
  exact bind hm fun a ha => pure (hf a ha)

/-- The property can be made weaker. -/
theorem mono {m : Emit α} (hm : Writes v g m P) {P' : α → Prop} (hP : ∀ a, P a → P' a) :
    Writes v g m P' := by
  intro config s a s' h
  obtain ⟨hp, hlines⟩ := hm _ _ _ _ h
  exact ⟨hP a hp, hlines⟩

theorem cast {m : Emit α} (hm : Writes v g m P) (hg : g = g') : Writes v g' m P := hg ▸ hm

theorem fail (error : LoweringError) : Writes v g (Emit.fail error : Emit α) P := by
  rintro _ _ _ _ ⟨⟩

/-- An effect that leaves the queue as it is. -/
theorem of_frame {m : Emit α}
    (h : ∀ config s a s', m ⟨v, config⟩ s = .ok a s' → s'.hoisted = s.hoisted ∧ P a) :
    Writes v false m P := by
  intro config s a s' hrun
  obtain ⟨hhoisted, hp⟩ := h _ _ _ _ hrun
  exact ⟨hp, [], by rw [hhoisted, List.append_nil], .nil⟩

/-- A question queues no guard. -/
theorem ask {question : View → Query α} (h : (question v).All P) :
    Writes v false (Emit.ask question) P := by
  refine of_frame fun config s a s' hrun => ?_
  unfold Emit.ask at hrun
  dsimp only at hrun
  split at hrun
  next slot hanswer =>
    cases hrun
    exact ⟨rfl, h.of_run hanswer⟩
  next => cases hrun

/-- An integer is spelled by its constant. -/
theorem integer (value : Int64) :
    Writes v false (Emit.integer value) fun text => text = Identifier.integer value := by
  refine of_frame ?_
  rintro _ _ _ _ ⟨⟩
  exact ⟨rfl, rfl⟩

theorem warn (message : String) (position : Option Position) :
    Writes v false (Emit.warn message position) fun _ => True := by
  refine of_frame ?_
  rintro _ _ _ _ ⟨⟩
  exact ⟨rfl, trivial⟩

/-- The guard of a name that is read at run time. -/
theorem requireTarget (kind : GuardKind) {b : Bool} {target : String}
    (h : Script.Term .access b target) :
    Writes v b (Emit.requireTarget kind target) fun _ => True := by
  intro config s a s' hrun
  obtain rfl := requireTarget_eq_ok hrun
  have hguard : GuardLines b ([] ++ Guard.lines ⟨kind, target⟩) := .guard kind .nil h
  exact ⟨trivial, _, List.append_assoc _ _ _, hguard⟩

/-- A list queues the guards of its items, and each gives what it should. -/
theorem mapM {f : α → Emit β} {items : List α} {calls : α → List MethodCall} {R : α → β → Prop}
    (h : ∀ a ∈ items, Writes v (guardsAwait (calls a)) (f a) (R a)) :
    Writes v (guardsAwait (items.flatMap calls)) (items.mapM f) (List.Forall₂ R items) := by
  induction items with
  | nil => exact .pure .nil
  | cons a rest ih =>
    obtain ⟨ha, hrest⟩ := List.forall_mem_cons.mp h
    rw [List.mapM_cons, List.flatMap_cons, guardsAwait_append]
    exact bind ha fun b hb => (ih hrest).map fun bs hbs => .cons hb hbs

end Writes

end Emit

end AbapLowering
