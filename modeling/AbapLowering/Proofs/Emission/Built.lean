import AbapLowering.Proofs.Emission.Outcome

/-!
# What emitting is built from

Everything that is emitted is put together from few effects, and most of it has not all of them:

- `Emit.Built effects`: built from questions about the unit, constructors of types, integers,
  registrations and warnings, and, if `effects` says so, from temporaries, from guards and from
  emptying the queue of guards, but without counting statements;
- what holds of these effects and of one after the other holds of all emitting, by induction on
  `Built`;
- each operand and condition is built without temporaries and leaves the queue to grow, and so does
  each statement but `DO` and `LOOP AT`, which get temporaries, and `ELSEIF` and `WHILE`, which empty
  the queue (`StatementNode.built`). Members queue nothing.
-/

namespace AbapLowering

/-! ## The effects -/

/-- Which effects emitting may have of those that not all emitting has. -/
structure Emit.Effects where
  /-- Temporaries are given out. -/
  temporaries : Bool
  /-- Guards are queued. -/
  guards : Bool
  /-- The queue is emptied. -/
  draining : Bool

/-- The effects of operands and of what is made of them: guards are queued. -/
abbrev Emit.Effects.guarding (draws drains : Bool) : Effects := ⟨draws, true, drains⟩

/-- All effects. -/
abbrev Emit.Effects.all : Effects := ⟨true, true, true⟩

/-- Emitting that is put together from the basic effects, of which some are had only if `effects`
says so. -/
inductive Emit.Built (effects : Effects) : {α : Type} → Emit α → Prop
  | pure {α : Type} (a : α) : Built effects (Pure.pure a : Emit α)
  | bind {α β : Type} {m : Emit α} {f : α → Emit β} : Built effects m →
    (∀ a, Built effects (f a)) → Built effects (m >>= f)
  | throw {α : Type} (why : Abort) : Built effects (MonadExcept.throw why : Emit α)
  | ask {α : Type} (question : View → Query α) : Built effects (Emit.ask question)
  /-- The unit at hand may be looked at, the configuration not. -/
  | onView {α : Type} {f : Context → Emit α} : (∀ context, Built effects (f context)) →
    (∀ a b, a.view = b.view → f a = f b) → Built effects (read >>= f)
  | typeConstructor (type : DataType) : Built effects (Emit.typeConstructor type)
  | requireTarget (kind : GuardKind) (target : String) :
    effects.guards = true → Built effects (Emit.requireTarget kind target)
  | integer (value : Int64) : Built effects (Emit.integer value)
  | drain : effects.draining = true → Built effects Emit.drain
  | register (line : String) : Built effects (Emit.register line)
  | warn (message : String) (position : Option Position) :
    Built effects (Emit.warn message position)
  | temporary : effects.temporaries = true → Built effects Emit.temporary

namespace Emit.Built

variable {effects : Emit.Effects} {α β : Type}

theorem fail (error : LoweringError) : Built effects (Emit.fail error : Emit α) := .throw _

theorem walk (w : View → Except GraphFault α) : Built effects (Emit.walk w) := .ask _

theorem classAddress (name : String) (position : Position) :
    Built effects (Emit.classAddress name position) := .ask _

/-- What is built with some effects is built with more. -/
theorem weaken {effects' : Emit.Effects} {m : Emit α} (h : Built effects m)
    (htemporaries : effects.temporaries = true → effects'.temporaries = true)
    (hguards : effects.guards = true → effects'.guards = true)
    (hdraining : effects.draining = true → effects'.draining = true) : Built effects' m := by
  induction h with
  | pure a => exact .pure a
  | bind _ _ ihm ihf => exact .bind ihm ihf
  | throw why => exact .throw why
  | ask question => exact .ask question
  | onView _ hview ih => exact .onView ih hview
  | typeConstructor type => exact .typeConstructor type
  | requireTarget kind target h => exact .requireTarget kind target (hguards h)
  | integer value => exact .integer value
  | drain h => exact .drain (hdraining h)
  | register line => exact .register line
  | warn message position => exact .warn message position
  | temporary h => exact .temporary (htemporaries h)

/-- All effects are enough for anything that is built. -/
theorem mono {m : Emit α} (h : Built effects m) : Built .all m :=
  h.weaken (fun _ => rfl) (fun _ => rfl) fun _ => rfl

/-- To take what was hoisted empties the queue of guards. -/
theorem takeHoisted {draws guards : Bool} : Built ⟨draws, guards, true⟩ Emit.takeHoisted :=
  .bind (.drain rfl) fun _ => .pure _

/-- A condition that folds its guards in empties the queue. -/
theorem guarded {draws guards : Bool} (condition : String) :
    Built ⟨draws, guards, true⟩ (Emit.guarded condition) := by
  refine .bind (.drain rfl) fun lines => ?_
  split
  · exact .pure _
  · exact .pure _

/-- One effect for each item of a list. -/
theorem mapM {f : α → Emit β} (items : List α) (h : ∀ a, Built effects (f a)) :
    Built effects (items.mapM f) := by
  induction items with
  | nil => exact .pure _
  | cons a rest ih =>
    rw [List.mapM_cons]
    exact .bind (h a) fun _ => .bind ih fun _ => .pure _

/-- A named argument has the effects of its value. -/
theorem named (key : String) {value : Emit String} (h : Built effects value) :
    Built effects (Emit.named key value) :=
  .bind h fun _ => .pure _

/-- An optional argument that is not given has no effects. -/
theorem namedIfGiven (key : String) (value : Option α) {emit : α → Emit String}
    (h : ∀ a, Built effects (emit a)) : Built effects (Emit.namedIfGiven key value emit) := by
  cases value with
  | none => exact .pure _
  | some a => exact .bind (named key (h a)) fun _ => .pure _

/-- A list of arguments that is empty has no effects. -/
theorem namedListIfAny (key separator : String) (items : List α) {emit : α → Emit String}
    (h : ∀ a, Built effects (emit a)) :
    Built effects (Emit.namedListIfAny key separator items emit) := by
  unfold Emit.namedListIfAny
  split
  · exact .pure _
  · exact .bind (mapM items h) fun _ => .pure _

/-- The owner of a name is asked for at the view; if there is none the name is plain. -/
theorem qualifiedName (token : Token) : Built effects (Emit.qualifiedName token) := by
  refine .bind (.ask _) fun resolution => ?_
  cases resolution with
  | interfaceAttribute owner => exact .bind (.classAddress _ _) fun _ => .pure _
  | foreignAttribute owner => exact .bind (.classAddress _ _) fun _ => .pure _
  | _ => exact .pure _

end Emit.Built

/-! ## Operands -/

namespace Operand

open Emit (Built)

variable {effects : Emit.Effects}

theorem built_classHead (name : Token) : Built effects (classHead name) :=
  .bind (.ask _) fun _ => .bind (.classAddress _ _) fun _ => .pure _

theorem built_memberName (name : Token) : Built effects (memberName name) := by
  refine .bind (.ask _) fun owner => ?_
  cases owner with
  | none => exact .pure _
  | some owner => exact .pure _

/-- A segment of a path asks at most which interface an attribute comes from. -/
theorem built_segment (interfaceName : Option String) (segment : ChainSegment) :
    Built effects (Operand.segment interfaceName segment) := by
  match segment with
  | .attribute name => exact .bind (built_memberName name) fun _ => .pure _
  | .component _ | .static _ | .dereference => exact .pure _

/-- A path is emitted segment by segment behind its head. -/
theorem built_path (head : Head) (segments : List ChainSegment) :
    Built effects (path head segments) :=
  .bind (.mapM _ (built_segment head.interfaceName)) fun _ => .pure _

/-- The only unnamed argument of a call is named after the parameter that takes it. -/
theorem built_singleParameter (callee : Callee) (value : String) :
    Built effects (singleParameter callee value) := by
  unfold singleParameter
  split
  · exact .pure _
  · split
    · exact .pure _
    · exact .bind (.warn _ _) fun _ => .pure _

/-- A method is looked up by its name, and no guard is queued for it. -/
theorem built_namedMethod (base : String) (name : Token) :
    Built effects (namedMethod base name) := by
  refine .bind (.ask _) fun reference => ?_
  cases reference with
  | none => exact .pure _
  | some reference => exact .pure _

end Operand

/-- A constant draws an integer where it is one. -/
theorem Constant.built {effects : Emit.Effects} (value : Constant) : value.emit.Built effects := by
  cases value with
  | integer value => exact .integer value
  | text value => exact .pure _
  | backtick value => exact .pure _

section

variable {draws drains : Bool}

mutual

/-- Operands are built from questions, integers and guards. -/
theorem Source.built : ∀ source : Source, source.emit.Built (.guarding draws drains)
  | .constant value => value.built
  | .template parts => by
    rw [Source.emit]
    exact .bind (built_emitTemplate parts) fun _ => .pure _
  | .field chain => by
    rw [Source.emit]
    exact chain.built .read
  | .call call => by
    rw [Source.emit]
    exact call.built
  | .builtin name (some single) _ => by
    rw [Source.emit]
    exact .bind single.built fun _ => .pure _
  | .builtin name none parameters => by
    rw [Source.emit]
    exact .bind (built_emitBindings parameters) fun _ => .pure _
  | .arithmetic left operator right => by
    rw [Source.emit]
    exact .bind left.built fun _ => .bind right.built fun _ => .pure _
  | .component path => .pure _
  | .unsupported name text span => .fail _

/-- The parts of a string template are emitted one after the other. -/
theorem built_emitTemplate : ∀ parts : List TemplatePart,
    (emitTemplate parts).Built (.guarding draws drains)
  | [] => .pure _
  | part :: rest => by
    rw [emitTemplate]
    exact .bind part.built fun _ => .bind (built_emitTemplate rest) fun _ => .pure _

theorem TemplatePart.built : ∀ part : TemplatePart, part.emit.Built (.guarding draws drains)
  | .text text => .pure _
  | .embed source => by
    rw [TemplatePart.emit]
    exact .bind source.built fun _ => .pure _

/-- A chain of fields has the effects of its head, its segments and the offset and length behind it.
-/
theorem FieldChain.built (access : Access) : ∀ chain : FieldChain,
    (chain.emit access).Built (.guarding draws drains)
  | ⟨head, segments, offset, length⟩ => by
    rw [FieldChain.emit]
    refine .bind head.built fun start => .bind (Operand.built_path start segments) fun _ => ?_
    exact .bind (built_emitOffset offset) fun _ => .bind (built_emitLength length) fun _ => .pure _

/-- The head of a chain may be a call or a class that is named at run time; then guards are queued. -/
theorem ChainHead.built : ∀ head : ChainHead, head.emit.Built (.guarding draws drains)
  | .field name => .bind (.qualifiedName name) fun _ => .pure _
  | .fieldSymbol name => .pure _
  | .classRef name => Operand.built_classHead name
  | .call call => by
    rw [ChainHead.emit]
    exact .bind call.built fun _ => .pure _

theorem built_emitOffset : ∀ offset : Option Offset,
    (emitOffset offset).Built (.guarding draws drains)
  | none => .pure _
  | some (.literal value) => .pure _
  | some (.field chain) => by
    rw [emitOffset]
    exact .bind (chain.built .read) fun _ => .pure _

theorem built_emitLength : ∀ length : Option Length,
    (emitLength length).Built (.guarding draws drains)
  | none => .pure _
  | some (.literal value) => .pure _
  | some (.field chain) => by
    rw [emitLength]
    exact .bind (chain.built .read) fun _ => .pure _
  | some .rest => .pure _

/-- The receiver of a call is emitted before the method and its parameters. -/
theorem MethodCall.built : ∀ call : MethodCall, call.emit.Built (.guarding draws drains)
  | ⟨receiver, method, parameters⟩ => by
    rw [MethodCall.emit.eq_def]
    split
    next name given heq =>
      cases heq
      split
      · exact .bind (parameters.built _) fun _ => .pure _
      · refine .bind (Operand.built_namedMethod _ name) fun callee => ?_
        exact .bind (parameters.built callee.2) fun _ => .pure _
    next heq =>
      cases heq
      refine .bind receiver.built fun base => .bind (method.built base) fun callee => ?_
      exact .bind (parameters.built callee.2) fun _ => .pure _

/-- A receiver that is a class named at run time queues a guard. -/
theorem Receiver.built : ∀ receiver : Receiver, receiver.emit.Built (.guarding draws drains)
  | .implicit => .pure _
  | .object chain => by
    rw [Receiver.emit]
    exact .bind (chain.built .read) fun _ => .pure _
  | .static className => .classAddress _ _
  | .super => .pure _
  | .dynamic name => by
    rw [Receiver.emit]
    exact .bind name.built_emitClass fun _ => .bind (.requireTarget _ _ rfl) fun _ => .pure _

theorem MethodRef.built (base : String) : ∀ method : MethodRef,
    (method.emit base).Built (.guarding draws drains)
  | .named name => Operand.built_namedMethod base name
  | .dynamic name => by
    rw [MethodRef.emit]
    exact .bind (name.built_emitMethod base) fun _ => .bind (.requireTarget _ _ rfl) fun _ => .pure _

/-- A class that is named at run time queues the guard that it exists. -/
theorem DynamicName.built_emitClass : ∀ name : DynamicName,
    name.emitClass.Built (.guarding draws drains)
  | .literal value => .pure _
  | .field chain => by
    rw [DynamicName.emitClass]
    exact .bind (chain.built .read) fun _ => .pure _

/-- A method that is named at run time queues the guard that it exists. -/
theorem DynamicName.built_emitMethod (base : String) :
    ∀ name : DynamicName, (name.emitMethod base).Built (.guarding draws drains)
  | .literal value => .pure _
  | .field chain => by
    rw [DynamicName.emitMethod]
    exact .bind (chain.built .read) fun _ => .pure _

/-- Parameters are emitted in order, whichever way they are passed. -/
theorem CallParameters.built (callee : Operand.Callee) :
    ∀ parameters : CallParameters, (parameters.emit callee).Built (.guarding draws drains)
  | ⟨some single, _, _, _, _, _⟩ => by
    rw [CallParameters.emit]
    exact .bind single.built fun value => Operand.built_singleParameter callee value
  | ⟨none, exporting, importing, changing, _, _⟩ => by
    rw [CallParameters.emit]
    refine .bind (built_emitBindings exporting) fun _ => ?_
    refine .bind (built_emitTargetBindings importing) fun _ => ?_
    exact .bind (built_emitTargetBindings changing) fun _ => .pure _

theorem built_emitBindings : ∀ bindings : List Binding,
    (emitBindings bindings).Built (.guarding draws drains)
  | [] => .pure _
  | ⟨name, value⟩ :: rest => by
    rw [emitBindings]
    exact .bind (.named _ value.built) fun _ => .bind (built_emitBindings rest) fun _ => .pure _

theorem built_emitTargetBindings :
    ∀ bindings : List TargetBinding, (emitTargetBindings bindings).Built (.guarding draws drains)
  | [] => .pure _
  | ⟨name, target⟩ :: rest => by
    rw [emitTargetBindings]
    refine .bind (.named _ (target.built .write)) fun _ => ?_
    exact .bind (built_emitTargetBindings rest) fun _ => .pure _

end

theorem FieldChain.built_emitTarget (target : FieldChain) :
    target.emitTarget.Built (.guarding draws drains) :=
  target.built .write

/-- A call that stands as a statement has the effects of the call. -/
theorem MethodCall.built_emitStatement (call : MethodCall) :
    call.emitStatement.Built (.guarding draws drains) := by
  refine .bind call.built fun text => ?_
  split
  next receiving _ => exact .bind receiving.target.built_emitTarget fun _ => .pure _
  next => exact .pure _

theorem DynamicName.built_emitText (name : DynamicName) :
    name.emitText.Built (.guarding draws drains) := by
  cases name with
  | literal value => exact .pure _
  | field chain => exact .bind (chain.built .read) fun _ => .pure _

/-! ## Conditions -/

namespace Condition

theorem built_emitPredicate (operand : Source) (predicate : Predicate) (negated : Bool) :
    (emitPredicate operand predicate negated).Built (.guarding draws drains) :=
  .bind operand.built fun _ => .pure _

theorem built_emitWithin (operand range : Source) (negated : Bool) :
    (emitWithin operand range negated).Built (.guarding draws drains) :=
  .bind operand.built fun _ => .bind range.built fun _ => .pure _

theorem built_emitCompare (left : Source) (operator : CompareOperator) (right : Source) :
    (emitCompare left operator right).Built (.guarding draws drains) :=
  .bind left.built fun _ => .bind right.built fun _ => .pure _

end Condition

mutual

/-- Conditions are built like the operands in them. -/
theorem Condition.built : ∀ condition : Condition, condition.emit.Built (.guarding draws drains)
  | .compare left operator right => Condition.built_emitCompare left operator right
  | .predicate operand predicate negated => Condition.built_emitPredicate operand predicate negated
  | .within operand range negated => Condition.built_emitWithin operand range negated
  | .not (.predicate operand predicate negated) =>
    Condition.built_emitPredicate operand predicate (!negated)
  | .not (.within operand range negated) => Condition.built_emitWithin operand range (!negated)
  | .not (.compare left operator right) =>
    .bind (Condition.built_emitCompare left operator right) fun _ => .pure _
  | .not (.paren inner) => by
    rw [Condition.emit]
    exact .bind inner.built fun _ => .pure _
  | .not (.not inner) => by
    rw [Condition.emit]
    · exact .bind (Condition.not inner).built fun _ => .pure _
    all_goals simp
  | .not (.and items) => by
    rw [Condition.emit]
    · exact .bind (Condition.and items).built fun _ => .pure _
    all_goals simp
  | .not (.or items) => by
    rw [Condition.emit]
    · exact .bind (Condition.or items).built fun _ => .pure _
    all_goals simp
  | .not (.unsupported name text span) => .bind (.fail _) fun _ => .pure _
  | .and items => by
    rw [Condition.emit]
    exact .bind (built_emitConjuncts items) fun _ => .pure _
  | .or items => by
    rw [Condition.emit]
    exact .bind (built_emitDisjuncts items) fun _ => .pure _
  | .paren inner => by
    rw [Condition.emit]
    exact .bind inner.built fun _ => .pure _
  | .unsupported name text span => .fail _

theorem built_emitConjuncts : ∀ items : List Condition,
    (emitConjuncts items).Built (.guarding draws drains)
  | [] => .pure _
  | item :: rest => by
    rw [emitConjuncts]
    exact .bind item.built fun _ => .bind (built_emitConjuncts rest) fun _ => .pure _

theorem built_emitDisjuncts : ∀ items : List Condition,
    (emitDisjuncts items).Built (.guarding draws drains)
  | [] => .pure _
  | item :: rest => by
    rw [emitDisjuncts]
    exact .bind item.built fun _ => .bind (built_emitDisjuncts rest) fun _ => .pure _

end

/-- A filter of rows is emitted like a condition; no guard is taken from the queue for it. -/
theorem Condition.built_emitRowFilter (condition : Condition) :
    condition.emitRowFilter.Built (.guarding draws drains) :=
  .bind condition.built fun _ => .pure _

end

end AbapLowering
