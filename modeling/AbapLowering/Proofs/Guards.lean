import AbapLowering.Lowering
import AbapLowering.Proofs.Guards.Sites
import AbapLowering.Proofs.Guards.Tree

/-!
# Guards

What becomes of the guards of names that are only known at run time.

- `Rendering`: what is emitted within a statement, and statements. Each adds the lines of guards to
  the queue, whatever waits there and whether it succeeds or fails (`Rendering.exists_guards`). Only
  a statement whose condition is evaluated again and again empties the queue, once the condition is
  there (`Rendering.drained`);
- `MethodCall.meetsGuard_class`, `MethodCall.meetsGuard_method` and
  `Invocation.meetsGuard_createdClass`: the three places where emitting meets a guard;
- `Guard.queued_and_woven`: all that is promised of guards: their pairs of lines, the order within a
  call, where the lines get to in the code of a node, and that a guard without its exception class
  is never queued.
-/

namespace AbapLowering

open Emit (MeetsGuard)

/-- The state that emitting leaves behind, whether it succeeds or fails. -/
def Emit.leaving {α : Type} (m : Emit α) (context : Context) (s : EmissionState) : EmissionState :=
  match m context s with
  | .ok _ t | .error _ t => t

theorem Emit.AppendsLines.hoisted_leaving {α : Type} {m : Emit α} {context : Context}
    {s : EmissionState} {guards : List Guard} (h : AppendsLines guards m context s)
    (queue : List String) :
    (m.leaving context (s.withQueue queue)).hoisted = queue ++ Guard.linesOf guards := by
  rw [leaving, h queue]
  cases m context s <;> rfl

/-- What is emitted within a statement, and a statement itself. -/
inductive Rendering where
  | source (operand : Source)
  | condition (test : Condition)
  | chain (operand : FieldChain) (access : Access)
  | call (method : MethodCall)
  | statement (node : StatementNode)

namespace Rendering

variable {context : Context} {s t : EmissionState}

/-- The code. -/
def emit : Rendering → Emit String
  | source operand => operand.emit
  | condition test => test.emit
  | chain operand access => operand.emit access
  | call method => method.emit
  | statement node => node.emit

/-- The condition that the queue is folded into. -/
def guardedCondition? : Rendering → Option Condition
  | statement node => node.statement.guardedCondition?
  | _ => none

/-- The lines that are taken from the queue meanwhile: all that wait when a condition that they are
folded into is there. -/
def drained (r : Rendering) (context : Context) (s : EmissionState) : List String :=
  match r.guardedCondition? with
  | some test => match test.emit context s with
    | .ok _ t => t.hoisted
    | .error _ _ => []
  | none => []

theorem drained_of_none {r : Rendering} (h : r.guardedCondition? = none) (context : Context)
    (s : EmissionState) : r.drained context s = [] := by
  rw [drained, h]

/-- The sites of guards, but for statements. -/
def guardSites? : Rendering → Option (List GuardSite)
  | source operand => some operand.guardSites
  | condition test => some test.guardSites
  | chain operand _ => some operand.guardSites
  | call method => some method.guardSites
  | statement _ => none

theorem queues_emit {r : Rendering} {sites : List GuardSite} (h : r.guardSites? = some sites)
    (context : Context) : r.emit.Queues context sites := by
  cases r with
  | source operand =>
    cases h
    exact operand.queues
  | condition test =>
    cases h
    exact test.queues
  | chain operand access =>
    cases h
    exact operand.queues access
  | call method =>
    cases h
    exact method.queues
  | statement node => cases h

/-- What is not folded into a condition adds the lines of guards. -/
theorem exists_appendsLines {r : Rendering} (h : r.guardedCondition? = none) (context : Context)
    (s : EmissionState) :
    ∃ guards, Emit.AppendsLines guards r.emit context s ∧ (∀ g ∈ guards, g.Allowed context) ∧
      ∀ sites ∈ r.guardSites?, Emit.GuardsFit context sites guards (r.emit context s) := by
  cases hsites : r.guardSites? with
  | some sites =>
    obtain ⟨guards, happends, hfit⟩ := queues_emit hsites context s
    exact ⟨guards, happends, hfit.allowed, by simpa using hfit⟩
  | none =>
    cases r with
    | statement node =>
      obtain ⟨guards, happends, hallowed⟩ := StatementNode.appends_emit h context s
      exact ⟨guards, happends, hallowed, by simp⟩
    | _ => cases hsites

/-- Once the condition is there nothing can fail any more. -/
theorem emit_of_guarded {r : Rendering} {test : Condition}
    (h : r.guardedCondition? = some test) :
    ∃ opening : String, r.emit = do
      let text ← test.emit
      return opening ++ (← Emit.guarded text) ++ ") \x7b" := by
  cases r with
  | statement node => exact ⟨_, StatementNode.emit_of_guarded h⟩
  | _ => cases h

/-- The lines of some guards follow what waited, on the way into a condition or in the queue. Of what
is no statement, these are the guards of its sites in order, or of the first of them. -/
theorem exists_guards (r : Rendering) (context : Context) (s : EmissionState) :
    ∃ guards : List Guard, (∀ g ∈ guards, g.Allowed context) ∧
      (∀ sites ∈ r.guardSites?, Emit.GuardsFit context sites guards (r.emit context s)) ∧
      ∀ queue, r.drained context (s.withQueue queue)
        ++ (r.emit.leaving context (s.withQueue queue)).hoisted = queue ++ Guard.linesOf guards := by
  cases hguarded : r.guardedCondition? with
  | none =>
    obtain ⟨guards, happends, hallowed, hfit⟩ := exists_appendsLines hguarded context s
    refine ⟨guards, hallowed, hfit, fun queue => ?_⟩
    rw [drained_of_none hguarded, List.nil_append, happends.hoisted_leaving]
  | some test =>
    obtain ⟨opening, hemit⟩ := emit_of_guarded hguarded
    obtain ⟨guards, happends, hallowed⟩ := test.appends_emit context s
    have hsites : r.guardSites? = none := by
      cases r with
      | statement node => rfl
      | _ => cases hguarded
    refine ⟨guards, hallowed, by simp [hsites], fun queue => ?_⟩
    rw [drained, hguarded, hemit, Emit.leaving]
    dsimp only
    cases hrun : test.emit context s with
    | ok text t =>
      -- all that waits is folded in, and nothing is left in the queue
      have hok := happends.ok hrun queue
      rw [Emit.bind_of_ok hok, Emit.bind_of_ok (Emit.guarded_eq text), hok]
      exact List.append_nil _
    | error why t =>
      rw [Emit.bind_apply, happends.error hrun queue]
      rfl

/-- What fails has taken nothing from the queue. -/
theorem drained_of_error {r : Rendering} {why : Abort}
    (h : r.emit context s = .error why t) : r.drained context s = [] := by
  cases hguarded : r.guardedCondition? with
  | none => exact drained_of_none hguarded context s
  | some test =>
    obtain ⟨opening, hemit⟩ := emit_of_guarded hguarded
    rw [drained, hguarded]
    dsimp only
    cases hrun : test.emit context s with
    | error why t => rfl
    | ok text t =>
      rw [hemit, Emit.bind_of_ok hrun, Emit.bind_of_ok (Emit.guarded_eq text)] at h
      cases h

/-- A rendering that meets a guard whose exception class is missing fails for this reason. It has
queued no guard with this exception class. -/
theorem stops {r : Rendering} {kind : GuardKind} {target : String}
    (h : MeetsGuard context kind target r.emit s t)
    (hcheck : context.config.checkFallbackExceptions = true)
    (hmissing : context.view.registry.contains kind.exception = false) :
    r.emit context s = .error (.error (.missingFallback kind.exception)) t ∧
      ∃ guards : List Guard, t.hoisted = s.hoisted ++ Guard.linesOf guards ∧
        ∀ g ∈ guards, g.kind.exception ≠ kind.exception := by
  have hstops := h.stops hcheck hmissing
  obtain ⟨guards, hallowed, -, hqueue⟩ := r.exists_guards context s
  refine ⟨hstops, guards, ?_, fun g hg hsame => ?_⟩
  · -- what fails has folded nothing in, so all guards are in the queue
    have hlines := hqueue s.hoisted
    rwa [EmissionState.withQueue_hoisted, drained_of_error hstops, Emit.leaving, hstops] at hlines
  · have hfound : context.view.registry.contains g.kind.exception = true := hallowed g hg hcheck
    rw [hsame, hmissing] at hfound
    cases hfound

end Rendering

/-! ## Where emitting meets guards -/

section

variable {context : Context} {s s' t : EmissionState} {target : String} {name : DynamicName}

theorem Receiver.meetsGuard (h : name.emitClass context s = .ok target t) :
    MeetsGuard context .classOfCall target (Receiver.dynamic name).emit s t := by
  rw [Receiver.emit]
  exact .beyond h (.within (.guard t))

theorem MethodRef.meetsGuard {base : String} (h : name.emitMethod base context s = .ok target t) :
    MeetsGuard context .methodOfCall target ((MethodRef.dynamic name).emit base) s t := by
  rw [MethodRef.emit]
  exact .beyond h (.within (.guard t))

/-- A call meets the guard of its class when the code of the class is there. -/
theorem MethodCall.meetsGuard_class (method : MethodRef) (parameters : CallParameters)
    (h : name.emitClass context s = .ok target t) :
    MeetsGuard context .classOfCall target
      (MethodCall.emit ⟨.dynamic name, method, parameters⟩) s t := by
  rw [MethodCall.emit]
  · exact .within (Receiver.meetsGuard h)
  · simp

/-- A call meets the guard of its method when the code of the method is there. -/
theorem MethodCall.meetsGuard_method {receiver : Receiver} {base : String}
    (parameters : CallParameters) (hbase : receiver.emit context s = .ok base s')
    (h : name.emitMethod base context s' = .ok target t) :
    MeetsGuard context .methodOfCall target
      (MethodCall.emit ⟨receiver, .dynamic name, parameters⟩) s t := by
  rw [MethodCall.emit]
  · exact .beyond hbase (.within (MethodRef.meetsGuard h))
  · simp

/-- CREATE OBJECT meets the guard of its class when the code of the class is there. -/
theorem Invocation.meetsGuard_createdClass (object : FieldChain) (parameters : List Binding)
    (h : name.emitClass context s = .ok target t) :
    MeetsGuard context .classToCreate target
      (createObject object (some (.dynamic name)) parameters) s t :=
  .within (.beyond h (.within (.guard t)))

end

/-! ## All guards -/

/-- What is promised of guards:

- a rendering adds pairs of lines to what waits in the queue, one for each of some guards, whether it
  succeeds or fails; what it took from the queue counts as well. But for statements these are the
  guards of its sites, in order;
- in a call the guards are those of what the method is called on, then those of the method, then
  those of the parameters, and the guard of a name is the last of those that the name needs. A call
  that fails has queued the first of them;
- a node that is emitted while nothing waits leaves nothing waiting, and its code is that of its
  parts. What a part emits for itself does not look at the queue, and the lines that are queued
  meanwhile are put once into its code;
- where exception classes are checked, a rendering that meets a guard whose exception class is
  unknown fails for this reason, and none of its lines is queued. -/
theorem Guard.queued_and_woven (context : Context) :
    (∀ (r : Rendering) (s : EmissionState), ∃ guards : List Guard,
      (∀ g ∈ guards, g.Allowed context) ∧
      (∀ sites ∈ r.guardSites?, Emit.GuardsFit context sites guards (r.emit context s)) ∧
      ∀ queue, r.drained context (s.withQueue queue)
        ++ (r.emit.leaving context (s.withQueue queue)).hoisted = queue ++ Guard.linesOf guards) ∧
    (∀ (receiver : Receiver) (method : MethodRef) (parameters : CallParameters) (s : EmissionState),
      let call : MethodCall := ⟨receiver, method, parameters⟩
      ∃ guards : List Guard,
        (call.emit.leaving context s).hoisted = s.hoisted ++ Guard.linesOf guards ∧
        Emit.GuardsFit context
          (receiver.guardSites ++ (method.guardSites ++ parameters.guardSites)) guards
          (call.emit context s)) ∧
    (∀ (node : Node) (s : EmissionState) (code : Code) (s' : EmissionState), s.hoisted = [] →
      node.emit context s = .ok code s' →
      s'.hoisted = [] ∧ TreePart.Runs context node.parts s code.text s') ∧
    (context.config.checkFallbackExceptions = true →
      ∀ (r : Rendering) (kind : GuardKind) (target : String) (s t : EmissionState),
      context.view.registry.contains kind.exception = false →
      MeetsGuard context kind target r.emit s t →
      r.emit context s = .error (.error (.missingFallback kind.exception)) t ∧
      ∃ guards : List Guard, t.hoisted = s.hoisted ++ Guard.linesOf guards ∧
        ∀ g ∈ guards, g.kind.exception ≠ kind.exception) := by
  refine ⟨fun r s => r.exists_guards context s, fun receiver method parameters s => ?_,
    fun node s code s' hs h => ?_, fun hcheck r kind target s t hmissing h =>
      Rendering.stops h hcheck hmissing⟩
  -- a call appends its guards to the queue
  · have hqueues : (MethodCall.emit ⟨receiver, method, parameters⟩).Queues context
        (MethodCall.guardSites ⟨receiver, method, parameters⟩) := MethodCall.queues _
    rw [MethodCall.guardSites] at hqueues
    obtain ⟨guards, happends, hfit⟩ := hqueues s
    have hlines := happends.hoisted_leaving s.hoisted
    rw [EmissionState.withQueue_hoisted] at hlines
    exact ⟨guards, hlines, hfit⟩
  -- the traversal writes what is queued, and leaves the queue empty
  · have hruns := node.weaves context s code s' hs h
    exact ⟨hruns.hoisted_eq_nil hs, hruns⟩

namespace SourceUnit

/-- A call of a method in parentheses of a class in parentheses. -/
def callingBar : MethodCall := ⟨.dynamic (.literal "zcl_foo"), .dynamic (.literal "bar"), .none⟩

/-- A loop with a class in parentheses in its condition, and with such a call in each round. -/
def callingInLoop : Node :=
  let condition : Condition :=
    .predicate (.call ⟨.dynamic (.literal "zcl_foo"), .named ⟨"baz", ⟨1, 19⟩⟩, .none⟩) .initial false
  .branch ⟨.whileLoop, [
    .leaf ⟨.whileTrue condition, ⟨⟨1, 1⟩, ⟨1, 39⟩⟩, "WHILE ('zcl_foo')=>baz( ) IS INITIAL."⟩,
    .leaf ⟨.call callingBar, ⟨⟨2, 1⟩, ⟨2, 34⟩⟩, "CALL METHOD ('zcl_foo')=>('bar')."⟩,
    .leaf ⟨.endBlock .whileBlock, ⟨⟨3, 1⟩, ⟨3, 10⟩⟩, "ENDWHILE."⟩], ⟨⟨1, 1⟩, ⟨3, 10⟩⟩⟩

/-- A program that is this loop. -/
def loopingDynamically : SourceUnit :=
  { file := "zfoo.prog.abap"
    object := ⟨.prog, "ZFOO"⟩
    root := ⟨.program, [callingInLoop], ⟨⟨1, 1⟩, ⟨3, 10⟩⟩⟩
    scopes := ⟨#[.fresh .program "zfoo" "zfoo.prog.abap" ⟨⟨1, 1⟩, ⟨9, 1⟩⟩ none]⟩ }

theorem guards_loopingDynamically :
    let context : Context := ⟨loopingDynamically.view .empty, .standard⟩
    let checked : Context :=
      ⟨loopingDynamically.view .empty, { Config.standard with checkFallbackExceptions := true }⟩
    (∃ code s', callingInLoop.emit context (.initial 0) = .ok code s' ∧ s'.hoisted = [] ∧
      TreePart.Runs context callingInLoop.parts (.initial 0) code.text s') ∧
    (checked.view.registry.contains GuardKind.classOfCall.exception = false ∧
      callingBar.emit checked (.initial 0) =
        .error (.error (.missingFallback "CX_SY_DYN_CALL_ILLEGAL_CLASS")) (.initial 0)) := by
  intro context checked
  obtain ⟨-, -, hnode, -⟩ := Guard.queued_and_woven context
  obtain ⟨-, -, -, hmissing⟩ := Guard.queued_and_woven checked
  obtain ⟨code, s', hemit⟩ : ∃ code s', callingInLoop.emit context (.initial 0) = .ok code s' :=
    ⟨_, _, rfl⟩
  have hunknown : checked.view.registry.contains GuardKind.classOfCall.exception = false := rfl
  have hmeets : MeetsGuard checked .classOfCall "abap.Classes['ZCL_FOO']"
      (Rendering.call callingBar).emit (.initial 0) (.initial 0) :=
    MethodCall.meetsGuard_class _ _ rfl
  exact ⟨⟨code, s', hemit, hnode _ _ _ _ rfl hemit⟩, hunknown,
    (hmissing rfl _ _ _ _ _ hunknown hmeets).1⟩

/-- The guard of the condition is run each time the condition is evaluated, those of the call just
ahead of it. -/
example :
    let foo : Guard := ⟨.classOfCall, "abap.Classes['ZCL_FOO']"⟩
    let bar : Guard := ⟨.methodOfCall, "abap.Classes['ZCL_FOO'].bar"⟩
    (loopingDynamically.lower { Config.standard with indent := false } .empty 0).1.toOption.map
      (·.code) = some ("while (" ++ Emit.guardCall foo.lines
        ++ "abap.compare.initial(await abap.Classes['ZCL_FOO'].baz())) \x7b\n"
        ++ Emit.endLines (Guard.linesOf [foo, bar])
        ++ "await abap.Classes['ZCL_FOO'].bar();\n\x7d\n") := by
  decide +kernel

end SourceUnit

end AbapLowering
