import AbapLowering.Emission.Tree
import AbapLowering.Lowering
import AbapLowering.Proofs.Terms.Condition

/-!
# Functions that await

The code of a condition on rows is a function of the row, and guards that have to run each time a
condition is evaluated are put into a function that is called on the spot. Neither of them is async,
although calls are awaited. So the code is sound just where no call gets into such a function:

- `Condition.rowFunction`: a condition on rows has no call in it;
- `Emit.guardFunction`: no guard of the condition has a call in its target (`guardsAwait`), which it
  has where a class or method is named by the result of a call, or is called on one.

`functions_sound_iff` says so for all conditions and for all places where guards are folded.
-/

namespace AbapLowering

open Script
open Emit (Writes)

variable {v : View} {b g : Bool} {config : Config} {s s' : EmissionState} {code : String}

/-! ## Functions -/

/-- A function without a name, in emitted code. -/
structure Arrow where
  isAsync : Bool
  parameter : String
  body : String

namespace Arrow

/-- The code of a function. -/
def text (f : Arrow) : String :=
  (if f.isAsync then "async " else "") ++ "(" ++ f.parameter ++ ") => \x7b" ++ f.body ++ "\x7d"

/-- Only an async function awaits. -/
def IsSound (f : Arrow) : Prop := f.isAsync = true ∨ ¬ HasAwait f.body

instance (f : Arrow) : Decidable f.IsSound := inferInstanceAs (Decidable (_ ∨ _))

/-- A function that is not async is sound if there is no `await` in it. -/
theorem isSound_iff {f : Arrow} (hasync : f.isAsync = false) (h : Awaiting b f.body) :
    f.IsSound ↔ b = false := by
  rw [IsSound, hasync, h.iff]
  simp

end Arrow

/-! ## Conditions on rows -/

namespace Condition

/-- The function that a condition on rows makes of its code. -/
def rowFunction (text : String) : Arrow := ⟨false, "i", "return " ++ text ++ ";"⟩

/-- A filter of rows is a function around its condition. -/
theorem exists_of_emitRowFilter {condition : Condition} {context : Context}
    (h : condition.emitRowFilter context s = .ok code s') :
    ∃ text, condition.emit context s = .ok text s' ∧ code = (rowFunction text).text := by
  obtain ⟨text, _, htext, h⟩ := Emit.bind_eq_ok h
  cases h
  exact ⟨text, htext, String.toList_inj.mp (by simp [rowFunction, Arrow.text])⟩

/-- The function of a row is sound iff the condition has no call in it. -/
theorem isSound_rowFunction {condition : Condition} {text : String}
    (h : Awaiting (awaits condition.calls) text) :
    (rowFunction text).IsSound ↔ condition.calls = [] := by
  have hbody : Awaiting (awaits condition.calls) (rowFunction text).body :=
    (h.afterPlain "return ").beforePlain ";"
  rw [Arrow.isSound_iff rfl hbody, awaits_eq_false_iff]

end Condition

/-! ## Guards of conditions -/

namespace Emit

/-- The function that guards are put into. -/
def guardFunction (lines : List String) : Arrow := ⟨false, "", " " ++ " ".intercalate lines ++ " "⟩

/-- The call of the function that guards are put into, if there are any. -/
def guardCall (lines : List String) : String :=
  if lines.isEmpty then "" else "(" ++ (guardFunction lines).text ++ ")(), "

/-- Guards are called before the condition. -/
theorem guarded_eq (condition : String) {context : Context} :
    guarded condition context s =
      .ok (guardCall s.hoisted ++ condition) { s with hoisted := [] } := by
  rw [guarded_apply, guardCall]
  split
  · rw [String.empty_append]
  · congr 1
    exact String.toList_inj.mp (by simp [guardFunction, Arrow.text])

/-- The function of guards is sound iff no guard has an `await` in its target. -/
theorem isSound_guardFunction {lines : List String} (h : GuardLines g lines) :
    (guardFunction lines).IsSound ↔ g = false :=
  Arrow.isSound_iff rfl (((h.awaitingAll.intercalate " ").afterPlain " ").beforePlain " ")

end Emit

/-! ## Conditions that are evaluated again and again -/

/-- A condition in front of which guards are run each time it is evaluated. -/
inductive GuardedTest where
  | elseIf (condition : Condition)
  | whileTrue (condition : Condition)
  /-- A branch of a CASE but the first, whose operand is in the `n`th temporary. -/
  | whenOneOf (n : Nat) (values : List Source) (span : Span) (text : String)

namespace GuardedTest

/-- The condition. -/
def emitCondition : GuardedTest → Emit String
  | elseIf condition | whileTrue condition => condition.emit
  | whenOneOf n values _ _ => do
    let checks ← values.mapM fun value => do
      return "abap.compare.eq(" ++ Identifier.temporary n ++ ", " ++ (← value.emit) ++ ")"
    return " || ".intercalate checks

/-- The line that the condition stands in. -/
def emit : GuardedTest → Emit String
  | elseIf condition => Flow.elseIf condition
  | whileTrue condition => Flow.whileTrue condition
  | whenOneOf n values span text => do
    StructureNode.branchLine false
      (← StructureNode.whenCondition (Identifier.temporary n) ⟨.whenOneOf values, span, text⟩)

/-- What stands before the condition and its guards. -/
def opening : GuardedTest → String
  | elseIf _ | whenOneOf _ _ _ _ => "\x7d else if ("
  | whileTrue _ => "while ("

/-- What stands after the condition. -/
def closing : GuardedTest → String
  | elseIf _ | whileTrue _ => ") \x7b"
  | whenOneOf _ _ _ _ => ") \x7b\n"

/-- The names of the operands. -/
def Named : GuardedTest → Prop
  | elseIf condition | whileTrue condition => condition.Named
  | whenOneOf _ values _ _ => ∀ value ∈ values, value.Named

/-- The calls in the code of the condition. -/
def calls : GuardedTest → List MethodCall
  | elseIf condition | whileTrue condition => condition.calls
  | whenOneOf _ values _ _ => values.flatMap Source.calls

theorem emit_eq (test : GuardedTest) :
    test.emit = do
      return test.opening ++ (← Emit.guarded (← test.emitCondition)) ++ test.closing := by
  cases test with
  | elseIf | whileTrue => rfl
  | whenOneOf n values span text =>
    simp [emit, emitCondition, StructureNode.whenCondition, StructureNode.branchLine, opening,
      closing]

theorem writes (hv : v.Named) {test : GuardedTest} (h : test.Named) :
    test.emitCondition.Writes v (guardsAwait test.calls) fun _ => True := by
  cases test with
  | elseIf condition | whileTrue condition => exact (condition.writes hv h).mono fun _ _ => trivial
  | whenOneOf n values span text =>
    have hvalue : ∀ value ∈ values, Writes v (guardsAwait value.calls) (do
        return "abap.compare.eq(" ++ Identifier.temporary n ++ ", " ++ (← value.emit) ++ ")")
        fun _ => True := fun value hmem => (value.writes hv (h value hmem)).map fun _ _ => trivial
    exact (Writes.mapM hvalue).map fun _ _ => trivial

theorem exists_of_emit {test : GuardedTest} {context : Context}
    (h : test.emit context s = .ok code s') :
    ∃ text s₁, test.emitCondition context s = .ok text s₁ ∧
      code = test.opening ++ (Emit.guardCall s₁.hoisted ++ text) ++ test.closing := by
  rw [emit_eq] at h
  obtain ⟨text, s₁, htext, h⟩ := Emit.bind_eq_ok h
  rw [Emit.bind_of_ok (Emit.guarded_eq text)] at h
  cases h
  exact ⟨text, s₁, htext, rfl⟩

end GuardedTest

/-! ## All functions -/

/-- Conditions on rows and guards of conditions come to functions that are not async. The function
of a row is sound iff the condition has no call in it. Where guards that wait already, and those of
the condition itself, are folded into a function, it is sound iff no target of a guard has a call
in it. -/
theorem functions_sound_iff (hv : v.Named) :
    (∀ condition : Condition, condition.Named → ∀ config s code s',
      condition.emitRowFilter ⟨v, config⟩ s = .ok code s' →
      ∃ text, condition.emit ⟨v, config⟩ s = .ok text s' ∧
        code = (Condition.rowFunction text).text ∧
        ((Condition.rowFunction text).IsSound ↔ condition.calls = [])) ∧
    (∀ test : GuardedTest, test.Named → ∀ g config s code s', GuardLines g s.hoisted →
      test.emit ⟨v, config⟩ s = .ok code s' →
      ∃ text s₁, test.emitCondition ⟨v, config⟩ s = .ok text s₁ ∧
        code = test.opening ++ (Emit.guardCall s₁.hoisted ++ text) ++ test.closing ∧
        ((Emit.guardFunction s₁.hoisted).IsSound ↔
          g = false ∧ guardsAwait test.calls = false)) := by
  refine ⟨fun condition h config s code s' hemit => ?_,
    fun test h g config s code s' hwaiting hemit => ?_⟩
  · obtain ⟨text, htext, hcode⟩ := Condition.exists_of_emitRowFilter hemit
    exact ⟨text, htext, hcode,
      Condition.isSound_rowFunction (condition.writes hv h _ _ _ _ htext).1⟩
  · obtain ⟨text, s₁, htext, hcode⟩ := GuardedTest.exists_of_emit hemit
    obtain ⟨-, lines, hlines, hguards⟩ := GuardedTest.writes hv h _ _ _ _ htext
    refine ⟨text, s₁, htext, hcode, ?_⟩
    -- the guards of the condition are queued after those that wait already
    rw [hlines, Emit.isSound_guardFunction (hwaiting.append hguards), Bool.or_eq_false_iff]

namespace SourceUnit

/-- A condition on rows that compares a component with the result of a method. -/
def comparingResult : Condition :=
  .compare (.component [⟨"field", ⟨1, 23⟩⟩]) .eq (.call ⟨.implicit, .named ⟨"foo", ⟨1, 31⟩⟩, .none⟩)

/-- A branch whose condition calls a method of the class that the result of a method names. -/
def namingClass : GuardedTest :=
  let name : MethodCall := ⟨.implicit, .named ⟨"foo", ⟨1, 9⟩⟩, .none⟩
  .elseIf (.predicate (.call ⟨.dynamic (.field ⟨.call name, [], none, none⟩),
    .named ⟨"bar", ⟨1, 17⟩⟩, .none⟩) .initial false)

/-- A program that deletes the rows in which a component equals the result of a method. -/
def filteringByResult : SourceUnit :=
  let delete : StatementNode :=
    ⟨.deleteInternal (.ofField ⟨"lt_tab", ⟨1, 8⟩⟩) (some comparingResult) false none none,
      ⟨⟨1, 1⟩, ⟨1, 37⟩⟩, "DELETE lt_tab WHERE field = foo( )."⟩
  { file := "zfoo.prog.abap"
    object := ⟨.prog, "ZFOO"⟩
    root := ⟨.program, [.leaf delete], ⟨⟨1, 1⟩, ⟨1, 37⟩⟩⟩
    scopes := ⟨#[.fresh .program "zfoo" "zfoo.prog.abap" ⟨⟨1, 1⟩, ⟨9, 1⟩⟩ none]⟩ }

theorem named_filteringByResult : (filteringByResult.view .empty).Named :=
  View.named_of_program rfl rfl

/-- The condition compares the result of a call. -/
theorem named_comparingResult : comparingResult.Named := by
  have hcomponent : ∀ name ∈ [(⟨"field", ⟨1, 23⟩⟩ : Token)],
      IsWord (Identifier.plain name.text) := by decide +kernel
  have hmethod : IsWord (Identifier.plain "foo") := by decide +kernel
  exact ⟨hcomponent, trivial, hmethod, trivial, trivial, trivial⟩

theorem named_namingClass : namingClass.Named := by
  have hname : IsWord (Identifier.plain "foo") := by decide +kernel
  have hmethod : IsWord (Identifier.plain "bar") := by decide +kernel
  exact ⟨⟨⟨trivial, hname, trivial, trivial, trivial⟩, nofun, trivial, trivial⟩, hmethod, trivial,
    trivial, trivial⟩

/-- Neither function is sound. -/
theorem not_sound_filteringByResult :
    let context : Context := ⟨filteringByResult.view .empty, .standard⟩
    (∃ text s', comparingResult.emitRowFilter context (.initial 0) =
        .ok (Condition.rowFunction text).text s' ∧ ¬ (Condition.rowFunction text).IsSound) ∧
      ∃ (text : String) (s₁ s' : EmissionState), namingClass.emit context (.initial 0) =
          .ok ("\x7d else if (" ++ (Emit.guardCall s₁.hoisted ++ text) ++ ") \x7b") s' ∧
        ¬ (Emit.guardFunction s₁.hoisted).IsSound := by
  intro context
  obtain ⟨hrows, htests⟩ := functions_sound_iff named_filteringByResult
  constructor
  · obtain ⟨code, s', hemit⟩ : ∃ code s',
        comparingResult.emitRowFilter context (.initial 0) = .ok code s' := ⟨_, _, rfl⟩
    obtain ⟨text, -, rfl, hsound⟩ := hrows _ named_comparingResult _ _ _ _ hemit
    exact ⟨text, s', hemit, fun h => absurd (hsound.mp h) nofun⟩
  · obtain ⟨code, s', hemit⟩ : ∃ code s',
        namingClass.emit context (.initial 0) = .ok code s' := ⟨_, _, rfl⟩
    obtain ⟨text, s₁, -, rfl, hsound⟩ := htests _ named_namingClass _ _ _ _ _ .nil hemit
    exact ⟨text, s₁, s', hemit, fun h => absurd (hsound.mp h).2 (by decide)⟩

/-- The function awaits and is not declared async. -/
theorem lower_filteringByResult :
    (filteringByResult.lower .standard .empty 0).1.toOption.map (·.code) =
        some ("abap.statements.deleteInternal(lt_tab,\x7bwhere: "
          ++ (Condition.rowFunction "abap.compare.eq(i.field, await this.foo())").text
          ++ "\x7d);\n") ∧
      ¬ (Condition.rowFunction "abap.compare.eq(i.field, await this.foo())").IsSound := by
  constructor <;> decide +kernel

end SourceUnit

end AbapLowering
