import AbapLowering.Proofs.Terms.Operand

/-!
# The code of conditions

Whether an `await` stands in the code of a condition, and which guards it queues, follows from its
calls alone (`Condition.writes`). An `await` stands in the lines of a guard iff one stands in what
the guard tests (`GuardLines.awaitingAll`).
-/

namespace AbapLowering

open Script
open Emit (Writes)

-- the theorems of a mutual block hand the names of the view on to each other
set_option linter.unusedSectionVars false

variable {v : View} {b c : Bool} {s t : String}

/-! ## Guards -/

/-- A guard awaits iff what it tests does. -/
theorem awaitingAll_lines (kind : GuardKind) {target : String} (h : Term .access b target) :
    AwaitingAll b (Guard.lines ⟨kind, target⟩) := by
  have hexception : Wording.strict.Word kind.exception := by cases kind <;> decide
  have haddress : Awaiting false (ClassKey.lookup kind.exception) := (Term.lookup hexception).found
  have htarget : Awaiting b ("if (" ++ target) := Awaiting.afterPlain "if (" h.found
  have hfallback : Awaiting b (Guard.fallbackCheck ⟨kind, target⟩) := by
    have hmessage : Awaiting false ("\"" ++ (kind.exception ++ " not found") ++ "\"") :=
      .text (show Quote.double ≠ .back by decide) (by cases kind <;> decide)
    have hthrow := ((hmessage.afterPlain " throw ").beforePlain "; ").braces
    have hline := (htarget.joined " === undefined && " haddress).joined " === undefined) " hthrow
    rw [Bool.or_false, Bool.or_false] at hline
    exact hline.of_eq (by simp [Guard.fallbackCheck, Guard.exceptionAddress])
  have htest : Awaiting b (Guard.targetCheck ⟨kind, target⟩) := by
    have hthrow := ((haddress.afterPlain " throw new ").beforePlain "(); ").braces
    have hline := htarget.joined " === undefined) " hthrow
    rw [Bool.or_false] at hline
    exact hline.of_eq (by simp [Guard.targetCheck, Guard.exceptionAddress])
  have hlines := AwaitingAll.cons hfallback (.cons htest .nil)
  rwa [Bool.or_false, Bool.or_self] at hlines

/-- The lines of guards have an `await` where the call they guard has one. -/
theorem GuardLines.awaitingAll {lines : List String} (h : GuardLines b lines) :
    AwaitingAll b lines := by
  induction h with
  | nil => exact .nil
  | guard kind _ htarget ih => exact ih.append (awaitingAll_lines kind htarget)

/-! ## Conditions -/

namespace Condition

/-- The call of a check. -/
theorem access_check (name : String) (h : Term .list b s) (hname : IsWord name := by decide) :
    Term .access b ("abap.compare." ++ name ++ "(" ++ s ++ ")") :=
  ((Term.runtime "compare").invoke name h hname).of_eq (by simp)

/-- A negation does not add an `await`. -/
theorem awaiting_negateIf (negated : Bool) (h : Awaiting b s) :
    Awaiting b (negateIf negated s) := by
  cases negated with
  | true => exact h.beforePlain " === false"
  | false => exact h

theorem awaiting_inParens (h : Awaiting b s) : Awaiting b (inParens s) :=
  (h.afterPlain "(").beforePlain ")"

end Condition

section

variable (hv : v.Named)

include hv

namespace Condition

/-- A predicate has an `await` if its operand has one. -/
theorem writes_emitPredicate {operand : Source} (h : operand.Named) (property : Predicate)
    (negated : Bool) : (emitPredicate operand property negated).Writes v (guardsAwait operand.calls)
      (Awaiting (awaits operand.calls)) := by
  refine (operand.writes hv h).map fun text htext => awaiting_negateIf negated ?_
  exact (access_check _ (.single htext.operand) (by cases property <;> decide)).found

theorem writes_emitWithin {operand range : Source} (hoperand : operand.Named)
    (hrange : range.Named) (negated : Bool) : (emitWithin operand range negated).Writes v
      (guardsAwait (operand.calls ++ range.calls))
      (Awaiting (awaits (operand.calls ++ range.calls))) := by
  rw [guardsAwait_append, awaits_append]
  refine .bind (operand.writes hv hoperand) fun first hfirst => (range.writes hv hrange).map
    fun second hsecond => awaiting_negateIf negated ?_
  have hlist := Term.more ", " hfirst.operand (.single hsecond.operand) (by simp)
  have hcheck := access_check "in" hlist
  exact (hcheck.of_eq (t := "abap.compare.in(" ++ first ++ ", " ++ second ++ ")") (by simp)).found

/-- A comparison has an `await` if one of its sides has one. -/
theorem writes_emitCompare {left right : Source} (hleft : left.Named) (hright : right.Named)
    (operator : CompareOperator) : (emitCompare left operator right).Writes v
      (guardsAwait (left.calls ++ right.calls))
      (Awaiting (awaits (left.calls ++ right.calls))) := by
  rw [guardsAwait_append, awaits_append]
  refine .bind (left.writes hv hleft) fun first hfirst => (right.writes hv hright).map
    fun second hsecond => ?_
  have hlist := Term.more ", " hfirst.operand (.single hsecond.operand) (by simp)
  have hcheck := access_check operator.name hlist (by cases operator <;> decide)
  exact (hcheck.of_eq (t := "abap.compare." ++ operator.name ++ "(" ++ first ++ ", " ++ second
    ++ ")") (by simp)).found

end Condition

open Condition

mutual

/-- A condition has an `await` iff there are calls in it. -/
theorem Condition.writes : ∀ condition : Condition, condition.Named →
    condition.emit.Writes v (guardsAwait condition.calls) (Awaiting (awaits condition.calls))
  | .compare _ operator _, ⟨hleft, hright⟩ => writes_emitCompare hv hleft hright operator
  | .predicate _ property negated, h => writes_emitPredicate hv h property negated
  | .within _ _ negated, ⟨hoperand, hrange⟩ => writes_emitWithin hv hoperand hrange negated
  -- a negation is taken into a predicate, and stands before all other items
  | .not (.predicate _ property negated), h => writes_emitPredicate hv h property (!negated)
  | .not (.within _ _ negated), ⟨hoperand, hrange⟩ =>
    writes_emitWithin hv hoperand hrange (!negated)
  | .not (.compare _ operator _), ⟨hleft, hright⟩ =>
    (writes_emitCompare hv hleft hright operator).map fun _ htext => htext.afterPlain "!"
  | .not (.paren inner), h => by
    rw [Condition.emit, Condition.calls, Condition.calls]
    exact (inner.writes h).map fun _ htext => (awaiting_inParens htext).afterPlain "!"
  | .not (.not inner), h => by
    rw [Condition.emit, Condition.calls]
    · exact ((Condition.not inner).writes h).map fun _ htext =>
        (awaiting_inParens htext).afterPlain "!"
    all_goals simp
  | .not (.and items), h => by
    rw [Condition.emit, Condition.calls]
    · exact ((Condition.and items).writes h).map fun _ htext =>
        (awaiting_inParens htext).afterPlain "!"
    all_goals simp
  | .not (.or items), h => by
    rw [Condition.emit, Condition.calls]
    · exact ((Condition.or items).writes h).map fun _ htext =>
        (awaiting_inParens htext).afterPlain "!"
    all_goals simp
  | .not (.unsupported name text span), _ =>
    .after (P := fun _ => False) (.fail _) fun _ h => h.elim
  | .and items, h => by
    rw [Condition.emit, Condition.calls]
    exact (writes_emitConjuncts items h).map fun _ htexts => htexts.intercalate " && "
  | .or items, h => by
    rw [Condition.emit, Condition.calls]
    exact (writes_emitDisjuncts items h).map fun _ htexts => htexts.intercalate " || "
  | .paren inner, h => by
    rw [Condition.emit, Condition.calls]
    exact (inner.writes h).map fun _ htext => awaiting_inParens htext
  | .unsupported name text span, _ => .fail _

/-- Conditions that all have to hold. -/
theorem writes_emitConjuncts : ∀ items : List Condition, conditionsNamed items →
    (emitConjuncts items).Writes v (guardsAwait (callsOfConditions items))
      (AwaitingAll (awaits (callsOfConditions items)))
  | [], _ => .pure .nil
  | item :: rest, ⟨hitem, hrest⟩ => by
    rw [emitConjuncts, callsOfConditions, guardsAwait_append, awaits_append]
    refine .bind (item.writes hitem) fun text htext => ?_
    refine (writes_emitConjuncts rest hrest).map fun texts htexts => .cons ?_ htexts
    split
    · exact awaiting_inParens htext
    · exact htext

theorem writes_emitDisjuncts : ∀ items : List Condition, conditionsNamed items →
    (emitDisjuncts items).Writes v (guardsAwait (callsOfConditions items))
      (AwaitingAll (awaits (callsOfConditions items)))
  | [], _ => .pure .nil
  | item :: rest, ⟨hitem, hrest⟩ => by
    rw [emitDisjuncts, callsOfConditions, guardsAwait_append, awaits_append]
    exact .bind (item.writes hitem) fun _ htext =>
      (writes_emitDisjuncts rest hrest).map fun _ htexts => .cons htext htexts

end

end

end AbapLowering
