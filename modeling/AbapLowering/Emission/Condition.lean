import AbapLowering.Emission.Operand

/-!
# Conditions

The text of logical expressions. A condition under `NOT` is negated as a whole, but where the operand
of the negation can itself be negated, that is done instead.
-/

namespace AbapLowering

namespace Condition

/-- A check that is negated if asked to. -/
def negateIf (negated : Bool) (check : String) : String :=
  if negated then check ++ " === false" else check

/-- A property of an operand. -/
def emitPredicate (operand : Source) (predicate : Predicate) (negated : Bool) : Emit String :=
  return negateIf negated
    ("abap.compare." ++ predicate.name ++ "(" ++ (← operand.emit) ++ ")")

/-- Membership of an operand in a ranges table. -/
def emitWithin (operand range : Source) (negated : Bool) : Emit String := do
  let first ← operand.emit
  let second ← range.emit
  return negateIf negated ("abap.compare.in(" ++ first ++ ", " ++ second ++ ")")

/-- A comparison of two operands. -/
def emitCompare (left : Source) (operator : CompareOperator) (right : Source) : Emit String := do
  let first ← left.emit
  let second ← right.emit
  return "abap.compare." ++ operator.name ++ "(" ++ first ++ ", " ++ second ++ ")"

/-- Whether a condition is a disjunction, which binds weaker than a conjunction. -/
def isDisjunction : Condition → Bool
  | .or _ => true
  | _ => false

/-- A text in parentheses. -/
def inParens (text : String) : String := "(" ++ text ++ ")"

end Condition

mutual

/-- A condition. -/
def Condition.emit : Condition → Emit String
  | .compare left operator right => Condition.emitCompare left operator right
  | .predicate operand predicate negated => Condition.emitPredicate operand predicate negated
  | .within operand range negated => Condition.emitWithin operand range negated
  | .not (.predicate operand predicate negated) =>
    Condition.emitPredicate operand predicate (!negated)
  | .not (.within operand range negated) => Condition.emitWithin operand range (!negated)
  | .not (.compare left operator right) =>
    return "!" ++ (← Condition.emitCompare left operator right)
  | .not (.paren inner) => return "!" ++ Condition.inParens (← inner.emit)
  | .not inner => return "!" ++ Condition.inParens (← inner.emit)
  | .and items => return " && ".intercalate (← emitConjuncts items)
  | .or items => return " || ".intercalate (← emitDisjuncts items)
  | .paren inner => return Condition.inParens (← inner.emit)
  | .unsupported name text span => Emit.fail (.unsupported name text span)

/-- The items of a conjunction, disjunctions among them in parentheses. -/
def emitConjuncts : List Condition → Emit (List String)
  | [] => return []
  | item :: rest => do
    let text ← item.emit
    let first := if item.isDisjunction then Condition.inParens text else text
    return first :: (← emitConjuncts rest)

/-- The items of a disjunction. -/
def emitDisjuncts : List Condition → Emit (List String)
  | [] => return []
  | item :: rest => do
    let first ← item.emit
    return first :: (← emitDisjuncts rest)

end

/-- A condition on the rows of a table, as a function of the row. -/
def Condition.emitRowFilter (condition : Condition) : Emit String :=
  return "(i) => \x7breturn " ++ (← condition.emit) ++ ";\x7d"

end AbapLowering
