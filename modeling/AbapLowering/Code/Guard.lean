import AbapLowering.Code.Identifier

/-!
# Guards of dynamic names

A class or method that is named at run time may not exist. A guard is a pair of lines that run before
the name is used: the first stops with a plain text if there is not even an exception class to raise,
the second raises the exception.
-/

namespace AbapLowering

/-- What is named at run time, and by which statement. -/
inductive GuardKind where
  | classOfCall
  | methodOfCall
  | classToCreate
  deriving DecidableEq

/-- The exception class raised when the name means nothing. -/
def GuardKind.exception : GuardKind → String
  | .classOfCall => "CX_SY_DYN_CALL_ILLEGAL_CLASS"
  | .methodOfCall => "CX_SY_DYN_CALL_ILLEGAL_METHOD"
  | .classToCreate => "CX_SY_CREATE_OBJECT_ERROR"

/-- A check that what is named at run time exists. -/
structure Guard where
  kind : GuardKind
  /-- An expression that is undefined if the name means nothing. -/
  target : String

namespace Guard

/-- The address of the exception class. -/
def exceptionAddress (g : Guard) : String := ClassKey.lookup g.kind.exception

/-- Stops if neither the target nor the exception class exists. -/
def fallbackCheck (g : Guard) : String :=
  "if (" ++ g.target ++ " === undefined && " ++ g.exceptionAddress ++ " === undefined) \x7b throw \""
    ++ g.kind.exception ++ " not found\"; \x7d"

/-- Raises the exception if the target does not exist. -/
def targetCheck (g : Guard) : String :=
  "if (" ++ g.target ++ " === undefined) \x7b throw new " ++ g.exceptionAddress ++ "(); \x7d"

/-- The lines of a guard. -/
def lines (g : Guard) : List String := [g.fallbackCheck, g.targetCheck]

/-- The lines of a guard as text. -/
def text (g : Guard) : String := g.fallbackCheck ++ "\n" ++ g.targetCheck

end Guard

end AbapLowering
