import AbapLowering.DataType
import AbapLowering.Scope.Graph

/-!
# Why lowering stops

A unit is lowered completely or not at all. What stops it is either a fault of the input that has a
wording of its own, or a walk through a scope graph whose links lead nowhere.
-/

namespace AbapLowering

/-- Whether a class or an interface was looked for. -/
inductive DefinitionKind where
  | classLike
  | interfaceLike
  deriving DecidableEq

/-- The marker of a definition that was not found. -/
def DefinitionKind.marker : DefinitionKind → String
  | .classLike => "ERROR_CDEF_NOT_FOUND"
  | .interfaceLike => "ERROR_IDEF_NOT_FOUND"

/-- A fault of the input. -/
inductive LoweringError where
  /-- There is nothing a construct could be lowered to where it stands. -/
  | unsupported (kind text : String) (span : Span)
  | scopeNotFound (context file : String) (position : Position)
  | unresolved (wanted : DefinitionKind) (name : String)
  /-- The exception class that a dynamic call falls back to is unknown. -/
  | missingFallback (className : String)
  | unknownType (name reason : String)
  | invalidGraph (error : GraphError)
  deriving DecidableEq

/-- The wording of a fault. -/
def LoweringError.message : LoweringError → String
  | .unsupported kind text span => kind ++ " not supported, " ++ text ++ " (" ++ span.text ++ ")"
  | .scopeNotFound context file position =>
    "ERROR_SCOPE_NOT_FOUND: " ++ context ++ ", unable to lookup position " ++ position.text
      ++ " in " ++ file
  | .unresolved wanted name => wanted.marker ++ ": " ++ name
  | .missingFallback className =>
    "dynamic call fallback exception " ++ className ++ " is not registered"
  | .unknownType name reason => "unknown type " ++ name ++ ": " ++ reason
  | .invalidGraph error => "invalid scope graph: " ++ error.message

/-- Why lowering stops. -/
inductive Abort where
  | error (error : LoweringError)
  | fault (fault : GraphFault)
  deriving DecidableEq

end AbapLowering
