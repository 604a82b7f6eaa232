import AbapLowering.Emission.Operand
import AbapLowering.Statement

/-!
# Character processing

Statements that put texts together, take them apart, search and change them, and those that look at
or set single bits of byte strings.
-/

namespace AbapLowering

namespace CharacterProcessing

/-- CONCATENATE. -/
def concatenate (sources : List Source) (target : FieldChain) (separatedBy : Option Source)
    (lines : Bool) : Emit String := do
  let values ← sources.mapM Source.emit
  let result ← target.emitTarget
  let separator ← Emit.namedIfGiven "separatedBy" separatedBy Source.emit
  return runtimeCall "concatenate" (braced ", "
    (["source: [" ++ ", ".intercalate values ++ "]", "target: " ++ result] ++ separator
      ++ partIf lines "lines: true"))

/-- Where the pieces of a split go. -/
def splitTarget : SplitInto → Emit String
  | .table target => return "table: " ++ (← target.emitTarget)
  | .targets targets =>
    return "targets: [" ++ ",".intercalate (← targets.mapM FieldChain.emitTarget) ++ "]"

/-- SPLIT. -/
def split (source separator : Source) (into : SplitInto) : Emit String := do
  let value ← source.emit
  let separator ← separator.emit
  let target ← splitTarget into
  return runtimeCall "split" (braced ", " ["source: " ++ value, "at: " ++ separator, target])

/-- REPLACE. -/
def replace (target : FieldChain) (all : Bool) (pattern replacement : Source) : Emit String := do
  let target ← target.emitTarget
  let pattern ← pattern.emit
  let replacement ← replacement.emit
  return runtimeCall "replace" (", ".intercalate [target, toString all, pattern, replacement])

/-- CONDENSE. -/
def condense (target : FieldChain) (noGaps : Bool) : Emit String :=
  return runtimeCall "condense"
    ((← target.emitTarget) ++ ", \x7bnogaps: " ++ toString noGaps ++ "\x7d")

/-- What is looked for. -/
def pattern : FindPattern → Emit String
  | .substring source => return "find: " ++ (← source.emit)
  | .regex source => return "regex: " ++ (← source.emit)

/-- FIND, with what it finds out. -/
def find (wanted : FindPattern) (within : Source) (first : Bool)
    (count offset length : Option FieldChain) (submatches : List FieldChain) : Emit String := do
  let text ← within.emit
  let wanted ← pattern wanted
  let count ← Emit.namedIfGiven "count" count FieldChain.emitTarget
  let offset ← Emit.namedIfGiven "offset" offset FieldChain.emitTarget
  let length ← Emit.namedIfGiven "length" length FieldChain.emitTarget
  let submatches ← Emit.namedListIfAny "submatches" "," submatches FieldChain.emitTarget
  return runtimeCall "find" (text ++ ", " ++ braced ", "
    ([wanted] ++ partIf first "first: true" ++ count ++ offset ++ length ++ submatches))

/-- The keyword of a direction. -/
def directionKeyword : ShiftDirection → String
  | .left => "LEFT"
  | .right => "RIGHT"

/-- How far to shift. -/
def shiftDistance : ShiftMode → Emit (List String)
  | .single => return []
  | .places source => return ["places: " ++ (← source.emit)]
  | .upTo source => return ["to: " ++ (← source.emit)]
  | .deletingLeading source => return ["deletingLeading: " ++ (← source.emit)]
  | .deletingTrailing source => return ["deletingTrailing: " ++ (← source.emit)]

/-- SHIFT. -/
def shift (target : FieldChain) (direction : ShiftDirection) (mode : ShiftMode)
    (circular byteMode : Bool) : Emit String := do
  let distance ← shiftDistance mode
  let target ← target.emitTarget
  return runtimeCall "shift" (target ++ ", " ++ braced ","
    (["direction: '" ++ directionKeyword direction ++ "'"] ++ distance
      ++ partIf circular "circular: true" ++ partIf byteMode "mode: 'BYTE'"))

/-- TRANSLATE. -/
def translate (target : FieldChain) (rule : TranslateRule) : Emit String := do
  let target ← target.emitTarget
  let argument ← match rule with
    | .upper => pure "\"UPPER\""
    | .lower => pure "\"LOWER\""
    | .using mask => mask.emit
  return runtimeCall "translate" (target ++ ", " ++ argument)

/-- The unit of a length. -/
def lengthMode : Option DescribeMode → List String
  | none => []
  | some .character => ["mode: 'CHARACTER'"]
  | some .byte => ["mode: 'BYTE'"]

/-- DESCRIBE FIELD. -/
def describe (field : Source) (typeTarget length : Option FieldChain)
    (mode : Option DescribeMode) : Emit String := do
  let field ← field.emit
  let type ← Emit.namedIfGiven "type" typeTarget FieldChain.emitTarget
  let length ← Emit.namedIfGiven "length" length FieldChain.emitTarget
  return runtimeCall "describe"
    (braced ", " (["field: " ++ field] ++ type ++ length ++ lengthMode mode))

/-- SET BIT; without a value the bit is set to one. -/
def setBit (position : Source) (target : FieldChain) (value : Option Source) : Emit String := do
  let position ← position.emit
  let target ← target.emitTarget
  match value with
  | none => return runtimeCall "setBit" (position ++ ", " ++ target)
  | some value => return runtimeCall "setBit" (position ++ ", " ++ target ++ ", " ++ (← value.emit))

/-- GET BIT. -/
def getBit (position source : Source) (target : FieldChain) : Emit String := do
  let position ← position.emit
  let value ← source.emit
  return runtimeCall "getBit" (position ++ ", " ++ value ++ ", " ++ (← target.emitTarget))

/-- Code that WRITE hands through as it is: a text literal that starts with `@KERNEL`. -/
def kernelCode? : Source → Option String
  | .constant (.text value) =>
    (Text.afterStart? "@KERNEL ".toList value.toList).map fun code =>
      String.ofList (Text.collapseDoubled '\x27' code)
  | _ => none

/-- WRITE. -/
def write (source : Source) (newLine : Bool) : Emit String := do
  match kernelCode? source with
  | some code => return code
  | none =>
    let value ← source.emit
    return runtimeCall "write" (value ++ if newLine then ",\x7bnewLine: true\x7d" else "")

end CharacterProcessing

end AbapLowering
