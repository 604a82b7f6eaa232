import AbapLowering.Text.Case
import AbapLowering.Json.Writer

/-!
# Data types

The resolved data types of ABAP and the runtime constructor each of them is written as. A type that
could not be resolved has no constructor: it is an error, or `undefined` where the error is left to
run time.
-/

namespace AbapLowering

/-- How the rows of an internal table are kept. -/
inductive TableKind where
  | standard
  | sorted
  | hashed
  | any
  deriving DecidableEq

/-- The keyword of a table kind. -/
def TableKind.keyword : TableKind → String
  | .standard => "STANDARD"
  | .sorted => "SORTED"
  | .hashed => "HASHED"
  | .any => "ANY"

instance : Codec TableKind :=
  .ofNames [.standard, .sorted, .hashed, .any] TableKind.keyword

/-- Options of an internal table, in the form the runtime expects. -/
structure TableOptions where
  withHeader : Bool
  kind : TableKind
  isUnique : Bool
  keyFields : List String
  deriving DecidableEq

instance : Codec TableOptions where
  encode o := .obj [("withHeader", encode o.withHeader), ("type", encode o.kind),
    ("isUnique", encode o.isUnique), ("keyFields", encode o.keyFields)]
  decode? j := do
    some {
      withHeader := ← j.get "withHeader"
      kind := ← j.get "type"
      isUnique := ← j.get "isUnique"
      keyFields := ← j.get "keyFields" }

mutual

/-- A data type after semantic analysis. -/
inductive DataType where
  | integer (qualifiedName : Option String)
  | character (length : UInt32) (qualifiedName : Option String)
  | string (qualifiedName : Option String)
  | xString
  | hex (length : UInt32)
  | packed (length decimals : UInt32)
  | float
  | date
  | time
  | numc (length : UInt32)
  | structured (components : List Component) (qualifiedName : Option String)
  | table (row : DataType) (options : TableOptions)
  | dataReference (target : DataType)
  | objectReference (className : Option String)
  /-- A type such as `ANY`, good for field symbols and parameters only. -/
  | generic (name : String)
  /-- A type that could not be resolved. -/
  | unknown (name reason : String)

/-- A named component of a structured type. -/
structure Component where
  name : String
  type : DataType

end

instance : Inhabited DataType := ⟨.xString⟩

namespace DataType

/-- Whether the type could not be resolved. -/
def isUnknown : DataType → Bool
  | .unknown _ _ => true
  | _ => false

/-! ## Runtime constructors -/

/-- Why a type has no constructor. -/
structure Unresolved where
  name : String
  reason : String
  deriving DecidableEq

/-- The options of an elementary type: nothing, or an object with those that are given. -/
def constructorOptions (length : Option UInt32) (qualifiedName : Option String) : String :=
  let parts :=
    (length.map fun n => "length: " ++ toString n).toList
      ++ (qualifiedName.map fun name => "qualifiedName: \"" ++ Text.toUpper name ++ "\"").toList
  if parts.isEmpty then "" else "\x7b" ++ ", ".intercalate parts ++ "\x7d"

/-- A runtime type with its arguments. -/
def construct (kind arguments : String) : String :=
  "new abap.types." ++ kind ++ "(" ++ arguments ++ ")"

mutual

/-- The constructor of a type. With `lenient` an unresolved type is written as `undefined`, as
generic types always are: they take whatever the caller passes. -/
def constructor (lenient : Bool) : DataType → Except Unresolved String
  | .integer name => .ok (construct "Integer" (constructorOptions none name))
  | .character length name =>
    .ok (construct "Character"
      (constructorOptions (if length = 1 then none else some length) name))
  | .string name => .ok (construct "String" (constructorOptions none name))
  | .xString => .ok (construct "XString" "")
  | .hex length => .ok (construct "Hex" (constructorOptions (some length) none))
  | .packed length decimals =>
    .ok (construct "Packed"
      ("\x7blength: " ++ toString length ++ ", decimals: " ++ toString decimals ++ "\x7d"))
  | .float => .ok (construct "Float" "")
  | .date => .ok (construct "Date" "")
  | .time => .ok (construct "Time" "")
  | .numc length => .ok (construct "Numc" (constructorOptions (some length) none))
  | .structured components _ => do
    let fields ← componentConstructors lenient components
    .ok (construct "Structure" ("\x7b" ++ ", ".intercalate fields ++ "\x7d"))
  | .table row options => do
    let row ← constructor lenient row
    .ok (construct "Table" (row ++ ", " ++ (encode options).compact))
  | .dataReference target => do
    .ok (construct "DataReference" (← constructor lenient target))
  | .objectReference _ => .ok (construct "ABAPObject" "")
  | .generic _ => .ok "undefined"
  | .unknown name reason => if lenient then .ok "undefined" else .error ⟨name, reason⟩

/-- The fields of a structured type, each as its name and constructor. -/
def componentConstructors (lenient : Bool) : List Component → Except Unresolved (List String)
  | [] => .ok []
  | ⟨name, type⟩ :: rest => do
    let first := Text.toLower name ++ ": " ++ (← constructor lenient type)
    .ok (first :: (← componentConstructors lenient rest))

end

/-! ## JSON form -/

mutual

/-- A type as JSON. -/
def toJson : DataType → Json
  | .integer name => .tagged "kind" "integer" [("qualified_name", encodeOption name)]
  | .character length name =>
    .tagged "kind" "character"
      [("length", encode length), ("qualified_name", encodeOption name)]
  | .string name => .tagged "kind" "string" [("qualified_name", encodeOption name)]
  | .xString => .tagged "kind" "x_string" []
  | .hex length => .tagged "kind" "hex" [("length", encode length)]
  | .packed length decimals =>
    .tagged "kind" "packed" [("length", encode length), ("decimals", encode decimals)]
  | .float => .tagged "kind" "float" []
  | .date => .tagged "kind" "date" []
  | .time => .tagged "kind" "time" []
  | .numc length => .tagged "kind" "numc" [("length", encode length)]
  | .structured components name =>
    .tagged "kind" "structure"
      [("components", .arr (componentsToJson components)), ("qualified_name", encodeOption name)]
  | .table row options =>
    .tagged "kind" "table" [("row", toJson row), ("options", encode options)]
  | .dataReference target => .tagged "kind" "data_reference" [("target", toJson target)]
  | .objectReference name => .tagged "kind" "object_reference" [("class", encodeOption name)]
  | .generic name => .tagged "kind" "generic" [("name", encode name)]
  | .unknown name reason =>
    .tagged "kind" "unknown" [("name", encode name), ("reason", encode reason)]

/-- Components as JSON. -/
def componentsToJson : List Component → List Json
  | [] => []
  | ⟨name, type⟩ :: rest =>
    .obj [("name", encode name), ("type", toJson type)] :: componentsToJson rest

end

/-- The type that a JSON value stands for. -/
def ofJson? (j : Json) : Option DataType := do
  match ← j.tag? "kind" with
  | "integer" => some (.integer (← j.get? "qualified_name"))
  | "character" => some (.character (← j.get "length") (← j.get? "qualified_name"))
  | "string" => some (.string (← j.get? "qualified_name"))
  | "x_string" => some .xString
  | "hex" => some (.hex (← j.get "length"))
  | "packed" => some (.packed (← j.get "length") (← j.get "decimals"))
  | "float" => some .float
  | "date" => some .date
  | "time" => some .time
  | "numc" => some (.numc (← j.get "length"))
  | "structure" =>
    let components ← j.required "components" fun v _ => v.items? fun w _ => do
      some {
        name := ← w.get "name"
        type := ← w.required "type" fun t _ => ofJson? t : Component }
    some (.structured components (← j.get? "qualified_name"))
  | "table" => some (.table (← j.required "row" fun v _ => ofJson? v) (← j.get "options"))
  | "data_reference" => some (.dataReference (← j.required "target" fun v _ => ofJson? v))
  | "object_reference" => some (.objectReference (← j.get? "class"))
  | "generic" => some (.generic (← j.get "name"))
  | "unknown" => some (.unknown (← j.get "name") (← j.get "reason"))
  | _ => none
termination_by sizeOf j
decreasing_by all_goals omega

end DataType

instance : Codec DataType where
  encode := DataType.toJson
  decode? := DataType.ofJson?

end AbapLowering
