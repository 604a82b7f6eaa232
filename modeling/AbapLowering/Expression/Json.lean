import AbapLowering.Expression

/-!
# JSON form of expressions

Each variant is an object whose field `kind` names it. Encoding writes every field; decoding takes
missing fields for their defaults and passes over fields it does not know.
-/

namespace AbapLowering

instance : Codec Constant where
  encode
    | .integer value => .tagged "kind" "integer" [("value", encode value)]
    | .text value => .tagged "kind" "text" [("value", encode value)]
    | .backtick value => .tagged "kind" "backtick" [("value", encode value)]
  decode? j := do
    match ← j.tag? "kind" with
    | "integer" => some (.integer (← j.get "value"))
    | "text" => some (.text (← j.get "value"))
    | "backtick" => some (.backtick (← j.get "value"))
    | _ => none

instance : Codec ArithmeticOperator := .ofNames ArithmeticOperator.all ArithmeticOperator.name
instance : Codec CompareOperator := .ofNames CompareOperator.all CompareOperator.name
instance : Codec Predicate := .ofNames Predicate.all Predicate.name

instance : Codec ChainSegment where
  encode
    | .component name => .tagged "kind" "component" [("name", encode name)]
    | .attribute name => .tagged "kind" "attribute" [("name", encode name)]
    | .static name => .tagged "kind" "static" [("name", encode name)]
    | .dereference => .tagged "kind" "dereference" []
  decode? j := do
    match ← j.tag? "kind" with
    | "component" => some (.component (← j.get "name"))
    | "attribute" => some (.attribute (← j.get "name"))
    | "static" => some (.static (← j.get "name"))
    | "dereference" => some .dereference
    | _ => none

/-! ## Operands to JSON -/

mutual

/-- An operand as JSON. -/
def Source.toJson : Source → Json
  | .constant value => .tagged "kind" "constant" [("constant", encode value)]
  | .template parts => .tagged "kind" "template" [("parts", .arr (templatePartsToJson parts))]
  | .field chain => .tagged "kind" "field" [("chain", chain.toJson)]
  | .call call => .tagged "kind" "call" [("call", call.toJson)]
  | .builtin name single parameters =>
    .tagged "kind" "builtin" [("call", .obj [("name", encode name),
      ("single", optionalSourceToJson single), ("parameters", .arr (bindingsToJson parameters))])]
  | .arithmetic left operator right =>
    .tagged "kind" "arithmetic"
      [("left", left.toJson), ("op", encode operator), ("right", right.toJson)]
  | .component path => .tagged "kind" "component" [("path", encode path)]
  | .unsupported name text span =>
    .tagged "kind" "unsupported"
      [("name", encode name), ("text", encode text), ("span", encode span)]

/-- An operand that may be missing, as JSON. -/
def optionalSourceToJson : Option Source → Json
  | none => .null
  | some source => source.toJson

/-- The pieces of a template as JSON. -/
def templatePartsToJson : List TemplatePart → List Json
  | [] => []
  | part :: rest => part.toJson :: templatePartsToJson rest

/-- A piece of a template as JSON. -/
def TemplatePart.toJson : TemplatePart → Json
  | .text text => .tagged "kind" "text" [("text", encode text)]
  | .embed source => .tagged "kind" "embed" [("source", source.toJson)]

/-- A field chain as JSON. -/
def FieldChain.toJson : FieldChain → Json
  | ⟨head, segments, offset, length⟩ =>
    .obj [("head", head.toJson), ("segments", encode segments),
      ("offset", optionalOffsetToJson offset), ("length", optionalLengthToJson length)]

/-- The head of a chain as JSON. -/
def ChainHead.toJson : ChainHead → Json
  | .field name => .tagged "kind" "field" [("name", encode name)]
  | .fieldSymbol name => .tagged "kind" "field_symbol" [("name", encode name)]
  | .classRef name => .tagged "kind" "class" [("name", encode name)]
  | .call call => .tagged "kind" "call" [("call", call.toJson)]

/-- An offset that may be missing, as JSON. -/
def optionalOffsetToJson : Option Offset → Json
  | none => .null
  | some offset => offset.toJson

/-- An offset as JSON. -/
def Offset.toJson : Offset → Json
  | .literal value => .tagged "kind" "integer" [("value", encode value)]
  | .field chain => .tagged "kind" "field" [("chain", chain.toJson)]

/-- A length that may be missing, as JSON. -/
def optionalLengthToJson : Option Length → Json
  | none => .null
  | some length => length.toJson

/-- A length as JSON. -/
def Length.toJson : Length → Json
  | .literal value => .tagged "kind" "integer" [("value", encode value)]
  | .field chain => .tagged "kind" "field" [("chain", chain.toJson)]
  | .rest => .tagged "kind" "star" []

/-- A method call as JSON. -/
def MethodCall.toJson : MethodCall → Json
  | ⟨receiver, method, parameters⟩ =>
    .obj [("receiver", receiver.toJson), ("method", method.toJson),
      ("parameters", parameters.toJson)]

/-- The receiver of a call as JSON. -/
def Receiver.toJson : Receiver → Json
  | .implicit => .tagged "kind" "implicit" []
  | .object chain => .tagged "kind" "instance" [("chain", chain.toJson)]
  | .static className => .tagged "kind" "static" [("class", encode className)]
  | .super => .tagged "kind" "super" []
  | .dynamic name => .tagged "kind" "dynamic_class" [("name", name.toJson)]

/-- The method of a call as JSON. -/
def MethodRef.toJson : MethodRef → Json
  | .named name => .tagged "kind" "named" [("name", encode name)]
  | .dynamic name => .tagged "kind" "dynamic" [("name", name.toJson)]

/-- A name in parentheses as JSON. -/
def DynamicName.toJson : DynamicName → Json
  | .literal value => .tagged "kind" "literal" [("value", encode value)]
  | .field chain => .tagged "kind" "field" [("chain", chain.toJson)]

/-- The parameters of a call as JSON. -/
def CallParameters.toJson : CallParameters → Json
  | ⟨single, exporting, importing, changing, receiving, exceptions⟩ =>
    .obj [("single", optionalSourceToJson single), ("exporting", .arr (bindingsToJson exporting)),
      ("importing", .arr (targetBindingsToJson importing)),
      ("changing", .arr (targetBindingsToJson changing)),
      ("receiving", optionalTargetBindingToJson receiving), ("exceptions", encode exceptions)]

/-- Bindings as JSON. -/
def bindingsToJson : List Binding → List Json
  | [] => []
  | binding :: rest => binding.toJson :: bindingsToJson rest

/-- A binding as JSON. -/
def Binding.toJson : Binding → Json
  | ⟨name, value⟩ => .obj [("name", encode name), ("value", value.toJson)]

/-- Bindings of field chains as JSON. -/
def targetBindingsToJson : List TargetBinding → List Json
  | [] => []
  | binding :: rest => binding.toJson :: targetBindingsToJson rest

/-- A binding of a field chain that may be missing, as JSON. -/
def optionalTargetBindingToJson : Option TargetBinding → Json
  | none => .null
  | some binding => binding.toJson

/-- A binding of a field chain as JSON. -/
def TargetBinding.toJson : TargetBinding → Json
  | ⟨name, target⟩ => .obj [("name", encode name), ("target", target.toJson)]

end

/-! ## Operands from JSON -/

mutual

/-- The operand that a JSON value stands for. -/
def Source.ofJson? (j : Json) : Option Source := do
  match ← j.tag? "kind" with
  | "constant" => some (.constant (← j.get "constant"))
  | "template" =>
    some (.template (← j.required "parts" fun v _ => v.items? fun w _ => TemplatePart.ofJson? w))
  | "field" => some (.field (← j.required "chain" fun v _ => FieldChain.ofJson? v))
  | "call" => some (.call (← j.required "call" fun v _ => MethodCall.ofJson? v))
  | "builtin" =>
    j.required "call" fun v _ => do
      some (.builtin (← v.get "name")
        (← v.optional "single" fun w _ => Source.ofJson? w)
        (← v.defaulted "parameters" [] fun w _ => w.items? fun x _ => Binding.ofJson? x))
  | "arithmetic" =>
    some (.arithmetic (← j.required "left" fun v _ => Source.ofJson? v) (← j.get "op")
      (← j.required "right" fun v _ => Source.ofJson? v))
  | "component" => some (.component (← j.get "path"))
  | "unsupported" => some (.unsupported (← j.get "name") (← j.get "text") (← j.get "span"))
  | _ => none
termination_by sizeOf j
decreasing_by all_goals omega

/-- The piece of a template that a JSON value stands for. -/
def TemplatePart.ofJson? (j : Json) : Option TemplatePart := do
  match ← j.tag? "kind" with
  | "text" => some (.text (← j.get "text"))
  | "embed" => some (.embed (← j.required "source" fun v _ => Source.ofJson? v))
  | _ => none
termination_by sizeOf j
decreasing_by all_goals omega

/-- The field chain that a JSON value stands for. -/
def FieldChain.ofJson? (j : Json) : Option FieldChain := do
  some {
    head := ← j.required "head" fun v _ => ChainHead.ofJson? v
    segments := ← j.getD "segments" []
    offset := ← j.optional "offset" fun v _ => Offset.ofJson? v
    length := ← j.optional "length" fun v _ => Length.ofJson? v }
termination_by sizeOf j
decreasing_by all_goals omega

/-- The head of a chain that a JSON value stands for. -/
def ChainHead.ofJson? (j : Json) : Option ChainHead := do
  match ← j.tag? "kind" with
  | "field" => some (.field (← j.get "name"))
  | "field_symbol" => some (.fieldSymbol (← j.get "name"))
  | "class" => some (.classRef (← j.get "name"))
  | "call" => some (.call (← j.required "call" fun v _ => MethodCall.ofJson? v))
  | _ => none
termination_by sizeOf j
decreasing_by all_goals omega

/-- The offset that a JSON value stands for. -/
def Offset.ofJson? (j : Json) : Option Offset := do
  match ← j.tag? "kind" with
  | "integer" => some (.literal (← j.get "value"))
  | "field" => some (.field (← j.required "chain" fun v _ => FieldChain.ofJson? v))
  | _ => none
termination_by sizeOf j
decreasing_by all_goals omega

/-- The length that a JSON value stands for. -/
def Length.ofJson? (j : Json) : Option Length := do
  match ← j.tag? "kind" with
  | "integer" => some (.literal (← j.get "value"))
  | "field" => some (.field (← j.required "chain" fun v _ => FieldChain.ofJson? v))
  | "star" => some .rest
  | _ => none
termination_by sizeOf j
decreasing_by all_goals omega

/-- The method call that a JSON value stands for. -/
def MethodCall.ofJson? (j : Json) : Option MethodCall := do
  some {
    receiver := ← j.required "receiver" fun v _ => Receiver.ofJson? v
    method := ← j.required "method" fun v _ => MethodRef.ofJson? v
    parameters := ← j.defaulted "parameters" .none fun v _ => CallParameters.ofJson? v }
termination_by sizeOf j
decreasing_by all_goals omega

/-- The receiver that a JSON value stands for. -/
def Receiver.ofJson? (j : Json) : Option Receiver := do
  match ← j.tag? "kind" with
  | "implicit" => some .implicit
  | "instance" => some (.object (← j.required "chain" fun v _ => FieldChain.ofJson? v))
  | "static" => some (.static (← j.get "class"))
  | "super" => some .super
  | "dynamic_class" => some (.dynamic (← j.required "name" fun v _ => DynamicName.ofJson? v))
  | _ => none
termination_by sizeOf j
decreasing_by all_goals omega

/-- The method that a JSON value stands for. -/
def MethodRef.ofJson? (j : Json) : Option MethodRef := do
  match ← j.tag? "kind" with
  | "named" => some (.named (← j.get "name"))
  | "dynamic" => some (.dynamic (← j.required "name" fun v _ => DynamicName.ofJson? v))
  | _ => none
termination_by sizeOf j
decreasing_by all_goals omega

/-- The name in parentheses that a JSON value stands for. -/
def DynamicName.ofJson? (j : Json) : Option DynamicName := do
  match ← j.tag? "kind" with
  | "literal" => some (.literal (← j.get "value"))
  | "field" => some (.field (← j.required "chain" fun v _ => FieldChain.ofJson? v))
  | _ => none
termination_by sizeOf j
decreasing_by all_goals omega

/-- The parameters that a JSON value stands for. -/
def CallParameters.ofJson? (j : Json) : Option CallParameters := do
  j.checkObject
  some {
    single := ← j.optional "single" fun v _ => Source.ofJson? v
    exporting := ← j.defaulted "exporting" [] fun v _ => v.items? fun w _ => Binding.ofJson? w
    importing := ← j.defaulted "importing" [] fun v _ => v.items? fun w _ => TargetBinding.ofJson? w
    changing := ← j.defaulted "changing" [] fun v _ => v.items? fun w _ => TargetBinding.ofJson? w
    receiving := ← j.optional "receiving" fun v _ => TargetBinding.ofJson? v
    exceptions := ← j.getD "exceptions" [] }
termination_by sizeOf j
decreasing_by all_goals omega

/-- The binding that a JSON value stands for. -/
def Binding.ofJson? (j : Json) : Option Binding := do
  some {
    name := ← j.get "name"
    value := ← j.required "value" fun v _ => Source.ofJson? v }
termination_by sizeOf j
decreasing_by all_goals omega

/-- The binding of a field chain that a JSON value stands for. -/
def TargetBinding.ofJson? (j : Json) : Option TargetBinding := do
  some {
    name := ← j.get "name"
    target := ← j.required "target" fun v _ => FieldChain.ofJson? v }
termination_by sizeOf j
decreasing_by all_goals omega

end

instance : Codec Source := ⟨Source.toJson, Source.ofJson?⟩
instance : Codec FieldChain := ⟨FieldChain.toJson, FieldChain.ofJson?⟩
instance : Codec MethodCall := ⟨MethodCall.toJson, MethodCall.ofJson?⟩
instance : Codec DynamicName := ⟨DynamicName.toJson, DynamicName.ofJson?⟩
instance : Codec Binding := ⟨Binding.toJson, Binding.ofJson?⟩
instance : Codec TargetBinding := ⟨TargetBinding.toJson, TargetBinding.ofJson?⟩

/-! ## Conditions -/

mutual

/-- A condition as JSON. -/
def Condition.toJson : Condition → Json
  | .compare left operator right =>
    .tagged "kind" "compare" [("left", encode left), ("op", encode operator),
      ("right", encode right)]
  | .predicate operand predicate negated =>
    .tagged "kind" "predicate" [("operand", encode operand), ("predicate", encode predicate),
      ("negated", encode negated)]
  | .within operand range negated =>
    .tagged "kind" "in" [("operand", encode operand), ("range", encode range),
      ("negated", encode negated)]
  | .not inner => .tagged "kind" "not" [("inner", inner.toJson)]
  | .and items => .tagged "kind" "and" [("items", .arr (conditionsToJson items))]
  | .or items => .tagged "kind" "or" [("items", .arr (conditionsToJson items))]
  | .paren inner => .tagged "kind" "paren" [("inner", inner.toJson)]
  | .unsupported name text span =>
    .tagged "kind" "unsupported"
      [("name", encode name), ("text", encode text), ("span", encode span)]

/-- Conditions as JSON. -/
def conditionsToJson : List Condition → List Json
  | [] => []
  | item :: rest => item.toJson :: conditionsToJson rest

end

/-- The condition that a JSON value stands for. -/
def Condition.ofJson? (j : Json) : Option Condition := do
  match ← j.tag? "kind" with
  | "compare" => some (.compare (← j.get "left") (← j.get "op") (← j.get "right"))
  | "predicate" =>
    some (.predicate (← j.get "operand") (← j.get "predicate") (← j.getD "negated" false))
  | "in" => some (.within (← j.get "operand") (← j.get "range") (← j.getD "negated" false))
  | "not" => some (.not (← j.required "inner" fun v _ => ofJson? v))
  | "and" => some (.and (← j.required "items" fun v _ => v.items? fun w _ => ofJson? w))
  | "or" => some (.or (← j.required "items" fun v _ => v.items? fun w _ => ofJson? w))
  | "paren" => some (.paren (← j.required "inner" fun v _ => ofJson? v))
  | "unsupported" => some (.unsupported (← j.get "name") (← j.get "text") (← j.get "span"))
  | _ => none
termination_by sizeOf j
decreasing_by all_goals omega

instance : Codec Condition := ⟨Condition.toJson, Condition.ofJson?⟩

end AbapLowering
