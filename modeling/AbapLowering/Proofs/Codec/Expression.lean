import AbapLowering.Expression.Json
import AbapLowering.Proofs.Codec.Definition

/-!
# Codecs of expressions

Operands contain each other, so their forms are given by one recursion over all of them, and that
they are read from every variation is shown along that recursion: each variant is found by its tag,
each of its fields by its key.
-/

namespace AbapLowering

open FieldForm (required optional defaulted)

/-! ## Constants, operators and segments -/

instance : LawfulCodec Constant where
  formOf
    | .integer value => .tagged "kind" "integer" [required "value" (formOf value)]
    | .text value => .tagged "kind" "text" [required "value" (formOf value)]
    | .backtick value => .tagged "kind" "backtick" [required "value" (formOf value)]
  json_formOf c := by cases c <;> simp [encode]
  distinct_formOf c := by cases c <;> simp
  formOf_ne_null c := by cases c <;> nofun
  decode?_of_varies {c _} h := by
    cases c <;> obtain ⟨members, rfl, hkind, hvalue, -⟩ := h <;>
      simp [decode?, hkind.tag?, hvalue.get]

instance : LawfulCodec ArithmeticOperator := .ofNames _ _ (by intro op; cases op <;> rfl)
instance : LawfulCodec CompareOperator := .ofNames _ _ (by intro op; cases op <;> rfl)
instance : LawfulCodec Predicate := .ofNames _ _ (by rintro (_ | _ | _ | _) <;> rfl)

instance : LawfulCodec ChainSegment where
  formOf
    | .component name => .tagged "kind" "component" [required "name" (formOf name)]
    | .attribute name => .tagged "kind" "attribute" [required "name" (formOf name)]
    | .static name => .tagged "kind" "static" [required "name" (formOf name)]
    | .dereference => .tagged "kind" "dereference" []
  json_formOf s := by cases s <;> simp [encode]
  distinct_formOf s := by cases s <;> simp
  formOf_ne_null s := by cases s <;> nofun
  decode?_of_varies {s _} h := by
    rcases s with _ | _ | _ | _
    case dereference =>
      obtain ⟨members, rfl, hkind, -⟩ := h
      simp [decode?, hkind.tag?]
    all_goals
      obtain ⟨members, rfl, hkind, hname, -⟩ := h
      simp [decode?, hkind.tag?, hname.get]

/-! ## Forms of operands -/

mutual

/-- The form of an operand. -/
def Source.toForm : Source → Form
  | .constant value => .tagged "kind" "constant" [required "constant" (formOf value)]
  | .template parts =>
    .tagged "kind" "template" [required "parts" (.list (templatePartForms parts))]
  | .field chain => .tagged "kind" "field" [required "chain" chain.toForm]
  | .call call => .tagged "kind" "call" [required "call" call.toForm]
  | .builtin name single parameters =>
    .tagged "kind" "builtin" [required "call" (.record [required "name" (formOf name),
      optional "single" (optionalSourceForm single),
      defaulted "parameters" (parameters = []) (.list (bindingForms parameters))])]
  | .arithmetic left operator right =>
    .tagged "kind" "arithmetic" [required "left" left.toForm, required "op" (formOf operator),
      required "right" right.toForm]
  | .component path => .tagged "kind" "component" [required "path" (formOf path)]
  | .unsupported name text span =>
    .tagged "kind" "unsupported" [required "name" (formOf name), required "text" (formOf text),
      required "span" (formOf span)]

/-- The form of an operand that may be missing. -/
def optionalSourceForm : Option Source → Option Form
  | none => none
  | some source => some source.toForm

/-- The forms of the pieces of a template. -/
def templatePartForms : List TemplatePart → List Form
  | [] => []
  | part :: rest => part.toForm :: templatePartForms rest

/-- The form of a piece of a template. -/
def TemplatePart.toForm : TemplatePart → Form
  | .text text => .tagged "kind" "text" [required "text" (formOf text)]
  | .embed source => .tagged "kind" "embed" [required "source" source.toForm]

/-- The form of a field chain. -/
def FieldChain.toForm : FieldChain → Form
  | ⟨head, segments, offset, length⟩ =>
    .record [required "head" head.toForm, defaulted "segments" (segments = []) (formOf segments),
      optional "offset" (optionalOffsetForm offset), optional "length" (optionalLengthForm length)]

/-- The form of the head of a chain. -/
def ChainHead.toForm : ChainHead → Form
  | .field name => .tagged "kind" "field" [required "name" (formOf name)]
  | .fieldSymbol name => .tagged "kind" "field_symbol" [required "name" (formOf name)]
  | .classRef name => .tagged "kind" "class" [required "name" (formOf name)]
  | .call call => .tagged "kind" "call" [required "call" call.toForm]

/-- The form of an offset that may be missing. -/
def optionalOffsetForm : Option Offset → Option Form
  | none => none
  | some offset => some offset.toForm

/-- The form of an offset. -/
def Offset.toForm : Offset → Form
  | .literal value => .tagged "kind" "integer" [required "value" (formOf value)]
  | .field chain => .tagged "kind" "field" [required "chain" chain.toForm]

/-- The form of a length that may be missing. -/
def optionalLengthForm : Option Length → Option Form
  | none => none
  | some length => some length.toForm

/-- The form of a length. -/
def Length.toForm : Length → Form
  | .literal value => .tagged "kind" "integer" [required "value" (formOf value)]
  | .field chain => .tagged "kind" "field" [required "chain" chain.toForm]
  | .rest => .tagged "kind" "star" []

/-- The form of a method call. -/
def MethodCall.toForm : MethodCall → Form
  | ⟨receiver, method, parameters⟩ =>
    .record [required "receiver" receiver.toForm, required "method" method.toForm,
      defaulted "parameters" (parameters = .none) parameters.toForm]

/-- The form of the receiver of a call. -/
def Receiver.toForm : Receiver → Form
  | .implicit => .tagged "kind" "implicit" []
  | .object chain => .tagged "kind" "instance" [required "chain" chain.toForm]
  | .static className => .tagged "kind" "static" [required "class" (formOf className)]
  | .super => .tagged "kind" "super" []
  | .dynamic name => .tagged "kind" "dynamic_class" [required "name" name.toForm]

/-- The form of the method of a call. -/
def MethodRef.toForm : MethodRef → Form
  | .named name => .tagged "kind" "named" [required "name" (formOf name)]
  | .dynamic name => .tagged "kind" "dynamic" [required "name" name.toForm]

/-- The form of a name in parentheses. -/
def DynamicName.toForm : DynamicName → Form
  | .literal value => .tagged "kind" "literal" [required "value" (formOf value)]
  | .field chain => .tagged "kind" "field" [required "chain" chain.toForm]

/-- The form of the parameters of a call. -/
def CallParameters.toForm : CallParameters → Form
  | ⟨single, exporting, importing, changing, receiving, exceptions⟩ =>
    .record [optional "single" (optionalSourceForm single),
      defaulted "exporting" (exporting = []) (.list (bindingForms exporting)),
      defaulted "importing" (importing = []) (.list (targetBindingForms importing)),
      defaulted "changing" (changing = []) (.list (targetBindingForms changing)),
      optional "receiving" (optionalTargetBindingForm receiving),
      defaulted "exceptions" (exceptions = []) (formOf exceptions)]

/-- The forms of bindings. -/
def bindingForms : List Binding → List Form
  | [] => []
  | binding :: rest => binding.toForm :: bindingForms rest

/-- The form of a binding. -/
def Binding.toForm : Binding → Form
  | ⟨name, value⟩ => .record [required "name" (formOf name), required "value" value.toForm]

/-- The forms of bindings of field chains. -/
def targetBindingForms : List TargetBinding → List Form
  | [] => []
  | binding :: rest => binding.toForm :: targetBindingForms rest

/-- The form of a binding of a field chain that may be missing. -/
def optionalTargetBindingForm : Option TargetBinding → Option Form
  | none => none
  | some binding => some binding.toForm

/-- The form of a binding of a field chain. -/
def TargetBinding.toForm : TargetBinding → Form
  | ⟨name, target⟩ => .record [required "name" (formOf name), required "target" target.toForm]

end

/-! ## Operands are written as their forms -/

mutual

/-- An operand is written as its form says. -/
theorem Source.writes_toForm : ∀ source : Source, source.toForm.Writes source.toJson
  | .constant _ | .component _ | .unsupported .. => by simp [Source.toForm, Source.toJson]
  | .template parts => by simp [Source.toForm, Source.toJson, write_templatePartForms parts]
  | .field chain => by simp [Source.toForm, Source.toJson, chain.writes_toForm]
  | .call call => by simp [Source.toForm, Source.toJson, call.writes_toForm]
  | .builtin _ single parameters => by
    simp [Source.toForm, Source.toJson, writes_optionalSourceForm single,
      write_bindingForms parameters]
  | .arithmetic left _ right => by
    simp [Source.toForm, Source.toJson, left.writes_toForm, right.writes_toForm]

/-- An operand that is left out is written as null. -/
theorem writes_optionalSourceForm : ∀ source : Option Source,
    ((optionalSourceForm source).getD (.leaf .null)).Writes (optionalSourceToJson source)
  | none => ⟨rfl, trivial⟩
  | some source => source.writes_toForm

/-- The parts of a template are written one by one. -/
theorem write_templatePartForms : ∀ parts : List TemplatePart,
    Form.ItemsWrite (templatePartForms parts) (templatePartsToJson parts)
  | [] => ⟨rfl, trivial⟩
  | part :: rest => by
    simp [templatePartForms, templatePartsToJson, part.writes_toForm, write_templatePartForms rest]

theorem TemplatePart.writes_toForm : ∀ part : TemplatePart, part.toForm.Writes part.toJson
  | .text _ => by simp [TemplatePart.toForm, TemplatePart.toJson]
  | .embed source => by simp [TemplatePart.toForm, TemplatePart.toJson, source.writes_toForm]

/-- A chain is written with its head, its segments, its offset and its length. -/
theorem FieldChain.writes_toForm : ∀ chain : FieldChain, chain.toForm.Writes chain.toJson
  | ⟨head, _, offset, length⟩ => by
    simp [FieldChain.toForm, FieldChain.toJson, head.writes_toForm,
      writes_optionalOffsetForm offset, writes_optionalLengthForm length]

/-- A head is written with the tag of its variant. -/
theorem ChainHead.writes_toForm : ∀ head : ChainHead, head.toForm.Writes head.toJson
  | .field _ | .fieldSymbol _ | .classRef _ => by simp [ChainHead.toForm, ChainHead.toJson]
  | .call call => by simp [ChainHead.toForm, ChainHead.toJson, call.writes_toForm]

theorem writes_optionalOffsetForm : ∀ offset : Option Offset,
    ((optionalOffsetForm offset).getD (.leaf .null)).Writes (optionalOffsetToJson offset)
  | none => ⟨rfl, trivial⟩
  | some offset => offset.writes_toForm

/-- An offset is written as a number or as a chain. -/
theorem Offset.writes_toForm : ∀ offset : Offset, offset.toForm.Writes offset.toJson
  | .literal _ => by simp [Offset.toForm, Offset.toJson]
  | .field chain => by simp [Offset.toForm, Offset.toJson, chain.writes_toForm]

theorem writes_optionalLengthForm : ∀ length : Option Length,
    ((optionalLengthForm length).getD (.leaf .null)).Writes (optionalLengthToJson length)
  | none => ⟨rfl, trivial⟩
  | some length => length.writes_toForm

theorem Length.writes_toForm : ∀ length : Length, length.toForm.Writes length.toJson
  | .literal _ | .rest => by simp [Length.toForm, Length.toJson]
  | .field chain => by simp [Length.toForm, Length.toJson, chain.writes_toForm]

/-- A call is written with its receiver, its method and its parameters. -/
theorem MethodCall.writes_toForm : ∀ call : MethodCall, call.toForm.Writes call.toJson
  | ⟨receiver, method, parameters⟩ => by
    simp [MethodCall.toForm, MethodCall.toJson, receiver.writes_toForm, method.writes_toForm,
      parameters.writes_toForm]

/-- A receiver is written with the tag of its variant. -/
theorem Receiver.writes_toForm : ∀ receiver : Receiver, receiver.toForm.Writes receiver.toJson
  | .implicit | .static _ | .super => by simp [Receiver.toForm, Receiver.toJson]
  | .object chain => by simp [Receiver.toForm, Receiver.toJson, chain.writes_toForm]
  | .dynamic name => by simp [Receiver.toForm, Receiver.toJson, name.writes_toForm]

theorem MethodRef.writes_toForm : ∀ method : MethodRef, method.toForm.Writes method.toJson
  | .named _ => by simp [MethodRef.toForm, MethodRef.toJson]
  | .dynamic name => by simp [MethodRef.toForm, MethodRef.toJson, name.writes_toForm]

theorem DynamicName.writes_toForm : ∀ name : DynamicName, name.toForm.Writes name.toJson
  | .literal _ => by simp [DynamicName.toForm, DynamicName.toJson]
  | .field chain => by simp [DynamicName.toForm, DynamicName.toJson, chain.writes_toForm]

/-- Parameters are written in the groups in which they are passed. -/
theorem CallParameters.writes_toForm :
    ∀ parameters : CallParameters, parameters.toForm.Writes parameters.toJson
  | ⟨single, exporting, importing, changing, receiving, _⟩ => by
    simp [CallParameters.toForm, CallParameters.toJson, writes_optionalSourceForm single,
      write_bindingForms exporting, write_targetBindingForms importing,
      write_targetBindingForms changing, writes_optionalTargetBindingForm receiving]

/-- Bindings are written one by one. -/
theorem write_bindingForms : ∀ bindings : List Binding,
    Form.ItemsWrite (bindingForms bindings) (bindingsToJson bindings)
  | [] => ⟨rfl, trivial⟩
  | binding :: rest => by
    simp [bindingForms, bindingsToJson, binding.writes_toForm, write_bindingForms rest]

theorem Binding.writes_toForm : ∀ binding : Binding, binding.toForm.Writes binding.toJson
  | ⟨_, value⟩ => by simp [Binding.toForm, Binding.toJson, value.writes_toForm]

theorem write_targetBindingForms : ∀ bindings : List TargetBinding,
    Form.ItemsWrite (targetBindingForms bindings) (targetBindingsToJson bindings)
  | [] => ⟨rfl, trivial⟩
  | binding :: rest => by
    simp [targetBindingForms, targetBindingsToJson, binding.writes_toForm,
      write_targetBindingForms rest]

/-- What takes a result is written as null if there is nothing. -/
theorem writes_optionalTargetBindingForm : ∀ binding : Option TargetBinding,
    ((optionalTargetBindingForm binding).getD (.leaf .null)).Writes
      (optionalTargetBindingToJson binding)
  | none => ⟨rfl, trivial⟩
  | some binding => binding.writes_toForm

theorem TargetBinding.writes_toForm :
    ∀ binding : TargetBinding, binding.toForm.Writes binding.toJson
  | ⟨_, target⟩ => by simp [TargetBinding.toForm, TargetBinding.toJson, target.writes_toForm]

end

/-! ## Operands are read -/

/-- The form of an operand is that of an object. -/
theorem Source.toForm_ne_null (source : Source) : source.toForm ≠ .leaf .null := by
  cases source <;> nofun

/-- No offset is written as null, so null tells that there is none. -/
theorem Offset.toForm_ne_null (offset : Offset) : offset.toForm ≠ .leaf .null := by
  cases offset <;> nofun

theorem Length.toForm_ne_null (length : Length) : length.toForm ≠ .leaf .null := by
  cases length <;> nofun

theorem TargetBinding.toForm_ne_null (binding : TargetBinding) :
    binding.toForm ≠ .leaf .null := by
  cases binding; nofun

/-- What is optional has a form if it is there. -/
theorem optionalSourceForm_eq (source : Option Source) :
    optionalSourceForm source = source.map Source.toForm := by
  cases source <;> rfl

theorem optionalOffsetForm_eq (offset : Option Offset) :
    optionalOffsetForm offset = offset.map Offset.toForm := by
  cases offset <;> rfl

theorem optionalLengthForm_eq (length : Option Length) :
    optionalLengthForm length = length.map Length.toForm := by
  cases length <;> rfl

theorem optionalTargetBindingForm_eq (binding : Option TargetBinding) :
    optionalTargetBindingForm binding = binding.map TargetBinding.toForm := by
  cases binding <;> rfl

mutual

/-- An operand is read from every variation of its form. -/
theorem Source.ofJson?_of_varies :
    ∀ (source : Source) {j : Json}, source.toForm.Varies j → Source.ofJson? j = some source
  | .constant _, _, h => by
    obtain ⟨members, rfl, hkind, hconstant, -⟩ := h
    rw [Source.ofJson?]
    simp [hkind.tag?, hconstant.get]
  | .template parts, _, h => by
    obtain ⟨members, rfl, hkind, hparts, -⟩ := h
    have hread := hparts.required fun _ hv => hv.items? fun _ => mapM_templateParts parts
    rw [Source.ofJson?]
    simp [hkind.tag?, hread]
  | .field chain, _, h => by
    obtain ⟨members, rfl, hkind, hchain, -⟩ := h
    rw [Source.ofJson?]
    simp [hkind.tag?, hchain.required fun _ => chain.ofJson?_of_varies]
  | .call call, _, h => by
    obtain ⟨members, rfl, hkind, hcall, -⟩ := h
    rw [Source.ofJson?]
    simp [hkind.tag?, hcall.required fun _ => call.ofJson?_of_varies]
  | .builtin name single parameters, _, h => by
    obtain ⟨members, rfl, hkind, hcall, -⟩ := h
    rw [Source.ofJson?]
    simp only [hkind.tag?, Option.bind_eq_bind, Option.bind_some]
    refine hcall.required fun v hv => ?_
    obtain ⟨members, rfl, hname, hsingle, hparameters, -⟩ := hv
    -- an optional field is read where its form is that of its value mapped over the option
    rw [optionalSourceForm_eq] at hsingle
    simp [hname.get, hsingle.optional Source.toForm_ne_null (read_optionalSource single),
      hparameters.defaulted fun _ hv => hv.items? fun _ => mapM_bindings parameters]
  | .arithmetic left operator right, _, h => by
    obtain ⟨members, rfl, hkind, hleft, hoperator, hright, -⟩ := h
    rw [Source.ofJson?]
    simp [hkind.tag?, hleft.required fun _ => left.ofJson?_of_varies, hoperator.get,
      hright.required fun _ => right.ofJson?_of_varies]
  | .component _, _, h => by
    obtain ⟨members, rfl, hkind, hpath, -⟩ := h
    rw [Source.ofJson?]
    simp [hkind.tag?, hpath.get]
  | .unsupported _ _ _, _, h => by
    obtain ⟨members, rfl, hkind, hname, htext, hspan, -⟩ := h
    rw [Source.ofJson?]
    simp [hkind.tag?, hname.get, htext.get, hspan.get]

/-- An operand that is there is read again. -/
theorem read_optionalSource : ∀ (o : Option Source) (source : Source), o = some source →
    ∀ v, source.toForm.Varies v → Source.ofJson? v = some source
  | some source, _, rfl, _, h => source.ofJson?_of_varies h

/-- The parts of a template are read again one by one. -/
theorem mapM_templateParts : ∀ (parts : List TemplatePart) {values : List Json},
    Form.ItemsVary (templatePartForms parts) values →
      values.mapM TemplatePart.ofJson? = some parts
  | [], _, rfl => rfl
  | part :: rest, _, ⟨value, others, rfl, hvalue, hothers⟩ => by
    simp [part.ofJson?_of_varies hvalue, mapM_templateParts rest hothers]

/-- A part is told by its tag, then its text or operand is read. -/
theorem TemplatePart.ofJson?_of_varies : ∀ (part : TemplatePart) {j : Json},
    part.toForm.Varies j → TemplatePart.ofJson? j = some part
  | .text _, _, h => by
    obtain ⟨members, rfl, hkind, htext, -⟩ := h
    rw [TemplatePart.ofJson?]
    simp [hkind.tag?, htext.get]
  | .embed source, _, h => by
    obtain ⟨members, rfl, hkind, hsource, -⟩ := h
    rw [TemplatePart.ofJson?]
    simp [hkind.tag?, hsource.required fun _ => source.ofJson?_of_varies]

/-- A chain without offset or length may leave them out or have null for them. -/
theorem FieldChain.ofJson?_of_varies : ∀ (chain : FieldChain) {j : Json},
    chain.toForm.Varies j → FieldChain.ofJson? j = some chain
  | ⟨head, _, offset, length⟩, _, h => by
    obtain ⟨members, rfl, hhead, hsegments, hoffset, hlength, -⟩ := h
    rw [optionalOffsetForm_eq] at hoffset
    rw [optionalLengthForm_eq] at hlength
    rw [FieldChain.ofJson?]
    simp [hhead.required fun _ => head.ofJson?_of_varies, hsegments.getD,
      hoffset.optional Offset.toForm_ne_null (read_optionalOffset offset),
      hlength.optional Length.toForm_ne_null (read_optionalLength length)]

/-- A head is told by its tag. -/
theorem ChainHead.ofJson?_of_varies : ∀ (head : ChainHead) {j : Json},
    head.toForm.Varies j → ChainHead.ofJson? j = some head
  | .field _, _, h | .fieldSymbol _, _, h | .classRef _, _, h => by
    obtain ⟨members, rfl, hkind, hname, -⟩ := h
    rw [ChainHead.ofJson?]
    simp [hkind.tag?, hname.get]
  | .call call, _, h => by
    obtain ⟨members, rfl, hkind, hcall, -⟩ := h
    rw [ChainHead.ofJson?]
    simp [hkind.tag?, hcall.required fun _ => call.ofJson?_of_varies]

theorem read_optionalOffset : ∀ (o : Option Offset) (offset : Offset), o = some offset →
    ∀ v, offset.toForm.Varies v → Offset.ofJson? v = some offset
  | some offset, _, rfl, _, h => offset.ofJson?_of_varies h

/-- A number and a chain are told apart by the tag. -/
theorem Offset.ofJson?_of_varies : ∀ (offset : Offset) {j : Json},
    offset.toForm.Varies j → Offset.ofJson? j = some offset
  | .literal _, _, h => by
    obtain ⟨members, rfl, hkind, hvalue, -⟩ := h
    rw [Offset.ofJson?]
    simp [hkind.tag?, hvalue.get]
  | .field chain, _, h => by
    obtain ⟨members, rfl, hkind, hchain, -⟩ := h
    rw [Offset.ofJson?]
    simp [hkind.tag?, hchain.required fun _ => chain.ofJson?_of_varies]

theorem read_optionalLength : ∀ (o : Option Length) (length : Length), o = some length →
    ∀ v, length.toForm.Varies v → Length.ofJson? v = some length
  | some length, _, rfl, _, h => length.ofJson?_of_varies h

theorem Length.ofJson?_of_varies : ∀ (length : Length) {j : Json},
    length.toForm.Varies j → Length.ofJson? j = some length
  | .literal _, _, h => by
    obtain ⟨members, rfl, hkind, hvalue, -⟩ := h
    rw [Length.ofJson?]
    simp [hkind.tag?, hvalue.get]
  | .field chain, _, h => by
    obtain ⟨members, rfl, hkind, hchain, -⟩ := h
    rw [Length.ofJson?]
    simp [hkind.tag?, hchain.required fun _ => chain.ofJson?_of_varies]
  | .rest, _, h => by
    obtain ⟨members, rfl, hkind, -⟩ := h
    rw [Length.ofJson?]
    simp [hkind.tag?]

/-- The fields of a call are found by their keys, in whatever order they stand. -/
theorem MethodCall.ofJson?_of_varies : ∀ (call : MethodCall) {j : Json},
    call.toForm.Varies j → MethodCall.ofJson? j = some call
  | ⟨receiver, method, parameters⟩, _, h => by
    obtain ⟨members, rfl, hreceiver, hmethod, hparameters, -⟩ := h
    rw [MethodCall.ofJson?]
    simp [hreceiver.required fun _ => receiver.ofJson?_of_varies,
      hmethod.required fun _ => method.ofJson?_of_varies,
      hparameters.defaulted fun _ => parameters.ofJson?_of_varies]

/-- Variants without fields need only their tag. -/
theorem Receiver.ofJson?_of_varies : ∀ (receiver : Receiver) {j : Json},
    receiver.toForm.Varies j → Receiver.ofJson? j = some receiver
  | .implicit, _, h | .super, _, h => by
    obtain ⟨members, rfl, hkind, -⟩ := h
    rw [Receiver.ofJson?]
    simp [hkind.tag?]
  | .object chain, _, h => by
    obtain ⟨members, rfl, hkind, hchain, -⟩ := h
    rw [Receiver.ofJson?]
    simp [hkind.tag?, hchain.required fun _ => chain.ofJson?_of_varies]
  | .static _, _, h => by
    obtain ⟨members, rfl, hkind, hclass, -⟩ := h
    rw [Receiver.ofJson?]
    simp [hkind.tag?, hclass.get]
  | .dynamic name, _, h => by
    obtain ⟨members, rfl, hkind, hname, -⟩ := h
    rw [Receiver.ofJson?]
    simp [hkind.tag?, hname.required fun _ => name.ofJson?_of_varies]

/-- A method is named, or named at run time, as its tag says. -/
theorem MethodRef.ofJson?_of_varies : ∀ (method : MethodRef) {j : Json},
    method.toForm.Varies j → MethodRef.ofJson? j = some method
  | .named _, _, h => by
    obtain ⟨members, rfl, hkind, hname, -⟩ := h
    rw [MethodRef.ofJson?]
    simp [hkind.tag?, hname.get]
  | .dynamic name, _, h => by
    obtain ⟨members, rfl, hkind, hname, -⟩ := h
    rw [MethodRef.ofJson?]
    simp [hkind.tag?, hname.required fun _ => name.ofJson?_of_varies]

/-- A name is a literal or a chain, as its tag says. -/
theorem DynamicName.ofJson?_of_varies : ∀ (name : DynamicName) {j : Json},
    name.toForm.Varies j → DynamicName.ofJson? j = some name
  | .literal _, _, h => by
    obtain ⟨members, rfl, hkind, hvalue, -⟩ := h
    rw [DynamicName.ofJson?]
    simp [hkind.tag?, hvalue.get]
  | .field chain, _, h => by
    obtain ⟨members, rfl, hkind, hchain, -⟩ := h
    rw [DynamicName.ofJson?]
    simp [hkind.tag?, hchain.required fun _ => chain.ofJson?_of_varies]

/-- Groups of parameters that are left out are read as empty. -/
theorem CallParameters.ofJson?_of_varies : ∀ (parameters : CallParameters) {j : Json},
    parameters.toForm.Varies j → CallParameters.ofJson? j = some parameters
  | ⟨single, exporting, importing, changing, receiving, _⟩, _, h => by
    obtain ⟨members, rfl, hsingle, hexporting, himporting, hchanging, hreceiving, hexceptions, -⟩
      := h
    rw [optionalSourceForm_eq] at hsingle
    rw [optionalTargetBindingForm_eq] at hreceiving
    rw [CallParameters.ofJson?]
    simp [Json.checkObject,
      hsingle.optional Source.toForm_ne_null (read_optionalSource single),
      hexporting.defaulted fun _ hv => hv.items? fun _ => mapM_bindings exporting,
      himporting.defaulted fun _ hv => hv.items? fun _ => mapM_targetBindings importing,
      hchanging.defaulted fun _ hv => hv.items? fun _ => mapM_targetBindings changing,
      hreceiving.optional TargetBinding.toForm_ne_null (read_optionalTargetBinding receiving),
      hexceptions.getD]

/-- Bindings are read again one by one. -/
theorem mapM_bindings : ∀ (bindings : List Binding) {values : List Json},
    Form.ItemsVary (bindingForms bindings) values → values.mapM Binding.ofJson? = some bindings
  | [], _, rfl => rfl
  | binding :: rest, _, ⟨value, others, rfl, hvalue, hothers⟩ => by
    simp [binding.ofJson?_of_varies hvalue, mapM_bindings rest hothers]

/-- A binding is read from its two fields. -/
theorem Binding.ofJson?_of_varies : ∀ (binding : Binding) {j : Json},
    binding.toForm.Varies j → Binding.ofJson? j = some binding
  | ⟨_, value⟩, _, h => by
    obtain ⟨members, rfl, hname, hvalue, -⟩ := h
    rw [Binding.ofJson?]
    simp [hname.get, hvalue.required fun _ => value.ofJson?_of_varies]

theorem mapM_targetBindings : ∀ (bindings : List TargetBinding) {values : List Json},
    Form.ItemsVary (targetBindingForms bindings) values →
      values.mapM TargetBinding.ofJson? = some bindings
  | [], _, rfl => rfl
  | binding :: rest, _, ⟨value, others, rfl, hvalue, hothers⟩ => by
    simp [binding.ofJson?_of_varies hvalue, mapM_targetBindings rest hothers]

theorem read_optionalTargetBinding : ∀ (o : Option TargetBinding) (binding : TargetBinding),
    o = some binding → ∀ v, binding.toForm.Varies v → TargetBinding.ofJson? v = some binding
  | some binding, _, rfl, _, h => binding.ofJson?_of_varies h

/-- A binding of a target is read from its two fields. -/
theorem TargetBinding.ofJson?_of_varies : ∀ (binding : TargetBinding) {j : Json},
    binding.toForm.Varies j → TargetBinding.ofJson? j = some binding
  | ⟨_, target⟩, _, h => by
    obtain ⟨members, rfl, hname, htarget, -⟩ := h
    rw [TargetBinding.ofJson?]
    simp [hname.get, htarget.required fun _ => target.ofJson?_of_varies]

end

instance : LawfulCodec Source where
  formOf := Source.toForm
  json_formOf source := source.writes_toForm.1
  distinct_formOf source := source.writes_toForm.2
  formOf_ne_null := Source.toForm_ne_null
  decode?_of_varies := Source.ofJson?_of_varies _

instance : LawfulCodec FieldChain where
  formOf := FieldChain.toForm
  json_formOf chain := chain.writes_toForm.1
  distinct_formOf chain := chain.writes_toForm.2
  formOf_ne_null chain := by cases chain; nofun
  decode?_of_varies := FieldChain.ofJson?_of_varies _

instance : LawfulCodec MethodCall where
  formOf := MethodCall.toForm
  json_formOf call := call.writes_toForm.1
  distinct_formOf call := call.writes_toForm.2
  formOf_ne_null call := by cases call; nofun
  decode?_of_varies := MethodCall.ofJson?_of_varies _

instance : LawfulCodec DynamicName where
  formOf := DynamicName.toForm
  json_formOf name := name.writes_toForm.1
  distinct_formOf name := name.writes_toForm.2
  formOf_ne_null name := by cases name <;> nofun
  decode?_of_varies := DynamicName.ofJson?_of_varies _

instance : LawfulCodec Binding where
  formOf := Binding.toForm
  json_formOf binding := binding.writes_toForm.1
  distinct_formOf binding := binding.writes_toForm.2
  formOf_ne_null binding := by cases binding; nofun
  decode?_of_varies := Binding.ofJson?_of_varies _

instance : LawfulCodec TargetBinding where
  formOf := TargetBinding.toForm
  json_formOf binding := binding.writes_toForm.1
  distinct_formOf binding := binding.writes_toForm.2
  formOf_ne_null := TargetBinding.toForm_ne_null
  decode?_of_varies := TargetBinding.ofJson?_of_varies _

/-! ## Conditions -/

namespace Condition

mutual

/-- The form of a condition. -/
def toForm : Condition → Form
  | .compare left operator right =>
    .tagged "kind" "compare" [required "left" (formOf left), required "op" (formOf operator),
      required "right" (formOf right)]
  | .predicate operand property negated =>
    .tagged "kind" "predicate" [required "operand" (formOf operand),
      required "predicate" (formOf property),
      defaulted "negated" (negated = false) (formOf negated)]
  | .within operand range negated =>
    .tagged "kind" "in" [required "operand" (formOf operand), required "range" (formOf range),
      defaulted "negated" (negated = false) (formOf negated)]
  | .not inner => .tagged "kind" "not" [required "inner" inner.toForm]
  | .and items => .tagged "kind" "and" [required "items" (.list (conditionForms items))]
  | .or items => .tagged "kind" "or" [required "items" (.list (conditionForms items))]
  | .paren inner => .tagged "kind" "paren" [required "inner" inner.toForm]
  | .unsupported name text span =>
    .tagged "kind" "unsupported" [required "name" (formOf name), required "text" (formOf text),
      required "span" (formOf span)]

/-- The forms of conditions. -/
def conditionForms : List Condition → List Form
  | [] => []
  | item :: rest => item.toForm :: conditionForms rest

end

mutual

/-- A condition is written as its form. -/
theorem writes_toForm : ∀ condition : Condition, condition.toForm.Writes condition.toJson
  | .compare .. | .predicate .. | .within .. | .unsupported .. => by simp [toForm, toJson]
  | .not inner | .paren inner => by simp [toForm, toJson, writes_toForm inner]
  | .and items | .or items => by simp [toForm, toJson, write_conditionForms items]

/-- Conditions are written one by one. -/
theorem write_conditionForms : ∀ items : List Condition,
    Form.ItemsWrite (conditionForms items) (conditionsToJson items)
  | [] => ⟨rfl, trivial⟩
  | item :: rest => by
    simp [conditionForms, conditionsToJson, writes_toForm item, write_conditionForms rest]

end

mutual

/-- A condition is read from every variation of its form. -/
theorem ofJson?_of_varies :
    ∀ (condition : Condition) {j : Json}, condition.toForm.Varies j → ofJson? j = some condition
  | .compare _ _ _, _, h => by
    obtain ⟨members, rfl, hkind, hleft, hoperator, hright, -⟩ := h
    rw [ofJson?]
    simp [hkind.tag?, hleft.get, hoperator.get, hright.get]
  | .predicate _ _ _, _, h => by
    obtain ⟨members, rfl, hkind, hoperand, hpredicate, hnegated, -⟩ := h
    rw [ofJson?]
    simp [hkind.tag?, hoperand.get, hpredicate.get, hnegated.getD]
  | .within _ _ _, _, h => by
    obtain ⟨members, rfl, hkind, hoperand, hrange, hnegated, -⟩ := h
    rw [ofJson?]
    simp [hkind.tag?, hoperand.get, hrange.get, hnegated.getD]
  | .not inner, _, h | .paren inner, _, h => by
    obtain ⟨members, rfl, hkind, hinner, -⟩ := h
    rw [ofJson?]
    simp [hkind.tag?, hinner.required fun _ => ofJson?_of_varies inner]
  | .and items, _, h | .or items, _, h => by
    obtain ⟨members, rfl, hkind, hitems, -⟩ := h
    have hread := hitems.required fun _ hv => hv.items? fun _ => mapM_conditions items
    rw [ofJson?]
    simp [hkind.tag?, hread]
  | .unsupported _ _ _, _, h => by
    obtain ⟨members, rfl, hkind, hname, htext, hspan, -⟩ := h
    rw [ofJson?]
    simp [hkind.tag?, hname.get, htext.get, hspan.get]

/-- Conditions are read again one by one. -/
theorem mapM_conditions : ∀ (items : List Condition) {values : List Json},
    Form.ItemsVary (conditionForms items) values → values.mapM ofJson? = some items
  | [], _, rfl => rfl
  | item :: rest, _, ⟨value, others, rfl, hvalue, hothers⟩ => by
    simp [ofJson?_of_varies item hvalue, mapM_conditions rest hothers]

end

end Condition

instance : LawfulCodec Condition where
  formOf := Condition.toForm
  json_formOf condition := condition.writes_toForm.1
  distinct_formOf condition := condition.writes_toForm.2
  formOf_ne_null condition := by cases condition <;> nofun
  decode?_of_varies := Condition.ofJson?_of_varies _

end AbapLowering
