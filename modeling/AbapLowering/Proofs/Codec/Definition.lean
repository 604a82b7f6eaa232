import AbapLowering.Proofs.Codec.Lawful
import AbapLowering.Location
import AbapLowering.Registry

/-!
# Codecs of data types and definitions

Places in source files, data types, classes and interfaces, and the registry of global objects are
read from every variation of what is written for them. A data type and an initial value contain
others of their kind, so their forms and their proofs follow the recursion of the encoder.
-/

namespace AbapLowering

open FieldForm (required optional defaulted)

/-! ## Places in source files -/

instance : LawfulCodec Position where
  formOf p := .record [required "row" (formOf p.row), required "col" (formOf p.col)]
  json_formOf p := by simp [encode]
  distinct_formOf p := by simp
  formOf_ne_null p := nofun
  decode?_of_varies h := by
    obtain ⟨members, rfl, hrow, hcol, -⟩ := h
    simp [decode?, hrow.get, hcol.get]

instance : LawfulCodec Span where
  formOf s := .record [required "start" (formOf s.start), required "end" (formOf s.stop)]
  json_formOf s := by simp [encode]
  distinct_formOf s := by simp
  formOf_ne_null s := nofun
  decode?_of_varies h := by
    obtain ⟨members, rfl, hstart, hstop, -⟩ := h
    simp [decode?, hstart.get, hstop.get]

instance : LawfulCodec Token where
  formOf t := .record [required "text" (formOf t.text), required "start" (formOf t.start)]
  json_formOf t := by simp [encode]
  distinct_formOf t := by simp
  formOf_ne_null t := nofun
  decode?_of_varies h := by
    obtain ⟨members, rfl, htext, hstart, -⟩ := h
    simp [decode?, htext.get, hstart.get]

/-! ## Data types -/

instance : LawfulCodec TableKind := .ofNames _ _ (by rintro (_ | _ | _ | _) <;> rfl)

instance : LawfulCodec TableOptions where
  formOf o := .record [required "withHeader" (formOf o.withHeader), required "type" (formOf o.kind),
    required "isUnique" (formOf o.isUnique), required "keyFields" (formOf o.keyFields)]
  json_formOf o := by simp [encode]
  distinct_formOf o := by simp
  formOf_ne_null o := nofun
  decode?_of_varies h := by
    obtain ⟨members, rfl, hheader, hkind, hunique, hkeys, -⟩ := h
    simp [decode?, hheader.get, hkind.get, hunique.get, hkeys.get]

namespace DataType

mutual

/-- The form of a data type. -/
def toForm : DataType → Form
  | .integer name => .tagged "kind" "integer" [optional "qualified_name" (name.map formOf)]
  | .character length name =>
    .tagged "kind" "character"
      [required "length" (formOf length), optional "qualified_name" (name.map formOf)]
  | .string name => .tagged "kind" "string" [optional "qualified_name" (name.map formOf)]
  | .xString => .tagged "kind" "x_string" []
  | .hex length => .tagged "kind" "hex" [required "length" (formOf length)]
  | .packed length decimals =>
    .tagged "kind" "packed"
      [required "length" (formOf length), required "decimals" (formOf decimals)]
  | .float => .tagged "kind" "float" []
  | .date => .tagged "kind" "date" []
  | .time => .tagged "kind" "time" []
  | .numc length => .tagged "kind" "numc" [required "length" (formOf length)]
  | .structured components name =>
    .tagged "kind" "structure" [required "components" (.list (componentForms components)),
      optional "qualified_name" (name.map formOf)]
  | .table row options =>
    .tagged "kind" "table" [required "row" row.toForm, required "options" (formOf options)]
  | .dataReference target => .tagged "kind" "data_reference" [required "target" target.toForm]
  | .objectReference name =>
    .tagged "kind" "object_reference" [optional "class" (name.map formOf)]
  | .generic name => .tagged "kind" "generic" [required "name" (formOf name)]
  | .unknown name reason =>
    .tagged "kind" "unknown" [required "name" (formOf name), required "reason" (formOf reason)]

/-- The forms of components. -/
def componentForms : List Component → List Form
  | [] => []
  | ⟨name, type⟩ :: rest =>
    .record [required "name" (formOf name), required "type" type.toForm] :: componentForms rest

end

mutual

/-- A data type is written as its form. -/
theorem writes_toForm : ∀ t : DataType, t.toForm.Writes t.toJson
  | .structured components _ => by simp [toForm, toJson, write_componentForms components]
  | .table row _ => by simp [toForm, toJson, writes_toForm row]
  | .dataReference target => by simp [toForm, toJson, writes_toForm target]
  | .integer _ | .character .. | .string _ | .xString | .hex _ | .packed .. | .float | .date | .time
  | .numc _ | .objectReference _ | .generic _ | .unknown .. => by simp [toForm, toJson]

theorem write_componentForms : ∀ components : List Component,
    Form.ItemsWrite (componentForms components) (componentsToJson components)
  | [] => ⟨rfl, trivial⟩
  | ⟨_, type⟩ :: rest => by
    simp [componentForms, componentsToJson, writes_toForm type, write_componentForms rest]

end

/-- The reader of a component. -/
def componentOfJson? (w : Json) : Option Component := do
  some { name := ← w.get "name", type := ← w.required "type" fun t _ => ofJson? t }

mutual

/-- A data type is read from every variation of its form. -/
theorem ofJson?_of_varies : ∀ (t : DataType) {j : Json}, t.toForm.Varies j → ofJson? j = some t
  | .integer _, _, h | .string _, _, h => by
    obtain ⟨members, rfl, hkind, hname, -⟩ := h
    rw [ofJson?]
    simp [hkind.tag?, hname.get?]
  | .character _ _, _, h => by
    obtain ⟨members, rfl, hkind, hlength, hname, -⟩ := h
    rw [ofJson?]
    simp [hkind.tag?, hlength.get, hname.get?]
  | .xString, _, h | .float, _, h | .date, _, h | .time, _, h => by
    obtain ⟨members, rfl, hkind, -⟩ := h
    rw [ofJson?]
    simp [hkind.tag?]
  | .hex _, _, h | .numc _, _, h => by
    obtain ⟨members, rfl, hkind, hlength, -⟩ := h
    rw [ofJson?]
    simp [hkind.tag?, hlength.get]
  | .packed _ _, _, h => by
    obtain ⟨members, rfl, hkind, hlength, hdecimals, -⟩ := h
    rw [ofJson?]
    simp [hkind.tag?, hlength.get, hdecimals.get]
  | .structured components _, _, h => by
    obtain ⟨members, rfl, hkind, hcomponents, hname, -⟩ := h
    have hitems := hcomponents.required fun _ hv => hv.items? fun _ => mapM_components components
    -- the reader of a type has the reader of its components written out
    simp only [componentOfJson?, Option.bind_eq_bind] at hitems
    rw [ofJson?]
    simp [hkind.tag?, hitems, hname.get?]
  | .table row _, _, h => by
    obtain ⟨members, rfl, hkind, hrow, hoptions, -⟩ := h
    rw [ofJson?]
    simp [hkind.tag?, hrow.required fun _ => ofJson?_of_varies row, hoptions.get]
  | .dataReference target, _, h => by
    obtain ⟨members, rfl, hkind, htarget, -⟩ := h
    rw [ofJson?]
    simp [hkind.tag?, htarget.required fun _ => ofJson?_of_varies target]
  | .objectReference _, _, h => by
    obtain ⟨members, rfl, hkind, hname, -⟩ := h
    rw [ofJson?]
    simp [hkind.tag?, hname.get?]
  | .generic _, _, h => by
    obtain ⟨members, rfl, hkind, hname, -⟩ := h
    rw [ofJson?]
    simp [hkind.tag?, hname.get]
  | .unknown _ _, _, h => by
    obtain ⟨members, rfl, hkind, hname, hreason, -⟩ := h
    rw [ofJson?]
    simp [hkind.tag?, hname.get, hreason.get]

/-- Components are read again one by one. -/
theorem mapM_components : ∀ (components : List Component) {values : List Json},
    Form.ItemsVary (componentForms components) values →
      values.mapM componentOfJson? = some components
  | [], _, rfl => rfl
  | ⟨name, type⟩ :: rest, _, h => by
    obtain ⟨value, others, rfl, ⟨members, rfl, hname, htype, -⟩, hothers⟩ := h
    simp [componentOfJson?, hname.get, htype.required fun _ => ofJson?_of_varies type,
      mapM_components rest hothers]

end

end DataType

instance : LawfulCodec DataType where
  formOf := DataType.toForm
  json_formOf a := a.writes_toForm.1
  distinct_formOf a := a.writes_toForm.2
  formOf_ne_null t := by cases t <;> nofun
  decode?_of_varies := DataType.ofJson?_of_varies _

/-! ## Initial values -/

namespace AttributeValue

mutual

/-- The form of an initial value. -/
def toForm : AttributeValue → Form
  | .scalar text => formOf text
  | .structured components => .list (componentValueForms components)

/-- The forms of the initial values of components. -/
def componentValueForms : List ComponentValue → List Form
  | [] => []
  | ⟨name, value⟩ :: rest =>
    .record [required "name" (formOf name), required "value" value.toForm]
      :: componentValueForms rest

end

mutual

/-- An initial value is written as its form. -/
theorem writes_toForm : ∀ value : AttributeValue, value.toForm.Writes value.toJson
  | .scalar _ => ⟨rfl, trivial⟩
  | .structured components => by simp [toForm, toJson, write_componentValueForms components]

theorem write_componentValueForms : ∀ components : List ComponentValue,
    Form.ItemsWrite (componentValueForms components) (componentValuesToJson components)
  | [] => ⟨rfl, trivial⟩
  | ⟨_, value⟩ :: rest => by
    simp [componentValueForms, componentValuesToJson, writes_toForm value,
      write_componentValueForms rest]

end

/-- The reader of the initial value of a component. -/
def componentOfJson? (v : Json) : Option ComponentValue := do
  some { name := ← v.get "name", value := ← v.required "value" fun w _ => ofJson? w }

mutual

/-- An initial value is read from every variation of its form. -/
theorem ofJson?_of_varies :
    ∀ (value : AttributeValue) {j : Json}, value.toForm.Varies j → ofJson? j = some value
  | .scalar _, _, h => by
    obtain rfl : _ = Json.str _ := h
    rw [ofJson?]
    rfl
  | .structured components, _, h => by
    obtain ⟨values, rfl, hitems⟩ := h
    have hread := mapM_componentValues components hitems
    rw [← Json.items?_arr] at hread
    simp only [componentOfJson?, Option.bind_eq_bind] at hread
    rw [ofJson?]
    simp [Json.text?, hread]

/-- The values of components are read again one by one. -/
theorem mapM_componentValues : ∀ (components : List ComponentValue) {values : List Json},
    Form.ItemsVary (componentValueForms components) values →
      values.mapM componentOfJson? = some components
  | [], _, rfl => rfl
  | ⟨name, value⟩ :: rest, _, h => by
    obtain ⟨_, others, rfl, ⟨members, rfl, hname, hvalue, -⟩, hothers⟩ := h
    simp [componentOfJson?, hname.get, hvalue.required fun _ => ofJson?_of_varies value,
      mapM_componentValues rest hothers]

end

end AttributeValue

instance : LawfulCodec AttributeValue where
  formOf := AttributeValue.toForm
  json_formOf a := a.writes_toForm.1
  distinct_formOf a := a.writes_toForm.2
  formOf_ne_null value := by cases value <;> nofun
  decode?_of_varies := AttributeValue.ofJson?_of_varies _

/-! ## Members of classes and interfaces -/

instance : LawfulCodec Attribute where
  formOf a := .record [required "name" (formOf a.name), required "type" (formOf a.type),
    optional "value" (a.value.map formOf)]
  json_formOf a := by simp [encode]
  distinct_formOf a := by simp
  formOf_ne_null a := nofun
  decode?_of_varies h := by
    obtain ⟨members, rfl, hname, htype, hvalue, -⟩ := h
    simp [decode?, hname.get, htype.get, hvalue.get?]

instance : LawfulCodec Attributes where
  formOf a := .record [defaulted "instance" (a.inst = []) (formOf a.inst),
    defaulted "statics" (a.statics = []) (formOf a.statics),
    defaulted "constants" (a.constants = []) (formOf a.constants)]
  json_formOf a := by simp [encode]
  distinct_formOf a := by simp
  formOf_ne_null a := nofun
  decode?_of_varies h := by
    obtain ⟨members, rfl, hinst, hstatics, hconstants, -⟩ := h
    simp [decode?, Json.checkObject, hinst.getD, hstatics.getD, hconstants.getD]

instance : LawfulCodec Alias where
  formOf a := .record [required "name" (formOf a.name), required "component" (formOf a.component)]
  json_formOf a := by simp [encode]
  distinct_formOf a := by simp
  formOf_ne_null a := nofun
  decode?_of_varies h := by
    obtain ⟨members, rfl, hname, hcomponent, -⟩ := h
    simp [decode?, hname.get, hcomponent.get]

instance : LawfulCodec ParameterDirection := .ofNames _ _ (by rintro (_ | _ | _ | _) <;> rfl)

instance : LawfulCodec MethodParameter where
  formOf p := .record [required "name" (formOf p.name), required "direction" (formOf p.direction),
    required "type" (formOf p.type), defaulted "optional" (p.optional = false) (formOf p.optional),
    defaulted "preferred" (p.preferred = false) (formOf p.preferred)]
  json_formOf p := by simp [encode]
  distinct_formOf p := by simp
  formOf_ne_null p := nofun
  decode?_of_varies h := by
    obtain ⟨members, rfl, hname, hdirection, htype, hoptional, hpreferred, -⟩ := h
    simp [decode?, hname.get, hdirection.get, htype.get, hoptional.getD, hpreferred.getD]

instance : LawfulCodec MethodDefinition where
  formOf m := .record [required "name" (formOf m.name),
    defaulted "is_static" (m.isStatic = false) (formOf m.isStatic),
    defaulted "parameters" (m.parameters = []) (formOf m.parameters)]
  json_formOf m := by simp [encode]
  distinct_formOf m := by simp
  formOf_ne_null m := nofun
  decode?_of_varies h := by
    obtain ⟨members, rfl, hname, hstatic, hparameters, -⟩ := h
    simp [decode?, hname.get, hstatic.getD, hparameters.getD]

/-! ## Classes and interfaces -/

namespace Definition

/-- The forms of name, reach and file of a definition. -/
def headForms (d : Definition) : List FieldForm :=
  [required "name" (formOf d.name), defaulted "global" (d.isGlobal = false) (formOf d.isGlobal),
    required "file" (formOf d.file)]

/-- The forms of the members of a definition. -/
def memberForms (d : Definition) : List FieldForm :=
  [defaulted "implementing" (d.implementing = []) (formOf d.implementing),
    defaulted "attributes" (d.attributes = .none) (formOf d.attributes),
    defaulted "aliases" (d.aliases = []) (formOf d.aliases),
    defaulted "methods" (d.methods = []) (formOf d.methods)]

theorem jsonFields_headForms (d : Definition) : Form.jsonFields d.headForms = d.headFields := by
  simp [headForms, headFields]

theorem jsonFields_memberForms (d : Definition) :
    Form.jsonFields d.memberForms = d.memberFields := by
  simp [memberForms, memberFields]

/-- What classes and interfaces have in common is read from the fields in which it stands. -/
theorem ofJson?_of_fieldsVary {d : Definition} {members : List (String × Json)}
    (hhead : Form.FieldsVary d.headForms members)
    (hmembers : Form.FieldsVary d.memberForms members) : ofJson? (.obj members) = some d := by
  obtain ⟨hname, hglobal, hfile, -⟩ := hhead
  obtain ⟨himplementing, hattributes, haliases, hmethods, -⟩ := hmembers
  simp [ofJson?, hname.get, hglobal.getD, hfile.get, himplementing.getD, hattributes.getD,
    haliases.getD, hmethods.getD]

end Definition

instance : LawfulCodec ClassDefinition where
  formOf c := .record (c.toDefinition.headForms
    ++ [optional "super_class" (c.superClass.map formOf)] ++ c.toDefinition.memberForms)
  json_formOf c := by
    simp [encode, Definition.jsonFields_headForms, Definition.jsonFields_memberForms]
  distinct_formOf c := by simp [Definition.headForms, Definition.memberForms]
  formOf_ne_null c := nofun
  decode?_of_varies h := by
    obtain ⟨members, rfl, h⟩ := h
    obtain ⟨h, hmembers⟩ := Form.fieldsVary_append.mp h
    obtain ⟨hhead, hsuper, -⟩ := Form.fieldsVary_append.mp h
    simp [decode?, Definition.ofJson?_of_fieldsVary hhead hmembers, hsuper.get?]

instance : LawfulCodec InterfaceDefinition where
  formOf i := .record (i.toDefinition.headForms ++ i.toDefinition.memberForms)
  json_formOf i := by
    simp [encode, Definition.jsonFields_headForms, Definition.jsonFields_memberForms]
  distinct_formOf i := by simp [Definition.headForms, Definition.memberForms]
  formOf_ne_null i := nofun
  decode?_of_varies h := by
    obtain ⟨members, rfl, h⟩ := h
    obtain ⟨hhead, hmembers⟩ := Form.fieldsVary_append.mp h
    simp [decode?, Definition.ofJson?_of_fieldsVary hhead hmembers]

/-! ## The registry -/

instance : LawfulCodec ObjectType := .ofNames _ _ (by rintro (_ | _ | _ | _) <;> rfl)

instance : LawfulCodec ObjectRef where
  formOf o := .record [required "type" (formOf o.type), required "name" (formOf o.name)]
  json_formOf o := by simp [encode]
  distinct_formOf o := by simp
  formOf_ne_null o := nofun
  decode?_of_varies h := by
    obtain ⟨members, rfl, htype, hname, -⟩ := h
    simp [decode?, htype.get, hname.get]

instance : LawfulCodec Registry where
  formOf r := .record [defaulted "classes" (r.classes = ∅) (formOf r.classes),
    defaulted "interfaces" (r.interfaces = ∅) (formOf r.interfaces),
    defaulted "files" (r.files = ∅) (formOf r.files)]
  json_formOf r := by simp [encode]
  distinct_formOf r := by simp
  formOf_ne_null r := nofun
  decode?_of_varies h := by
    obtain ⟨members, rfl, hclasses, hinterfaces, hfiles, -⟩ := h
    simp [decode?, Json.checkObject, hclasses.getD, hinterfaces.getD, hfiles.getD]

end AbapLowering
