import AbapLowering.Json.Basic
import Mathlib.Data.List.Basic

/-!
# Forms of values

The form of a value is its JSON, in which those fields are marked that a reader fills in when they
are missing. What varies from the form is the same JSON with marked fields left out, with fields of
other names added and with the fields of its objects in another order.

- What is written for a value is a variation of its form if no record repeats a key
  (`Form.varies_json`).
- A variation stays one when the fields of its object are reordered (`Form.Varies.perm`), when one
  of another key is added (`Form.Varies.add`) and when one that may be missing is removed
  (`Form.Varies.remove`).
-/

namespace AbapLowering

mutual

/-- The JSON of a value, and what of it may vary. -/
inductive Form where
  /-- Nothing varies. -/
  | leaf (value : Json)
  | list (items : List Form)
  /-- A finite map: the entries may be reordered, but none added or left out. -/
  | map (entries : List FieldForm)
  /-- A record: the fields may be reordered and others may stand beside them. -/
  | record (fields : List FieldForm)

/-- A field of an object. -/
structure FieldForm where
  key : String
  /-- Whether the field may be left out. -/
  omissible : Prop
  form : Form

end

/-! ## What is written -/

mutual

/-- The JSON value with all fields in their places. -/
def Form.json : Form → Json
  | .leaf value => value
  | .list items => .arr (Form.jsonItems items)
  | .map entries => .obj (Form.jsonFields entries)
  | .record fields => .obj (Form.jsonFields fields)

/-- The JSON values of some forms. -/
def Form.jsonItems : List Form → List Json
  | [] => []
  | item :: rest => item.json :: Form.jsonItems rest

/-- The JSON fields of some fields. -/
def Form.jsonFields : List FieldForm → List (String × Json)
  | [] => []
  | field :: rest => field.json :: Form.jsonFields rest

/-- A field as JSON. -/
def FieldForm.json : FieldForm → String × Json
  | ⟨key, _, form⟩ => (key, form.json)

end

mutual

/-- Whether the fields of each record have keys of their own. -/
def Form.Distinct : Form → Prop
  | .leaf _ => True
  | .list items => Form.ItemsDistinct items
  | .map entries => Form.FieldsDistinct entries
  | .record fields => (fields.map FieldForm.key).Nodup ∧ Form.FieldsDistinct fields

/-- Whether that holds within some forms. -/
def Form.ItemsDistinct : List Form → Prop
  | [] => True
  | item :: rest => item.Distinct ∧ Form.ItemsDistinct rest

/-- Whether that holds within some fields. -/
def Form.FieldsDistinct : List FieldForm → Prop
  | [] => True
  | field :: rest => field.Distinct ∧ Form.FieldsDistinct rest

/-- Whether that holds within a field. -/
def FieldForm.Distinct : FieldForm → Prop
  | ⟨_, _, form⟩ => form.Distinct

end

/-- Whether a form is written as a JSON value in which no record repeats a key. -/
abbrev Form.Writes (form : Form) (j : Json) : Prop := form.json = j ∧ form.Distinct

/-- Whether some forms are written as some JSON values. -/
abbrev Form.ItemsWrite (items : List Form) (values : List Json) : Prop :=
  Form.jsonItems items = values ∧ Form.ItemsDistinct items

attribute [simp] Form.json Form.jsonItems Form.jsonFields FieldForm.json
attribute [simp] Form.Distinct Form.ItemsDistinct Form.FieldsDistinct FieldForm.Distinct
attribute [simp] Form.Writes Form.ItemsWrite

/-! ## What varies -/

/-- The members of an object under one key. -/
def membersOf (key : String) (members : List (String × Json)) : List (String × Json) :=
  members.filter fun member => member.1 == key

mutual

/-- Whether a JSON value is a variation of a form. -/
def Form.Varies : Form → Json → Prop
  | .leaf value, j => j = value
  | .list items, j => ∃ values, j = .arr values ∧ Form.ItemsVary items values
  | .map entries, j =>
    ∃ members ordered, j = .obj members ∧ members.Perm ordered ∧ Form.EntriesVary entries ordered
  | .record fields, j => ∃ members, j = .obj members ∧ Form.FieldsVary fields members

/-- Whether each value is a variation of the form in its place. -/
def Form.ItemsVary : List Form → List Json → Prop
  | [], values => values = []
  | item :: rest, values =>
    ∃ value others, values = value :: others ∧ item.Varies value ∧ Form.ItemsVary rest others

/-- Whether each member is a variation of the entry in its place. -/
def Form.EntriesVary : List FieldForm → List (String × Json) → Prop
  | [], members => members = []
  | entry :: rest, members =>
    ∃ member others, members = member :: others ∧ entry.StandsAt member
      ∧ Form.EntriesVary rest others

/-- Whether each field stands among the members of an object. -/
def Form.FieldsVary : List FieldForm → List (String × Json) → Prop
  | [], _ => True
  | field :: rest, members => field.StandsIn members ∧ Form.FieldsVary rest members

/-- Whether a member has the key of a field and a variation of its value. -/
def FieldForm.StandsAt : FieldForm → String × Json → Prop
  | ⟨key, _, form⟩, member => member.1 = key ∧ form.Varies member.2

/-- Whether a field stands among the members of an object: there is one of its key, with a variation
of its value, or there is none and none is needed. -/
def FieldForm.StandsIn : FieldForm → List (String × Json) → Prop
  | ⟨key, omissible, form⟩, members =>
    (omissible ∧ membersOf key members = [])
      ∨ ∃ value, membersOf key members = [(key, value)] ∧ form.Varies value

end

section Members

variable {key : String} {members others : List (String × Json)}

/-- A single member of a key stays the only one in any order. -/
theorem membersOf_perm {value : Json} (hperm : members.Perm others)
    (h : membersOf key members = [(key, value)]) : membersOf key others = [(key, value)] :=
  List.perm_singleton.mp (h ▸ (hperm.filter _).symm)

/-- A key that does not occur does not occur in another order either. -/
theorem membersOf_nil_perm (hperm : members.Perm others) (h : membersOf key members = []) :
    membersOf key others = [] :=
  List.perm_nil.mp (h ▸ (hperm.filter _).symm)

/-- A member with another key does not matter. -/
theorem membersOf_cons_of_ne {k : String} (h : k ≠ key) (value : Json) :
    membersOf key ((k, value) :: members) = membersOf key members := by
  simp [membersOf, h]

theorem membersOf_remove_of_ne {k : String} (h : k ≠ key) :
    membersOf key (members.filter fun member => member.1 != k) = membersOf key members := by
  rw [membersOf, List.filter_filter]
  refine List.filter_congr fun member _ => ?_
  by_cases hk : member.1 = key
  · simp [hk, Ne.symm h]
  · simp [hk]

/-- What is removed does not occur. -/
theorem membersOf_remove_self :
    membersOf key (members.filter fun member => member.1 != key) = [] := by
  simp [membersOf, List.filter_filter]

end Members

/-- A field stands in an object if its key occurs once, or not at all where it may be left out. -/
theorem FieldForm.standsIn_iff {field : FieldForm} {members : List (String × Json)} :
    field.StandsIn members ↔ (field.omissible ∧ membersOf field.key members = [])
      ∨ ∃ value, membersOf field.key members = [(field.key, value)] ∧ field.form.Varies value := by
  cases field; rfl

namespace Form

/-- Each field of a record stands among the members of its variation. -/
theorem fieldsVary_iff {members : List (String × Json)} :
    ∀ {fields : List FieldForm},
      FieldsVary fields members ↔ ∀ field ∈ fields, field.StandsIn members
  | [] => by simp [FieldsVary]
  | field :: rest => by
    rw [FieldsVary, List.forall_mem_cons]
    exact and_congr_right fun _ => fieldsVary_iff

/-- The fields of a record may be looked at in two parts. -/
theorem fieldsVary_append {first second : List FieldForm} {members : List (String × Json)} :
    FieldsVary (first ++ second) members ↔
      FieldsVary first members ∧ FieldsVary second members := by
  simp only [fieldsVary_iff, List.forall_mem_append]

@[simp] theorem jsonFields_append (first second : List FieldForm) :
    jsonFields (first ++ second) = jsonFields first ++ jsonFields second := by
  induction first with
  | nil => rfl
  | cons field rest ih => simp [ih]

/-! ### The three ways to vary -/

section Ways

variable {fields : List FieldForm} {members others : List (String × Json)} {key : String}

/-- A record varies in each of its fields on its own. -/
theorem varies_record_iff : (record fields).Varies (.obj members) ↔
    ∀ field ∈ fields, field.StandsIn members := by
  rw [← fieldsVary_iff]
  exact ⟨fun ⟨_, heq, h⟩ => Json.obj.inj heq ▸ h, fun h => ⟨_, rfl, h⟩⟩

/-- The members of a record may be reordered. -/
theorem Varies.perm (h : (record fields).Varies (.obj members)) (hperm : members.Perm others) :
    (record fields).Varies (.obj others) := by
  refine varies_record_iff.mpr fun field hfield => FieldForm.standsIn_iff.mpr ?_
  rcases FieldForm.standsIn_iff.mp (varies_record_iff.mp h field hfield) with
    ⟨homit, hnone⟩ | ⟨value, hone, hvalue⟩
  · exact .inl ⟨homit, membersOf_nil_perm hperm hnone⟩
  · exact .inr ⟨value, membersOf_perm hperm hone, hvalue⟩

/-- A member of another key may be added. -/
theorem Varies.add (h : (record fields).Varies (.obj members)) (value : Json)
    (hkey : ∀ field ∈ fields, field.key ≠ key) :
    (record fields).Varies (.obj ((key, value) :: members)) := by
  refine varies_record_iff.mpr fun field hfield => FieldForm.standsIn_iff.mpr ?_
  rw [membersOf_cons_of_ne (hkey field hfield).symm value]
  exact FieldForm.standsIn_iff.mp (varies_record_iff.mp h field hfield)

/-- A member that may be missing may be removed. -/
theorem Varies.remove (h : (record fields).Varies (.obj members))
    (hkey : ∀ field ∈ fields, field.key = key → field.omissible) :
    (record fields).Varies (.obj (members.filter fun member => member.1 != key)) := by
  refine varies_record_iff.mpr fun field hfield => FieldForm.standsIn_iff.mpr ?_
  by_cases hk : field.key = key
  · exact .inl ⟨hkey field hfield hk, hk ▸ membersOf_remove_self⟩
  · rw [membersOf_remove_of_ne (Ne.symm hk)]
    exact FieldForm.standsIn_iff.mp (varies_record_iff.mp h field hfield)

end Ways

/-! ### A form varies to its own JSON -/

theorem mem_jsonFields :
    ∀ {fields : List FieldForm} {member : String × Json},
      member ∈ jsonFields fields → member.1 ∈ fields.map FieldForm.key
  | ⟨key, _, form⟩ :: rest, member, h => by
    rcases List.mem_cons.mp h with rfl | h
    · exact List.mem_cons_self
    · exact List.mem_cons_of_mem _ (mem_jsonFields h)

/-- The only member under the key of a field is what is written for the field. -/
theorem membersOf_jsonFields :
    ∀ {fields : List FieldForm}, (fields.map FieldForm.key).Nodup → ∀ field ∈ fields,
      membersOf field.key (jsonFields fields) = [(field.key, field.form.json)]
  | ⟨key, omissible, form⟩ :: rest, hnodup, field, hfield => by
    obtain ⟨hhead, hrest⟩ := List.nodup_cons.mp hnodup
    rcases List.mem_cons.mp hfield with rfl | hfield
    · -- the keys differ, so nothing else is written under this one
      have hnone : membersOf key (jsonFields rest) = [] :=
        List.filter_eq_nil_iff.mpr fun member hmember hkey =>
          hhead (beq_iff_eq.mp hkey ▸ mem_jsonFields hmember)
      simp only [jsonFields, FieldForm.json]
      rw [membersOf, List.filter_cons_of_pos (by simp)]
      exact congrArg _ hnone
    · have hne : key ≠ field.key := fun he =>
        hhead (List.mem_map.mpr ⟨field, hfield, he.symm⟩)
      simp only [jsonFields, FieldForm.json]
      rw [membersOf_cons_of_ne hne]
      exact membersOf_jsonFields hrest field hfield

mutual

/-- What is written for a value is a variation of its form. -/
theorem varies_json : ∀ form : Form, form.Distinct → form.Varies form.json
  | .leaf _, _ => rfl
  | .list items, h => ⟨_, rfl, itemsVary_json items h⟩
  | .map entries, h => ⟨_, _, rfl, .refl _, entriesVary_json entries h⟩
  | .record fields, h =>
    ⟨_, rfl, fieldsVary_iff.mpr fun field hfield =>
      FieldForm.standsIn_iff.mpr (.inr ⟨field.form.json, membersOf_jsonFields h.1 field hfield,
        fields_varies_json fields h.2 field hfield⟩)⟩

/-- What is written is one of its variations, item by item. -/
theorem itemsVary_json : ∀ items : List Form, ItemsDistinct items →
    ItemsVary items (jsonItems items)
  | [], _ => rfl
  | item :: rest, h => ⟨_, _, rfl, varies_json item h.1, itemsVary_json rest h.2⟩

theorem entriesVary_json : ∀ entries : List FieldForm, FieldsDistinct entries →
    EntriesVary entries (jsonFields entries)
  | [], _ => rfl
  | ⟨_, _, form⟩ :: rest, h =>
    ⟨_, _, rfl, ⟨rfl, varies_json form h.1⟩, entriesVary_json rest h.2⟩

theorem fields_varies_json : ∀ fields : List FieldForm, FieldsDistinct fields →
    ∀ field ∈ fields, field.form.Varies field.form.json
  | ⟨_, _, form⟩ :: rest, h, field, hfield => by
    rcases List.mem_cons.mp hfield with rfl | hfield
    · exact varies_json form h.1
    · exact fields_varies_json rest h.2 field hfield

end

end Form

end AbapLowering
