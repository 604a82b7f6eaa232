import AbapLowering.Proofs.Codec.Forms
import Mathlib.Data.List.Perm.Basic

/-!
# Lawful codecs

A codec is lawful if each value has a form that is written as the value's encoding and whose
variations are all read as the value. Each way of reading a field of an object has its lemma, which
takes the field from the variation it stands in (`FieldForm.StandsIn.required`, `optional` and
`defaulted`), and codecs of lists, finite maps and plain enumerations are lawful if those of their
parts are.
-/

namespace AbapLowering

/-! ## Kinds of fields -/

namespace FieldForm

/-- A field that must be there. -/
def required (key : String) (form : Form) : FieldForm := ⟨key, False, form⟩

/-- A field for which there may be no value: then it is `null` or left out. -/
def optional (key : String) (form? : Option Form) : FieldForm :=
  ⟨key, form? = none, form?.getD (.leaf .null)⟩

/-- A field that may be left out where it holds its default. -/
def defaulted (key : String) (isDefault : Prop) (form : Form) : FieldForm := ⟨key, isDefault, form⟩

variable (key : String) (isDefault : Prop) (form : Form)

@[simp] theorem key_required : (required key form).key = key := rfl
@[simp] theorem key_optional (form? : Option Form) : (optional key form?).key = key := rfl
@[simp] theorem key_defaulted : (defaulted key isDefault form).key = key := rfl

/-- A field that has to be there is written under its key. -/
@[simp] theorem json_required : (required key form).json = (key, form.json) := rfl
/-- A field that may be missing is written as null where it is. -/
@[simp] theorem json_optional (form? : Option Form) :
    (optional key form?).json = (key, (form?.getD (.leaf .null)).json) := rfl
@[simp] theorem json_defaulted : (defaulted key isDefault form).json = (key, form.json) := rfl

@[simp] theorem distinct_required : (required key form).Distinct ↔ form.Distinct := .rfl
@[simp] theorem distinct_optional (form? : Option Form) :
    (optional key form?).Distinct ↔ (form?.getD (.leaf .null)).Distinct := .rfl
@[simp] theorem distinct_defaulted : (defaulted key isDefault form).Distinct ↔ form.Distinct := .rfl

end FieldForm

/-- A record that starts with its tag. -/
def Form.tagged (key tag : String) (fields : List FieldForm) : Form :=
  .record (.required key (.leaf (.str tag)) :: fields)

@[simp] theorem Form.json_tagged (key tag : String) (fields : List FieldForm) :
    (Form.tagged key tag fields).json = Json.tagged key tag (jsonFields fields) := rfl

/-- The fields of a variant have different keys, which differ from that of the tag. -/
@[simp] theorem Form.distinct_tagged (key tag : String) (fields : List FieldForm) :
    (Form.tagged key tag fields).Distinct ↔
      (key :: fields.map FieldForm.key).Nodup ∧ FieldsDistinct fields := by
  simp [Form.tagged]

/-- Only `null` varies to `null`. -/
theorem Form.Varies.ne_null {form : Form} {j : Json} (h : form.Varies j)
    (hform : form ≠ .leaf .null) : j ≠ .null := by
  rintro rfl
  cases form with
  | leaf value => exact hform (h ▸ rfl)
  | list items => obtain ⟨_, hnull, -⟩ := h; cases hnull
  | map entries => obtain ⟨_, _, hnull, -⟩ := h; cases hnull
  | record fields => obtain ⟨_, hnull, -⟩ := h; cases hnull

/-! ## Reading a field that stands in an object -/

section Reading

variable {α : Type} {key : String} {form : Form} {members : List (String × Json)} {a : α}
  {decode : Json → Option α}

/-- A field that has to be there is looked up once and then decoded. -/
theorem Json.required_eq (j : Json) (key : String) (decode : Json → Option α) :
    (j.required key fun v _ => decode v) = (j.field? key).join.bind decode := by
  unfold Json.required
  split
  next v hfield => simp [hfield]
  next hfield =>
    cases hj : j.field? key with
    | none => rfl
    | some found =>
      cases found with
      | none => rfl
      | some v => exact absurd hj (hfield v)

/-- A field with a default is decoded where it is and has the default where it is not. -/
theorem Json.defaulted_eq (j : Json) (key : String) (default : α) (decode : Json → Option α) :
    (j.defaulted key default fun v _ => decode v)
      = (j.field? key).bind fun found => found.elim (some default) decode := by
  unfold Json.defaulted
  split <;> simp_all

/-- There is no value where an optional field is missing or `null`. -/
theorem Json.optional_eq_of_none {j : Json} (decode : Json → Option α)
    (h : j.field? key = some none ∨ j.field? key = some (some .null)) :
    (j.optional key fun v _ => decode v) = some none := by
  unfold Json.optional
  split <;> simp_all

/-- Anything else in an optional field is decoded. -/
theorem Json.optional_eq_of_ne_null {j v : Json} (decode : Json → Option α)
    (h : j.field? key = some (some v)) (hnull : v ≠ .null) :
    (j.optional key fun v _ => decode v) = (decode v).map some := by
  unfold Json.optional
  split <;> simp_all

/-- The items of an array are decoded one by one. -/
theorem Json.items?_arr (items : List Json) (decode : Json → Option α) :
    ((Json.arr items).items? fun v _ => decode v) = items.mapM decode := by
  simp [Json.items?]

/-- What is found under a key: nothing or its only member. -/
theorem Json.field?_obj (key : String) (members : List (String × Json)) :
    (Json.obj members).field? key =
      match membersOf key members with
      | [] => some none
      | [member] => some (some member.2)
      | _ => none := rfl

/-- A field that stands in an object is found there, or is missing and may be. -/
theorem FieldForm.StandsIn.field? {field : FieldForm} (h : field.StandsIn members) :
    (field.omissible ∧ (Json.obj members).field? field.key = some none)
      ∨ ∃ value, (Json.obj members).field? field.key = some (some value)
          ∧ field.form.Varies value := by
  rcases FieldForm.standsIn_iff.mp h with ⟨homit, hnone⟩ | ⟨value, hone, hvalue⟩
  · exact .inl ⟨homit, by rw [Json.field?_obj, hnone]⟩
  · exact .inr ⟨value, by rw [Json.field?_obj, hone], hvalue⟩

/-- A field that must be there is found. -/
theorem FieldForm.StandsIn.field?_required (h : (FieldForm.required key form).StandsIn members) :
    ∃ value, (Json.obj members).field? key = some (some value) ∧ form.Varies value :=
  h.field?.resolve_left fun hmissing => hmissing.1

/-- A required field is read from any object in which it stands. -/
theorem FieldForm.StandsIn.required (h : (FieldForm.required key form).StandsIn members)
    (hdecode : ∀ v, form.Varies v → decode v = some a) :
    ((Json.obj members).required key fun v _ => decode v) = some a := by
  obtain ⟨value, hfield, hvalue⟩ := h.field?_required
  rw [Json.required_eq, hfield]
  exact hdecode value hvalue

/-- A field with a default is read where it is written and where it is left out. -/
theorem FieldForm.StandsIn.defaulted {default : α}
    (h : (FieldForm.defaulted key (a = default) form).StandsIn members)
    (hdecode : ∀ v, form.Varies v → decode v = some a) :
    ((Json.obj members).defaulted key default fun v _ => decode v) = some a := by
  rw [Json.defaulted_eq]
  rcases h.field? with ⟨heq, hfield⟩ | ⟨value, hfield, hvalue⟩
  · rw [show (Json.obj members).field? key = some none from hfield]
    exact congrArg some (Eq.symm heq)
  · rw [show (Json.obj members).field? key = some (some value) from hfield]
    exact hdecode value hvalue

/-- An optional field is read from null, or where it is left out. -/
theorem FieldForm.StandsIn.optional {o : Option α} {toForm : α → Form}
    (h : (FieldForm.optional key (o.map toForm)).StandsIn members)
    (hnull : ∀ a, toForm a ≠ .leaf .null)
    (hdecode : ∀ a, o = some a → ∀ v, (toForm a).Varies v → decode v = some a) :
    ((Json.obj members).optional key fun v _ => decode v) = some o := by
  rcases h.field? with ⟨hmap, hfield⟩ | ⟨value, hfield, hvalue⟩
  · obtain rfl : o = none := Option.map_eq_none_iff.mp hmap
    exact Json.optional_eq_of_none decode (.inl hfield)
  · cases o with
    | none => exact Json.optional_eq_of_none decode (.inr (hvalue ▸ hfield))
    | some a =>
      have hne : value ≠ .null := Form.Varies.ne_null hvalue (hnull a)
      refine (Json.optional_eq_of_ne_null decode hfield hne).trans ?_
      rw [hdecode a rfl value hvalue]
      rfl

/-- The tag of a variant is found. -/
theorem FieldForm.StandsIn.tag? {tag : String}
    (h : (FieldForm.required key (.leaf (.str tag))).StandsIn members) :
    (Json.obj members).tag? key = some tag := by
  obtain ⟨value, hfield, rfl⟩ := h.field?_required
  rw [Json.tag?, hfield]
  rfl

/-- A list is read if its items are. -/
theorem Form.Varies.items? {forms : List Form} {xs : List α} {j : Json}
    (h : (Form.list forms).Varies j)
    (hdecode : ∀ values, ItemsVary forms values → values.mapM decode = some xs) :
    (j.items? fun v _ => decode v) = some xs := by
  obtain ⟨values, rfl, hitems⟩ := h
  exact (Json.items?_arr values decode).trans (hdecode values hitems)

/-- Items that vary are decoded one by one. -/
theorem Form.ItemsVary.mapM {toForm : α → Form} :
    ∀ {xs : List α} {values : List Json}, ItemsVary (xs.map toForm) values →
      (∀ x ∈ xs, ∀ v, (toForm x).Varies v → decode v = some x) → values.mapM decode = some xs
  | [], _, rfl, _ => rfl
  | x :: xs, _, h, hdecode => by
    obtain ⟨value, others, rfl, hvalue, hothers⟩ := h
    have hrest := Form.ItemsVary.mapM hothers fun y hy => hdecode y (List.mem_cons_of_mem _ hy)
    rw [List.mapM_cons, hdecode x List.mem_cons_self value hvalue, hrest]
    rfl

end Reading

/-! ## Lawful codecs -/

/-- A codec that reads each value from every variation of what it writes. -/
class LawfulCodec (α : Type) [Codec α] where
  /-- What is written for a value, and what of it may vary. -/
  formOf : α → Form
  json_formOf (a : α) : (formOf a).json = encode a
  distinct_formOf (a : α) : (formOf a).Distinct
  formOf_ne_null (a : α) : formOf a ≠ .leaf .null
  decode?_of_varies {a : α} {j : Json} : (formOf a).Varies j → decode? j = some a

export LawfulCodec (formOf)

attribute [simp] LawfulCodec.json_formOf LawfulCodec.distinct_formOf

section

variable {α : Type} [Codec α] [LawfulCodec α]

/-- What is written for a value is a variation of its form. -/
theorem LawfulCodec.varies_encode (a : α) : (formOf a).Varies (encode a) :=
  json_formOf a ▸ Form.varies_json _ (distinct_formOf a)

/-- A value is read from what is written for it. -/
theorem LawfulCodec.decode?_encode (a : α) : decode? (encode a) = some a :=
  decode?_of_varies (varies_encode a)

/-- A value that may be missing is written as its form says. -/
@[simp] theorem LawfulCodec.json_getD_map (o : Option α) :
    ((o.map formOf).getD (.leaf .null)).json = encodeOption o := by
  cases o <;> simp [encodeOption]

@[simp] theorem LawfulCodec.distinct_getD_map (o : Option α) :
    ((o.map formOf).getD (.leaf .null)).Distinct := by
  cases o <;> simp

variable {key : String} {members : List (String × Json)}

/-- A required field of some type is read by its codec. -/
theorem FieldForm.StandsIn.get {a : α}
    (h : (FieldForm.required key (formOf a)).StandsIn members) :
    (Json.obj members).get key = some a :=
  h.required fun _ => LawfulCodec.decode?_of_varies

/-- An optional field of some type is read by its codec. -/
theorem FieldForm.StandsIn.get? {o : Option α}
    (h : (FieldForm.optional key (o.map formOf)).StandsIn members) :
    (Json.obj members).get? key = some o :=
  h.optional LawfulCodec.formOf_ne_null fun _ _ _ => LawfulCodec.decode?_of_varies

/-- A field with a default of some type is read by its codec. -/
theorem FieldForm.StandsIn.getD {a default : α}
    (h : (FieldForm.defaulted key (a = default) (formOf a)).StandsIn members) :
    (Json.obj members).getD key default = some a :=
  h.defaulted fun _ => LawfulCodec.decode?_of_varies

end

/-! ## Basic types -/

instance : LawfulCodec Bool where
  formOf b := .leaf (.bool b)
  json_formOf _ := rfl
  distinct_formOf _ := trivial
  formOf_ne_null _ := nofun
  decode?_of_varies h := by cases h; rfl

instance : LawfulCodec String where
  formOf s := .leaf (.str s)
  json_formOf _ := rfl
  distinct_formOf _ := trivial
  formOf_ne_null _ := nofun
  decode?_of_varies h := by cases h; rfl

instance : LawfulCodec UInt32 where
  formOf n := .leaf (.int n.toNat)
  json_formOf _ := rfl
  distinct_formOf _ := trivial
  formOf_ne_null _ := nofun
  decode?_of_varies {n j} h := by
    obtain rfl : j = .int n.toNat := h
    have hlt : (n.toNat : Int) < UInt32.size := by exact_mod_cast n.toNat_lt
    simp only [decode?, Int.natCast_nonneg, hlt, and_self, if_true, Int.toNat_natCast,
      UInt32.ofNat_toNat]

instance : LawfulCodec Int64 where
  formOf n := .leaf (.int n.toInt)
  json_formOf _ := rfl
  distinct_formOf _ := trivial
  formOf_ne_null _ := nofun
  decode?_of_varies {n j} h := by
    obtain rfl : j = .int n.toInt := h
    have hle : Int64.minValue.toInt ≤ n.toInt ∧ n.toInt ≤ Int64.maxValue.toInt :=
      ⟨n.minValue_le_toInt, n.toInt_le⟩
    simp only [decode?, hle, and_self, if_true, Int64.ofInt_toInt]

/-- A plain enumeration is lawful if each of its values is found under its name. -/
@[reducible] def LawfulCodec.ofNames {α : Type} (all : List α) (name : α → String)
    (hfind : ∀ a, (all.find? fun b => name b == name a) = some a) :
    @LawfulCodec α (.ofNames all name) :=
  letI := Codec.ofNames all name
  { formOf := fun a => .leaf (.str (name a))
    json_formOf := fun _ => rfl
    distinct_formOf := fun _ => trivial
    formOf_ne_null := fun _ => nofun
    decode?_of_varies := fun {a _} h => by cases h; exact hfind a }

section Lists

variable {α : Type} {toForm : α → Form}

@[simp] theorem Form.jsonItems_map (xs : List α) :
    Form.jsonItems (xs.map toForm) = xs.map fun x => (toForm x).json := by
  induction xs with
  | nil => rfl
  | cons x xs ih => simp [ih]

/-- Lists are distinct if each item is. -/
theorem Form.itemsDistinct_map {xs : List α} (h : ∀ x ∈ xs, (toForm x).Distinct) :
    Form.ItemsDistinct (xs.map toForm) := by
  induction xs with
  | nil => trivial
  | cons x xs ih =>
    exact ⟨h x List.mem_cons_self, ih fun y hy => h y (List.mem_cons_of_mem _ hy)⟩

end Lists

instance {α : Type} [Codec α] [LawfulCodec α] : LawfulCodec (List α) where
  formOf xs := .list (xs.map formOf)
  json_formOf xs := by simp [encode]
  distinct_formOf _ := Form.itemsDistinct_map fun _ _ => LawfulCodec.distinct_formOf _
  formOf_ne_null _ := nofun
  decode?_of_varies h := by
    obtain ⟨values, rfl, hitems⟩ := h
    exact hitems.mapM fun _ _ _ => LawfulCodec.decode?_of_varies

/-! ## Finite maps -/

namespace Dict

variable {α : Type}

/-- A new entry is added somewhere. -/
theorem perm_insertEntry {key : String} {value : α} :
    ∀ {l : List (String × α)}, key ∉ l.map Prod.fst →
      (insertEntry key value l).Perm ((key, value) :: l)
  | [], _ => .refl _
  | entry :: rest, h => by
    have hne : key ≠ entry.1 := fun he => h (he ▸ List.mem_cons_self)
    have hrest : key ∉ rest.map Prod.fst := fun hmem => h (List.mem_cons_of_mem _ hmem)
    rw [insertEntry, if_neg hne]
    split
    · exact .refl _
    · exact ((perm_insertEntry hrest).cons entry).trans (.swap ..)

/-- Entries with different keys are all kept. -/
theorem perm_insertAll :
    ∀ (entries : List (String × α)) (d : Dict α), ((entries ++ d.entries).map Prod.fst).Nodup →
      (d.insertAll entries).entries.Perm (entries ++ d.entries)
  | [], _, _ => .refl _
  | entry :: rest, d, h => by
    obtain ⟨hnew, hrest⟩ := List.nodup_cons.mp h
    have hinsert : (d.insert entry.1 entry.2).entries.Perm (entry :: d.entries) :=
      perm_insertEntry fun hmem => hnew (by simpa using .inr (by simpa using hmem))
    have hall : (rest ++ (d.insert entry.1 entry.2).entries).Perm (entry :: (rest ++ d.entries)) :=
      (hinsert.append_left rest).trans List.perm_middle
    exact (perm_insertAll rest _ ((hall.map Prod.fst).nodup_iff.mpr h)).trans hall

/-- The keys of a map differ. -/
theorem nodup_keys (d : Dict α) : (d.entries.map Prod.fst).Nodup := by
  refine List.pairwise_map.mpr (d.sorted.imp fun {a b} hlt => ?_)
  exact fun heq => String.lt_irrefl b.1 (heq ▸ hlt)

/-- The entries of a map may be inserted in any order. -/
theorem ofList_of_perm {d : Dict α} {entries : List (String × α)} (h : entries.Perm d.entries) :
    ofList entries = d := by
  have hperm : (ofList entries).entries.Perm d.entries := by
    refine (perm_insertAll entries empty ?_).trans (by simpa [empty] using h)
    simpa [empty] using (h.map Prod.fst).nodup_iff.mpr d.nodup_keys
  -- both hold the same entries in ascending order
  refine ext (hperm.eq_of_pairwise (fun a b _ _ hab hba => ?_) (ofList entries).sorted d.sorted)
  exact absurd (String.lt_trans hab hba) (String.lt_irrefl _)

end Dict

/-- Decoding items in another order gives the decoded items in another order. -/
theorem mapM_perm {α β : Type} {f : α → Option β} {l l' : List α} (hperm : l.Perm l') :
    ∀ {ys : List β}, l.mapM f = some ys → ∃ ys', l'.mapM f = some ys' ∧ ys'.Perm ys := by
  induction hperm with
  | nil => exact fun h => ⟨_, h, .refl _⟩
  | cons x _ ih =>
    intro ys h
    rw [List.mapM_cons] at h
    obtain ⟨y, hy, h⟩ := Option.bind_eq_some_iff.mp h
    obtain ⟨rest, hrest, h⟩ := Option.bind_eq_some_iff.mp h
    obtain rfl := Option.some.inj h
    obtain ⟨rest', hrest', hp⟩ := ih hrest
    exact ⟨y :: rest', by simp [List.mapM_cons, hy, hrest'], hp.cons y⟩
  -- both are read, in whichever order
  | swap x y l =>
    intro ys h
    simp only [List.mapM_cons] at h
    obtain ⟨b, hb, h⟩ := Option.bind_eq_some_iff.mp h
    obtain ⟨rest, hrest, h⟩ := Option.bind_eq_some_iff.mp h
    obtain rfl := Option.some.inj h
    obtain ⟨a, ha, hrest⟩ := Option.bind_eq_some_iff.mp hrest
    obtain ⟨others, hothers, hrest⟩ := Option.bind_eq_some_iff.mp hrest
    obtain rfl := Option.some.inj hrest
    exact ⟨a :: b :: others, by simp [List.mapM_cons, ha, hb, hothers], .swap ..⟩
  | trans _ _ ih₁ ih₂ =>
    intro ys h
    obtain ⟨ys', h', hp⟩ := ih₁ h
    obtain ⟨ys'', h'', hp'⟩ := ih₂ h'
    exact ⟨ys'', h'', hp'.trans hp⟩

section Maps

variable {α : Type} [Codec α] [LawfulCodec α]

/-- The entries of a map as fields. -/
def Form.entriesOf (entries : List (String × α)) : List FieldForm :=
  entries.map fun entry => .required entry.1 (formOf entry.2)

/-- The entries of a dictionary are written under their keys. -/
theorem Form.jsonFields_entriesOf (entries : List (String × α)) :
    jsonFields (entriesOf entries) = entries.map fun entry => (entry.1, encode entry.2) := by
  induction entries with
  | nil => rfl
  | cons entry rest ih =>
    simp only [entriesOf, List.map_cons] at ih ⊢
    simp [ih]

theorem Form.fieldsDistinct_entriesOf (entries : List (String × α)) :
    FieldsDistinct (entriesOf entries) := by
  induction entries with
  | nil => trivial
  | cons entry rest ih => exact ⟨LawfulCodec.distinct_formOf entry.2, ih⟩

/-- Entries that vary are decoded one by one. -/
theorem Form.EntriesVary.mapM :
    ∀ {entries : List (String × α)} {members : List (String × Json)},
      EntriesVary (entriesOf entries) members →
        (members.mapM fun field => (decode? field.2).map fun a => (field.1, a)) = some entries
  | [], _, rfl => rfl
  | entry :: rest, _, h => by
    obtain ⟨⟨key, value⟩, others, rfl, ⟨hkey, hvalue⟩, hothers⟩ := h
    obtain rfl : key = entry.1 := hkey
    rw [List.mapM_cons, Form.EntriesVary.mapM hothers,
      LawfulCodec.decode?_of_varies (show (formOf entry.2).Varies value from hvalue)]
    rfl

instance : LawfulCodec (Dict α) where
  formOf d := .map (Form.entriesOf d.entries)
  json_formOf d := by simp [encode, Form.jsonFields_entriesOf]
  distinct_formOf d := Form.fieldsDistinct_entriesOf d.entries
  formOf_ne_null _ := nofun
  decode?_of_varies {d j} h := by
    obtain ⟨members, ordered, rfl, hperm, hentries⟩ := h
    -- the entries are decoded in the order of the object, which need not be that of the map
    obtain ⟨entries, hmapM, hentries⟩ := mapM_perm hperm.symm hentries.mapM
    simp [decode?, hmapM, Dict.ofList_of_perm hentries]

end Maps

end AbapLowering
