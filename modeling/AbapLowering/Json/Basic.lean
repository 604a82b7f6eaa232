import AbapLowering.Dict

/-!
# JSON values and their decoding

A value is what a JSON text denotes, with integers kept exact and apart from the other numbers.
Objects are read field by field: a field may be required, optional (missing or `null` stands for no
value) or defaulted (missing stands for the default). A field that is asked for may not be given
twice; fields that nobody asks for are passed over. Each reading hands the decoder a proof that the
field is smaller than the object, so decoders of nested types terminate.
-/

namespace AbapLowering

/-- A JSON value. `real` keeps the text of a number that is not written as an integer. -/
inductive Json where
  | null
  | bool (value : Bool)
  | int (value : Int)
  | real (text : String)
  | str (value : String)
  | arr (items : List Json)
  | obj (fields : List (String × Json))
  deriving Inhabited

namespace Json

variable {α β : Type}

/-- The value of a field of an object, if it has that field. Fails for a field that is given twice, and
for what is no object. -/
def field? (j : Json) (key : String) : Option (Option Json) :=
  match j with
  | .obj fields =>
    match fields.filter fun field => field.1 == key with
    | [] => some none
    | [field] => some (some field.2)
    | _ => none
  | _ => none

theorem mem_of_field? {fields : List (String × Json)} {key : String} {v : Json}
    (h : (obj fields).field? key = some (some v)) : ∃ k, (k, v) ∈ fields := by
  simp only [field?] at h
  split at h
  next => cases h
  next field honly =>
    obtain rfl : field.2 = v := by simpa using h
    have hmem : field ∈ fields.filter fun field => field.1 == key := honly ▸ List.mem_cons_self
    exact ⟨field.1, (List.mem_filter.mp hmem).1⟩
  next => cases h

/-- A field is smaller than its object. -/
theorem sizeOf_lt_of_field? {j v : Json} {key : String} (h : j.field? key = some (some v)) :
    sizeOf v < sizeOf j := by
  cases j with
  | obj fields =>
    obtain ⟨k, hk⟩ := mem_of_field? h
    have hmem := List.sizeOf_lt_of_mem hk
    simp only [Prod.mk.sizeOf_spec] at hmem
    simp only [obj.sizeOf_spec]
    omega
  | _ => cases h

/-- An item is smaller than its array. -/
theorem sizeOf_lt_of_mem {v : Json} {items : List Json} (h : v ∈ items) :
    sizeOf v < sizeOf (arr items) := by
  have := List.sizeOf_lt_of_mem h
  simp only [arr.sizeOf_spec]
  omega

/-- A field that must be there. -/
def required (j : Json) (key : String) (decode : (v : Json) → sizeOf v < sizeOf j → Option α) :
    Option α :=
  match h : j.field? key with
  | some (some v) => decode v (sizeOf_lt_of_field? h)
  | _ => none

/-- A field without which, or with `null` in it, there is no value. -/
def optional (j : Json) (key : String) (decode : (v : Json) → sizeOf v < sizeOf j → Option α) :
    Option (Option α) :=
  match h : j.field? key with
  | none => none
  | some none | some (some .null) => some none
  | some (some v) => (decode v (sizeOf_lt_of_field? h)).map some

/-- A field that has a default. -/
def defaulted (j : Json) (key : String) (default : α)
    (decode : (v : Json) → sizeOf v < sizeOf j → Option α) : Option α :=
  match h : j.field? key with
  | none => none
  | some none => some default
  | some (some v) => decode v (sizeOf_lt_of_field? h)

/-- The decoded items of an array. -/
def items? (j : Json) (decode : (v : Json) → sizeOf v < sizeOf j → Option α) :
    Option (List α) :=
  match j with
  | .arr items => items.attach.mapM fun v => decode v.1 (sizeOf_lt_of_mem v.2)
  | _ => none

/-- The text of a string. -/
def text? : Json → Option String
  | .str s => some s
  | _ => none

/-- Succeeds for objects. -/
def checkObject : Json → Option Unit
  | .obj _ => some ()
  | _ => none

/-- The tag under which a variant is stored in field `key`. -/
def tag? (j : Json) (key : String) : Option String :=
  (j.field? key).join.bind text?

/-- A variant: its tag in field `key`, then its own fields. -/
def tagged (key tag : String) (fields : List (String × Json)) : Json :=
  .obj ((key, .str tag) :: fields)

end Json

/-- Types with a JSON form. -/
class Codec (α : Type) where
  encode : α → Json
  decode? : Json → Option α

export Codec (encode decode?)

namespace Json

variable {α : Type} [Codec α]

/-- A required field of a type with a JSON form. -/
def get (j : Json) (key : String) : Option α :=
  j.required key fun v _ => decode? v

/-- An optional field of a type with a JSON form. -/
def get? (j : Json) (key : String) : Option (Option α) :=
  j.optional key fun v _ => decode? v

/-- A defaulted field of a type with a JSON form. -/
def getD (j : Json) (key : String) (default : α) : Option α :=
  j.defaulted key default fun v _ => decode? v

end Json

/-! ## Basic types -/

instance : Codec Json where
  encode j := j
  decode? := some

instance : Codec Bool where
  encode := .bool
  decode?
    | .bool b => some b
    | _ => none

instance : Codec String where
  encode := .str
  decode? := Json.text?

instance : Codec UInt32 where
  encode n := .int n.toNat
  decode?
    | .int n => if 0 ≤ n ∧ n < UInt32.size then some (UInt32.ofNat n.toNat) else none
    | _ => none

instance : Codec Int64 where
  encode n := .int n.toInt
  decode?
    | .int n => if Int64.minValue.toInt ≤ n ∧ n ≤ Int64.maxValue.toInt then some (Int64.ofInt n) else none
    | _ => none

instance {α : Type} [Codec α] : Codec (List α) where
  encode xs := .arr (xs.map encode)
  decode?
    | .arr items => items.mapM decode?
    | _ => none

/-- No value is written as `null`. -/
def encodeOption {α : Type} [Codec α] : Option α → Json
  | none => .null
  | some a => encode a

instance {α : Type} [Codec α] : Codec (Dict α) where
  encode d := .obj (d.entries.map fun entry => (entry.1, encode entry.2))
  decode?
    | .obj fields =>
      (fields.mapM fun field => (decode? field.2).map fun a => (field.1, a)).map Dict.ofList
    | _ => none

/-- A plain enumeration: each of `all` is written as its name. -/
@[reducible] def Codec.ofNames {α : Type} (all : List α) (name : α → String) : Codec α where
  encode a := .str (name a)
  decode?
    | .str s => all.find? fun a => name a == s
    | _ => none

end AbapLowering
