/-!
# TOML documents

A document is a table that is filled line by line: `assign` enters the value of a key, `openTable`
and `openTables` enter the table of a header. Nothing is ever entered twice (`assign_occupied`), and
a table that was completed by its header or by its braces is never extended from elsewhere. How a
table came to be decides what may still be added to it, so it is kept with the table.
-/

namespace AbapLowering

namespace Toml

/-- How a table came to be. -/
inductive Origin where
  /-- By a header of its own. -/
  | header
  /-- On the way to the table of a header. -/
  | implied
  /-- On the way to the value of a dotted key. -/
  | dotted
  /-- As a value in braces. -/
  | inline
  deriving DecidableEq

end Toml

/-- A value. `float` and `dateTime` keep the text they are written as. -/
inductive Toml where
  | str (value : String)
  | int (value : Int)
  | float (text : String)
  | bool (value : Bool)
  | dateTime (text : String)
  | arr (items : List Toml)
  | table (origin : Toml.Origin) (fields : List (String × Toml))
  /-- Tables that were begun one by one by headers; only the last is still filled. -/
  | tables (earlier : List (List (String × Toml))) (last : List (String × Toml))
  deriving Inhabited

namespace Toml

/-- The keys of a table and their values. -/
abbrev Fields := List (String × Toml)

/-- Change what is stored under a key; a key that is missing goes to the end. -/
def alter (key : String) (change : Option Toml → Option Toml) : Fields → Option Fields
  | [] => (change none).map fun value => [(key, value)]
  | (k, value) :: rest =>
    if k = key then (change (some value)).map fun value => (k, value) :: rest
    else (alter key change rest).map ((k, value) :: ·)

theorem alter_eq_none {key : String} {change : Option Toml → Option Toml} {value : Toml} :
    ∀ {fields : Fields}, fields.lookup key = some value → change (some value) = none →
      alter key change fields = none
  | [], h, _ => by simp at h
  | (k, v) :: rest, h, hc => by
    rw [List.lookup_cons] at h
    split at h
    · next heq =>
      obtain rfl := Option.some.inj h
      have hk : k = key := (eq_of_beq heq).symm
      simp [alter, hk, hc]
    · next hne =>
      have hk : k ≠ key := fun e => by simp [e] at hne
      simp [alter, hk, alter_eq_none h hc]

/-- Enter the value of a dotted key, of which `key` is the first part. The tables on the way are
those of dotted keys, or are passed through when the way leads on below them. -/
def assign (value : Toml) (key : String) : List String → Fields → Option Fields
  | [], fields =>
    alter key (fun
      | none => some value
      | some _ => none) fields
  | next :: more, fields =>
    alter key (fun
      | none => (assign value next more []).map (.table .dotted)
      | some (.table .dotted inner) => (assign value next more inner).map (.table .dotted)
      | some (.table .implied inner) =>
        if more.isEmpty then none else (assign value next more inner).map (.table .implied)
      | some (.tables earlier last) =>
        if more.isEmpty then none else (assign value next more last).map (.tables earlier)
      | some _ => none) fields

/-- A key that has a value gets no second one. -/
theorem assign_occupied {value old : Toml} {key : String} {fields : Fields}
    (h : fields.lookup key = some old) : assign value key [] fields = none :=
  alter_eq_none h rfl

/-- Change the table that a header names; of tables that were begun one by one it is the last. -/
def alterTable (change : Fields → Option Fields) : List String → Fields → Option Fields
  | [], fields => change fields
  | key :: path, fields =>
    alter key (fun
      | none => (alterTable change path []).map (.table .implied)
      | some (.table .inline _) => none
      | some (.table origin inner) => (alterTable change path inner).map (.table origin)
      | some (.tables earlier last) => (alterTable change path last).map (.tables earlier)
      | some _ => none) fields

/-- Begin the table of a header, below the tables of `path`. -/
def openTable (path : List String) (key : String) : Fields → Option Fields :=
  alterTable (alter key fun
    | none => some (.table .header [])
    | some (.table .implied inner) => some (.table .header inner)
    | some _ => none) path

/-- Begin one more of the tables of a header in double brackets, below the tables of `path`. -/
def openTables (path : List String) (key : String) : Fields → Option Fields :=
  alterTable (alter key fun
    | none => some (.tables [] [])
    | some (.tables earlier last) => some (.tables (earlier ++ [last]) [])
    | some _ => none) path

end Toml

end AbapLowering
