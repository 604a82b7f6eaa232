/-!
# Finite maps keyed by text

A `Dict α` lists its entries in strictly ascending order of their keys, so two maps with the same
entries are equal. Main facts: what `find?` answers after `insert` (`find?_insert_self`,
`find?_insert_of_ne`), and that inserting the entries of a map one by one gives it back
(`ofList_entries`).
-/

namespace AbapLowering

/-- A finite map from texts to `α`, entries in strictly ascending order of the keys. -/
structure Dict (α : Type) where
  entries : List (String × α)
  sorted : entries.Pairwise (fun a b => a.1 < b.1)

namespace Dict

variable {α : Type}

/-- No entries. -/
def empty : Dict α := ⟨[], .nil⟩

instance : Inhabited (Dict α) := ⟨empty⟩
instance : EmptyCollection (Dict α) := ⟨empty⟩

/-- Put an entry into its place, replacing the entry of the same key. -/
def insertEntry (key : String) (value : α) : List (String × α) → List (String × α)
  | [] => [(key, value)]
  | entry :: rest =>
    if key < entry.1 then (key, value) :: entry :: rest
    else if key = entry.1 then (key, value) :: rest
    else entry :: insertEntry key value rest

/-- An entry is added, and the others were there before. -/
theorem mem_insertEntry {key : String} {value : α} {x : String × α} :
    ∀ {l : List (String × α)}, x ∈ insertEntry key value l → x = (key, value) ∨ x ∈ l
  | [], h => by simpa [insertEntry] using h
  | entry :: rest, h => by
    unfold insertEntry at h
    split at h
    · simpa using h
    · split at h
      · rcases List.mem_cons.mp h with h | h
        · exact .inl h
        · exact .inr (List.mem_cons_of_mem _ h)
      · rcases List.mem_cons.mp h with h | h
        · exact .inr (h ▸ List.mem_cons_self)
        · rcases mem_insertEntry h with h | h
          · exact .inl h
          · exact .inr (List.mem_cons_of_mem _ h)

/-- Keys stay in order. -/
theorem pairwise_insertEntry (key : String) (value : α) :
    ∀ {l : List (String × α)}, l.Pairwise (fun a b => a.1 < b.1) →
      (insertEntry key value l).Pairwise (fun a b => a.1 < b.1)
  | [], _ => by simp [insertEntry]
  | entry :: rest, h => by
    obtain ⟨hentry, hrest⟩ := List.pairwise_cons.mp h
    unfold insertEntry
    split
    · next hlt =>
      refine List.pairwise_cons.mpr ⟨fun x hx => ?_, h⟩
      rcases List.mem_cons.mp hx with hx | hx
      · exact hx ▸ hlt
      · exact String.lt_trans hlt (hentry x hx)
    · next hnlt =>
      split
      · next heq => exact List.pairwise_cons.mpr ⟨fun x hx => heq ▸ hentry x hx, hrest⟩
      · next hne =>
        refine List.pairwise_cons.mpr ⟨fun x hx => ?_, pairwise_insertEntry key value hrest⟩
        rcases mem_insertEntry hx with hx | hx
        · subst hx; simp only; grind
        · exact hentry x hx

/-- Add an entry; the entry of the same key is replaced. -/
def insert (d : Dict α) (key : String) (value : α) : Dict α :=
  ⟨insertEntry key value d.entries, pairwise_insertEntry key value d.sorted⟩

/-- The value stored under a key. -/
def find? (d : Dict α) (key : String) : Option α :=
  d.entries.lookup key

/-- Whether a key has a value. -/
def contains (d : Dict α) (key : String) : Bool :=
  (d.find? key).isSome

/-- Number of entries. -/
def size (d : Dict α) : Nat := d.entries.length

/-- Insert entries from left to right. -/
def insertAll (d : Dict α) (entries : List (String × α)) : Dict α :=
  entries.foldl (fun d entry => d.insert entry.1 entry.2) d

/-- The map with the given entries; of two with the same key the later counts. -/
def ofList (entries : List (String × α)) : Dict α :=
  empty.insertAll entries

/-- All entries of both maps; where both have a key, the second map's value counts. -/
def merge (d other : Dict α) : Dict α :=
  d.insertAll other.entries

/-- The stored values, in ascending order of their keys. -/
def values (d : Dict α) : List α := d.entries.map Prod.snd

/-- A dictionary is its entries. -/
@[ext] theorem ext {d e : Dict α} (h : d.entries = e.entries) : d = e := by
  cases d; cases e; cases h; rfl

theorem lookup_cons_of_ne {key : String} {entry : String × α} (h : key ≠ entry.1)
    (rest : List (String × α)) : (entry :: rest).lookup key = rest.lookup key := by
  obtain ⟨k, v⟩ := entry
  have hb : (key == k) = false := by simpa using h
  rw [List.lookup_cons, hb]

theorem lookup_cons_self (entry : String × α) (rest : List (String × α)) :
    (entry :: rest).lookup entry.1 = some entry.2 :=
  List.lookup_cons_self

theorem lookup_insertEntry_self (key : String) (value : α) :
    ∀ l : List (String × α), (insertEntry key value l).lookup key = some value
  | [] => by simp [insertEntry]
  | entry :: rest => by
    unfold insertEntry
    split
    · simp
    · split
      · simp
      · next hne => rw [lookup_cons_of_ne hne, lookup_insertEntry_self key value rest]

/-- What is put in is found. -/
@[simp] theorem find?_insert_self (d : Dict α) (key : String) (value : α) :
    (d.insert key value).find? key = some value :=
  lookup_insertEntry_self key value d.entries

theorem lookup_insertEntry_of_ne {key other : String} (value : α) (h : other ≠ key) :
    ∀ l : List (String × α), (insertEntry key value l).lookup other = l.lookup other
  | [] => lookup_cons_of_ne h []
  | entry :: rest => by
    unfold insertEntry
    split
    · exact lookup_cons_of_ne h _
    · split
      · next heq =>
        subst heq
        rw [lookup_cons_of_ne h rest, @lookup_cons_of_ne _ _ (entry.1, value) h rest]
      · by_cases hentry : other = entry.1
        · rw [hentry, lookup_cons_self, lookup_cons_self]
        · rw [lookup_cons_of_ne hentry, lookup_cons_of_ne hentry,
            lookup_insertEntry_of_ne value h rest]

/-- Under other keys the same is found as before. -/
theorem find?_insert_of_ne {key other : String} (d : Dict α) (value : α) (h : other ≠ key) :
    (d.insert key value).find? other = d.find? other :=
  lookup_insertEntry_of_ne value h d.entries

theorem insertEntry_of_lt {key : String} {value : α} :
    ∀ {l : List (String × α)}, (∀ x ∈ l, x.1 < key) → insertEntry key value l = l ++ [(key, value)]
  | [], _ => rfl
  | entry :: rest, h => by
    have hlt := h entry List.mem_cons_self
    have hrest := @insertEntry_of_lt key value rest fun x hx => h x (List.mem_cons_of_mem _ hx)
    unfold insertEntry
    rw [if_neg (String.lt_asymm hlt), if_neg (fun he => String.lt_irrefl _ (he ▸ hlt)), hrest]
    rfl

/-- Entries that come in order are kept in order. -/
theorem entries_insertAll_of_sorted :
    ∀ (entries : List (String × α)) (d : Dict α),
      (d.entries ++ entries).Pairwise (fun a b => a.1 < b.1) →
      (d.insertAll entries).entries = d.entries ++ entries
  | [], d, _ => by simp [insertAll]
  | entry :: rest, d, h => by
    have hlt : ∀ x ∈ d.entries, x.1 < entry.1 := fun x hx =>
      (List.pairwise_append.mp h).2.2 x hx entry List.mem_cons_self
    have hins : (d.insert entry.1 entry.2).entries = d.entries ++ [entry] :=
      insertEntry_of_lt hlt
    have hrest := entries_insertAll_of_sorted rest (d.insert entry.1 entry.2)
      (by rw [hins]; simpa using h)
    rw [hins] at hrest
    simpa [insertAll] using hrest

/-- A map is the map of its own entries. -/
@[simp] theorem ofList_entries (d : Dict α) : ofList d.entries = d :=
  ext (entries_insertAll_of_sorted d.entries empty d.sorted)

end Dict

end AbapLowering
