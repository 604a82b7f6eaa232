import AbapLowering.Proofs.Code.CaseMapping

/-!
# Keys of classes

The key of a local class or interface is the kind and the name of its owner and its own name, with
dashes between them, and the owner's name may have dashes itself. Since names of classes have none,
the parts of a key can be told apart again, and two definitions have one key iff they are the same
class for the runtime (`ClassKey.ofDefinition_eq_iff`).
-/

namespace AbapLowering

namespace ClassKey

/-- What comes before the last dash and what comes after it can be read off. -/
theorem append_dash_inj {before before' after after' : List Char} (h : '-' ∉ after)
    (h' : '-' ∉ after') (heq : before ++ '-' :: after = before' ++ '-' :: after') :
    before = before' ∧ after = after' := by
  rcases List.append_eq_append_iff.mp heq with ⟨middle, rfl, hrest⟩ | ⟨middle, rfl, hrest⟩
  · cases middle with
    | nil => simpa using hrest
    | cons x middle =>
      -- a longer part before would leave the dash of the other key behind it
      obtain ⟨rfl, rfl⟩ := List.cons.inj hrest
      exact absurd (by simp) h
  · cases middle with
    | nil => simpa using hrest.symm
    | cons x middle =>
      obtain ⟨rfl, rfl⟩ := List.cons.inj hrest
      exact absurd (by simp) h'

theorem length_keyword (type : ObjectType) : type.keyword.toList.length = 4 := by
  cases type <;> rfl

/-- Kinds of objects have different keywords. -/
theorem keyword_inj {type type' : ObjectType} (h : type.keyword = type'.keyword) :
    type = type' := by
  revert h
  cases type <;> cases type' <;> decide

theorem dash_not_mem_global {name : String} (h : '-' ∉ name.toList) : '-' ∉ (global name).toList :=
  mt (Text.mem_of_mem_toUpper (by decide)) h

/-- Every local key has a dash. -/
theorem dash_mem_ofOwner (owner : Option ObjectRef) (name : String) :
    '-' ∈ (ofOwner owner name).toList := by
  cases owner <;> simp [ofOwner]

/-- The key of something local is none of something global. -/
theorem ofOwner_ne_global (owner : Option ObjectRef) (name' : String) {name : String}
    (h : '-' ∉ name.toList) : ofOwner owner name' ≠ global name := by
  intro heq
  exact dash_not_mem_global h (heq ▸ dash_mem_ofOwner owner name')

/-- A key without an owner is none with one, since no kind of object is called so. -/
theorem ofOwner_none_ne_some (object : ObjectRef) (name name' : String) :
    ofOwner none name ≠ ofOwner (some object) name' := by
  intro heq
  have hhead := congrArg (fun key => key.toList.head?) heq
  revert hhead
  obtain ⟨type, owner⟩ := object
  cases type <;> simp [ofOwner, ObjectType.keyword]

/-- Without an owner keys tell names apart up to case. -/
theorem ofOwner_none_inj {name name' : String} :
    ofOwner none name = ofOwner none name' ↔ Text.toUpper name = Text.toUpper name' := by
  simp [ofOwner]

theorem toList_ofOwner_some (object : ObjectRef) (name : String) :
    (ofOwner (some object) name).toList =
      (object.type.keyword.toList ++ '-' :: (Text.toUpper object.name).toList) ++
        '-' :: (Text.toUpper name).toList := by
  simp [ofOwner]

/-- With owners keys tell owners and names apart, if no name has a dash. -/
theorem ofOwner_some_inj {object object' : ObjectRef} {name name' : String}
    (h : '-' ∉ name.toList) (h' : '-' ∉ name'.toList) :
    ofOwner (some object) name = ofOwner (some object') name' ↔
      object.type = object'.type ∧ Text.toUpper object.name = Text.toUpper object'.name ∧
        Text.toUpper name = Text.toUpper name' := by
  constructor
  · intro heq
    have hchars := congrArg String.toList heq
    rw [toList_ofOwner_some, toList_ofOwner_some] at hchars
    obtain ⟨howner, hname⟩ := append_dash_inj (dash_not_mem_global h) (dash_not_mem_global h') hchars
    -- the keywords are of one length, so the names of the owners start at the same place
    obtain ⟨htype, howner⟩ := List.append_inj howner (by rw [length_keyword, length_keyword])
    refine ⟨keyword_inj (String.toList_inj.mp htype), ?_, String.toList_inj.mp hname⟩
    exact String.toList_inj.mp (List.cons.inj howner).2
  · rintro ⟨htype, howner, hname⟩
    simp only [ofOwner, htype, howner, hname]

/-- Two definitions, perhaps of two repositories, have one key iff they are both global, or local in
files with the same owner, or local in files without a known one, and their names agree in upper case.
So the key of something local is none of something global, and a key without an owner is none with
one. -/
theorem ofDefinition_eq_iff {r r' : Registry} {d e : Definition} (hd : '-' ∉ d.name.toList)
    (he : '-' ∉ e.name.toList) :
    (ofDefinition r d = ofDefinition r' e ↔
      (d.isGlobal = true ∧ e.isGlobal = true ∧ Text.toUpper d.name = Text.toUpper e.name) ∨
      (d.isGlobal = false ∧ e.isGlobal = false ∧ ∃ owner owner',
        r.ownerOf? d.file = some owner ∧ r'.ownerOf? e.file = some owner' ∧
          owner.type = owner'.type ∧ Text.toUpper owner.name = Text.toUpper owner'.name ∧
          Text.toUpper d.name = Text.toUpper e.name) ∨
      (d.isGlobal = false ∧ e.isGlobal = false ∧ r.ownerOf? d.file = none ∧
        r'.ownerOf? e.file = none ∧ Text.toUpper d.name = Text.toUpper e.name)) ∧
    (d.isGlobal = false → e.isGlobal = true → ofDefinition r d ≠ ofDefinition r' e) ∧
    (d.isGlobal = false → e.isGlobal = false → r.ownerOf? d.file = none →
      (r'.ownerOf? e.file).isSome → ofDefinition r d ≠ ofDefinition r' e) := by
  refine ⟨?_, ?_, ?_⟩
  · cases hglobal : d.isGlobal <;> cases hglobal' : e.isGlobal
    · cases howner : r.ownerOf? d.file <;> cases howner' : r'.ownerOf? e.file
      · simp [ofDefinition, hglobal, hglobal', howner, howner', ofOwner_none_inj]
      · simp [ofDefinition, hglobal, hglobal', howner, howner', ofOwner_none_ne_some]
      · simp [ofDefinition, hglobal, hglobal', howner, howner', (ofOwner_none_ne_some _ _ _).symm]
      · simp [ofDefinition, hglobal, hglobal', howner, howner', ofOwner_some_inj hd he]
    · simp [ofDefinition, hglobal, hglobal', ofOwner_ne_global _ _ he]
    · simp [ofDefinition, hglobal, hglobal', (ofOwner_ne_global _ _ hd).symm]
    · simp [ofDefinition, hglobal, hglobal', global]
  · intro hlocal hglobal
    simp [ofDefinition, hlocal, hglobal, ofOwner_ne_global _ _ he]
  · intro hlocal hlocal' hnone hsome
    obtain ⟨owner, howner⟩ := Option.isSome_iff_exists.mp hsome
    simp [ofDefinition, hlocal, hlocal', hnone, howner, ofOwner_none_ne_some]

/-- Two files of one program, whose name has a dash and is written in two ways. -/
def dashedOwner : Registry :=
  (Registry.empty.addFile "main.prog.abap" ⟨.prog, "Z-MAIN"⟩).addFile "top.prog.abap"
    ⟨.prog, "z-main"⟩

/-- A local definition in a file, without members. -/
def localIn (file name : String) : Definition := ⟨name, false, file, [], .none, [], []⟩

/-- Both files mean the same local class, which has a key of its own in a file without an owner. -/
theorem ofDefinition_dashedOwner :
    '-' ∉ "lcl_bar".toList ∧ '-' ∉ "LCL_Bar".toList ∧
      ofDefinition dashedOwner (localIn "main.prog.abap" "lcl_bar") =
        ofDefinition dashedOwner (localIn "top.prog.abap" "LCL_Bar") ∧
      ofDefinition dashedOwner (localIn "other.prog.abap" "lcl_bar") ≠
        ofDefinition dashedOwner (localIn "top.prog.abap" "LCL_Bar") := by
  have hname : '-' ∉ "lcl_bar".toList := by decide
  have hname' : '-' ∉ "LCL_Bar".toList := by decide
  refine ⟨hname, hname', ?_, ?_⟩
  · refine (ofDefinition_eq_iff hname hname').1.mpr (.inr (.inl ⟨rfl, rfl, ?_⟩))
    exact ⟨⟨.prog, "Z-MAIN"⟩, ⟨.prog, "z-main"⟩, by decide, by decide, rfl, by decide, by decide⟩
  · exact (ofDefinition_eq_iff hname hname').2.2 rfl rfl (by decide) (by decide)

/-- A class whose name has a dash could take the key of another one. -/
example : ofOwner (some ⟨.prog, "Z-A"⟩) "B" = ofOwner (some ⟨.prog, "Z"⟩) "A-B" := by decide

end ClassKey

end AbapLowering
