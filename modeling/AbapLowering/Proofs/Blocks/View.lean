import AbapLowering.Proofs.Blocks.Wording

/-!
# The wording of what is found

Where the scopes and the global objects are worded in some way, so is everything that is found
there: definitions (`View.Worded.findClass`), what a name is bound to (`View.Worded.resolve`), the
method that a call means (`View.Worded.methodReference`), and the address of a class
(`View.Worded.classAddress`).
-/

namespace AbapLowering

open Script

variable {w : Wording}

/-- What a name is bound to is worded like a name. -/
def Resolution.Worded (w : Wording) : Resolution → Prop
  | .staticAttribute owner | .interfaceAttribute owner | .foreignAttribute owner => w.Word owner
  | .localName | .superReference | .instanceAttribute | .builtin => True

/-- A method of a definition is worded like it. -/
theorem Definition.Worded.method {d : Definition} (h : d.Worded w) {name : String}
    {m : MethodDefinition} (hm : d.method? name = some m) : m.Worded w :=
  h.methods m (List.mem_of_find?_eq_some hm)

namespace View.Worded

variable {v : View} (hv : v.Worded w)

include hv

/-! ## Definitions -/

/-- Classes are found in scopes and in the registry, and both are worded. -/
theorem findClass {id : Option ScopeId} {name : String} {c : ClassDefinition}
    (h : v.findClass? id name = .ok (some c)) : c.Worded w := by
  rcases mem_of_findClass? h with ⟨s, hs, hc⟩ | hc
  · exact (hv.scopes s hs).classes c hc
  · exact hv.classes c hc

theorem findInterface {id : Option ScopeId} {name : String} {i : InterfaceDefinition}
    (h : v.findInterface? id name = .ok (some i)) : i.toDefinition.Worded w := by
  rcases mem_entries_of_findInterface? h with ⟨s, hs, hi⟩ | hi
  · exact (hv.scopes s hs).interfaces i (List.mem_map_of_mem (f := Prod.snd) hi)
  · exact hv.interfaces i (List.mem_map_of_mem (f := Prod.snd) hi)

/-- The object that a file belongs to is named by a word. -/
theorem owner {file : String} {object : ObjectRef}
    (h : v.registry.ownerOf? file = some object) : w.Word object.name :=
  hv.owners object (Dict.mem_values_of_find? h)

/-- The key of a definition. -/
theorem key {d : Definition} (hd : d.Worded w) : w.Word (ClassKey.ofDefinition v.registry d) := by
  unfold ClassKey.ofDefinition
  split
  · exact hd.name.toUpper
  · exact Wording.Word.ofOwner (fun _ h => hv.owner h) hd.name

/-- The class around a position is worded. -/
theorem classAt (position : Position) :
    (v.classAt position).All fun found => ∀ c ∈ found, c.Worded w := by
  refine .after fun enclosing => ?_
  cases enclosing with
  | none => exact nofun
  | some enclosing =>
    refine .lift fun found hfound c hc => ?_
    obtain rfl : found = some c := hc
    exact hv.findClass hfound

theorem interfaceAt (position : Position) :
    (v.interfaceAt position).All fun found => ∀ i ∈ found, i.toDefinition.Worded w := by
  refine .after fun enclosing => ?_
  cases enclosing with
  | none => exact nofun
  | some enclosing =>
    refine .lift fun found hfound i hi => ?_
    obtain rfl : found = some i := hi
    exact hv.findInterface hfound

/-- A method that is found by its class or by an interface is worded. -/
theorem methodDefinition (position : Position) (scope : ScopeId) (name : String) :
    (v.methodDefinition position scope name).All fun found => ∀ m ∈ found, m.Worded w := by
  unfold View.methodDefinition
  split
  next interfaceName member _ =>
    refine .bind (P := fun found => ∀ i ∈ found, i.toDefinition.Worded w)
      (.lift fun found hfound i hi => ?_) fun found hfound m hm => ?_
    · obtain rfl : found = some i := hi
      exact hv.findInterface hfound
    · obtain ⟨i, hi, hmethod⟩ := Option.bind_eq_some_iff.mp hm
      exact (hfound i hi).method hmethod
  next =>
    refine .bind (hv.classAt position) fun found hfound m hm => ?_
    obtain ⟨c, hc, hmethod⟩ := Option.bind_eq_some_iff.mp hm
    exact (hfound c hc).definition.method hmethod

/-- So is the method around a position. -/
theorem enclosingMethod (position : Position) : (v.enclosingMethod position).All fun found =>
    ∀ m ∈ found, ∀ definition ∈ m.definition, definition.Worded w := by
  refine .after fun enclosing => ?_
  cases enclosing with
  | none => exact nofun
  | some enclosing =>
    refine .bind (hv.methodDefinition position _ _) fun found hfound m hm => ?_
    cases hm
    exact hfound

/-! ## Names -/

/-- The type of a variable is worded. -/
theorem variableNamed (token : Token) :
    (v.variableNamed token).All fun found => ∀ x ∈ found, x.type.Worded w := by
  refine .after fun scope => ?_
  cases scope with
  | none => exact nofun
  | some scope =>
    refine .lift fun found hfound x hx => ?_
    obtain rfl : found = some x := hx
    obtain ⟨_, s, hs, hfind⟩ := ScopeGraph.exists_of_climb hfound
    exact (hv.scopes s hs).vars x (Dict.mem_values_of_find? hfind)

/-- The owner that a name is bound to is a word. -/
theorem resolve (token : Token) : (v.resolve token).All (Resolution.Worded w) := by
  refine (v.resolve_isFrom token).mono fun resolution hfrom => ?_
  cases resolution with
  | staticAttribute =>
    obtain ⟨s, hs, -, rfl⟩ := hfrom
    exact (hv.scopes s hs).name.toLower
  | interfaceAttribute | foreignAttribute =>
    obtain ⟨object, hobject, rfl⟩ := hfrom
    exact (hv.owners object hobject).toLower
  | _ => trivial

/-- The interface that an attribute comes from is named by a word. -/
theorem attributeInterface (token : Token) :
    (v.attributeInterface? token).All fun found => ∀ owner ∈ found, w.Word owner := by
  refine (v.attributeInterface_isFrom token).mono fun found hfrom owner howner => ?_
  rcases hfrom owner howner with ⟨s, hs, -, rfl⟩ | ⟨object, hobject, rfl⟩
  · exact (hv.scopes s hs).name.toLower
  · exact (hv.owners object hobject).toLower

/-! ## Calls and addresses -/

/-- The method that a call means is worded, with its parameters. -/
theorem methodReference (token : Token) : (v.methodReference? token).All fun found =>
    ∀ reference ∈ found, w.Word reference.name ∧ reference.definition.Worded w := by
  refine (v.methodReference_isFrom token).mono fun found hfrom called hcalled => ?_
  obtain ⟨s, hs, ⟨kind, _, _⟩, hreference, definition, owner, ownerKind, hresolved, rfl⟩ :=
    hfrom called hcalled
  obtain ⟨hdefinition, howner⟩ := (hv.scopes s hs).references _ hreference _ hresolved
  refine ⟨?_, hdefinition⟩
  dsimp only [callName]
  split
  next owner => exact (howner owner rfl).interfaceMember hdefinition.name
  next => exact hdefinition.name.plain

/-- Classes are addressed by their names or by their keys. -/
theorem classAddress {name : String} (hname : w.Word name) (position : Position) :
    (v.classAddress name position).All (Inline w) := by
  refine (v.classAddress_isFrom name position (P := w.Word) hname.toUpper
    (fun s hs c hc => hv.key ((hv.scopes s hs).classes c hc).definition)
    fun s hs i hi => hv.key ((hv.scopes s hs).interfaces i hi)).mono ?_
  rintro _ ⟨key, hkey, rfl⟩
  exact hkey.inline_lookup

end View.Worded

end AbapLowering
