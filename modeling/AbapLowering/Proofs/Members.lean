import AbapLowering.Proofs.Code.CaseMapping
import AbapLowering.Proofs.Emission.Outcome
import AbapLowering.Proofs.Members.Walk
import AbapLowering.Proofs.Scope.Found
import Mathlib.Data.List.Forall2

/-!
# What interfaces provide

The constructor of a class sets up the attributes of all interfaces that the class implements,
directly or through others, and the static part declares their static attributes and constants. Both
find the same interfaces, each once, but the constructor depth first and the static part breadth first
(`Members.interfaces_flattened`).
-/

namespace AbapLowering

open Text (IsAscii)

/-! ## Where interfaces are found -/

namespace View

/-- Interfaces are kept under their own names, and their names are ASCII. -/
structure FilesInterfaces (v : View) : Prop where
  inScopes : ∀ s ∈ v.graph.scopes.toList, ∀ entry ∈ s.interfaces.entries,
    entry.1 = Text.toLower entry.2.name ∧ IsAscii entry.2.name
  inRegistry : ∀ entry ∈ v.registry.interfaces.entries,
    entry.1 = Text.toUpper entry.2.name ∧ IsAscii entry.2.name
  included : ∀ name ∈ v.includedNames, IsAscii name

variable {v : View} {scope : Option ScopeId}

/-- Interfaces are found by their names in lower or in upper case. -/
theorem findInterface?_congr {a b : String} (hlower : Text.toLower a = Text.toLower b)
    (hupper : Text.toUpper a = Text.toUpper b) :
    v.findInterface? scope a = v.findInterface? scope b := by
  simp only [findInterface?, ScopeGraph.findInterface?, Registry.findInterface?, hlower, hupper]

/-- What an interface that can be found includes is among the names that are known. -/
theorem mem_includedNames {name included : String} {i : InterfaceDefinition}
    (h : v.findInterface? scope name = .ok (some i)) (hincluded : included ∈ i.implementing) :
    included ∈ v.includedNames := by
  have hvalues {d : Dict InterfaceDefinition} {k : String} (hentry : (k, i) ∈ d.entries) :
      included ∈ d.values.flatMap (·.implementing) :=
    List.mem_flatMap.mpr ⟨i, List.mem_map_of_mem (f := Prod.snd) hentry, hincluded⟩
  refine List.mem_append.mpr ?_
  rcases mem_entries_of_findInterface? h with ⟨s, hs, hentry⟩ | hentry
  · exact .inl (List.mem_flatMap.mpr ⟨s, hs, hvalues hentry⟩)
  · exact .inr (hvalues hentry)

/-- The walks that lowering takes know every name that they lead to. -/
theorem encloses (v : View) (scope : Option ScopeId) (names : List String) :
    Encloses (v.findInterface? scope) ((names ++ v.includedNames).map Text.toUpper) := by
  intro outer name hname
  obtain ⟨i, hfound, hincluded⟩ := find_of_mem_included hname
  exact List.mem_map_of_mem (List.mem_append_right _ (mem_includedNames hfound hincluded))

/-- Both walks exist for every view, and lowering takes them unless a lookup is faulty. -/
theorem exists_walks (v : View) (scope : Option ScopeId) (names : List String) :
    ∃ deep wide, DepthFirst (v.findInterface? scope) [] names deep ∧
      BreadthFirst (v.findInterface? scope) [] names wide ∧
      (v.visits .depthFirst scope names = deep ∨ Fails (v.visits .depthFirst scope names)) ∧
      (v.visits .breadthFirst scope names = wide ∨ Fails (v.visits .breadthFirst scope names)) := by
  have hknown := v.encloses scope names
  have hnames : ∀ name ∈ names,
      Text.toUpper name ∈ (names ++ v.includedNames).map Text.toUpper := fun name hname =>
    List.mem_map_of_mem (List.mem_append_left _ hname)
  obtain ⟨deep, hdeep, hdeepTaken⟩ := exists_depthFirst hknown [] names hnames
  obtain ⟨wide, hwide, hwideTaken⟩ := exists_breadthFirst hknown [] names hnames
  have htaken := hdeepTaken []
  rw [List.append_nil, visitInterfaces, List.append_nil, unseen_nil] at htaken
  rw [unseen_nil] at hwideTaken
  exact ⟨deep, wide, hdeep, hwide, htaken, hwideTaken⟩

namespace FilesInterfaces

variable {names : List String} (filed : v.FilesInterfaces)

include filed

/-- Only names in ASCII can be reached. -/
theorem isAscii_of_reaches (hnames : ∀ name ∈ names, IsAscii name) {name : String}
    (h : Reaches (v.findInterface? scope) names name) : IsAscii name := by
  cases h with
  | root hname => exact hnames name hname
  | included _ hfound hincluded => exact filed.included name (mem_includedNames hfound hincluded)

/-- The case of names that can be reached does not matter. -/
theorem findInterface?_eq (hnames : ∀ name ∈ names, IsAscii name) {a b : String}
    (ha : Reaches (v.findInterface? scope) names a) (hb : Reaches (v.findInterface? scope) names b)
    (h : Text.toUpper a = Text.toUpper b) : v.findInterface? scope a = v.findInterface? scope b := by
  have hlower := (Text.toUpper_eq_iff (filed.isAscii_of_reaches hnames ha)
    (filed.isAscii_of_reaches hnames hb)).mp h
  exact findInterface?_congr hlower h

/-- What is found under a name that can be reached has this name. -/
theorem toUpper_name (hnames : ∀ name ∈ names, IsAscii name) {name : String}
    {i : InterfaceDefinition} (hname : Reaches (v.findInterface? scope) names name)
    (h : v.findInterface? scope name = .ok (some i)) : Text.toUpper i.name = Text.toUpper name := by
  have hascii := filed.isAscii_of_reaches hnames hname
  rcases mem_entries_of_findInterface? h with ⟨s, hs, hentry⟩ | hentry
  · obtain ⟨hkey, hown⟩ := filed.inScopes s hs _ hentry
    exact (Text.toUpper_eq_iff hown hascii).mpr hkey.symm
  · exact (filed.inRegistry _ hentry).1.symm

end FilesInterfaces

end View

/-! ## What the passes emit -/

namespace Emit

variable {α β : Type} {f : α → Emit β} {R : α → β → Prop} {context : Context}

/-- A list of effects that leave the state as it is. -/
theorem mapM_eq_ok (hf : ∀ {a s b s'}, f a context s = .ok b s' → s' = s ∧ R a b) {items : List α}
    {s s' : EmissionState} {results : List β} (h : items.mapM f context s = .ok results s') :
    s' = s ∧ List.Forall₂ R items results := by
  induction items generalizing s results with
  | nil =>
    cases h
    exact ⟨rfl, .nil⟩
  | cons a rest ih =>
    rw [List.mapM_cons] at h
    obtain ⟨b, s₁, hb, h⟩ := bind_eq_ok h
    obtain ⟨bs, s₂, hbs, h⟩ := bind_eq_ok h
    cases h
    obtain ⟨rfl, hab⟩ := hf hb
    obtain ⟨rfl, hrest⟩ := ih hbs
    exact ⟨rfl, .cons hab hrest⟩

end Emit

namespace Members

variable {context : Context} {s s' : EmissionState}

/-- The warning that there is no interface of some name. -/
def notFound (what name : String) : Diagnostic :=
  ⟨.warning, "interface " ++ name ++ " not found, " ++ what ++ " skipped", none⟩

/-- The state after warnings about some names. -/
def warned (s : EmissionState) (what : String) (names : List String) : EmissionState :=
  { s with diagnostics := s.diagnostics ++ names.map (notFound what) }

/-- A visit in vain leaves a warning and nothing else. -/
theorem visited_eq_ok {what : String} {visit : InterfaceVisit} {found : Option InterfaceDefinition}
    (h : visited what visit context s = .ok found s') :
    visit.found = .ok found ∧ s' = warned s what visit.missing?.toList := by
  unfold visited at h
  cases hfound : visit.found with
  | error fault =>
    rw [hfound] at h
    cases h
  | ok result =>
    rw [hfound] at h
    cases result with
    | some i =>
      cases h
      simp [warned, InterfaceVisit.missing?, hfound]
    | none =>
      cases h
      simp [warned, InterfaceVisit.missing?, hfound, notFound]

/-- A pass over visits, in which only what is met in vain leaves a trace in the state. -/
theorem mapM_visited_eq_ok {β : Type} {what : String} {f : InterfaceVisit → Emit (List β)}
    {R : InterfaceDefinition → List β → Prop}
    (hf : ∀ {visit s parts s'}, f visit context s = .ok parts s' →
      ∃ found, visit.found = .ok found ∧ s' = warned s what visit.missing?.toList ∧
        match found with
        | some i => R i parts
        | none => parts = [])
    {visits : List InterfaceVisit} {parts : List (List β)}
    (h : visits.mapM f context s = .ok parts s') :
    ¬ Fails visits ∧ s' = warned s what (missingOf visits) ∧
      ∃ provided, parts.flatten = provided.flatten ∧
        List.Forall₂ R (interfacesOf visits) provided := by
  induction visits generalizing s parts with
  | nil =>
    cases h
    exact ⟨nofun, by simp [warned, missingOf], [], rfl, .nil⟩
  | cons visit rest ih =>
    rw [List.mapM_cons] at h
    obtain ⟨first, s₁, hfirst, h⟩ := Emit.bind_eq_ok h
    obtain ⟨others, s₂, hothers, h⟩ := Emit.bind_eq_ok h
    cases h
    obtain ⟨found, hfound, rfl, hparts⟩ := hf hfirst
    obtain ⟨hsound, rfl, provided, hflatten, hprovided⟩ := ih hothers
    refine ⟨?_, ?_, ?_⟩
    -- no visit is faulty: not the first, which was read, and none of the others
    · rintro ⟨faulty, hmem, fault, hfault⟩
      rcases List.mem_cons.mp hmem with rfl | hmem
      · rw [hfound] at hfault
        cases hfault
      · exact hsound ⟨faulty, hmem, fault, hfault⟩
    · cases hmissing : visit.missing? <;> simp [warned, missingOf, hmissing]
    · cases found with
      | none =>
        have hnone : visit.interface? = none := by simp [InterfaceVisit.interface?, hfound]
        refine ⟨provided, by simp [hparts, hflatten], ?_⟩
        rw [interfacesOf, List.filterMap_cons_none hnone]
        exact hprovided
      | some i =>
        have hsome : visit.interface? = some i := by simp [InterfaceVisit.interface?, hfound]
        refine ⟨first :: provided, by simp [hflatten], ?_⟩
        rw [interfacesOf, List.filterMap_cons_some hsome]
        exact .cons hparts hprovided

/-- The line that sets up an attribute of the instance. -/
def IsInstanceLine (config : Config) (member : String × DataType) (line : String) : Prop :=
  ∃ text, member.2.constructor config.isLenient = .ok text ∧
    line = "this." ++ member.1 ++ " = " ++ text ++ ";"

/-- The lines that declare a static member and give it its value. -/
def AreStaticLines (config : Config) (className : String) (m : StaticMember)
    (lines : List String) : Prop :=
  ∃ text, m.type.constructor config.isLenient = .ok text ∧
    lines = (className ++ "." ++ m.name ++ " = " ++ text ++ ";") ::
      (m.value.map (valueLines (className ++ "." ++ m.name))).getD []

/-- The attributes of the instance that an interface provides, under the names they get. -/
def attributesOf (i : InterfaceDefinition) : List (String × DataType) :=
  i.attributes.inst.map fun a => (Identifier.interfaceMember i.name a.name, a.type)

/-- The static members that an interface provides: its static attributes and then its constants, under
the names they get. -/
def staticsOf (i : InterfaceDefinition) : List StaticMember :=
  (i.attributes.statics.map fun a => ⟨Identifier.interfaceMember i.name a.name, a.type, a.value⟩)
    ++ i.attributes.constants.map fun a =>
      ⟨Identifier.interfaceMember i.name a.name, a.type, a.value⟩

/-- What the constructor of a class sets up with some interfaces: the attributes of the class, then
theirs, then aliases and constants. -/
def AreConstructorLines (config : Config) (c : ClassDefinition) (forward : Bool)
    (interfaces : List InterfaceDefinition) (lines : List String) : Prop :=
  ∃ own provided,
    List.Forall₂ (IsInstanceLine config)
      (c.attributes.inst.map fun a => (Identifier.plain a.name, a.type)) own ∧
    List.Forall₂ (IsInstanceLine config) (interfaces.flatMap attributesOf) provided ∧
    lines = partIf (forward && c.superClass.isSome) "await super.constructor_(INPUT);"
      ++ ["this.me = new abap.types.ABAPObject();", "this.me.set(this);"]
      ++ own ++ provided ++ c.aliases.map aliasLine
      ++ c.attributes.constants.map (constantLine (Text.toLower c.name))

/-- The static members of a class with some interfaces: its own static attributes, its own constants,
then what the interfaces provide. -/
def staticsWith (c : ClassDefinition) (interfaces : List InterfaceDefinition) : List StaticMember :=
  (c.attributes.statics.map fun a => ⟨Identifier.plain a.name, a.type, a.value⟩)
    ++ (c.attributes.constants.map fun a => ⟨Identifier.plain a.name, a.type, a.value⟩)
    ++ interfaces.flatMap staticsOf

/-- The static section of a class with some interfaces: the declarations of the static members in
order, the aliases of such members and the call of the class constructor. -/
def IsStaticSection (config : Config) (c : ClassDefinition) (className : String)
    (interfaces : List InterfaceDefinition) (text : String) : Prop :=
  ∃ declarations,
    List.Forall₂ (AreStaticLines config className) (staticsWith c interfaces) declarations ∧
    text = Emit.endLines (declarations.flatten
      ++ c.aliases.filterMap (staticAliasLine? className (staticsWith c interfaces))
      ++ partIf (c.method? "class_constructor").isSome
        ("await " ++ className ++ ".class_constructor();"))

/-- Static attributes come before constants. -/
theorem staticMembers_eq (attributes : Attributes) (spell : String → String) :
    staticMembers attributes spell =
      (attributes.statics.map fun a => ⟨spell a.name, a.type, a.value⟩)
        ++ attributes.constants.map fun a => ⟨spell a.name, a.type, a.value⟩ :=
  List.map_append

/-- The line of an attribute shows the constructor of its type. -/
theorem instanceLine_eq_ok {name line : String} {type : DataType}
    (h : instanceLine name type context s = .ok line s') :
    s' = s ∧ IsInstanceLine context.config (name, type) line := by
  obtain ⟨text, s₁, htype, h⟩ := Emit.bind_eq_ok h
  cases h
  obtain ⟨rfl, htext⟩ := Emit.typeConstructor_eq_ok htype
  exact ⟨rfl, text, htext, rfl⟩

/-- The lines of a static member declare it and set its leaves. -/
theorem staticLines_eq_ok {className : String} {m : StaticMember} {lines : List String}
    (h : staticLines className m context s = .ok lines s') :
    s' = s ∧ AreStaticLines context.config className m lines := by
  obtain ⟨text, s₁, htype, h⟩ := Emit.bind_eq_ok h
  cases h
  obtain ⟨rfl, htext⟩ := Emit.typeConstructor_eq_ok htype
  exact ⟨rfl, text, htext, rfl⟩

/-- A visit to an interface gives the lines of its attributes. -/
theorem interfaceLines_eq_ok {visit : InterfaceVisit} {lines : List String}
    (h : interfaceLines visit context s = .ok lines s') :
    ∃ found, visit.found = .ok found ∧ s' = warned s "attributes" visit.missing?.toList ∧
      match found with
      | some i => List.Forall₂ (IsInstanceLine context.config) (attributesOf i) lines
      | none => lines = [] := by
  obtain ⟨found, s₁, hvisited, h⟩ := Emit.bind_eq_ok h
  obtain ⟨hfound, rfl⟩ := visited_eq_ok hvisited
  refine ⟨found, hfound, ?_⟩
  cases found with
  | none =>
    cases h
    exact ⟨rfl, rfl⟩
  | some i =>
    have hstep {a : Attribute} {t : EmissionState} {line : String} {t' : EmissionState}
        (hline : instanceLine (Identifier.interfaceMember i.name a.name) a.type context t =
          .ok line t') :
        t' = t ∧ IsInstanceLine context.config
          (Identifier.interfaceMember i.name a.name, a.type) line :=
      instanceLine_eq_ok hline
    obtain ⟨rfl, hlines⟩ := Emit.mapM_eq_ok hstep h
    exact ⟨rfl, List.forall₂_map_left_iff.mpr hlines⟩

/-- A visit to an interface gives its static attributes and constants. -/
theorem interfaceMembers_eq_ok {visit : InterfaceVisit} {members : List StaticMember}
    (h : interfaceMembers visit context s = .ok members s') :
    ∃ found, visit.found = .ok found ∧ s' = warned s "statics" visit.missing?.toList ∧
      match found with
      | some i => staticsOf i = members
      | none => members = [] := by
  obtain ⟨found, s₁, hvisited, h⟩ := Emit.bind_eq_ok h
  obtain ⟨hfound, rfl⟩ := visited_eq_ok hvisited
  refine ⟨found, hfound, ?_⟩
  cases found with
  | none =>
    cases h
    exact ⟨rfl, rfl⟩
  | some i =>
    cases h
    exact ⟨rfl, (staticMembers_eq _ _).symm⟩

theorem forall₂_flatMap {α β γ : Type} {R : β → γ → Prop} {g : α → List β} {items : List α}
    {parts : List (List γ)} (h : List.Forall₂ (fun a part => List.Forall₂ R (g a) part) items parts) :
    List.Forall₂ R (items.flatMap g) parts.flatten := by
  induction h with
  | nil => exact .nil
  | cons hfirst _ ih =>
    rw [List.flatMap_cons, List.flatten_cons]
    exact List.rel_append hfirst ih

/-- The constructor is emitted along the depth-first visits. -/
theorem constructorLines_eq_ok {c : ClassDefinition} {scope : Option ScopeId} {forward : Bool}
    {lines : List String} (h : constructorLines c scope forward context s = .ok lines s') :
    let visits := context.view.visits .depthFirst scope c.implementing
    ¬ Fails visits ∧ s' = warned s "attributes" (missingOf visits) ∧
      AreConstructorLines context.config c forward (interfacesOf visits) lines := by
  obtain ⟨own, s₁, hmembers, h⟩ := Emit.bind_eq_ok h
  rw [Emit.read_bind] at h
  obtain ⟨parts, s₂, hparts, h⟩ := Emit.bind_eq_ok h
  cases h
  have hstep {a : Attribute} {t : EmissionState} {line : String} {t' : EmissionState}
      (hline : instanceLine (Identifier.plain a.name) a.type context t = .ok line t') :
      t' = t ∧ IsInstanceLine context.config (Identifier.plain a.name, a.type) line :=
    instanceLine_eq_ok hline
  obtain ⟨rfl, hown⟩ := Emit.mapM_eq_ok hstep hmembers
  obtain ⟨hsound, hstate, provided, hflatten, hprovided⟩ :=
    mapM_visited_eq_ok interfaceLines_eq_ok hparts
  refine ⟨hsound, hstate, own, provided.flatten, List.forall₂_map_left_iff.mpr hown,
    forall₂_flatMap hprovided, ?_⟩
  rw [hflatten]

/-- Static members are collected along the breadth-first visits. -/
theorem collectStatics_eq_ok {c : ClassDefinition} {scope : ScopeId} {members : List StaticMember}
    (h : collectStatics c scope context s = .ok members s') :
    let visits := context.view.visits .breadthFirst (some scope) c.implementing
    ¬ Fails visits ∧ s' = warned s "statics" (missingOf visits) ∧
      members = staticsWith c (interfacesOf visits) := by
  unfold collectStatics at h
  rw [Emit.read_bind] at h
  obtain ⟨parts, s₂, hparts, h⟩ := Emit.bind_eq_ok h
  cases h
  obtain ⟨hsound, hstate, provided, hflatten, hprovided⟩ :=
    mapM_visited_eq_ok interfaceMembers_eq_ok hparts
  refine ⟨hsound, hstate, ?_⟩
  have hstatics : (interfacesOf _).map staticsOf = provided :=
    List.forall₂_eq_eq_eq ▸ List.forall₂_map_left_iff.mpr hprovided
  rw [staticsWith, hflatten, List.flatMap_def, hstatics, staticMembers_eq]

/-- The static section is emitted from the members that are collected. -/
theorem staticPart_eq_ok {c : ClassDefinition} {scope : ScopeId} {name : Token} {text : String}
    {s₁ s₂ : EmissionState} (hc : classOf name context s = .ok c s₁)
    (hscope : Emit.ask (fun v => v.scopeAt name.start "class statics") context s₁ = .ok scope s₂)
    (h : staticPart name context s = .ok text s') :
    ∃ members, collectStatics c scope context s₂ = .ok members s' ∧
      ∀ interfaces, members = staticsWith c interfaces →
        IsStaticSection context.config c name.lower interfaces text := by
  obtain ⟨c', t₁, hc', h⟩ := Emit.bind_eq_ok h
  rw [hc] at hc'
  cases hc'
  obtain ⟨scope', t₂, hscope', h⟩ := Emit.bind_eq_ok h
  rw [hscope] at hscope'
  cases hscope'
  obtain ⟨members, t₃, hmembers, h⟩ := Emit.bind_eq_ok h
  obtain ⟨declarations, t₄, hdeclarations, h⟩ := Emit.bind_eq_ok h
  cases h
  obtain ⟨rfl, hlines⟩ := Emit.mapM_eq_ok staticLines_eq_ok hdeclarations
  refine ⟨members, hmembers, ?_⟩
  rintro interfaces rfl
  exact ⟨declarations, hlines, rfl⟩

/-! ## Both passes flatten the same interfaces -/

/-- However interfaces include each other, there are a depth-first and a breadth-first walk from the
interfaces of a class, which come upon the same interfaces: all that can be reached, each once. If the
constructor can be emitted, it sets up the attributes of these interfaces in the order of the first
walk; if the static members can be collected, they are those of the class and then those of these
interfaces in the order of the second, and so they are declared if the static section can be emitted.
Either pass leaves just one warning for each name that is met in vain. -/
theorem interfaces_flattened {v : View} {c : ClassDefinition} {scope : ScopeId}
    (filed : v.FilesInterfaces) (hnames : ∀ name ∈ c.implementing, IsAscii name) :
    let find := v.findInterface? (some scope)
    ∃ deep wide, DepthFirst find [] c.implementing deep ∧ BreadthFirst find [] c.implementing wide ∧
      Exhausts find c.implementing deep ∧ Exhausts find c.implementing wide ∧
      (interfacesOf deep).Perm (interfacesOf wide) ∧
      (∀ config forward s lines s',
        constructorLines c (some scope) forward ⟨v, config⟩ s = .ok lines s' →
        s' = warned s "attributes" (missingOf deep) ∧
        AreConstructorLines config c forward (interfacesOf deep) lines) ∧
      (∀ config s members s', collectStatics c scope ⟨v, config⟩ s = .ok members s' →
        s' = warned s "statics" (missingOf wide) ∧ members = staticsWith c (interfacesOf wide)) ∧
      (∀ config name s s₁ s₂ text s', classOf name ⟨v, config⟩ s = .ok c s₁ →
        Emit.ask (fun v => v.scopeAt name.start "class statics") ⟨v, config⟩ s₁ = .ok scope s₂ →
        staticPart name ⟨v, config⟩ s = .ok text s' →
        s' = warned s₂ "statics" (missingOf wide) ∧
        IsStaticSection config c name.lower (interfacesOf wide) text) := by
  intro find
  obtain ⟨deep, wide, hdeep, hwide, hdeepTaken, hwideTaken⟩ :=
    v.exists_walks (some scope) c.implementing
  have hexhausts : ∀ {visits}, IsWalk find [] c.implementing visits →
      Exhausts find c.implementing visits := fun h =>
    h.exhausts (fun _ _ => filed.findInterface?_eq hnames) fun _ _ => filed.toUpper_name hnames
  -- members are collected only where no interface is faulty, so the walk was taken to its end
  have hstatics : ∀ config s members s',
      collectStatics c scope ⟨v, config⟩ s = .ok members s' →
      s' = warned s "statics" (missingOf wide) ∧ members = staticsWith c (interfacesOf wide) := by
    intro config s members s' h
    obtain ⟨hsound, hstate, hmembers⟩ := collectStatics_eq_ok h
    rw [hwideTaken.resolve_right hsound] at hstate hmembers
    exact ⟨hstate, hmembers⟩
  refine ⟨deep, wide, hdeep, hwide, hexhausts hdeep.isWalk, hexhausts hwide.isWalk,
    (hexhausts hdeep.isWalk).perm (hexhausts hwide.isWalk), ?_, hstatics, ?_⟩
  · intro config forward s lines s' h
    obtain ⟨hsound, hstate, hlines⟩ := constructorLines_eq_ok h
    rw [hdeepTaken.resolve_right hsound] at hstate hlines
    exact ⟨hstate, hlines⟩
  · intro config name s s₁ s₂ text s' hc hscope h
    obtain ⟨members, hmembers, hsection⟩ := staticPart_eq_ok hc hscope h
    obtain ⟨hstate, hmembers⟩ := hstatics config s₂ members s' hmembers
    exact ⟨hstate, hsection _ hmembers⟩

/-- An interface with an attribute, a static attribute and an interface below it. -/
def leftInterface : InterfaceDefinition :=
  { name := "zif_left", isGlobal := true, file := "zif_left.intf.abap", implementing := ["zif_base"],
    attributes := ⟨[⟨"a", .float, none⟩], [⟨"count", .integer none, some (.scalar "7")⟩], []⟩,
    aliases := [], methods := [] }

/-- A second interface above the same one, with a constant. -/
def rightInterface : InterfaceDefinition :=
  { name := "zif_right", isGlobal := true, file := "zif_right.intf.abap",
    implementing := ["ZIF_BASE"], attributes := ⟨[], [], [⟨"c_max", .float, none⟩]⟩, aliases := [],
    methods := [] }

/-- The interface below both of them. It leads back to the first one, and to one that is not known. -/
def baseInterface : InterfaceDefinition :=
  { name := "zif_base", isGlobal := true, file := "zif_base.intf.abap",
    implementing := ["ZIF_LEFT", "zif_none"],
    attributes := ⟨[⟨"b", .date, none⟩], [⟨"root", .time, none⟩], []⟩, aliases := [], methods := [] }

/-- A class that implements the upper two and has a constant of its own. -/
def diamondClass : ClassDefinition :=
  { name := "lcl_bar", isGlobal := false, file := "zfoo.prog.abap",
    implementing := ["Zif_Left", "zif_right"],
    attributes := ⟨[], [], [⟨"c_one", .integer none, some (.scalar "1")⟩]⟩,
    aliases := [⟨"counter", "zif_left~count"⟩], methods := [], superClass := none }

/-- A program with this class in lines 3 to 5, beside the interfaces. -/
def circularView : View :=
  let program : Scope := .fresh .program "zfoo" "zfoo.prog.abap" ⟨⟨1, 1⟩, ⟨9, 1⟩⟩ none
  let body : Scope :=
    .fresh .classImplementation "lcl_bar" "zfoo.prog.abap" ⟨⟨3, 1⟩, ⟨5, 9⟩⟩ (some .root)
  { graph := ⟨#[{ program with
      children := [⟨1⟩], classes := program.classes.insert "lcl_bar" diamondClass }, body]⟩
    registry := ((Registry.empty.addInterface leftInterface).addInterface rightInterface).addInterface
      baseInterface
    file := "zfoo.prog.abap"
    object := ⟨.prog, "ZFOO"⟩ }

theorem known_circularView :
    (diamondClass.implementing ++ circularView.includedNames).map Text.toUpper =
      ["ZIF_LEFT", "ZIF_RIGHT", "ZIF_LEFT", "ZIF_NONE", "ZIF_BASE", "ZIF_BASE"] := by
  decide +kernel

/-- Depth first, the interface below is met before the second one above it. -/
theorem visits_depthFirst_circularView :
    circularView.visits .depthFirst (some ⟨1⟩) diamondClass.implementing =
      ["Zif_Left", "zif_base", "zif_none", "zif_right"].map
        (visitOf (circularView.findInterface? (some ⟨1⟩))) := by
  rw [View.visits, known_circularView, ← unseen_nil (_ :: _), diamondClass]
  dsimp only
  rw [visitInterfaces_of_new .depthFirst (by decide +kernel) (by decide +kernel)]
  rw [show InterfaceVisit.enqueue _ _ _ = ["zif_base", "zif_right"] by decide +kernel]
  rw [visitInterfaces_of_new .depthFirst (by decide +kernel) (by decide +kernel)]
  rw [show InterfaceVisit.enqueue _ _ _ = ["ZIF_LEFT", "zif_none", "zif_right"] by decide +kernel]
  rw [visitInterfaces_of_seen .depthFirst (by decide +kernel)]
  rw [visitInterfaces_of_new .depthFirst (by decide +kernel) (by decide +kernel)]
  rw [show InterfaceVisit.enqueue _ _ _ = ["zif_right"] by decide +kernel]
  rw [visitInterfaces_of_new .depthFirst (by decide +kernel) (by decide +kernel)]
  rw [show InterfaceVisit.enqueue _ _ _ = ["ZIF_BASE"] by decide +kernel]
  rw [visitInterfaces_of_seen .depthFirst (by decide +kernel), visitInterfaces]
  rfl

/-- Breadth first, both interfaces above are met before the one below. -/
theorem visits_breadthFirst_circularView :
    circularView.visits .breadthFirst (some ⟨1⟩) diamondClass.implementing =
      ["Zif_Left", "zif_right", "zif_base", "zif_none"].map
        (visitOf (circularView.findInterface? (some ⟨1⟩))) := by
  rw [View.visits, known_circularView, ← unseen_nil (_ :: _), diamondClass]
  dsimp only
  rw [visitInterfaces_of_new .breadthFirst (by decide +kernel) (by decide +kernel)]
  rw [show InterfaceVisit.enqueue _ _ _ = ["zif_right", "zif_base"] by decide +kernel]
  rw [visitInterfaces_of_new .breadthFirst (by decide +kernel) (by decide +kernel)]
  rw [show InterfaceVisit.enqueue _ _ _ = ["zif_base", "ZIF_BASE"] by decide +kernel]
  rw [visitInterfaces_of_new .breadthFirst (by decide +kernel) (by decide +kernel)]
  rw [show InterfaceVisit.enqueue _ _ _ = ["ZIF_BASE", "ZIF_LEFT", "zif_none"] by decide +kernel]
  rw [visitInterfaces_of_seen .breadthFirst (by decide +kernel)]
  rw [visitInterfaces_of_seen .breadthFirst (by decide +kernel)]
  rw [visitInterfaces_of_new .breadthFirst (by decide +kernel) (by decide +kernel)]
  rw [show InterfaceVisit.enqueue _ _ _ = [] by decide +kernel, visitInterfaces]
  rfl

/-- What the constructor of the class sets up. -/
def diamondLines : List String :=
  ["this.me = new abap.types.ABAPObject();", "this.me.set(this);",
    "this.zif_left$a = new abap.types.Float();", "this.zif_base$b = new abap.types.Date();",
    "this.counter = this.zif_left$count;", "this.c_one = lcl_bar.c_one;"]

/-- The static section of the class. -/
def diamondText : String :=
  Emit.endLines ["lcl_bar.c_one = new abap.types.Integer();", "lcl_bar.c_one.set(1);",
    "lcl_bar.zif_left$count = new abap.types.Integer();", "lcl_bar.zif_left$count.set(7);",
    "lcl_bar.zif_right$c_max = new abap.types.Float();",
    "lcl_bar.zif_base$root = new abap.types.Time();", "lcl_bar.counter = lcl_bar.zif_left$count;"]

/-- The state after the scope of the class was found. -/
def diamondState : EmissionState :=
  { EmissionState.initial 0 with slot := some ⟨⟨⟨3, 1⟩, ⟨5, 9⟩⟩, ⟨1⟩⟩ }

theorem constructorLines_diamondClass :
    constructorLines diamondClass (some ⟨1⟩) false ⟨circularView, .standard⟩ (.initial 0) =
      .ok diamondLines (warned (.initial 0) "attributes" ["zif_none"]) := by
  have hown : diamondClass.attributes.inst.mapM
      (fun a => instanceLine (Identifier.plain a.name) a.type) ⟨circularView, .standard⟩
      (.initial 0) = .ok [] (.initial 0) := rfl
  rw [constructorLines, Emit.bind_apply, hown]
  dsimp only
  rw [Emit.read_bind]
  dsimp only
  rw [visits_depthFirst_circularView]
  rfl

theorem collectStatics_diamondClass :
    collectStatics diamondClass ⟨1⟩ ⟨circularView, .standard⟩ diamondState =
      .ok (staticsWith diamondClass [leftInterface, rightInterface, baseInterface])
        (warned diamondState "statics" ["zif_none"]) := by
  rw [collectStatics, Emit.read_bind]
  dsimp only
  rw [visits_breadthFirst_circularView]
  rfl

/-- The interfaces form a diamond that leads back to its top. Each is met once by either walk, and so
the constructor and the static section of the class are emitted with every member just once. -/
theorem interfaces_flattened_circularView :
    circularView.FilesInterfaces ∧ (∀ name ∈ diamondClass.implementing, IsAscii name) ∧
    ∃ deep wide s',
      DepthFirst (circularView.findInterface? (some ⟨1⟩)) [] ["Zif_Left", "zif_right"] deep ∧
      BreadthFirst (circularView.findInterface? (some ⟨1⟩)) [] ["Zif_Left", "zif_right"] wide ∧
      Exhausts (circularView.findInterface? (some ⟨1⟩)) ["Zif_Left", "zif_right"] deep ∧
      Exhausts (circularView.findInterface? (some ⟨1⟩)) ["Zif_Left", "zif_right"] wide ∧
      (interfacesOf deep).Perm (interfacesOf wide) ∧
      constructorLines diamondClass (some ⟨1⟩) false ⟨circularView, .standard⟩ (.initial 0) =
        .ok diamondLines (warned (.initial 0) "attributes" (missingOf deep)) ∧
      AreConstructorLines .standard diamondClass false (interfacesOf deep) diamondLines ∧
      staticsWith diamondClass [leftInterface, rightInterface, baseInterface] =
        staticsWith diamondClass (interfacesOf wide) ∧
      staticPart ⟨"lcl_bar", ⟨3, 7⟩⟩ ⟨circularView, .standard⟩ (.initial 0) =
        .ok diamondText s' ∧
      s' = warned diamondState "statics" (missingOf wide) ∧
      IsStaticSection .standard diamondClass "lcl_bar" (interfacesOf wide) diamondText := by
  have filed : circularView.FilesInterfaces :=
    ⟨by decide +kernel, by decide +kernel, by decide +kernel⟩
  have hnames : ∀ name ∈ diamondClass.implementing, IsAscii name := by decide +kernel
  have hc : classOf ⟨"lcl_bar", ⟨3, 7⟩⟩ ⟨circularView, .standard⟩ (.initial 0) =
      .ok diamondClass diamondState := by rfl
  have hscope : Emit.ask (fun v => v.scopeAt ⟨3, 7⟩ "class statics") ⟨circularView, .standard⟩
      diamondState = .ok ⟨1⟩ diamondState := by rfl
  have hpart : staticPart ⟨"lcl_bar", ⟨3, 7⟩⟩ ⟨circularView, .standard⟩ (.initial 0) =
      .ok diamondText (warned diamondState "statics" ["zif_none"]) := by
    rw [staticPart, Emit.bind_of_ok hc, Emit.bind_of_ok hscope,
      Emit.bind_of_ok collectStatics_diamondClass]
    exact congrArg (EStateM.Result.ok · _) (by decide +kernel)
  -- everything above is found by running; the rest is the theorem at this class
  obtain ⟨deep, wide, hdeep, hwide, hexhausts, hexhausts', hperm, hconstructor, hcollect, hsection⟩ :=
    @interfaces_flattened circularView diamondClass ⟨1⟩ filed hnames
  obtain ⟨hstate, hlines⟩ := hconstructor _ _ _ _ _ constructorLines_diamondClass
  obtain ⟨-, hmembers⟩ := hcollect _ _ _ _ collectStatics_diamondClass
  obtain ⟨hstate', htext⟩ := hsection _ _ _ _ _ _ _ hc hscope hpart
  exact ⟨filed, hnames, deep, wide, _, hdeep, hwide, hexhausts, hexhausts', hperm,
    hstate ▸ constructorLines_diamondClass, hlines, hmembers, hpart, hstate', htext⟩

end Members

end AbapLowering
