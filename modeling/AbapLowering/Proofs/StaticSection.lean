import AbapLowering.Proofs.Members

/-!
# The static section of a class

What follows a class is read as a list of steps (`StaticStep`): declarations of members, each with
the steps that give the leaves of its initial value to the places they belong to, aliases, and the
call of the class constructor. The section consists of these steps in this order, and no step needs
a member that is not declared before it (`Members.staticPart_steps`).

- `AttributeValue.leaves`: the scalar values in an initial value, from left to right, each with the
  path of component names that leads to it. The lines for an initial value are those of its leaves
  (`Members.valueLines_eq_leaves`);
- `Members.DeclaredFirst`: the invariant along the steps.
-/

namespace AbapLowering

/-! ## The leaves of an initial value -/

mutual

/-- The scalar values in an initial value, from left to right, with the paths that lead to them. -/
def AttributeValue.leaves : AttributeValue → List (List String × String)
  | .scalar text => [([], text)]
  | .structured components => componentLeaves components

/-- The scalar values in the initial values of components, from left to right, with their paths. -/
def componentLeaves : List ComponentValue → List (List String × String)
  | [] => []
  | ⟨name, value⟩ :: rest =>
    value.leaves.map (fun leaf => (name :: leaf.1, leaf.2)) ++ componentLeaves rest

end

namespace Members

/-- The line that gives one place below a target its value. -/
def leafLine (target : String) (leaf : List String × String) : String :=
  ".get().".intercalate (target :: leaf.1.map Identifier.plain) ++ ".set("
    ++ Literal.initialValueOfText leaf.2 ++ ");"

mutual

/-- An initial value is given leaf by leaf. -/
theorem valueLines_eq_leaves (target : String) (value : AttributeValue) :
    valueLines target value = value.leaves.map (leafLine target) := by
  cases value with
  | scalar text => rfl
  | structured components =>
    rw [valueLines, AttributeValue.leaves]
    exact componentLines_eq_leaves target components

theorem componentLines_eq_leaves (target : String) (components : List ComponentValue) :
    componentLines target components = (componentLeaves components).map (leafLine target) := by
  match components with
  | [] => rfl
  | ⟨name, value⟩ :: rest =>
    have hstep : leafLine target ∘ (fun leaf => (name :: leaf.1, leaf.2)) =
        leafLine (target ++ ".get()." ++ Identifier.plain name) := rfl
    rw [componentLines, componentLeaves, List.map_append, List.map_map, hstep,
      valueLines_eq_leaves _ value, componentLines_eq_leaves target rest]

end

/-! ## The steps of a static section -/

/-- A line of the static section of a class. -/
inductive StaticStep where
  /-- A member gets an object of its type. -/
  | declare (member : StaticMember) (constructor : String)
  /-- A place below a member gets its initial value. -/
  | give (member : StaticMember) (leaf : List String × String)
  /-- A member gets another name. -/
  | rename (a : Alias)
  | callConstructor

namespace StaticStep

/-- The line for a step. -/
def line (className : String) : StaticStep → String
  | declare member constructor => className ++ "." ++ member.name ++ " = " ++ constructor ++ ";"
  | give member leaf => leafLine (className ++ "." ++ member.name) leaf
  | rename a => className ++ "." ++ Identifier.plain a.name ++ " = " ++ className ++ "."
      ++ Identifier.plain a.component ++ ";"
  | callConstructor => "await " ++ className ++ ".class_constructor();"

/-- The member that a step declares. -/
def declared? : StaticStep → Option String
  | declare member _ => some member.name
  | _ => none

/-- The member that has to be declared before a step: the one whose value is set, or the one on the
right-hand side of an alias. -/
def needed? : StaticStep → Option String
  | give member _ => some member.name
  | rename a => some (Identifier.plain a.component)
  | _ => none

end StaticStep

/-- The leaves of the initial value of a member, if it has one. -/
def StaticMember.leaves (m : StaticMember) : List (List String × String) :=
  (m.value.map AttributeValue.leaves).getD []

/-- The steps for a member: its declaration and, right after it, one step for each leaf of its
initial value. -/
def IsDeclaration (config : Config) (m : StaticMember) (steps : List StaticStep) : Prop :=
  ∃ constructor, m.type.constructor config.isLenient = .ok constructor ∧
    steps = .declare m constructor :: m.leaves.map (.give m)

theorem exists_isDeclaration {config : Config} {className : String} {m : StaticMember}
    {lines : List String} (h : AreStaticLines config className m lines) :
    ∃ steps, IsDeclaration config m steps ∧ lines = steps.map (·.line className) := by
  obtain ⟨constructor, htype, rfl⟩ := h
  refine ⟨_, ⟨constructor, htype, rfl⟩, ?_⟩
  rw [List.map_cons, List.map_map, StaticMember.leaves]
  cases m.value with
  | none => rfl
  | some value =>
    rw [Option.map_some, Option.getD_some, valueLines_eq_leaves]
    rfl

theorem exists_areDeclarations {config : Config} {className : String} {members : List StaticMember}
    {declarations : List (List String)}
    (h : List.Forall₂ (AreStaticLines config className) members declarations) :
    ∃ parts, List.Forall₂ (IsDeclaration config) members parts ∧
      declarations.flatten = parts.flatten.map (·.line className) := by
  induction h with
  | nil => exact ⟨[], .nil, rfl⟩
  | cons hfirst _ ih =>
    obtain ⟨steps, hsteps, rfl⟩ := exists_isDeclaration hfirst
    obtain ⟨parts, hparts, hrest⟩ := ih
    exact ⟨steps :: parts, .cons hsteps hparts, by simp [hrest]⟩

/-- The aliases that get a line are those of members. -/
theorem filterMap_staticAliasLine? (className : String) (members : List StaticMember)
    (aliases : List Alias) :
    aliases.filterMap (staticAliasLine? className members) =
      ((aliases.filter fun a => Identifier.plain a.component ∈ members.map (·.name)).map
        StaticStep.rename).map (·.line className) := by
  induction aliases with
  | nil => rfl
  | cons a rest ih =>
    have hiff : members.any (fun m => m.name == Identifier.plain a.component) = true ↔
        Identifier.plain a.component ∈ members.map (·.name) := by simp
    rw [List.filterMap_cons, List.filter_cons, staticAliasLine?, ih]
    by_cases hmem : Identifier.plain a.component ∈ members.map (·.name)
    · simp [hiff.mpr hmem, hmem, StaticStep.line]
    · have hnot := mt hiff.mp hmem
      simp [hnot, hmem]

/-! ## Members are declared before they are needed -/

/-- Every step needs only a member that is known or that an earlier step declares. -/
def DeclaredFirst : List String → List StaticStep → Prop
  | _, [] => True
  | known, step :: rest =>
    (∀ member, step.needed? = some member → member ∈ known) ∧
      DeclaredFirst (known ++ step.declared?.toList) rest

theorem declaredFirst_append {known : List String} {steps rest : List StaticStep} :
    DeclaredFirst known (steps ++ rest) ↔
      DeclaredFirst known steps ∧ DeclaredFirst (known ++ steps.filterMap (·.declared?)) rest := by
  induction steps generalizing known with
  | nil => simp [DeclaredFirst]
  | cons step steps ih =>
    cases h : step.declared? <;> simp [DeclaredFirst, ih, h, and_assoc]

/-- Steps that declare nothing need known members. -/
theorem declaredFirst_of_forall {known : List String} {steps : List StaticStep}
    (h : ∀ step ∈ steps, step.declared? = none ∧ ∀ member, step.needed? = some member →
      member ∈ known) : DeclaredFirst known steps := by
  induction steps with
  | nil => trivial
  | cons step rest ih =>
    obtain ⟨⟨hnone, hneeded⟩, hrest⟩ := List.forall_mem_cons.mp h
    refine ⟨hneeded, ?_⟩
    rw [hnone, Option.toList_none, List.append_nil]
    exact ih hrest

/-- What a step needs is known or declared by a step before it. -/
theorem DeclaredFirst.declared_before {known : List String} {steps before after : List StaticStep}
    {step : StaticStep} (h : DeclaredFirst known steps) (hsplit : steps = before ++ step :: after)
    {member : String} (hneeded : step.needed? = some member) :
    member ∈ known ∨ ∃ earlier ∈ before, earlier.declared? = some member := by
  subst hsplit
  have hmem := (declaredFirst_append.mp h).2.1 member hneeded
  simpa using hmem

/-- The steps for a member declare it before they need it. -/
theorem IsDeclaration.declaredFirst {config : Config} {m : StaticMember} {steps : List StaticStep}
    (h : IsDeclaration config m steps) (known : List String) : DeclaredFirst known steps := by
  obtain ⟨constructor, -, rfl⟩ := h
  refine ⟨nofun, declaredFirst_of_forall fun step hstep => ?_⟩
  obtain ⟨leaf, -, rfl⟩ := List.mem_map.mp hstep
  refine ⟨rfl, fun member hmember => ?_⟩
  cases hmember
  simp [StaticStep.declared?]

theorem IsDeclaration.filterMap_declared? {config : Config} {m : StaticMember}
    {steps : List StaticStep} (h : IsDeclaration config m steps) :
    steps.filterMap (·.declared?) = [m.name] := by
  obtain ⟨constructor, -, rfl⟩ := h
  have hgive : (m.leaves.map (StaticStep.give m)).filterMap (·.declared?) = [] := by
    simp [StaticStep.declared?]
  rw [List.filterMap_cons, hgive]
  rfl

/-- The declarations need nothing, and declare all members. -/
theorem declaredFirst_declarations {config : Config} {members : List StaticMember}
    {parts : List (List StaticStep)} (h : List.Forall₂ (IsDeclaration config) members parts)
    (known : List String) :
    DeclaredFirst known parts.flatten ∧
      parts.flatten.filterMap (·.declared?) = members.map (·.name) := by
  induction h generalizing known with
  | nil => exact ⟨trivial, rfl⟩
  | cons hfirst _ ih =>
    obtain ⟨hrest, hnames⟩ := ih (known ++ [_])
    rw [List.flatten_cons, List.filterMap_append, declaredFirst_append,
      hfirst.filterMap_declared?, hnames]
    exact ⟨⟨hfirst.declaredFirst known, hrest⟩, rfl⟩

/-- All steps of a static section: the declarations, the aliases of members, and the call of the
class constructor if there is one. -/
def staticSteps (c : ClassDefinition) (members : List StaticMember)
    (parts : List (List StaticStep)) : List StaticStep :=
  parts.flatten
    ++ (c.aliases.filter fun a => Identifier.plain a.component ∈ members.map (·.name)).map .rename
    ++ if (c.method? "class_constructor").isSome then [.callConstructor] else []

theorem declaredFirst_staticSteps {config : Config} {c : ClassDefinition}
    {members : List StaticMember} {parts : List (List StaticStep)}
    (h : List.Forall₂ (IsDeclaration config) members parts) :
    DeclaredFirst [] (staticSteps c members parts) := by
  obtain ⟨hparts, hnames⟩ := declaredFirst_declarations h []
  rw [staticSteps, declaredFirst_append, declaredFirst_append]
  refine ⟨⟨hparts, declaredFirst_of_forall fun step hstep => ?_⟩, ?_⟩
  · obtain ⟨a, ha, rfl⟩ := List.mem_map.mp hstep
    refine ⟨rfl, fun member hmember => ?_⟩
    have hcomponent : Identifier.plain a.component = member := Option.some.inj hmember
    rw [hnames, List.nil_append, ← hcomponent]
    simpa only [decide_eq_true_eq] using (List.mem_filter.mp ha).2
  · cases (c.method? "class_constructor").isSome with
    | false => trivial
    | true => exact ⟨nofun, trivial⟩

/-- The static section of a class, whenever it can be emitted: its members are those of the class
and then those of the interfaces it implements, met breadth first. Each is declared by one line,
with one line right after it for each leaf of its initial value. Then come the aliases of these
members and the call of the class constructor, if the class has one. A line that sets a member or
reads it comes after the line that declares it. -/
theorem staticPart_steps {name : Token} {context : Context} {s s' : EmissionState} {text : String}
    (h : staticPart name context s = .ok text s') :
    ∃ c scope s₁ s₂ members parts, classOf name context s = .ok c s₁ ∧
      Emit.ask (fun v => v.scopeAt name.start "class statics") context s₁ = .ok scope s₂ ∧
      members = staticsWith c
        (interfacesOf (context.view.visits .breadthFirst (some scope) c.implementing)) ∧
      List.Forall₂ (IsDeclaration context.config) members parts ∧
      text = Emit.endLines ((staticSteps c members parts).map (·.line name.lower)) ∧
      ∀ before step after member, staticSteps c members parts = before ++ step :: after →
        step.needed? = some member → ∃ earlier ∈ before, earlier.declared? = some member := by
  obtain ⟨c, s₁, hc, hrest⟩ := Emit.bind_eq_ok h
  obtain ⟨scope, s₂, hscope, -⟩ := Emit.bind_eq_ok hrest
  obtain ⟨members, hmembers, hsection⟩ := staticPart_eq_ok hc hscope h
  obtain ⟨-, -, hstatics⟩ := collectStatics_eq_ok hmembers
  obtain ⟨declarations, hdeclarations, htext⟩ := hsection _ hstatics
  rw [← hstatics] at hdeclarations htext
  obtain ⟨parts, hparts, hlines⟩ := exists_areDeclarations hdeclarations
  refine ⟨c, scope, s₁, s₂, members, parts, hc, hscope, hstatics, hparts, ?_, ?_⟩
  · rw [htext, hlines, filterMap_staticAliasLine?, staticSteps, List.map_append, List.map_append]
    cases (c.method? "class_constructor").isSome <;> rfl
  · intro before step after member hsplit hneeded
    simpa using (declaredFirst_staticSteps hparts).declared_before hsplit hneeded

/-- An interface with a constant that has two components. -/
def limitsInterface : InterfaceDefinition :=
  { name := "zif_c", isGlobal := true, file := "zif_c.intf.abap", implementing := [],
    attributes := ⟨[], [], [⟨"limits", .float, some (.structured
      [⟨"low", .scalar "1"⟩, ⟨"high", .structured [⟨"max", .scalar "'x'"⟩]⟩])⟩]⟩,
    aliases := [], methods := [] }

/-- A class that implements it, with an alias for its constant and a class constructor. -/
def limitsClass : ClassDefinition :=
  { name := "lcl_bar", isGlobal := false, file := "zfoo.prog.abap", implementing := ["ZIF_C"],
    attributes := .none, aliases := [⟨"limits", "zif_c~limits"⟩, ⟨"run", "zif_c~run"⟩],
    methods := [⟨"class_constructor", true, []⟩], superClass := none }

/-- A program with this class in lines 3 to 5. -/
def limitsContext : Context :=
  let program : Scope := .fresh .program "zfoo" "zfoo.prog.abap" ⟨⟨1, 1⟩, ⟨9, 1⟩⟩ none
  let body : Scope :=
    .fresh .classImplementation "lcl_bar" "zfoo.prog.abap" ⟨⟨3, 1⟩, ⟨5, 9⟩⟩ (some .root)
  { view := ⟨⟨#[{ program with
        children := [⟨1⟩], classes := program.classes.insert "lcl_bar" limitsClass }, body]⟩,
      Registry.empty.addInterface limitsInterface, "zfoo.prog.abap", ⟨.prog, "ZFOO"⟩⟩
    config := .standard }

theorem visits_limitsContext :
    limitsContext.view.visits .breadthFirst (some ⟨1⟩) limitsClass.implementing =
      [visitOf (limitsContext.view.findInterface? (some ⟨1⟩)) "ZIF_C"] := by
  have hknown : (limitsClass.implementing ++ limitsContext.view.includedNames).map Text.toUpper =
      ["ZIF_C"] := by decide +kernel
  rw [View.visits, hknown, ← unseen_nil ["ZIF_C"], limitsClass]
  dsimp only
  rw [visitInterfaces_of_new .breadthFirst (by decide +kernel) (by decide +kernel)]
  rw [show InterfaceVisit.enqueue _ _ _ = [] by decide +kernel]
  rw [visitInterfaces]

/-- The state after the scope of the class was found. -/
def limitsState : EmissionState :=
  { EmissionState.initial 0 with slot := some ⟨⟨⟨3, 1⟩, ⟨5, 9⟩⟩, ⟨1⟩⟩ }

theorem collectStatics_limitsClass :
    collectStatics limitsClass ⟨1⟩ limitsContext limitsState =
      .ok (staticsWith limitsClass [limitsInterface]) limitsState := by
  rw [collectStatics, Emit.read_bind, visits_limitsContext]
  rfl

/-- The static section of the class. -/
def limitsText : String :=
  Emit.endLines ["lcl_bar.zif_c$limits = new abap.types.Float();",
    "lcl_bar.zif_c$limits.get().low.set(1);", "lcl_bar.zif_c$limits.get().high.get().max.set('x');",
    "lcl_bar.limits = lcl_bar.zif_c$limits;", "await lcl_bar.class_constructor();"]

/-- The constant of the interface is declared and given its two values, the alias for it follows,
the alias for a method does not, and the class constructor is called. -/
theorem staticPart_steps_limitsContext :
    staticPart ⟨"lcl_bar", ⟨3, 7⟩⟩ limitsContext (.initial 0) = .ok limitsText limitsState ∧
    ∃ members parts, members.map (·.name) = ["zif_c$limits"] ∧
      List.Forall₂ (IsDeclaration .standard) members parts ∧
      ∀ before step after member, staticSteps limitsClass members parts = before ++ step :: after →
        step.needed? = some member → ∃ earlier ∈ before, earlier.declared? = some member := by
  have hc : classOf ⟨"lcl_bar", ⟨3, 7⟩⟩ limitsContext (.initial 0) =
      .ok limitsClass limitsState := by rfl
  have hscope : Emit.ask (fun v => v.scopeAt ⟨3, 7⟩ "class statics") limitsContext limitsState =
      .ok ⟨1⟩ limitsState := by rfl
  have hpart : staticPart ⟨"lcl_bar", ⟨3, 7⟩⟩ limitsContext (.initial 0) =
      .ok limitsText limitsState := by
    rw [staticPart, Emit.bind_of_ok hc, Emit.bind_of_ok hscope,
      Emit.bind_of_ok collectStatics_limitsClass]
    exact congrArg (EStateM.Result.ok · limitsState) (by decide +kernel)
  refine ⟨hpart, ?_⟩
  obtain ⟨c, scope, s₁, s₂, members, parts, hc', hscope', hmembers, hparts, -, hneeded⟩ :=
    staticPart_steps hpart
  cases hc.symm.trans hc'
  cases hscope.symm.trans hscope'
  refine ⟨members, parts, ?_, hparts, hneeded⟩
  rw [hmembers, visits_limitsContext]
  decide +kernel

end Members

end AbapLowering
