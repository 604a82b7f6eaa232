import AbapLowering.Lowering
import AbapLowering.Proofs.Scope.Around

/-!
# Which class an object is created of

CREATE OBJECT may leave out the class, and then it should be the one that the target refers to.

- `View.staticType?`: the type of a target, found by following its steps from the variable it starts
  with;
- `Invocation.creates_headClass`: the class is the one that this variable refers to. For a variable
  alone this is right. A target with further steps first reads an attribute of that class, and then
  it is right only if what is read last refers to a class of the same key.
-/

namespace AbapLowering

/-! ## The type of a target -/

/-- The type of the component of that name, in any case. -/
def componentType? (components : List Component) (name : String) : Option DataType :=
  (components.find? fun c => Text.sameIgnoringCase c.name name).map (·.type)

/-- The type of the attribute of that name, in any case. -/
def Attributes.type? (attributes : Attributes) (name : String) : Option DataType :=
  (attributes.all.find? fun a => Text.sameIgnoringCase a.name name).map (·.type)

/-- The name of the variable that a chain starts with. -/
def FieldChain.variable? : FieldChain → Option Token
  | ⟨.field name, _, _, _⟩ | ⟨.fieldSymbol name, _, _, _⟩ => some name
  | _ => none

namespace View

/-- The type that a step leads to from a type, the classes being those seen from a scope. -/
def typeAfter (v : View) (scope : ScopeId) :
    DataType → ChainSegment → Except GraphFault (Option DataType)
  | .structured components _, .component name => return componentType? components name.text
  | .dataReference (.structured components _), .attribute name =>
    return componentType? components name.text
  | .dataReference target, .dereference => return some target
  | .objectReference (some className), .attribute name => do
    return (← v.findClass? (some scope) className).bind (·.attributes.type? name.text)
  | _, _ => return none

/-- The type that some steps lead to. -/
def typeAlong (v : View) (scope : ScopeId) :
    DataType → List ChainSegment → Except GraphFault (Option DataType)
  | type, [] => return some type
  | type, step :: rest => do
    match ← v.typeAfter scope type step with
    | some next => v.typeAlong scope next rest
    | none => return none

/-- The type of what a target means, if that is found from the type of a variable. -/
def staticType? (v : View) (target : FieldChain) : Query (Option DataType) :=
  match target.variable? with
  | none => return none
  | some token => .around token.start fun scope => do
    match scope with
    | none => return none
    | some scope =>
      match ← v.graph.findVariable? scope token.text with
      | none => return none
      | some x => v.typeAlong scope x.type target.segments

/-- A step from an object reference is to an attribute of its class. -/
theorem exists_of_typeAfter {v : View} {scope : ScopeId} {className : String} {step : ChainSegment}
    {type : DataType}
    (h : v.typeAfter scope (.objectReference (some className)) step = .ok (some type)) :
    ∃ name c, step = .attribute name ∧ v.findClass? (some scope) className = .ok (some c) ∧
      c.attributes.type? name.text = some type := by
  cases step with
  | «attribute» name =>
    obtain ⟨found, hfound, h⟩ := ScopeGraph.bind_eq_ok_iff.mp h
    obtain ⟨c, rfl, htype⟩ := Option.bind_eq_some_iff.mp (Except.ok.inj h)
    exact ⟨name, c, rfl, hfound, htype⟩
  | _ => cases h

/-- More steps lead on from what the first of them leads to. -/
theorem typeAlong_cons {v : View} {scope : ScopeId} {type result : DataType} {step : ChainSegment}
    {rest : List ChainSegment} :
    v.typeAlong scope type (step :: rest) = .ok (some result) ↔
      ∃ next, v.typeAfter scope type step = .ok (some next) ∧
        v.typeAlong scope next rest = .ok (some result) := by
  rw [typeAlong, ScopeGraph.bind_eq_ok_iff]
  constructor
  · rintro ⟨found, hfound, h⟩
    cases found with
    | none => cases h
    | some next => exact ⟨next, hfound, h⟩
  · rintro ⟨next, hnext, h⟩
    exact ⟨some next, hnext, h⟩

end View

/-! ## The class -/

theorem FieldChain.firstToken_of_variable? {target : FieldChain} {token : Token}
    (h : target.variable? = some token) : target.firstToken = some token := by
  obtain ⟨head, _, _, _⟩ := target
  cases head with
  | field name => exact h
  | fieldSymbol name => exact h
  | _ => cases h

/-- The object reference that is found under the first name of a target, between the states before and
after the search for the scope of this name. -/
structure HeadReference (target : FieldChain) (context : Context) (s s' : EmissionState) where
  token : Token
  scope : ScopeId
  declared : Variable
  className : String
  first : target.firstToken = some token
  located : Emit.ask (fun _ => .scopeAround token.start) context s = .ok (some scope) s'
  found : context.view.graph.findVariable? scope token.text = .ok (some declared)
  refers : declared.type = .objectReference (some className)

namespace HeadReference

variable {target : FieldChain} {context : Context} {s s' : EmissionState}

/-- The type of the target is found from that of the variable. -/
theorem typeAlong_of_staticType? (head : HeadReference target context s s') {s₁ : EmissionState}
    {type : DataType} (h : Emit.ask (·.staticType? target) context s = .ok (some type) s₁) :
    context.view.typeAlong head.scope head.declared.type target.segments = .ok (some type) := by
  cases htoken : target.variable? with
  | none =>
    rw [Emit.ask, View.staticType?, htoken] at h
    cases h
  | some token =>
    cases head.first.symm.trans (target.firstToken_of_variable? htoken)
    obtain ⟨found, hfound, hwalk⟩ := (Emit.ask_around_iff (by rw [View.staticType?, htoken])).mp h
    cases head.located.symm.trans hfound
    obtain ⟨x, hx, hsteps⟩ := ScopeGraph.bind_eq_ok_iff.mp hwalk
    cases head.found.symm.trans hx
    exact hsteps

end HeadReference

namespace Invocation

/-- A class that is found for a target is that of the reference under its first name. -/
theorem exists_of_classOfTarget {target : FieldChain} {context : Context} {s s' : EmissionState}
    {address : String} (h : classOfTarget target context s = .ok address s') :
    ∃ head : HeadReference target context s s',
      Emit.classAddress head.className head.token.start context s = .ok address s' := by
  rw [classOfTarget] at h
  cases htoken : target.firstToken with
  | none =>
    rw [htoken] at h
    cases h
  | some token =>
    rw [htoken] at h
    obtain ⟨found, s₁, hfound, h⟩ := Emit.bind_eq_ok h
    split at h
    next name className properties file position =>
      obtain ⟨scope, hscope, hx⟩ :=
        (Emit.ask_around_iff (context.view.variableNamed_eq token)).mp hfound
      cases scope with
      | none => cases hx
      | some scope =>
        -- the class is looked for after the variable, from the scope that is remembered then
        obtain ⟨again, hagain, haddress⟩ :=
          (Emit.ask_around_iff (context.view.classAddress_eq className token.start)).mp h
        cases (Emit.ask_scopeAround_again hscope).symm.trans hagain
        exact ⟨⟨token, scope, _, className, htoken, hscope, hx, rfl⟩,
          (Emit.ask_around_iff (context.view.classAddress_eq className token.start)).mpr
            ⟨_, hscope, haddress⟩⟩
    next => cases h

/-- An object that is created without a class being given is of the class that the variable at the
head of the target refers to. If the type of the target is found, from that of the variable, to be a
reference, then the class is that of this reference iff both classes have one key. For the variable
alone they are the same; any further steps begin with an attribute of the class of the variable. -/
theorem creates_headClass {target : FieldChain} {parameters : List Binding} {context : Context}
    {s s' : EmissionState} {code : String}
    (h : createObject target none parameters context s = .ok code s') :
    ∃ s₁, ∃ head : HeadReference target context s s₁, ∃ address given object s₂,
      Emit.classAddress head.className head.token.start context s = .ok address s₁ ∧
      bindingsIfAny parameters context s₁ = .ok given s₂ ∧
      target.emitTarget context s₂ = .ok object s' ∧
      code = object ++ ".set(await (new " ++ address ++ "()).constructor_(" ++ given ++ "));" ∧
      ∀ wanted s₃, Emit.ask (·.staticType? target) context s =
          .ok (some (.objectReference (some wanted))) s₃ →
        (Emit.classAddress wanted head.token.start context s = .ok address s₁ ↔
          ∃ d d', context.view.localDefinition? head.scope wanted = .ok d ∧
            context.view.localDefinition? head.scope head.className = .ok d' ∧
            context.view.keyOf wanted d = context.view.keyOf head.className d') ∧
        (target.segments = [] → wanted = head.className) ∧
        ∀ step rest, target.segments = step :: rest → ∃ name c type,
          step = .attribute name ∧
          context.view.findClass? head.scope head.className = .ok (some c) ∧
          c.attributes.type? name.text = some type ∧
          context.view.typeAlong head.scope type rest =
            .ok (some (.objectReference (some wanted))) := by
  rw [createObject] at h
  obtain ⟨address, s₁, haddress, h⟩ := Emit.bind_eq_ok h
  obtain ⟨given, s₂, hgiven, h⟩ := Emit.bind_eq_ok h
  obtain ⟨object, s₃, hobject, h⟩ := Emit.bind_eq_ok h
  cases h
  obtain ⟨head, haddress⟩ := exists_of_classOfTarget haddress
  refine ⟨s₁, head, address, given, object, s₂, haddress, hgiven, hobject, rfl, ?_⟩
  intro wanted s₃ hwanted
  obtain ⟨d', hd', rfl⟩ := (Emit.classAddress_iff head.located).mp haddress
  -- the steps start from a reference, so the first of them is an attribute of its class
  have hsteps := head.typeAlong_of_staticType? hwanted
  rw [head.refers] at hsteps
  refine ⟨?_, fun hnil => ?_, fun step rest hcons => ?_⟩
  · rw [Emit.classAddress_iff head.located]
    constructor
    · rintro ⟨d, hd, heq⟩
      exact ⟨d, d', hd, hd', (ClassKey.lookup_inj.mp heq).symm⟩
    · rintro ⟨d, e, hd, he, heq⟩
      cases hd'.symm.trans he
      exact ⟨d, hd, congrArg ClassKey.lookup heq.symm⟩
  · rw [hnil] at hsteps
    cases hsteps
    rfl
  · rw [hcons] at hsteps
    obtain ⟨type, hstep, hrest⟩ := View.typeAlong_cons.mp hsteps
    obtain ⟨name, c, rfl, hc, htype⟩ := View.exists_of_typeAfter hstep
    exact ⟨name, c, type, rfl, hc, htype, hrest⟩

end Invocation

namespace SourceUnit

/-- A global class with attributes that refer to objects, each given by its name and its class. -/
def classWith (name : String) (attributes : List (String × String)) : ClassDefinition :=
  { name, isGlobal := true, file := Text.toLower name ++ ".clas.abap", implementing := []
    attributes := ⟨attributes.map fun a => ⟨a.1, .objectReference (some a.2), none⟩, [], []⟩
    aliases := [], methods := [], superClass := none }

/-- Two classes, of which the first has an attribute for each of them. -/
def twoClasses : Registry :=
  (Registry.empty.addClass (classWith "zcl_a" [("mo_a", "zcl_a"), ("mo_b", "zcl_b")])).addClass
    (classWith "zcl_b" [])

/-- The target made of a variable that refers to the first class and an attribute. -/
def targetVia (attributes : List Token) : FieldChain :=
  ⟨.field ⟨"lo_a", ⟨1, 15⟩⟩, attributes.map .attribute, none, none⟩

/-- A program that sets such a target to a new object, without saying of which class. -/
def creatingVia (attributes : List Token) : SourceUnit :=
  let written := "CREATE OBJECT lo_a" ++ String.join (attributes.map fun a => "->" ++ a.text) ++ "."
  let create : StatementNode :=
    ⟨.createObject (targetVia attributes) none [], ⟨⟨1, 1⟩, ⟨1, 26⟩⟩, written⟩
  { file := "zfoo.prog.abap"
    object := ⟨.prog, "ZFOO"⟩
    root := ⟨.program, [.leaf create], ⟨⟨1, 1⟩, ⟨1, 26⟩⟩⟩
    scopes := ⟨#[{ Scope.fresh .program "zfoo" "zfoo.prog.abap" ⟨⟨1, 1⟩, ⟨9, 1⟩⟩ none with
      vars := Dict.insert ∅ "lo_a"
        ⟨"lo_a", .objectReference (some "zcl_a"), [], "zfoo.prog.abap", ⟨1, 1⟩⟩ }]⟩ }

/-- The object is of the right class where the attributes on the way all refer to it. -/
theorem creates_selfReference :
    let attributes : List Token := [⟨"mo_a", ⟨1, 21⟩⟩, ⟨"mo_a", ⟨1, 27⟩⟩]
    let context : Context := ⟨(creatingVia attributes).view twoClasses, .standard⟩
    ∃ code s' s₁ address object,
      Invocation.createObject (targetVia attributes) none [] context (.initial 0) = .ok code s' ∧
      Emit.classAddress "zcl_a" ⟨1, 15⟩ context (.initial 0) = .ok address s₁ ∧
      code = object ++ ".set(await (new " ++ address ++ "()).constructor_());" := by
  intro attributes context
  obtain ⟨code, s', hcode⟩ : ∃ code s', Invocation.createObject (targetVia attributes) none []
      context (.initial 0) = .ok code s' := ⟨_, _, rfl⟩
  obtain ⟨s₁, head, address, given, object, s₂, haddress, hgiven, hobject, hshape, hright⟩ :=
    Invocation.creates_headClass hcode
  obtain ⟨token, scope, x, className, hfirst, hscope, hx, hrefers⟩ := head
  cases hfirst
  cases hscope
  cases hx
  cases hrefers
  cases hgiven
  obtain ⟨hright, -, -⟩ := hright "zcl_a" _ rfl
  have hwanted := hright.mpr ⟨none, none, rfl, rfl, rfl⟩
  refine ⟨code, s', _, address, object, hcode, hwanted, hshape.trans ?_⟩
  exact String.toList_inj.mp (by simp)

/-- The object is of the class of `lo_a`, although `lo_a->mo_b` refers to another one. -/
theorem lower_creatingVia :
    let attributes : List Token := [⟨"mo_b", ⟨1, 21⟩⟩]
    let context : Context := ⟨(creatingVia attributes).view twoClasses, .standard⟩
    (((creatingVia attributes).lower .standard twoClasses 0).1.toOption.map (·.code) =
        some "lo_a.get().mo_b.set(await (new abap.Classes['ZCL_A']()).constructor_());\n") ∧
      (∃ s', Emit.ask (·.staticType? (targetVia attributes)) context (.initial 0) =
        .ok (some (.objectReference (some "zcl_b"))) s') ∧
      ∃ s', Emit.classAddress "zcl_b" ⟨1, 15⟩ context (.initial 0) =
        .ok "abap.Classes['ZCL_B']" s' := by
  exact ⟨by decide +kernel, ⟨_, rfl⟩, ⟨_, rfl⟩⟩

end SourceUnit

end AbapLowering
