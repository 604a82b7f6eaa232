import AbapLowering.Proofs.Code.LowerCase
import AbapLowering.Proofs.Members
import AbapLowering.Proofs.MethodResults

/-!
# How members of interfaces are spelled

A member of an interface is emitted under the name of the interface, where it is declared as well as
where it is used. `MemberSite` are the places that emit such a name: some get the interface and the
member and put them together, others find a name that is written with the interface already.

Each place spells in its own way (`MemberSite.spelling`, `MemberSite.spellsBy_spelling`), and all of
them agree on members whose names are not qualified. A name that is qualified already is spelled as
it stands in the places that look for the tilde, but gets the interface once more in the others
(`MemberSite.spelled_alike`).
-/

namespace AbapLowering

/-- A place where a member of an interface is named. -/
inductive MemberSite where
  /-- The constructor of a class declares the attributes of interfaces. -/
  | instanceAttribute
  /-- The static section of a class declares static attributes and constants of interfaces. -/
  | staticAttribute
  /-- An interface declares its own. -/
  | interfaceUnit
  /-- The header of a method that is implemented for an interface. -/
  | methodHeader
  /-- An attribute of an object. -/
  | chainAttribute
  /-- A member that is accessed through the name of the interface. -/
  | staticAccess
  /-- An attribute of an interface of another file, by its name alone. -/
  | foreignAttribute
  /-- A call that leads to a method of an interface. -/
  | call
  /-- A name that is not bound to an interface but written with one. -/
  | written
  /-- What an alias stands for. -/
  | aliased
  deriving DecidableEq

/-- Whether a text is a name, perhaps with a qualifier and a dot before it. -/
def EndsIn (text name : String) : Prop :=
  text = name ∨ ∃ qualifier, text = qualifier ++ "." ++ name

namespace MemberSite

/-- What stands at a place for a member of an interface. -/
def entry (owner member : String) : MemberSite → String
  | methodHeader | written | aliased => owner ++ "~" ++ member
  | _ => member

/-- Whether a place puts the interface before every name. -/
def prefixes : MemberSite → Bool
  | instanceAttribute | staticAttribute | interfaceUnit | staticAccess | call => true
  | methodHeader | chainAttribute | foreignAttribute | written | aliased => false

/-- How a place spells what stands there, given the interface that it is bound to. -/
def spelling (site : MemberSite) (owner name : String) : String :=
  match site with
  | methodHeader | written | aliased => Identifier.plain name
  | chainAttribute | foreignAttribute =>
    if '~' ∈ name.toList then Identifier.plain name else Identifier.interfaceMember owner name
  | instanceAttribute | staticAttribute | interfaceUnit | staticAccess | call =>
    Identifier.interfaceMember owner name

/-- Whether the code that is emitted at a place spells names in some way. -/
def SpellsBy (context : Context) (spell : String → String → String) : MemberSite → Prop
  | instanceAttribute => ∀ visit i s lines s', visit.found = .ok (some i) →
      Members.interfaceLines visit context s = .ok lines s' →
      List.Forall₂ (fun a line => ∃ type, line = "this." ++ spell i.name a.name ++ " = " ++ type
        ++ ";") i.attributes.inst lines
  | staticAttribute => ∀ visit i s members s', visit.found = .ok (some i) →
      Members.interfaceMembers visit context s = .ok members s' →
      members.map (·.name) =
        (i.attributes.statics ++ i.attributes.constants).map fun a => spell i.name a.name
  | interfaceUnit => ∀ name i s text s', Members.interfacePart name i context s = .ok text s' →
      ∃ declarations, text = Emit.endLines declarations.flatten ∧
        List.Forall₂ (fun a lines => ∃ type rest, lines =
          (name.lower ++ "." ++ spell name.text a.name ++ " = " ++ type ++ ";") :: rest)
          (i.attributes.statics ++ i.attributes.constants) declarations
  | methodHeader => ∀ owner name position s text s', '~' ∈ name.text.toList →
      Flow.methodAt position name context s = .ok text s' →
      ∃ reach rest, reach ∈ ["", "static "] ∧
        text = "\n".intercalate ((reach ++ "async " ++ spell owner name.text ++ "(INPUT) \x7b") ::
          rest)
  | chainAttribute => ∀ owner name interfaceName s s',
      Emit.ask (·.attributeInterface? name) context s = .ok (some (Text.toLower owner)) s' →
      Operand.segment interfaceName (.attribute name) context s =
        .ok (".get()." ++ spell owner name.text) s'
  | staticAccess => ∀ owner name head s s₁ s', Operand.classHead owner context s = .ok head s' →
      Emit.ask (·.namesInterface owner) context s = .ok true s₁ →
      Operand.segment head.interfaceName (.static name) context s' =
        .ok ("." ++ spell owner.text name.text) s'
  | foreignAttribute => ∀ owner name resolution s s₁ text s',
      Emit.ask (·.resolve name) context s = .ok resolution s₁ →
      '~' ∈ name.text.toList ∨ resolution = .interfaceAttribute (Text.toLower owner) →
      Emit.qualifiedName name context s = .ok text s' → EndsIn text (spell owner name.text)
  | call => ∀ owner definition p base name s s',
      Emit.ask (·.referenceOf name View.methodReferences) context s = .ok
        (some ⟨.methodCall, p, some (.method definition (some owner) (some .interfaceOwner))⟩) s' →
      Operand.namedMethod base name context s =
        .ok (base ++ "." ++ spell owner definition.name, .named name (some definition)) s'
  | written => ∀ owner name, '~' ∈ name.text.toList →
      (∀ interfaceName s s', Emit.ask (·.attributeInterface? name) context s = .ok none s' →
        Operand.segment interfaceName (.attribute name) context s =
          .ok (".get()." ++ spell owner name.text) s') ∧
      (∀ s, Operand.segment none (.static name) context s =
        .ok ("." ++ spell owner name.text) s) ∧
      (∀ base s s', Emit.ask (·.methodReference? name) context s = .ok none s' →
        Operand.namedMethod base name context s =
          .ok (base ++ "." ++ spell owner name.text, .named name none) s')
  | aliased => ∀ owner (a : Alias), '~' ∈ a.component.toList →
      Members.aliasLine a =
        "this." ++ Identifier.plain a.name ++ " = this." ++ spell owner a.component ++ ";" ∧
      ∀ className members, Members.staticAliasLine? className members a =
        if members.any (·.name == spell owner a.component) then
          some (className ++ "." ++ Identifier.plain a.name ++ " = " ++ className ++ "."
            ++ spell owner a.component ++ ";")
        else none

variable {context : Context}

/-! ## Where members are declared -/

/-- Attributes of interfaces are set up under their spelling. -/
theorem spelled_instanceAttribute : instanceAttribute.SpellsBy context
    instanceAttribute.spelling := by
  intro visit i s lines s' hvisit h
  obtain ⟨found, hfound, -, hlines⟩ := Members.interfaceLines_eq_ok h
  cases hvisit.symm.trans hfound
  refine (List.forall₂_map_left_iff.mp hlines).imp ?_
  rintro a line ⟨type, -, rfl⟩
  exact ⟨type, rfl⟩

/-- Static attributes of interfaces are collected under their spelling. -/
theorem spelled_staticAttribute : staticAttribute.SpellsBy context staticAttribute.spelling := by
  intro visit i s members s' hvisit h
  obtain ⟨found, hfound, -, hmembers⟩ := Members.interfaceMembers_eq_ok h
  cases hvisit.symm.trans hfound
  dsimp only at hmembers
  rw [← hmembers, Members.staticsOf, ← List.map_append, List.map_map]
  rfl

/-- An interface declares its own members under the same spelling. -/
theorem spelled_interfaceUnit : interfaceUnit.SpellsBy context interfaceUnit.spelling := by
  intro name i s text s' h
  obtain ⟨declarations, s₁, hdeclarations, h⟩ := Emit.bind_eq_ok h
  cases h
  obtain ⟨-, hlines⟩ := Emit.mapM_eq_ok Members.staticLines_eq_ok hdeclarations
  refine ⟨declarations, rfl, (List.forall₂_map_left_iff.mp hlines).imp ?_⟩
  rintro a lines ⟨type, -, rfl⟩
  refine ⟨type, _, congrArg (· :: _) ?_⟩
  dsimp only
  rw [spelling, Token.lower, Identifier.interfaceMember_toLower]

/-- A qualified name is not that of a constructor. -/
theorem method_of_mem {name : String} (h : '~' ∈ name.toList) :
    Identifier.method name = Identifier.plain name := by
  have hne : Identifier.plain name ≠ "constructor" := by
    intro heq
    have hdollar := Identifier.dollar_mem_plain h
    rw [heq] at hdollar
    exact absurd hdollar (by decide)
  rw [Identifier.method, if_neg hne]

theorem spelled_methodHeader : methodHeader.SpellsBy context methodHeader.spelling := by
  intro owner name position s text s' hmem h
  obtain ⟨m?, t, t₁, t₂, blocks, setup, -, -, -, -, rfl⟩ := Flow.exists_of_methodAt h
  rw [method_of_mem hmem]
  refine ⟨_, _, ?_, rfl⟩
  split <;> simp

/-! ## Where members are used -/

/-- An attribute in a chain is spelled with its interface unless it is qualified. -/
theorem spelled_chainAttribute : chainAttribute.SpellsBy context chainAttribute.spelling := by
  intro owner name interfaceName s s' hbound
  rw [Operand.segment, Operand.memberName, bind_assoc, Emit.bind_of_ok hbound, spelling]
  by_cases hmem : '~' ∈ name.text.toList
  · simp [hmem]
    rfl
  · simp [hmem]
    rfl

theorem spelled_staticAccess : staticAccess.SpellsBy context staticAccess.spelling := by
  intro owner name head s s₁ s' h hbound
  rw [Operand.classHead, Emit.bind_of_ok hbound] at h
  obtain ⟨address, s₂, -, h⟩ := Emit.bind_eq_ok h
  cases h
  rw [spelling, ← Identifier.interfaceMember_toLower]
  rfl

/-- A qualified name is not bound to an attribute of another object. -/
theorem resolve_of_mem {v : View} {name : Token} (h : '~' ∈ name.text.toList) :
    (v.resolve name).All fun resolution =>
      ∃ declared, resolution = View.ownResolution name.text declared := by
  refine .after fun scope => .after fun declared => ?_
  split
  next hplain =>
    have hcontains : name.text.toList.contains '~' = true := List.contains_iff_mem.mpr h
    rw [hcontains, Bool.not_true, Bool.and_false] at hplain
    cases hplain
  next => exact ⟨declared, rfl⟩

/-- A qualified name is not reserved. -/
theorem ownResolution_of_mem {name : String} (h : '~' ∈ name.toList)
    (declared : Option (Scope × Variable)) :
    View.ownResolution name declared ∈ [.localName, .instanceAttribute, .builtin] ∨
      ∃ owner, View.ownResolution name declared = .staticAttribute owner := by
  have hsuper : Text.sameIgnoringCase name "super" = false := by
    rw [Bool.eq_false_iff, Ne, Text.sameIgnoringCase_iff]
    intro heq
    rw [← Text.tilde_mem_caseless, heq] at h
    exact absurd h (by decide)
  unfold View.ownResolution
  rw [hsuper]
  split
  next s x _ => exact .inr ⟨_, rfl⟩
  next =>
    left
    rw [if_neg Bool.false_ne_true]
    split
    · simp
    · split
      · simp
      · split <;> simp

/-- A qualified name is spelled by itself, with at most the place where it is declared before it. -/
theorem endsIn_of_mem {name : Token} {resolution : Resolution} {s s₁ s' : EmissionState}
    {text : String} (h : '~' ∈ name.text.toList)
    (hresolve : Emit.ask (·.resolve name) context s = .ok resolution s₁)
    (hname : Emit.qualifiedName name context s = .ok text s') :
    EndsIn text (Identifier.plain name.text) := by
  obtain ⟨slot, hrun, rfl⟩ := Emit.ask_eq_ok_iff.mp hresolve
  obtain ⟨declared, rfl⟩ := (resolve_of_mem h).of_run hrun
  rw [Emit.qualifiedName, Emit.bind_of_ok hresolve] at hname
  rcases ownResolution_of_mem h declared with hown | ⟨owner, hown⟩
  · simp only [List.mem_cons, List.not_mem_nil, or_false] at hown
    rcases hown with hown | hown | hown <;> rw [hown] at hname <;>
      rw [← (EStateM.Result.ok.inj hname).1]
    · exact .inl rfl
    · rw [show "this." = "this" ++ "." by decide]
      exact .inr ⟨"this", rfl⟩
    · rw [show "abap.builtin." = "abap.builtin" ++ "." by decide]
      exact .inr ⟨"abap.builtin", rfl⟩
  · rw [hown] at hname
    rw [← (EStateM.Result.ok.inj hname).1]
    exact .inr ⟨owner, rfl⟩

theorem spelled_foreignAttribute : foreignAttribute.SpellsBy context
    foreignAttribute.spelling := by
  intro owner name resolution s s₁ text s' hresolve hbound h
  by_cases hmem : '~' ∈ name.text.toList
  · rw [spelling, if_pos hmem]
    exact endsIn_of_mem hmem hresolve h
  · cases hbound.resolve_left hmem
    rw [Emit.qualifiedName, Emit.bind_of_ok hresolve] at h
    obtain ⟨address, s₂, -, h⟩ := Emit.bind_eq_ok h
    cases h
    rw [spelling, if_neg hmem, Identifier.interfaceMember_toLower]
    exact .inr ⟨address, rfl⟩

/-- A method of an interface is called by the name of its definition. -/
theorem spelled_call : call.SpellsBy context call.spelling := by
  intro owner definition p base name s s' h
  have hfound : Emit.ask (·.methodReference? name) context s =
      .ok (some ⟨definition, Identifier.interfaceMember owner definition.name⟩) s' := by
    obtain ⟨slot, hrun, rfl⟩ := Emit.ask_eq_ok_iff.mp h
    exact Emit.ask_eq_ok_iff.mpr
      ⟨slot, Query.run_bind_eq_ok_iff.mpr ⟨_, slot, hrun, rfl⟩, rfl⟩
  rw [Operand.namedMethod, Emit.bind_of_ok hfound]
  rfl

theorem spelled_written : written.SpellsBy context written.spelling := by
  intro owner name hmem
  refine ⟨fun interfaceName s s' h => ?_, fun s => rfl, fun base s s' h => ?_⟩
  · rw [Operand.segment, Operand.memberName, bind_assoc, Emit.bind_of_ok h]
    rfl
  · rw [Operand.namedMethod, Emit.bind_of_ok h]
    rfl

theorem spelled_aliased : aliased.SpellsBy context aliased.spelling :=
  fun _ _ _ => ⟨rfl, fun _ _ => rfl⟩

/-! ## One spelling -/

/-- Every site spells members in its own way. -/
theorem spellsBy_spelling (site : MemberSite) (context : Context) :
    site.SpellsBy context site.spelling := by
  cases site with
  | instanceAttribute => exact spelled_instanceAttribute
  | staticAttribute => exact spelled_staticAttribute
  | interfaceUnit => exact spelled_interfaceUnit
  | methodHeader => exact spelled_methodHeader
  | chainAttribute => exact spelled_chainAttribute
  | staticAccess => exact spelled_staticAccess
  | foreignAttribute => exact spelled_foreignAttribute
  | call => exact spelled_call
  | written => exact spelled_written
  | aliased => exact spelled_aliased

/-- All places spell a member alike whose name is not qualified. -/
theorem spelling_entry (site : MemberSite) {owner member : String} (howner : '~' ∉ owner.toList)
    (hmember : '~' ∉ member.toList) :
    site.spelling owner (site.entry owner member) =
      Text.toLower owner ++ "$" ++ Text.toLower member := by
  have hbound : Identifier.interfaceMember owner member =
      Text.toLower owner ++ "$" ++ Text.toLower member := by
    rw [Identifier.interfaceMember, Identifier.plain_of_not_mem hmember]
  cases site with
  | methodHeader | written | aliased =>
    exact (Identifier.plain_append_tilde howner member).trans hbound
  | chainAttribute | foreignAttribute => exact (if_neg hmember).trans hbound
  | instanceAttribute | staticAttribute | interfaceUnit | staticAccess | call => exact hbound

/-- With an interface before it a name is another one. -/
theorem interfaceMember_ne_plain (owner name : String) :
    Identifier.interfaceMember owner name ≠ Identifier.plain name := by
  intro heq
  have hlength := congrArg (·.toList.length) heq
  simp only [Identifier.interfaceMember, String.toList_append, List.length_append] at hlength
  have hdollar : "$".toList.length = 1 := by decide
  omega

/-- Each place where a member of an interface is named emits its spelling of what stands there. For
a member without qualification this is the interface and the member in lower case, in every place. A
name that is qualified already is spelled as it stands just where the interface is not put before
every name. -/
theorem spelled_alike (site : MemberSite) :
    (∀ context, site.SpellsBy context site.spelling) ∧
    (∀ owner member : String, '~' ∉ owner.toList → '~' ∉ member.toList →
      site.spelling owner (site.entry owner member) =
        Text.toLower owner ++ "$" ++ Text.toLower member) ∧
    ∀ owner name : String, '~' ∈ name.toList →
      (site.spelling owner name = Identifier.plain name ↔ site.prefixes = false) := by
  refine ⟨site.spellsBy_spelling, fun _ _ => site.spelling_entry, fun owner name hmem => ?_⟩
  cases site with
  | methodHeader | written | aliased => exact iff_of_true rfl rfl
  | chainAttribute | foreignAttribute => exact iff_of_true (if_pos hmem) rfl
  | instanceAttribute | staticAttribute | interfaceUnit | staticAccess | call =>
    exact iff_of_false (interfaceMember_ne_plain owner name) (by decide)

/-- A method is implemented under the name by which it is called, and a constant of an included
interface is accessed under its name after that of the other interface. -/
theorem spelled_alike_included :
    methodHeader.spelling "ZIF_Foo" "ZIF_Foo~Bar" = "zif_foo$bar" ∧
    call.spelling "ZIF_Foo" "Bar" = "zif_foo$bar" ∧
    staticAccess.spelling "zif_bar" "zif_base~c_max" ≠ Identifier.plain "zif_base~c_max" := by
  have hmember : Text.toLower "ZIF_Foo" ++ "$" ++ Text.toLower "Bar" = "zif_foo$bar" := by
    decide
  refine ⟨?_, ?_, fun heq => ?_⟩
  · exact ((spelled_alike methodHeader).2.1 "ZIF_Foo" "Bar" (by decide) (by decide)).trans hmember
  · exact ((spelled_alike call).2.1 "ZIF_Foo" "Bar" (by decide) (by decide)).trans hmember
  · cases ((spelled_alike staticAccess).2.2 "zif_bar" "zif_base~c_max" (by decide)).mp heq

end MemberSite

namespace SourceUnit

/-- An interface without members of its own that includes another one. -/
def includingInterface : InterfaceDefinition :=
  { name := "zif_bar", isGlobal := true, file := "zif_bar.intf.abap", implementing := ["zif_base"],
    attributes := .none, aliases := [], methods := [] }

/-- A program that reads a constant of the included interface through this one. -/
def readingIncluded : SourceUnit :=
  let constant : FieldChain :=
    ⟨.classRef ⟨"zif_bar", ⟨1, 7⟩⟩, [.static ⟨"zif_base~c_max", ⟨1, 16⟩⟩], none, none⟩
  let move : StatementNode :=
    ⟨.move (.field constant) ⟨.field ⟨"foo", ⟨1, 1⟩⟩, [], none, none⟩, ⟨⟨1, 1⟩, ⟨1, 31⟩⟩,
      "foo = zif_bar=>zif_base~c_max."⟩
  { file := "zfoo.prog.abap"
    object := ⟨.prog, "ZFOO"⟩
    root := ⟨.program, [.leaf move], ⟨⟨1, 1⟩, ⟨1, 31⟩⟩⟩
    scopes := ⟨#[.fresh .program "zfoo" "zfoo.prog.abap" ⟨⟨1, 1⟩, ⟨9, 1⟩⟩ none]⟩ }

/-- The constant is qualified already, and gets the other interface before it. -/
theorem lower_readingIncluded :
    (readingIncluded.lower .standard (Registry.empty.addInterface includingInterface)
        0).1.toOption.map (·.code) =
      some "foo.set(abap.Classes['ZIF_BAR'].zif_bar$zif_base$c_max);\n" ∧
    MemberSite.staticAccess.spelling "zif_bar" "zif_base~c_max" ≠
      Identifier.plain "zif_base~c_max" := by
  exact ⟨by decide, MemberSite.interfaceMember_ne_plain _ _⟩

end SourceUnit

end AbapLowering
