import AbapLowering.Proofs.Caseless.Text
import AbapLowering.Proofs.Emission.Dispatch
import AbapLowering.Proofs.Scope.Around

/-!
# References and registrations

A class implementation or an interface is registered under the key of its definition, which is found
from where its name stands, in the scopes or in the registry. A reference is looked up from where it
stands, and only in the scopes. Both lead to the same key, wherever the reference stands, if what the
scopes know there under the name is the same definition, or nothing while the definition is global
(`StructureNode.registers_and_links`).
-/

namespace AbapLowering

open Text (sameIgnoringCase)

/-! ## What a structure registers -/

/-- What is registered is noted unless it was noted before. -/
theorem Members.register_apply (d : Definition) (name : Token) (context : Context)
    (s : EmissionState) :
    Members.register d name context s =
      let line := ClassKey.registration (ClassKey.ofDefinition context.view.registry d) name.text
      .ok () (if line ∈ s.registrations then s
        else { s with registrations := s.registrations ++ [line] }) := rfl

/-- What is registered is among the registrations afterwards. -/
theorem Members.mem_registrations {d : Definition} {name : Token} {context : Context}
    {s s' : EmissionState} (h : Members.register d name context s = .ok () s') :
    ClassKey.registration (ClassKey.ofDefinition context.view.registry d) name.text ∈
      s'.registrations := by
  rw [Members.register_apply] at h
  cases h
  split
  next hmem => exact hmem
  next => exact List.mem_append_right _ (List.mem_singleton_self _)

/-- The definition that a class implementation or an interface with this header stands for. -/
inductive StatementNode.Declares (opening : StatementNode) (context : Context) :
    StructureKind → Token → Definition → Prop
  | implementation {name : Token} {c : ClassDefinition} {s s' : EmissionState} :
    opening.statement = .classImplementation name → Members.classOf name context s = .ok c s' →
    Declares opening context .classImplementation name c.toDefinition
  | unit {name : Token} {i : InterfaceDefinition} {s s' : EmissionState} :
    opening.statement = .interfaceHeader name → Members.interfaceOf name context s = .ok i s' →
    Declares opening context .interfaceUnit name i.toDefinition

/-- Lowering a structure ends with registering `d` under `name`, for which the structure stands. -/
def StructureNode.EndsRegistering (node : StructureNode) (context : Context) (name : Token)
    (d : Definition) (s' : EmissionState) : Prop :=
  (∃ opening, node.firstStatement? = some opening ∧
    opening.Declares context node.kind name d) ∧
  ∃ s, Members.register d name context s = .ok () s'

namespace StructureNode

/-- The class that is implemented is named by the opening statement. -/
theorem yields_implementedClass {v : View} (opening : StatementNode) :
    (implementedClass opening).Yields v fun name =>
      opening.statement = .classImplementation name := by
  unfold implementedClass
  split
  next header hheader => exact .pure hheader
  next => exact .fail _

theorem yields_declaredInterface {v : View} (opening : StatementNode) :
    (declaredInterface opening).Yields v fun name => opening.statement = .interfaceHeader name := by
  unfold declaredInterface
  split
  next header hheader => exact .pure hheader
  next => exact .fail _

/-- An interface ends by registering itself. -/
theorem endsRegistering_emitInterface {node : StructureNode} {context : Context}
    {s s' : EmissionState} {code : Code} (hkind : node.kind = .interfaceUnit)
    (h : node.emitInterface context s = .ok code s') :
    ∃ name d, node.EndsRegistering context name d s' := by
  obtain ⟨opening, s₁, hopening, h⟩ := Emit.bind_eq_ok h
  obtain ⟨name, s₂, hname, h⟩ := Emit.bind_eq_ok h
  obtain ⟨head, s₃, -, h⟩ := Emit.bind_eq_ok h
  -- whether or not the unit has a closing statement
  obtain ⟨tail, s₄, h⟩ : ∃ tail s₄, (do
      let i ← Members.interfaceOf name
      let part ← Members.interfacePart name i
      Members.register i.toDefinition name
      return head ++ tail ++ Code.tagged name.start part) context s₄ = .ok code s' := by
    dsimp only at h
    cases hclosing : node.statements.getLast?.filter fun s => s.span != opening.span with
    | some closing =>
      rw [hclosing] at h
      obtain ⟨tail, s₄, -, h⟩ := Emit.bind_eq_ok h
      exact ⟨tail, s₄, h⟩
    | none =>
      rw [hclosing] at h
      exact ⟨_, _, h⟩
  obtain ⟨i, s₅, hi, h⟩ := Emit.bind_eq_ok h
  obtain ⟨part, s₆, -, h⟩ := Emit.bind_eq_ok h
  obtain ⟨_, s₇, hregister, h⟩ := Emit.bind_eq_ok h
  cases h
  refine ⟨name, i.toDefinition, ⟨opening, (opening_eq_ok hopening).1, ?_⟩, s₆, hregister⟩
  rw [hkind]
  exact .unit (yields_declaredInterface opening _ _ _ _ hname) hi

/-- A class ends by registering itself, too. -/
theorem endsRegistering_emit {node : StructureNode} {context : Context} {s s' : EmissionState}
    {code : Code} (hkind : node.kind = .classImplementation ∨ node.kind = .interfaceUnit)
    (h : node.emit context s = .ok code s') :
    ∃ name d, node.EndsRegistering context name d s' := by
  obtain ⟨kind, children, span⟩ := node
  rcases hkind with rfl | rfl
  · rw [StructureNode.emit.eq_def] at h
    obtain ⟨opening, s₁, hopening, h⟩ := Emit.bind_eq_ok h
    obtain ⟨name, s₂, hname, h⟩ := Emit.bind_eq_ok h
    obtain ⟨body, s₃, -, h⟩ := Emit.bind_eq_ok h
    obtain ⟨stop, s₄, hstop, h⟩ := Emit.bind_eq_ok h
    cases h
    obtain ⟨part, s₅, -, hstop⟩ := Emit.bind_eq_ok hstop
    obtain ⟨c, s₆, hc, hstop⟩ := Emit.bind_eq_ok hstop
    obtain ⟨_, s₇, hregister, hstop⟩ := Emit.bind_eq_ok hstop
    cases hstop
    refine ⟨name, c.toDefinition, ⟨opening, (opening_eq_ok hopening).1, ?_⟩, s₆, hregister⟩
    exact .implementation (yields_implementedClass opening _ _ _ _ hname) hc
  · rw [StructureNode.emit.eq_def] at h
    exact endsRegistering_emitInterface rfl h

end StructureNode

/-! ## Both lead to one key -/

/-- What the scopes know under the name of a definition is this definition, or nothing although it is
global. -/
def Definition.IsMeant (d : Definition) : Option Definition → Prop
  | some e => sameIgnoringCase e.name d.name = true ∧ e.isGlobal = d.isGlobal ∧ e.file = d.file
  | none => d.isGlobal = true

/-- Names that are the same without case are the same in upper case. -/
theorem Text.toUpper_eq_of_same {s t : String} (h : sameIgnoringCase s t = true) :
    Text.toUpper s = Text.toUpper t := by
  rw [← Text.toUpper_caseless s, (Text.sameIgnoringCase_iff s t).mp h, Text.toUpper_caseless]

/-- A name that means a definition has the key of the definition. -/
theorem View.keyOf_of_isMeant {v : View} {d : Definition} {name : String}
    {found : Option Definition} (hname : sameIgnoringCase name d.name = true)
    (h : d.IsMeant found) : v.keyOf name found = ClassKey.ofDefinition v.registry d := by
  cases found with
  | none =>
    have hglobal : d.isGlobal = true := h
    rw [View.keyOf, ClassKey.ofDefinition, if_pos hglobal, ClassKey.global, ClassKey.global]
    exact Text.toUpper_eq_of_same hname
  | some e =>
    obtain ⟨hsame, hglobal, hfile⟩ := h
    have hupper := Text.toUpper_eq_of_same hsame
    simp only [View.keyOf, ClassKey.ofDefinition, ClassKey.global, ClassKey.ofOwner, hglobal, hfile,
      hupper]

namespace StructureNode

/-- A class implementation or an interface that can be lowered registers a definition, and wherever a
unit with the same registry names this definition, in whatever case, and the scopes there do not know
another one under that name, the name is addressed by the registered key. -/
theorem registers_and_links {node : StructureNode} {context : Context} {s s' : EmissionState}
    {code : Code} (hkind : node.kind = .classImplementation ∨ node.kind = .interfaceUnit)
    (h : node.emit context s = .ok code s') :
    (∃ name d, node.EndsRegistering context name d s') ∧
    ∀ name d, node.EndsRegistering context name d s' →
      let key := ClassKey.ofDefinition context.view.registry d
      ClassKey.registration key name.text ∈ s'.registrations ∧
      ∀ (other : Context) (t t' : EmissionState) (p : Position) (reference : String)
        (scope : Option ScopeId) (found : Option Definition),
        other.view.registry = context.view.registry →
        sameIgnoringCase reference d.name = true →
        Emit.ask (fun _ => Query.scopeAround p) other t = .ok scope t' →
        other.view.localDefinition? scope reference = .ok found → d.IsMeant found →
        Emit.classAddress reference p other t = .ok (ClassKey.lookup key) t' := by
  refine ⟨endsRegistering_emit hkind h, ?_⟩
  rintro name d ⟨-, before, hregister⟩
  refine ⟨Members.mem_registrations hregister, ?_⟩
  intro other t t' p reference scope found hregistry hname hscope hfound hmeant
  rw [Emit.classAddress_of_localDefinition hscope hfound, View.keyOf_of_isMeant hname hmeant,
    hregistry]

/-- A local interface without members. -/
def localInterface : InterfaceDefinition :=
  { name := "lif_bar", isGlobal := false, file := "zfoo.prog.abap", implementing := [],
    attributes := .none, aliases := [], methods := [] }

/-- This interface in lines 3 and 4 of a program. -/
def interfaceInProgram : StructureNode :=
  let opening : StatementNode :=
    ⟨.interfaceHeader ⟨"lif_bar", ⟨3, 11⟩⟩, ⟨⟨3, 1⟩, ⟨3, 19⟩⟩, "INTERFACE lif_bar."⟩
  let closing : StatementNode := ⟨.endBlock .interfaceBlock, ⟨⟨4, 1⟩, ⟨4, 14⟩⟩, "ENDINTERFACE."⟩
  ⟨.interfaceUnit, [.leaf opening, .leaf closing], ⟨⟨3, 1⟩, ⟨4, 14⟩⟩⟩

/-- The program. -/
def programContext : Context :=
  let program : Scope := .fresh .program "zfoo" "zfoo.prog.abap" ⟨⟨1, 1⟩, ⟨9, 1⟩⟩ none
  let body : Scope :=
    .fresh .interfaceBody "lif_bar" "zfoo.prog.abap" ⟨⟨3, 1⟩, ⟨4, 14⟩⟩ (some .root)
  let program : Scope := { program with
    children := [⟨1⟩]
    interfaces := program.interfaces.insert "lif_bar" localInterface }
  { view := ⟨⟨#[program, body]⟩, Registry.empty.addFile "zfoo.prog.abap" ⟨.prog, "ZFOO"⟩,
      "zfoo.prog.abap", ⟨.prog, "ZFOO"⟩⟩
    config := .standard }

/-- The interface is registered under the key by which line 6 addresses it. -/
theorem registers_and_links_interfaceInProgram :
    ∃ code s', interfaceInProgram.emit programContext (.initial 0) = .ok code s' ∧
      "abap.Classes['PROG-ZFOO-LIF_BAR'] = lif_bar;" ∈ s'.registrations ∧
      Emit.classAddress "LIF_BAR" ⟨6, 1⟩ programContext (.initial 0) =
        .ok "abap.Classes['PROG-ZFOO-LIF_BAR']" (.initial 0) := by
  have hok : ((interfaceInProgram.emit programContext).run' (.initial 0)).isSome := by
    decide +kernel
  have hrun : (interfaceInProgram.emit.endState programContext (.initial 0)).registrations =
      ["abap.Classes['PROG-ZFOO-LIF_BAR'] = lif_bar;"] := by decide +kernel
  cases hemit : interfaceInProgram.emit programContext (.initial 0) with
  | error why s' =>
    delta EStateM.run' EStateM.run at hok
    rw [hemit] at hok
    cases hok
  | ok code s' =>
    rw [Emit.endState_of_ok hemit] at hrun
    -- registered once already, so registering again changes nothing
    have hknown : ClassKey.registration (ClassKey.ofDefinition programContext.view.registry
        localInterface.toDefinition) "lif_bar" ∈ s'.registrations := by
      rw [show s'.registrations = _ from hrun]
      decide +kernel
    have hends : interfaceInProgram.EndsRegistering programContext ⟨"lif_bar", ⟨3, 11⟩⟩
        localInterface.toDefinition s' := by
      refine ⟨⟨_, rfl, .unit (s := .initial 0) rfl rfl⟩, s', ?_⟩
      rw [Members.register_apply]
      exact congrArg (EStateM.Result.ok ()) (if_pos hknown)
    obtain ⟨hmem, hlinks⟩ := (registers_and_links (.inr rfl) hemit).2 _ _ hends
    refine ⟨code, s', rfl, hmem, ?_⟩
    exact hlinks programContext (.initial 0) (.initial 0) ⟨6, 1⟩ "LIF_BAR" (some .root)
      (some localInterface.toDefinition) rfl (by decide) rfl rfl ⟨by decide, rfl, rfl⟩

end StructureNode

end AbapLowering
