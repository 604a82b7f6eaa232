import AbapLowering.Emission.Flow
import AbapLowering.Emission.Invocation
import AbapLowering.Lowering
import AbapLowering.Proofs.Terms.Operand

/-!
# What member accesses apply to

In three places a member is read right after the code of an operand: the number of passes of a loop,
an operand in a string template, and an exception object that is raised. The access applies to the
value of the whole operand unless the operand is a call. The code of a call is an `await` before the
call, which binds weaker than the access, so the member is read from what is still awaited
(`Source.accesses_emit`). Calls at the start of field chains are put in parentheses.
-/

namespace AbapLowering

open Script

/-- A place where a member is read right after the code of an operand. -/
inductive AccessPlace where
  /-- The number of passes of a loop. -/
  | passes
  /-- An operand in a string template. -/
  | embedded
  /-- An exception object. -/
  | raised
  deriving DecidableEq

namespace AccessPlace

/-- What is emitted for an operand in such a place. -/
def emit (source : Source) : AccessPlace → Emit String
  | passes => Flow.doTimes (some source)
  | embedded => (TemplatePart.embed source).emit
  | raised => Invocation.raise (.object source)

/-- What stands before the operand. -/
def opening : AccessPlace → String
  | passes => " = "
  | embedded => "$\x7b"
  | raised => "throw "

/-- What stands after the access. -/
def closing : AccessPlace → String
  | passes | raised => ";"
  | embedded => "\x7d"

/-- The code of the operand with the access after it makes a whole expression. -/
theorem exists_of_emit {place : AccessPlace} {source : Source} {context : Context}
    {s s' : EmissionState} {code : String} (h : place.emit source context s = .ok code s') :
    ∃ before text after s₁ s₂, source.emit context s₁ = .ok text s₂ ∧
      code = before ++ place.opening ++ text ++ ".get()" ++ place.closing ++ after := by
  -- only a loop has code around the place
  cases place with
  | passes =>
    rw [emit, Flow.doTimes] at h
    obtain ⟨count, _, -, h⟩ := Emit.bind_eq_ok h
    obtain ⟨index, s₁, -, h⟩ := Emit.bind_eq_ok h
    obtain ⟨text, _, htext, h⟩ := Emit.bind_eq_ok h
    cases h
    refine ⟨"const " ++ count, text, "\nfor (let " ++ index ++ " = 0; " ++ index ++ " < " ++ count
      ++ "; " ++ index ++ "++) \x7b\nabap.builtin.sy.get().index.set(" ++ index ++ " + 1);",
      s₁, _, htext, String.toList_inj.mp ?_⟩
    simp [opening, closing]
  | embedded =>
    rw [emit, TemplatePart.emit] at h
    obtain ⟨text, _, htext, h⟩ := Emit.bind_eq_ok h
    cases h
    exact ⟨"", text, "", s, _, htext, String.toList_inj.mp (by simp [opening, closing])⟩
  | raised =>
    rw [emit, Invocation.raise] at h
    obtain ⟨text, _, htext, h⟩ := Emit.bind_eq_ok h
    cases h
    exact ⟨"", text, "", s, _, htext, String.toList_inj.mp (by simp [opening, closing])⟩

end AccessPlace

/-- The code of an operand has one part that an access after it applies to: all of it, unless the
operand is a call. -/
theorem Source.Spells.accesses {source : Source} {text : String} (h : source.Spells text) :
    ∃ operand, (∀ part, Accesses text part ↔ part = operand) ∧
      (operand = text ↔ ¬ source.IsCall) ∧ (source.IsCall → text = "await " ++ operand) := by
  have hunique : ∀ {operand}, Accesses text operand →
      ∀ part, Accesses text part ↔ part = operand :=
    fun hoperand part => ⟨fun hpart => hpart.unique hoperand, fun heq => heq ▸ hoperand⟩
  cases source with
  -- only the code of a call begins with the operator, and the access goes past it
  | call call =>
    obtain ⟨b, operand, hterm, rfl⟩ := h
    refine ⟨operand, hunique (.await (.whole hterm)),
      ⟨fun heq => ?_, fun hno => absurd trivial hno⟩, fun _ => rfl⟩
    have hlength := congrArg (·.toList.length) heq
    simp only [String.toList_append, List.length_append] at hlength
    exact absurd hlength (by simp)
  | _ => exact ⟨text, hunique (.whole h), ⟨fun _ => id, fun _ => rfl⟩, False.elim⟩

/-- Where a member is read after the code of an operand, the access applies to one part of the code,
which is the whole of it iff the operand is no call; in a call it is what is awaited. -/
theorem Source.accesses_emit {v : View} (hv : v.Named) {source : Source} (h : source.Named)
    (place : AccessPlace) {config : Config} {s s' : EmissionState} {code : String}
    (hemit : place.emit source ⟨v, config⟩ s = .ok code s') :
    ∃ before text after s₁ s₂, source.emit ⟨v, config⟩ s₁ = .ok text s₂ ∧
      code = before ++ place.opening ++ text ++ ".get()" ++ place.closing ++ after ∧
      ∃ operand, (∀ part, Accesses text part ↔ part = operand) ∧
        (operand = text ↔ ¬ source.IsCall) ∧ (source.IsCall → text = "await " ++ operand) := by
  obtain ⟨before, text, after, s₁, s₂, htext, hcode⟩ := AccessPlace.exists_of_emit hemit
  have hspells := (source.writes hv h config s₁ text s₂ htext).1
  exact ⟨before, text, after, s₁, s₂, htext, hcode, hspells.accesses⟩

namespace SourceUnit

/-- A call of a method without parameters. -/
def plainCall : Source := .call ⟨.implicit, .named ⟨"foo", ⟨1, 10⟩⟩, .none⟩

/-- A program that writes a template in which the result of a method is embedded. -/
def embeddingCall : SourceUnit :=
  let write : StatementNode :=
    ⟨.write (.template [.embed plainCall]) false, ⟨⟨1, 1⟩, ⟨1, 19⟩⟩, "WRITE |\x7b foo( ) \x7d|."⟩
  { file := "zfoo.prog.abap"
    object := ⟨.prog, "ZFOO"⟩
    root := ⟨.program, [.leaf write], ⟨⟨1, 1⟩, ⟨1, 19⟩⟩⟩
    scopes := ⟨#[.fresh .program "zfoo" "zfoo.prog.abap" ⟨⟨1, 1⟩, ⟨9, 1⟩⟩ none]⟩ }

theorem named_embeddingCall : (embeddingCall.view .empty).Named := View.named_of_program rfl rfl

theorem named_plainCall : plainCall.Named := by
  have hword : IsWord (Identifier.plain "foo") := by decide +kernel
  exact ⟨trivial, hword, trivial, trivial, trivial⟩

theorem accesses_embeddingCall :
    ∃ code s', AccessPlace.embedded.emit plainCall ⟨embeddingCall.view .empty, .standard⟩
        (.initial 0) = .ok code s' ∧
      ∃ before text after s₁ s₂, plainCall.emit ⟨embeddingCall.view .empty, .standard⟩ s₁ =
          .ok text s₂ ∧
        code = before ++ "$\x7b" ++ text ++ ".get()" ++ "\x7d" ++ after ∧
        ∃ operand, (∀ part, Accesses text part ↔ part = operand) ∧ operand ≠ text := by
  obtain ⟨code, s', hemit⟩ : ∃ code s', AccessPlace.embedded.emit plainCall
      ⟨embeddingCall.view .empty, .standard⟩ (.initial 0) = .ok code s' := ⟨_, _, rfl⟩
  obtain ⟨before, text, after, s₁, s₂, htext, hcode, operand, hunique, hwhole, -⟩ :=
    Source.accesses_emit named_embeddingCall named_plainCall .embedded hemit
  exact ⟨code, s', hemit, before, text, after, s₁, s₂, htext, hcode, operand, hunique,
    fun heq => hwhole.mp heq trivial⟩

/-- The access in the emitted code applies to the call alone. -/
theorem lower_embeddingCall :
    (embeddingCall.lower .standard .empty 0).1.toOption.map (·.code) =
        some ("abap.statements.write(new abap.types.String().set("
          ++ "\x60$\x7bawait this.foo().get()\x7d\x60));\n") ∧
      Accesses "await this.foo()" "this.foo()" ∧
      ¬ Accesses "await this.foo()" "await this.foo()" := by
  have hcall : Term .access false "this.foo()" :=
    ((Term.name (s := "this") (by decide)).invokeBare "foo").of_eq (by decide)
  have haccess : Accesses "await this.foo()" "this.foo()" := .await (.whole hcall)
  refine ⟨?_, haccess, fun h => absurd (h.unique haccess) (by decide)⟩
  decide +kernel

end SourceUnit

end AbapLowering
