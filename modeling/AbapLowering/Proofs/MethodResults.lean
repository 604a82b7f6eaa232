import AbapLowering.Lowering
import AbapLowering.Proofs.Scope.Method
import Mathlib.Data.List.Nodup

/-!
# What methods hand back

METHOD, RETURN and ENDMETHOD are lowered on their own, and each looks up the method that it stands in.

- `Flow.HeaderLines`: the lines of METHOD, a declaration for each parameter and, unless the parameter
  is the result, a line that takes what is passed for it;
- `Flow.results_agree`: in one method of one class RETURN and ENDMETHOD hand back the same, and a
  result by name is declared by METHOD under this name. It is taken from what is passed iff another
  parameter is spelled like it.
-/

namespace AbapLowering

/-- The result of a method is one of its parameters. -/
theorem MethodDefinition.mem_of_returning? {d : MethodDefinition} {p : MethodParameter}
    (h : d.returning? = some p) : p ∈ d.parameters ∧ p.direction = .returning := by
  unfold MethodDefinition.returning? at h
  have hdirection := List.find?_some h
  exact ⟨List.mem_of_find?_eq_some h, beq_iff_eq.mp hdirection⟩

namespace Flow

/-! ## The lines of METHOD -/

/-- The line that declares a parameter. -/
def declaringLine (p : MethodParameter) (type : String) : String :=
  "let " ++ Identifier.plain p.name ++ " = " ++ type ++ ";"

/-- The line that takes what is passed under a name. -/
def takingLine (name : String) : String :=
  "if (INPUT && INPUT." ++ name ++ ") \x7b" ++ name ++ " = INPUT." ++ name ++ ";\x7d"

/-- The lines for a parameter. -/
def IsBlock (lenient : Bool) (p : MethodParameter) (block : List String) : Prop :=
  ∃ type, p.type.constructor lenient = .ok type ∧
    block = declaringLine p type ::
      partIf (p.direction != .returning) (takingLine (Identifier.plain p.name))

/-- The lines of METHOD, for a method with that definition. -/
def HeaderLines (lenient : Bool) (d : MethodDefinition) (name : Token) (lines : List String) :
    Prop :=
  ∃ blocks, List.Forall₂ (IsBlock lenient) d.parameters blocks ∧
    lines = ((if d.isStatic then "static " else "") ++ "async " ++ Identifier.method name.text
      ++ "(INPUT) \x7b") :: blocks.flatten

variable {lenient : Bool} {d : MethodDefinition} {p : MethodParameter} {name : Token}
  {lines : List String}

-- stated once, since to unfold a text with so long a beginning takes too long
theorem takingLine_eq (a : String) : takingLine a =
    "if (INPUT && INPUT." ++ a ++ ") \x7b" ++ a ++ " = INPUT." ++ a ++ ";\x7d" := rfl

/-- The line that takes a parameter tells its name. -/
theorem takingLine_inj {a b : String} : takingLine a = takingLine b ↔ a = b := by
  refine ⟨fun h => ?_, congrArg takingLine⟩
  have hchars := congrArg String.toList h
  simp only [takingLine_eq, String.toList_append, List.append_assoc] at hchars
  -- after the beginning the name comes three times, so names with one text have one length
  replace hchars := List.append_cancel_left hchars
  have hlength := congrArg List.length hchars
  simp only [List.length_append] at hlength
  exact String.toList_inj.mp (List.append_inj_left hchars (by omega))

theorem head?_takingLine (a : String) : (takingLine a).toList.head? = some 'i' := by
  simp [takingLine_eq]

/-- No line both takes a parameter and declares one. -/
theorem takingLine_ne_declaringLine (a type : String) : takingLine a ≠ declaringLine p type := by
  intro h
  have hfirst := head?_takingLine a
  rw [h] at hfirst
  simp [declaringLine] at hfirst

/-- A parameter is taken by its block unless it is the result. -/
theorem IsBlock.takingLine_mem_iff {block : List String} (h : IsBlock lenient p block)
    (a : String) :
    takingLine a ∈ block ↔ p.direction ≠ .returning ∧ Identifier.plain p.name = a := by
  obtain ⟨type, -, rfl⟩ := h
  rw [List.mem_cons, or_iff_right (takingLine_ne_declaringLine a type), partIf]
  split
  next hdirection => simp [takingLine_inj, bne_iff_ne.mp hdirection, eq_comm]
  next hdirection => simp [Decidable.not_not.mp (mt bne_iff_ne.mpr hdirection)]

/-- What is passed under a name is taken for the parameters spelled so that are not the result. -/
theorem HeaderLines.takingLine_mem_iff (h : HeaderLines lenient d name lines) (a : String) :
    takingLine a ∈ lines ↔
      ∃ q ∈ d.parameters, q.direction ≠ .returning ∧ Identifier.plain q.name = a := by
  obtain ⟨blocks, hblocks, rfl⟩ := h
  have hheader : takingLine a ≠ (if d.isStatic then "static " else "") ++ "async " ++
      Identifier.method name.text ++ "(INPUT) \x7b" := by
    intro heq
    have hfirst := head?_takingLine a
    rw [heq] at hfirst
    split at hfirst <;> simp at hfirst
  rw [List.mem_cons, or_iff_right hheader, List.mem_flatten]
  constructor
  · rintro ⟨block, hblock, hline⟩
    obtain ⟨q, hq, h⟩ := exists_mem_of_forall₂ hblocks.flip hblock
    exact ⟨q, hq, (IsBlock.takingLine_mem_iff h a).mp hline⟩
  · rintro ⟨q, hq, hspelled⟩
    obtain ⟨block, hblock, h⟩ := exists_mem_of_forall₂ hblocks hq
    exact ⟨block, hblock, (h.takingLine_mem_iff a).mpr hspelled⟩

/-- Each parameter is declared. -/
theorem HeaderLines.exists_declaringLine (h : HeaderLines lenient d name lines)
    (hp : p ∈ d.parameters) :
    ∃ type, p.type.constructor lenient = .ok type ∧ declaringLine p type ∈ lines := by
  obtain ⟨blocks, hblocks, rfl⟩ := h
  obtain ⟨block, hblock, type, htype, rfl⟩ := exists_mem_of_forall₂ hblocks hp
  exact ⟨type, htype, List.mem_cons_of_mem _
    (List.mem_flatten_of_mem hblock List.mem_cons_self)⟩

/-! ## Emitting -/

variable {context : Context} {s s' t : EmissionState} {m : EnclosingMethod} {position : Position}

/-- The lines for a parameter declare it and then take it. -/
theorem isBlock_of_parameterLines (h : parameterLines p context s = .ok lines s') :
    IsBlock context.config.isLenient p lines := by
  obtain ⟨type, _, htype, h⟩ := Emit.bind_eq_ok h
  cases h
  exact ⟨_, (Emit.typeConstructor_eq_ok htype).2, rfl⟩

/-- The text of METHOD is its first line, the lines for the parameters and those that set up an
instance. -/
theorem exists_of_methodAt {code : String} (h : methodAt position name context s = .ok code s') :
    ∃ m? t t₁ t₂ blocks setup,
      Emit.ask (fun v => v.enclosingMethod position) context s = .ok m? t ∧ t₁.slot = t.slot ∧
      (((m?.bind (·.definition)).map (·.parameters)).getD []).mapM parameterLines context t₁ =
        .ok blocks t₂ ∧
      setupLines m? position name context t₂ = .ok setup s' ∧
      code = "\n".intercalate (((if (m?.bind (·.definition)).any (·.isStatic) then "static "
        else "") ++ "async " ++ Identifier.method name.text ++ "(INPUT) \x7b") ::
          blocks.flatten ++ setup) := by
  obtain ⟨m?, t, hm, h⟩ := Emit.bind_eq_ok h
  dsimp only at h
  -- a warning comes first where the definition is missing
  split at h
  case' isTrue =>
    obtain ⟨_, _, hwarn, h⟩ := Emit.bind_eq_ok h
    cases hwarn
  all_goals
    obtain ⟨blocks, t₂, hblocks, h⟩ := Emit.bind_eq_ok h
    obtain ⟨setup, t₃, hsetup, h⟩ := Emit.bind_eq_ok h
    cases h
    refine ⟨m?, t, _, t₂, blocks, setup, hm, ?_, hblocks, hsetup, rfl⟩
    rfl

/-- The lines of METHOD where the method has a definition and is no constructor. -/
theorem headerLines_of_methodAt {code : String}
    (hm : Emit.ask (fun v => v.enclosingMethod position) context s = .ok (some m) t)
    (hd : m.definition = some d) (hconstructor : m.isConstructor = false)
    (h : methodAt position name context s = .ok code s') :
    ∃ lines, HeaderLines context.config.isLenient d name lines ∧ code = "\n".intercalate lines := by
  obtain ⟨m?, _, _, _, blocks, setup, hm', -, hblocks, hsetup, rfl⟩ := exists_of_methodAt h
  cases hm.symm.trans hm'
  rw [Option.bind_some, hd] at hblocks ⊢
  rw [setupLines, Option.any_some, hconstructor] at hsetup
  cases hsetup
  refine ⟨_, ⟨blocks, ?_, rfl⟩, by rw [List.append_nil]; rfl⟩
  exact (Emit.forall₂_of_mapM hblocks).imp fun _ _ ⟨_, _, h⟩ => isBlock_of_parameterLines h

/-- RETURN gives the result of the method around it, if there is one. -/
theorem returnAt_of_ask
    (hm : Emit.ask (fun v => v.enclosingMethod position) context s = .ok (some m) t) :
    returnAt position context s =
      .ok ((result? m).elim "return;" fun value => "return " ++ value ++ ";") t := by
  rw [returnAt, resultAt, bind_assoc, Emit.bind_of_ok hm, pure_bind, Option.bind_some]
  cases result? m <;> rfl

/-- The end of a method gives the same result. -/
theorem endMethodAt_of_ask
    (hm : Emit.ask (fun v => v.enclosingMethod position) context s = .ok (some m) t) :
    endMethodAt position context s =
      .ok ((result? m).elim "\x7d" fun value => "return " ++ value ++ ";\n\x7d") t := by
  rw [endMethodAt, resultAt, bind_assoc, Emit.bind_of_ok hm, pure_bind, Option.bind_some]
  cases result? m <;> rfl

end Flow

/-! ## The result -/

/-- METHOD, RETURN and ENDMETHOD of one method in one class agree on it. In a constructor RETURN and
ENDMETHOD hand back the instance, and nothing where the definition has no result or is missing.
Otherwise both hand back the result under the name that METHOD declares it by, if METHOD has code at
all; and METHOD takes it from what is passed iff a parameter that is not the result is spelled like
it, which none is if the parameters are spelled differently. -/
theorem Flow.results_agree {scope : ScopeId} {owner : Option (ScopeId × Scope)} {context : Context}
    {s₀ s₁ s₂ : EmissionState} {opening leaving closing : StatementNode} {name : Token}
    (hopening : opening.statement = .method name) (hleaving : leaving.statement = .returnHere)
    (hclosing : closing.statement = .endMethod)
    (hopen : LiesIn scope owner opening.span.start context s₀)
    (hleave : LiesIn scope owner leaving.span.start context s₁)
    (hclose : LiesIn scope owner closing.span.start context s₂) :
    ∃ (m : EnclosingMethod) (t₀ t₁ t₂ : EmissionState), m.scope = scope ∧
      Emit.ask (fun v => v.enclosingMethod opening.span.start) context s₀ = .ok (some m) t₀ ∧
      (m.isConstructor = true →
        leaving.emit context s₁ = .ok "return this;" t₁ ∧
        closing.emit context s₂ = .ok "return this;\n\x7d" t₂) ∧
      (m.isConstructor = false → m.returning? = none →
        leaving.emit context s₁ = .ok "return;" t₁ ∧ closing.emit context s₂ = .ok "\x7d" t₂) ∧
      ∀ d p, m.isConstructor = false → m.definition = some d → d.returning? = some p →
        let result := Identifier.plain p.name
        leaving.emit context s₁ = .ok ("return " ++ result ++ ";") t₁ ∧
        closing.emit context s₂ = .ok ("return " ++ result ++ ";\n\x7d") t₂ ∧
        ∀ code s', opening.emit context s₀ = .ok code s' → ∃ type lines,
          code = "\n".intercalate lines ∧ HeaderLines context.config.isLenient d name lines ∧
          p.type.constructor context.config.isLenient = .ok type ∧
          ("let " ++ result ++ " = " ++ type ++ ";") ∈ lines ∧
          (takingLine result ∈ lines ↔
            ∃ q ∈ d.parameters, q.direction ≠ .returning ∧ Identifier.plain q.name = result) ∧
          ((d.parameters.map fun q => Identifier.plain q.name).Nodup →
            takingLine result ∉ lines) := by
  -- the three positions are in one method, so one method is found from each of them
  obtain ⟨m, hscope, hm⟩ := hopen.exists_method
  obtain ⟨t₀, hm₀⟩ := hm hopen
  obtain ⟨t₁, hm₁⟩ := hm hleave
  obtain ⟨t₂, hm₂⟩ := hm hclose
  have hreturn : leaving.emit context s₁ = returnAt leaving.span.start context s₁ := by
    rw [StatementNode.emit, hleaving]
  have hend : closing.emit context s₂ = endMethodAt closing.span.start context s₂ := by
    rw [StatementNode.emit, hclosing]
  rw [returnAt_of_ask hm₁] at hreturn
  rw [endMethodAt_of_ask hm₂] at hend
  refine ⟨m, t₀, t₁, t₂, hscope, hm₀, fun hconstructor => ?_, fun hconstructor hnone => ?_, ?_⟩
  · rw [hreturn, hend, result?, hconstructor]
    exact ⟨rfl, rfl⟩
  · rw [hreturn, hend, result?, hconstructor, hnone]
    exact ⟨rfl, rfl⟩
  · intro d p hconstructor hd hp
    have hreturning : m.returning? = some p := by rw [EnclosingMethod.returning?, hd]; exact hp
    obtain ⟨hmem, hdirection⟩ := MethodDefinition.mem_of_returning? hp
    rw [hreturn, hend, result?, hconstructor, hreturning]
    refine ⟨rfl, rfl, fun code s' h => ?_⟩
    rw [StatementNode.emit, hopening] at h
    obtain ⟨lines, hlines, hcode⟩ := headerLines_of_methodAt hm₀ hd hconstructor h
    obtain ⟨type, htype, hdeclared⟩ := hlines.exists_declaringLine hmem
    refine ⟨type, lines, hcode, hlines, htype, hdeclared, hlines.takingLine_mem_iff _, ?_⟩
    intro hnodup htaken
    obtain ⟨q, hq, hpassed, hspelled⟩ := (hlines.takingLine_mem_iff _).mp htaken
    obtain rfl := List.inj_on_of_nodup_map hnodup hq hmem hspelled
    exact hpassed hdirection

namespace SourceUnit

/-- A class with a method that hands back what it is given. -/
def echoClass : ClassDefinition :=
  { name := "zcl_echo", isGlobal := true, file := "zcl_echo.clas.abap", implementing := []
    attributes := .none, aliases := [], superClass := none
    methods := [⟨"RUN", false, [⟨"IV", .importing, .integer none, false, false⟩,
      ⟨"RV", .returning, .integer none, false, false⟩]⟩] }

/-- The start of this method. -/
def echoOpening : StatementNode :=
  ⟨.method ⟨"run", ⟨2, 10⟩⟩, ⟨⟨2, 3⟩, ⟨2, 13⟩⟩, "METHOD run."⟩

/-- A return from it. -/
def echoLeaving : StatementNode := ⟨.returnHere, ⟨⟨3, 5⟩, ⟨3, 11⟩⟩, "RETURN."⟩

/-- Its end. -/
def echoClosing : StatementNode := ⟨.endMethod, ⟨⟨4, 3⟩, ⟨4, 12⟩⟩, "ENDMETHOD."⟩

/-- The implementation of this class. -/
def echoing : SourceUnit :=
  let opening : StatementNode :=
    ⟨.classImplementation ⟨"zcl_echo", ⟨1, 7⟩⟩, ⟨⟨1, 1⟩, ⟨1, 31⟩⟩, "CLASS zcl_echo IMPLEMENTATION."⟩
  let closing : StatementNode := ⟨.endBlock .classBlock, ⟨⟨5, 1⟩, ⟨5, 9⟩⟩, "ENDCLASS."⟩
  { file := "zcl_echo.clas.abap"
    object := ⟨.clas, "ZCL_ECHO"⟩
    root := ⟨.program, [.branch ⟨.classImplementation, [.leaf opening,
      .branch ⟨.method, [.leaf echoOpening, .leaf echoLeaving, .leaf echoClosing],
        ⟨⟨2, 3⟩, ⟨4, 12⟩⟩⟩, .leaf closing], ⟨⟨1, 1⟩, ⟨5, 9⟩⟩⟩], ⟨⟨1, 1⟩, ⟨5, 9⟩⟩⟩
    scopes := ⟨#[{ Scope.fresh .classImplementation "zcl_echo" "zcl_echo.clas.abap"
        ⟨⟨1, 1⟩, ⟨5, 10⟩⟩ none with children := [⟨1⟩] },
      .fresh .method "run" "zcl_echo.clas.abap" ⟨⟨2, 3⟩, ⟨4, 13⟩⟩ (some .root)]⟩ }

/-- This unit, in which the class is known. -/
def echoContext : Context := ⟨echoing.view (Registry.empty.addClass echoClass), .standard⟩

/-- The result is declared, not taken, and handed back. -/
theorem results_agree_echoing :
    ∃ code lines s₀ s₁ s₂, echoOpening.emit echoContext (.initial 0) = .ok code s₀ ∧
      code = "\n".intercalate lines ∧ "let rv = new abap.types.Integer();" ∈ lines ∧
      Flow.takingLine "rv" ∉ lines ∧
      echoLeaving.emit echoContext (.initial 0) = .ok "return rv;" s₁ ∧
      echoClosing.emit echoContext (.initial 0) = .ok "return rv;\n\x7d" s₂ := by
  -- all three statements stand in the same method
  have hlies : ∀ p ∈ [(⟨2, 3⟩ : Position), ⟨3, 5⟩, ⟨4, 3⟩],
      (∃ s', Emit.ask (fun v => v.enclosingMethod p) echoContext (.initial 0) =
        .ok (some ⟨⟨1⟩, "run", echoClass.methods.head?⟩) s') ∧
      LiesIn ⟨1⟩ (some (.root, echoing.scopes.scopes[0])) p echoContext (.initial 0) := by
    intro p hp
    simp only [List.mem_cons, List.not_mem_nil, or_false] at hp
    rcases hp with rfl | rfl | rfl <;>
      exact ⟨⟨_, rfl⟩, ⟨⟨⟨1⟩, "run", echoClass.methods.head?⟩, _, rfl, rfl⟩, _, rfl⟩
  obtain ⟨⟨_, hrun⟩, hopen⟩ := hlies echoOpening.span.start (by simp [echoOpening])
  obtain ⟨-, hleave⟩ := hlies echoLeaving.span.start (by simp [echoLeaving])
  obtain ⟨-, hclose⟩ := hlies echoClosing.span.start (by simp [echoClosing])
  obtain ⟨m, t₀, t₁, t₂, -, hm, -, -, hresult⟩ :=
    Flow.results_agree rfl rfl rfl hopen hleave hclose
  cases hrun.symm.trans hm
  obtain ⟨hreturn, hend, hheader⟩ := hresult _ _ (by decide +kernel) rfl rfl
  obtain ⟨code, s', hcode⟩ : ∃ code s', echoOpening.emit echoContext (.initial 0) = .ok code s' :=
    ⟨_, _, rfl⟩
  obtain ⟨type, lines, hlines, -, htype, hdeclared, -, htaken⟩ := hheader code s' hcode
  cases htype
  exact ⟨code, lines, s', t₁, t₂, hcode, hlines, hdeclared, htaken (by decide +kernel), hreturn,
    hend⟩

end SourceUnit

end AbapLowering
