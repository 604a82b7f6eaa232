import AbapLowering.Lowering
import AbapLowering.Proofs.Emission.Outcome

/-!
# The data that ASSIGN assigns

A chain that ends with a dereference is read in one way by ASSIGN and in another by every other
statement, although both mean the data behind the reference.

- `FieldChain.parts`: what both are put together from, in the same order and with the same effects;
- `DiffersInParentheses`: two texts are the same but for parentheses before a dereference;
- `DataObject.assign_dereference`: ASSIGN of such a chain fails where reading it does, and the texts
  differ in parentheses alone iff no part of the data is picked. Where a part is, by offset or length,
  ASSIGN picks it from the reference, and follows the reference afterwards.
-/

namespace AbapLowering

/-! ## What is read of a chain -/

namespace FieldChain

/-- The path of a chain up to its last step, and the options that pick a part of its data. -/
def parts (chain : FieldChain) : Emit (String × List String) := do
  let front ← Operand.path (← chain.head.emit) chain.segments.dropLast
  let first ← emitOffset chain.offset
  let second ← emitLength chain.length
  return (front, first ++ second)

/-- Whether all of the data is meant, and not a part. -/
def IsWhole (chain : FieldChain) : Prop :=
  chain.offset = none ∧ (chain.length = none ∨ chain.length = some .rest)

end FieldChain

namespace Operand

/-- The last step of a path is written at its end. -/
theorem path_dereference (head : Head) (segments : List ChainSegment) :
    path head (segments ++ [.dereference]) =
      path head segments >>= fun front => return front ++ ".getPointer()" := by
  simp only [path, List.mapM_append, List.mapM_cons, List.mapM_nil, segment, bind_assoc, pure_bind,
    String.join_append, String.append_assoc]
  rfl

end Operand

namespace FieldChain

variable {chain : FieldChain}

/-- Reading follows the reference first, and then picks a part. -/
theorem emit_read_of_endsWithDereference (h : chain.endsWithDereference = true) :
    chain.emit .read = do
      let (front, options) ← chain.parts
      return Operand.substring .read (front ++ ".getPointer()") options := by
  obtain ⟨head, segments, offset, length⟩ := chain
  obtain ⟨before, rfl⟩ : ∃ before, segments = before ++ [.dereference] :=
    ⟨_, (List.dropLast_append_getLast? _ (beq_iff_eq.mp h)).symm⟩
  simp only [FieldChain.emit, parts, List.dropLast_concat, Operand.path_dereference, bind_assoc,
    pure_bind]

/-- ASSIGN picks a part first, and then follows the reference. -/
theorem assigned_of_endsWithDereference (h : chain.endsWithDereference = true) :
    DataObject.assigned (.field chain) = do
      let (front, options) ← chain.parts
      return "(" ++ Operand.substring .read front options ++ ").getPointer()" := by
  rw [DataObject.assigned, if_pos h, FieldChain.emit, parts]
  simp only [bind_assoc, pure_bind]

theorem eq_nil_iff_of_emitOffset {offset : Option Offset} {context : Context}
    {s s' : EmissionState} {options : List String}
    (h : emitOffset offset context s = .ok options s') : options = [] ↔ offset = none := by
  rcases offset with _ | value | inner
  · cases h
    simp
  · cases h
    simp
  · rw [emitOffset] at h
    obtain ⟨text, t, -, h⟩ := Emit.bind_eq_ok h
    cases h
    simp

theorem eq_nil_iff_of_emitLength {length : Option Length} {context : Context}
    {s s' : EmissionState} {options : List String}
    (h : emitLength length context s = .ok options s') :
    options = [] ↔ length = none ∨ length = some .rest := by
  rcases length with _ | value | inner | _
  · cases h
    simp
  · cases h
    simp
  · rw [emitLength] at h
    obtain ⟨text, t, -, h⟩ := Emit.bind_eq_ok h
    cases h
    simp
  · cases h
    simp

/-- There are options iff a part of the data is picked. -/
theorem eq_nil_iff_of_parts {context : Context} {s s' : EmissionState} {front : String}
    {options : List String} (h : chain.parts context s = .ok (front, options) s') :
    options = [] ↔ chain.IsWhole := by
  obtain ⟨head, s₁, -, h⟩ := Emit.bind_eq_ok h
  obtain ⟨path, s₂, -, h⟩ := Emit.bind_eq_ok h
  obtain ⟨first, s₃, hfirst, h⟩ := Emit.bind_eq_ok h
  obtain ⟨second, s₄, hsecond, h⟩ := Emit.bind_eq_ok h
  cases h
  rw [List.append_eq_nil_iff, eq_nil_iff_of_emitOffset hfirst, eq_nil_iff_of_emitLength hsecond,
    IsWhole]

end FieldChain

/-! ## Parentheses -/

/-- Two texts that are the same, but for parentheses in the second around what stands before a
dereference. -/
def DiffersInParentheses (general special : String) : Prop :=
  ∃ front back, general = front ++ ".getPointer()" ++ back ∧
    special = "(" ++ front ++ ").getPointer()" ++ back

namespace Operand

/-- A dereference that follows the options is not the dereference before them. -/
theorem differsInParentheses_iff (front : String) (options : List String) :
    DiffersInParentheses (substring .read (front ++ ".getPointer()") options)
      ("(" ++ substring .read front options ++ ").getPointer()") ↔ options = [] := by
  constructor
  · rintro ⟨before, back, hgeneral, hspecial⟩
    by_contra hne
    have hempty : options.isEmpty = false := by simpa using hne
    simp only [substring, hempty, Bool.false_eq_true, if_false] at hgeneral hspecial
    -- both texts would end in the dereference and what follows it, but one of them ends in the
    -- parentheses of a call and the other in a brace before the last of these
    have hends : (".getPointer()" ++ back).toList <:+
        (front ++ ".getPointer()" ++ ".getOffset(" ++ braced ", " options ++ ")").toList :=
      ⟨before.toList, by simp [hgeneral]⟩
    have hends' : (".getPointer()" ++ back).toList <:+
        ("(" ++ (front ++ ".getOffset(" ++ braced ", " options ++ ")") ++ ").getPointer()").toList :=
      ⟨("(" ++ before ++ ")").toList, by simp [hspecial]⟩
    have hbrace : "\x7d)".toList <:+ (".getPointer()" ++ back).toList := by
      refine List.suffix_of_suffix_length_le ⟨?_, ?_⟩ hends (by simp)
      · exact (front ++ ".getPointer()" ++ ".getOffset(\x7b" ++ ", ".intercalate options).toList
      · simp [braced]
    have hcall : "()".toList <:+ (".getPointer()" ++ back).toList := by
      refine List.suffix_of_suffix_length_le ⟨?_, ?_⟩ hends' (by simp)
      · exact ("(" ++ (front ++ ".getOffset(" ++ braced ", " options ++ ")") ++
          ").getPointer").toList
      · simp
    exact absurd ((List.suffix_of_suffix_length_le hbrace hcall (Nat.le_refl _)).eq_of_length rfl)
      (by decide)
  · rintro rfl
    exact ⟨front, "", by simp [substring], by simp [substring]⟩

end Operand

namespace DataObject

/-- ASSIGN of a chain that ends with a dereference fails where reading the chain fails, and has the
same effects. Reading gives the path, the last dereference and the options that pick a part of the
data; ASSIGN has the options between the path and the dereference. So the two differ in parentheses
alone iff all of the data is meant. -/
theorem assign_dereference {chain target : FieldChain} {context : Context} {s s₁ : EmissionState}
    {written : String} (hchain : chain.endsWithDereference = true)
    (htarget : target.emitTarget context s = .ok written s₁) (casting : Bool) :
    (∀ why s₂, assign (.field chain) target casting context s = .error why s₂ ↔
      chain.emit .read context s₁ = .error why s₂) ∧
    ∀ general s₂, chain.emit .read context s₁ = .ok general s₂ → ∃ front options,
      let special := "(" ++ Operand.substring .read front options ++ ").getPointer()"
      chain.parts context s₁ = .ok (front, options) s₂ ∧
      general = Operand.substring .read (front ++ ".getPointer()") options ∧
      assign (.field chain) target casting context s =
        .ok (runtimeCall "assign" (braced ", "
          (["target: " ++ written, "source: " ++ special] ++ partIf casting "casting: true"))) s₂ ∧
      (DiffersInParentheses general special ↔ chain.IsWhole) := by
  rw [assign, Emit.bind_of_ok htarget, FieldChain.assigned_of_endsWithDereference hchain,
    FieldChain.emit_read_of_endsWithDereference hchain, bind_assoc, Emit.bind_apply,
    Emit.bind_apply]
  -- both forms start with the same parts, and fail together
  cases hparts : chain.parts context s₁ with
  | error why s₂ => exact ⟨fun _ _ => Iff.rfl, nofun⟩
  | ok parts s₂ =>
    obtain ⟨front, options⟩ := parts
    refine ⟨fun _ _ => ⟨nofun, nofun⟩, ?_⟩
    rintro general _ ⟨⟩
    refine ⟨front, options, rfl, rfl, rfl, ?_⟩
    rw [Operand.differsInParentheses_iff, FieldChain.eq_nil_iff_of_parts hparts]

end DataObject

namespace SourceUnit

/-- The field symbol that is assigned to. -/
def assignedSymbol : FieldChain := .ofFieldSymbol ⟨"<fs>", ⟨1, 30⟩⟩

/-- The data behind a reference, or a part of it. -/
def behindReference (offset : Option Offset) (length : Option Length) : FieldChain :=
  ⟨.field ⟨"lr_data", ⟨1, 8⟩⟩, [.dereference], offset, length⟩

/-- A program that assigns such data to a field symbol. -/
def assigning (offset : Option Offset) (length : Option Length) (written : String) : SourceUnit :=
  let assign : StatementNode :=
    ⟨.assign (.field (behindReference offset length)) assignedSymbol false,
      ⟨⟨1, 1⟩, ⟨1, 34⟩⟩, "ASSIGN " ++ written ++ " TO <fs>."⟩
  { file := "zfoo.prog.abap"
    object := ⟨.prog, "ZFOO"⟩
    root := ⟨.program, [.leaf assign], ⟨⟨1, 1⟩, ⟨1, 34⟩⟩⟩
    scopes := ⟨#[.fresh .program "zfoo" "zfoo.prog.abap" ⟨⟨1, 1⟩, ⟨9, 1⟩⟩ none]⟩ }

/-- The length that reaches up to the end picks no part. -/
theorem assign_behindReference_rest :
    let chain := behindReference none (some .rest)
    let context : Context := ⟨(assigning none (some .rest) "lr_data->*(*)").view .empty, .standard⟩
    ∃ general special s', chain.emit .read context (.initial 0) = .ok general s' ∧
      DataObject.assign (.field chain) assignedSymbol false context (.initial 0) =
        .ok (runtimeCall "assign" (braced ", " ["target: fs_fs_", "source: " ++ special])) s' ∧
      DiffersInParentheses general special := by
  intro chain context
  obtain ⟨general, s', hgeneral⟩ : ∃ general s', chain.emit .read context (.initial 0) =
    .ok general s' := ⟨_, _, rfl⟩
  have htarget : assignedSymbol.emitTarget context (.initial 0) = .ok "fs_fs_" (.initial 0) := rfl
  have hchain : chain.endsWithDereference = true := rfl
  obtain ⟨-, hassign⟩ := DataObject.assign_dereference hchain htarget false
  obtain ⟨front, options, -, -, hcode, hdiffers⟩ := hassign general s' hgeneral
  exact ⟨general, _, s', hgeneral, hcode, hdiffers.mpr ⟨rfl, .inr rfl⟩⟩

/-- A part of the data is picked from the reference, which is then followed. -/
theorem lower_assigningPart :
    let chain := behindReference (some (.literal 1)) (some (.literal 2))
    let program := assigning (some (.literal 1)) (some (.literal 2)) "lr_data->*+1(2)"
    let general := "lr_data.getPointer().getOffset(\x7boffset: 1, length: 2\x7d)"
    let special := "(lr_data.getOffset(\x7boffset: 1, length: 2\x7d)).getPointer()"
    ((program.lower .standard .empty 0).1.toOption.map (·.code) =
      some ("abap.statements.assign(\x7btarget: fs_fs_, source: " ++ special ++ "\x7d);\n")) ∧
    (∃ s', chain.emit .read ⟨program.view .empty, .standard⟩ (.initial 0) = .ok general s') ∧
    ¬ DiffersInParentheses general special := by
  refine ⟨by decide +kernel, ⟨_, rfl⟩, fun hdiffers => ?_⟩
  exact List.cons_ne_nil _ _
    ((Operand.differsInParentheses_iff "lr_data" ["offset: 1", "length: 2"]).mp hdiffers)

end SourceUnit

end AbapLowering
