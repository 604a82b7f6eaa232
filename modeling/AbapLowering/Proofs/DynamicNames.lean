import AbapLowering.Lowering
import AbapLowering.Proofs.Guards.Queue
import AbapLowering.Proofs.Literals

/-!
# Names given as literals

Classes, function modules, destinations and types may be named at run time, also by a literal. Where
the runtime looks the name up, the literal is the key between brackets; elsewhere it is handed over
as a text. A text is quoted, a key is not: it is spelled between quotation marks as it stands in the
source, in upper case and without blanks around it. So the key is the name iff no quotation mark and
no backslash is in it (`NamePlace.names_iff`), and just then CALL FUNCTION names one module with a
destination and without.
-/

namespace AbapLowering

open Script Text

variable {value key : String} {s t u : String}

/-! ## The same name -/

/-- Whether two texts are one name, but for blanks around it and for case. -/
inductive SameName : String → String → Prop
  | refl (s : String) : SameName s s
  | trim (s : String) : SameName (Text.trim s) s
  | upper (s : String) : SameName (Text.toUpper s) s
  | lower (s : String) : SameName (Text.toLower s) s
  | symm {s t : String} : SameName s t → SameName t s
  | trans {s t u : String} : SameName s t → SameName t u → SameName s u

/-- One name has as many backslashes as the other. -/
theorem SameName.count_backslash (h : SameName s t) :
    s.toList.count '\\' = t.toList.count '\\' := by
  induction h with
  | refl s => rfl
  | trim s => rw [Text.trim, String.toList_ofList, count_trimChars rfl]
  | upper s => exact count_toUpper (by decide) s
  | lower s => exact count_toLower (by decide) s
  | symm _ ih => exact ih.symm
  | trans _ _ ih ih' => exact ih.trans ih'

/-! ## Keys -/

/-- Whether some code is a literal that says `key`, or looks `key` up in a container. -/
def Keyed (container : Option String) (code key : String) : Prop :=
  ∃ literal, value? literal = some key ∧
    code = match container with
      | none => literal
      | some container => container ++ "[" ++ literal ++ "]"

/-- A place where a name in parentheses is emitted for what is called so at run time. -/
inductive NamePlace where
  /-- The class of a call. -/
  | classOfCall
  /-- The class of an object that is created in some field. -/
  | classToCreate (target : FieldChain)
  /-- A function module that is called without a destination. -/
  | functionModule
  /-- A function module that is called with a destination, and the destination. -/
  | remote
  /-- The type of data that is created. -/
  | dataType

namespace NamePlace

variable {place : NamePlace} {context : Context}

/-- What is emitted for a literal in such a place. -/
def emit (value : String) : NamePlace → Emit String
  | classOfCall => (Receiver.dynamic (.literal value)).emit
  | classToCreate target => Invocation.createdClass target (some (.dynamic (.literal value)))
  | functionModule => Invocation.functionAddress (.literal value)
  | remote => (DynamicName.literal value).emitText
  | dataType => DataObject.typeName (.literal value)

/-- Where the name is looked up, unless it is handed over as a text. -/
def container? : NamePlace → Option String
  | classOfCall | classToCreate _ => some "abap.Classes"
  | functionModule => some "abap.FunctionModules"
  | remote | dataType => none

/-- The key that is spelled for a literal. -/
def spelled (value : String) : String := Text.toUpper (Text.trim value)

/-- The code for a literal. -/
def code (value : String) (place : NamePlace) : String :=
  match place.container? with
  | none => Literal.quoted value
  | some container => container ++ "[" ++ ("'" ++ spelled value ++ "'") ++ "]"

/-- The guard that is queued for a literal. -/
def guard? (value : String) (place : NamePlace) : Option Guard :=
  match place with
  | classOfCall => some ⟨.classOfCall, place.code value⟩
  | classToCreate _ => some ⟨.classToCreate, place.code value⟩
  | functionModule | remote | dataType => none

/-- A literal name of a class is put in brackets as it stands. -/
theorem emitClass_eq (place : NamePlace) (hclass : place.container? = some "abap.Classes")
    (s : EmissionState) :
    (DynamicName.literal value).emitClass context s = .ok (place.code value) s := by
  have hcode : ClassKey.lookup (ClassKey.global (Text.trim value)) = place.code value := by
    rw [code, hclass]
    exact String.toList_inj.mp (by simp [ClassKey.lookup, ClassKey.global, spelled])
  rw [DynamicName.emitClass, hcode]
  rfl

/-- There is code for each literal, unless the exception class of its guard is missing. -/
theorem emit_eq (hallowed : ∀ g ∈ place.guard? value, g.Allowed context) (s : EmissionState) :
    ∃ s', place.emit value context s = .ok (place.code value) s' := by
  cases place with
  | classOfCall =>
    have hguard := Emit.requireTarget_of_allowed (hallowed _ rfl) s
    rw [emit, Receiver.emit, Emit.bind_of_ok (emitClass_eq classOfCall rfl s),
      Emit.bind_of_ok hguard]
    exact ⟨_, rfl⟩
  | classToCreate target =>
    have hguard := Emit.requireTarget_of_allowed (hallowed _ rfl) s
    rw [emit, Invocation.createdClass, Emit.bind_of_ok (emitClass_eq (classToCreate target) rfl s),
      Emit.bind_of_ok hguard]
    exact ⟨_, rfl⟩
  | functionModule =>
    have hcode : "abap.FunctionModules['" ++ Text.toUpper (Text.trim value) ++ "']" =
        functionModule.code value :=
      String.toList_inj.mp (by simp [spelled, code, container?])
    rw [emit, Invocation.functionAddress, hcode]
    exact ⟨s, rfl⟩
  | remote => exact ⟨s, rfl⟩
  | dataType => exact ⟨s, rfl⟩

/-! ### What a spelled key says -/

theorem count_spelled {x : Char} (hmark : IsMark x) (hblank : isBlank x = false) (value : String) :
    (spelled value).toList.count x = value.toList.count x := by
  rw [spelled, count_toUpper hmark, Text.trim, String.toList_ofList, count_trimChars hblank]

/-- Marks in a name are found in its spelling. -/
theorem mem_spelled_iff {x : Char} (hmark : IsMark x) (hblank : isBlank x = false) :
    x ∈ (spelled value).toList ↔ x ∈ value.toList := by
  rw [← List.count_pos_iff, count_spelled hmark hblank, List.count_pos_iff]

theorem isUnbroken_spelled (h : IsUnbroken value) : IsUnbroken (spelled value) := by
  intro c hc
  by_contra hbreak
  have hmark : IsMark c := by
    simp only [isBreak, Bool.not_eq_false, Bool.or_eq_true, beq_iff_eq] at hbreak
    rcases hbreak with rfl | rfl <;> decide
  exact hbreak (h.trim c (mem_of_mem_toUpper hmark hc))

/-- A name in quotes is read as it would be unescaped, if it stays within the quotes. -/
theorem value?_spelled (h : IsUnbroken value) :
    value? ("'" ++ spelled value ++ "'") =
      ((Mode.text .single).within? (spelled value).toList).bind fun _ =>
        (unescape? (spelled value).toList).map String.ofList := by
  rw [← value?_marked .single (isUnbroken_spelled h)]
  exact congrArg value? (String.toList_inj.mp (by simp [Quote.char]))

/-- Without quotation marks and backslashes the key says itself. -/
theorem value?_spelled_of_not_mem (h : IsUnbroken value) (hquote : '\x27' ∉ value.toList)
    (hslash : '\\' ∉ value.toList) :
    value? ("'" ++ spelled value ++ "'") = some (spelled value) := by
  rw [← mem_spelled_iff (by decide) rfl] at hquote hslash
  have hescape : Literal.escape '\x27' (spelled value).toList = (spelled value).toList := by
    refine (List.flatMap_congr fun c hc => if_neg ?_).trans (List.flatMap_singleton' _)
    rw [not_or]
    exact ⟨fun heq => hslash (heq ▸ hc), fun heq => hquote (heq ▸ hc)⟩
  have hwithin : (Mode.text .single).within? (Literal.escape '\x27' (spelled value).toList) =
      some (.text .single) := within?_escape (by decide) (isUnbroken_spelled h)
  rw [hescape] at hwithin
  rw [value?_spelled h, hwithin, unescape?_of_not_mem hslash, Option.bind_some, Option.map_some,
    String.ofList_toList]

/-- A quotation mark ends the literal, if no backslash stands before it. -/
theorem within?_of_mem_quote {cs : List Char} (hquote : '\x27' ∈ cs) (hslash : '\\' ∉ cs) :
    (Mode.text .single).within? cs = none := by
  induction cs with
  | nil => cases hquote
  | cons c rest ih =>
    rw [List.mem_cons, not_or] at hslash
    rw [Mode.within?, List.foldlM_cons, Mode.next?, modeInText, if_neg (Ne.symm hslash.1)]
    by_cases hc : c = Quote.single.char
    · rw [if_pos hc]
      rfl
    · rw [if_neg hc, if_neg (by decide)]
      split
      next => rfl
      next => exact ih ((List.mem_cons.mp hquote).resolve_left (Ne.symm hc)) hslash.2

theorem count_collapsed (value : String) :
    (Literal.collapsed '\x27' value).toList.count '\\' = value.toList.count '\\' := by
  rw [Literal.collapsed, String.toList_ofList]
  fun_induction collapseDoubled '\x27' value.toList with
  | case1 c d rest hdoubled ih =>
    obtain ⟨rfl, rfl⟩ := hdoubled
    simpa using ih
  | case2 c d rest hdoubled ih => rw [List.count_cons, ih, ← List.count_cons]
  | case3 => rfl

/-- With a quotation mark or a backslash the key says nothing, or another name. -/
theorem not_sameName_of_mem (h : IsUnbroken value)
    (hmem : '\x27' ∈ value.toList ∨ '\\' ∈ value.toList)
    (hkey : value? ("'" ++ spelled value ++ "'") = some key) :
    ¬ SameName key (Literal.collapsed '\x27' value) := by
  intro hsame
  rw [value?_spelled h] at hkey
  obtain ⟨m, hwithin, hkey⟩ := Option.bind_eq_some_iff.mp hkey
  obtain ⟨chars, hchars, rfl⟩ := Option.map_eq_some_iff.mp hkey
  by_cases hslash : '\\' ∈ value.toList
  · -- reading the key takes backslashes away, which the name keeps
    have hfewer := (count_unescape? hchars).2 ((mem_spelled_iff (by decide) rfl).mpr hslash)
    have hcount := hsame.count_backslash
    rw [String.toList_ofList, count_collapsed] at hcount
    rw [count_spelled (by decide) rfl] at hfewer
    omega
  · have hquote := hmem.resolve_right hslash
    rw [← mem_spelled_iff (by decide) rfl] at hquote hslash
    rw [within?_of_mem_quote hquote hslash] at hwithin
    cases hwithin

/-! ### Where keys are names -/

/-- A lookup in brackets finds what its literal says. -/
theorem keyed_container_iff {container literal : String} :
    Keyed (some container) (container ++ "[" ++ literal ++ "]") key ↔ value? literal = some key := by
  constructor
  · rintro ⟨literal', hvalue, heq⟩
    dsimp only at heq
    rw [String.append_left_inj, String.append_right_inj] at heq
    rwa [heq]
  · exact fun h => ⟨literal, h, rfl⟩

theorem keyed_text_iff {text : String} : Keyed none text key ↔ value? text = some key := by
  constructor
  · rintro ⟨literal, hvalue, rfl⟩
    exact hvalue
  · exact fun h => ⟨text, h, rfl⟩

/-- There is code for a literal wherever the exception class of its guard is not missing. It says the
name that the literal says, iff the literal is handed over as a text or holds neither a quotation
mark nor a backslash. So what is looked up is what a function module is called with a destination,
iff the same holds. -/
theorem names_iff (h : IsUnbroken value) (place : NamePlace) :
    (∀ context, (∀ g ∈ place.guard? value, g.Allowed context) → ∀ s,
      ∃ s', place.emit value context s = .ok (place.code value) s') ∧
    ((∃ key, Keyed place.container? (place.code value) key ∧
        SameName key (Literal.collapsed '\x27' value)) ↔
      place.container? = none ∨ ('\x27' ∉ value.toList ∧ '\\' ∉ value.toList)) ∧
    ((∃ key key', Keyed place.container? (place.code value) key ∧
        value? (remote.code value) = some key' ∧ SameName key key') ↔
      place.container? = none ∨ ('\x27' ∉ value.toList ∧ '\\' ∉ value.toList)) := by
  have htext : value? (remote.code value) = some (Literal.collapsed '\x27' value) :=
    Literal.value?_quoted h
  have hnames : (∃ key, Keyed place.container? (place.code value) key ∧
      SameName key (Literal.collapsed '\x27' value)) ↔
        place.container? = none ∨ ('\x27' ∉ value.toList ∧ '\\' ∉ value.toList) := by
    rw [code]
    -- a text is read back; a key is written as it is, and means the name if nothing in it is
    -- special
    cases place.container? with
    | none => exact iff_of_true ⟨_, keyed_text_iff.mpr (Literal.value?_quoted h), .refl _⟩ (.inl rfl)
    | some container =>
      simp only [keyed_container_iff, reduceCtorEq, false_or]
      constructor
      · rintro ⟨key, hkey, hsame⟩
        by_contra hmem
        rw [not_and_or, not_not, not_not] at hmem
        exact not_sameName_of_mem h hmem hkey hsame
      · rintro ⟨hquote, hslash⟩
        refine ⟨spelled value, value?_spelled_of_not_mem h hquote hslash, ?_⟩
        rw [Literal.collapsed_of_not_mem hquote]
        exact (SameName.upper _).trans (.trim _)
  refine ⟨fun context hallowed s => emit_eq hallowed s, hnames, ?_⟩
  simpa [htext] using hnames

end NamePlace

namespace SourceUnit

/-- A program that calls a function module without parameters. -/
def callingFunction (name : String) : SourceUnit :=
  let call : StatementNode := ⟨.callFunction (.literal name) none [] [] [] [] [],
    ⟨⟨1, 1⟩, ⟨1, 22⟩⟩, "CALL FUNCTION '" ++ name ++ "'."⟩
  { file := "zfoo.prog.abap"
    object := ⟨.prog, "ZFOO"⟩
    root := ⟨.program, [.leaf call], ⟨⟨1, 1⟩, ⟨1, 22⟩⟩⟩
    scopes := ⟨#[.fresh .program "zfoo" "zfoo.prog.abap" ⟨⟨1, 1⟩, ⟨9, 1⟩⟩ none]⟩ }

/-- The context that such a program is emitted in. -/
def callingContext : Context := ⟨(callingFunction "").view .empty, .standard⟩

/-- A name without marks is found at all places. -/
theorem names_callingFunction :
    IsUnbroken "zfoo" ∧
      (∃ s', NamePlace.classOfCall.emit "zfoo" callingContext (.initial 0) =
        .ok "abap.Classes['ZFOO']" s') ∧
      (∃ s', NamePlace.functionModule.emit "zfoo" callingContext (.initial 0) =
        .ok "abap.FunctionModules['ZFOO']" s') ∧
      ∃ key key', Keyed (some "abap.FunctionModules") "abap.FunctionModules['ZFOO']" key ∧
        value? "'zfoo'" = some key' ∧ SameName key key' := by
  have hunbroken : IsUnbroken "zfoo" := by simp [IsUnbroken, isBreak]
  obtain ⟨hclass, -⟩ := NamePlace.names_iff hunbroken .classOfCall
  obtain ⟨hmodule, -, hsame⟩ := NamePlace.names_iff hunbroken .functionModule
  refine ⟨hunbroken, hclass callingContext ?_ (.initial 0),
    hmodule callingContext (by simp [NamePlace.guard?]) (.initial 0), hsame.mpr (.inr (by decide))⟩
  -- without the check every guard is allowed
  exact fun _ _ hcheck => absurd hcheck (by decide)

/-- A quotation mark in the name of a function module ends the key early. -/
theorem lower_callingFunction :
    ((callingFunction "A''B").lower .standard .empty 0).1.toOption.map (·.code) =
        some "await abap.FunctionModules['A''B']();\n" ∧
      ¬ ∃ key, Keyed (some "abap.FunctionModules") "abap.FunctionModules['A''B']" key := by
  refine ⟨by decide +kernel, ?_⟩
  rintro ⟨key, hkeyed⟩
  have hvalue : value? "'A''B'" = some key := NamePlace.keyed_container_iff.mp hkeyed
  rw [show value? "'A''B'" = none by decide] at hvalue
  cases hvalue

end SourceUnit

end AbapLowering
