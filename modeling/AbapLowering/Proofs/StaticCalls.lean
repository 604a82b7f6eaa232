import AbapLowering.Lowering
import AbapLowering.Proofs.MethodResults

/-!
# What methods are called on

A static method is a member of the class object, so it has to be called on that. Which object a call
is made on follows from the text before the name of the method, and for `this` and `super` from
whether the function around it is static.

- `StandsFor`: the object that such a text stands for;
- `MethodCall.holder_of_emit`: a call is made on what its receiver says. METHOD looks at the
  definition to tell whether the function is static, a call does not; so a static method is called on
  a class object iff the receiver is a class, or it is the method around the call that is static and
  the receiver is that method's own object.
-/

namespace AbapLowering

/-! ## Objects that methods are called on -/

/-- What a method is a member of. -/
inductive Holder where
  | classObject
  | object
  deriving DecidableEq

/-- What the text before the name of a method stands for, in a function whose own object is `self`:
the object of the function, a class by its address, or the value of a reference. -/
def StandsFor (self : Option Holder) (base : String) (holder : Holder) : Prop :=
  ((base = "this" ∨ base = "super") ∧ self = some holder) ∨
    ((∃ key, base = "abap.Classes[" ++ key ++ "]") ∧ holder = .classObject) ∨
    (∃ reference, base = reference ++ ".get()") ∧ holder = .object

namespace StandsFor

variable {self : Option Holder} {base : String} {holder : Holder}

/-- The address of a class ends with a bracket. -/
theorem getLast?_address (key : String) :
    ("abap.Classes[" ++ key ++ "]").toList.getLast? = some ']' := by
  rw [String.toList_append, List.getLast?_append]
  rfl

theorem getLast?_value (reference : String) :
    (reference ++ ".get()").toList.getLast? = some ')' := by
  rw [String.toList_append, List.getLast?_append]
  rfl

/-- The current instance stands for what is current. -/
theorem self_iff (h : base = "this" ∨ base = "super") :
    StandsFor self base holder ↔ self = some holder := by
  have hlast : base.toList.getLast? ≠ some ']' ∧ base.toList.getLast? ≠ some ')' := by
    rcases h with rfl | rfl <;> decide
  constructor
  · rintro (⟨-, hself⟩ | ⟨⟨key, rfl⟩, -⟩ | ⟨⟨reference, rfl⟩, -⟩)
    · exact hself
    · exact absurd (getLast?_address key) hlast.1
    · exact absurd (getLast?_value reference) hlast.2
  · exact fun hself => .inl ⟨h, hself⟩

/-- The address of a class stands for the class. -/
theorem address_iff (key : String) :
    StandsFor self ("abap.Classes[" ++ key ++ "]") holder ↔ holder = .classObject := by
  have hlast := getLast?_address key
  constructor
  · rintro (⟨h | h, -⟩ | ⟨-, hholder⟩ | ⟨⟨reference, h⟩, -⟩)
    · rw [h] at hlast
      cases hlast
    · rw [h] at hlast
      cases hlast
    · exact hholder
    · rw [h, getLast?_value] at hlast
      cases hlast
  · exact fun hholder => .inr (.inl ⟨⟨key, rfl⟩, hholder⟩)

/-- The value of a reference stands for an object. -/
theorem value_iff (reference : String) :
    StandsFor self (reference ++ ".get()") holder ↔ holder = .object := by
  have hlast := getLast?_value reference
  constructor
  · rintro (⟨h | h, -⟩ | ⟨⟨key, h⟩, -⟩ | ⟨-, hholder⟩)
    · rw [h] at hlast
      cases hlast
    · rw [h] at hlast
      cases hlast
    · rw [h, getLast?_address] at hlast
      cases hlast
    · exact hholder
  · exact fun hholder => .inr (.inr ⟨⟨reference, rfl⟩, hholder⟩)

end StandsFor

/-! ## Receivers -/

variable {context : Context} {s s' : EmissionState} {base code : String} {name : Token}

namespace Receiver

/-- What a receiver means in a function whose own object is `self`. -/
def holder (self : Option Holder) : Receiver → Option Holder
  | .implicit | .super => self
  | .object _ => some .object
  | .static _ | .dynamic _ => some .classObject

/-- Whether a receiver is a class, by its name or by one that is known at run time. -/
def namesClass : Receiver → Bool
  | .static _ | .dynamic _ => true
  | _ => false

/-- Whether a receiver is the own object of the function around the call. -/
def isOwn : Receiver → Bool
  | .implicit | .super => true
  | _ => false

theorem holder_eq_classObject_iff {receiver : Receiver} {self : Holder} :
    receiver.holder (some self) = some .classObject ↔
      receiver.namesClass = true ∨ receiver.isOwn = true ∧ self = .classObject := by
  cases receiver <;> simp [holder, namesClass, isOwn]

/-- Every class is addressed by its key. -/
theorem exists_of_classAddress {className address : String} {p : Position}
    (h : Emit.classAddress className p context s = .ok address s') :
    ∃ key, address = "abap.Classes[" ++ key ++ "]" := by
  obtain ⟨found, -, hwalk⟩ := (Emit.ask_around_iff (View.classAddress_eq className p)).mp h
  obtain ⟨d, -, h⟩ := ScopeGraph.bind_eq_ok_iff.mp hwalk
  cases h
  exact ⟨"'" ++ context.view.keyOf className d ++ "'",
    String.toList_inj.mp (by simp [ClassKey.lookup])⟩

/-- Also a class that is named at run time. -/
theorem exists_of_emitClass {name : DynamicName}
    (h : name.emitClass context s = .ok base s') : ∃ key, base = "abap.Classes[" ++ key ++ "]" := by
  cases name with
  | literal value =>
    cases h
    exact ⟨"'" ++ ClassKey.global (Text.trim value) ++ "'",
      String.toList_inj.mp (by simp [ClassKey.lookup])⟩
  | field chain =>
    rw [DynamicName.emitClass] at h
    obtain ⟨text, t, -, h⟩ := Emit.bind_eq_ok h
    cases h
    exact ⟨text ++ ".get()", String.toList_inj.mp (by simp)⟩

/-- The text of a receiver stands for what the receiver means. -/
theorem standsFor_iff {receiver : Receiver} (h : receiver.emit context s = .ok base s')
    (self : Option Holder) (h' : Holder) :
    StandsFor self base h' ↔ receiver.holder self = some h' := by
  -- of the texts emitted, the address of a class and a value are told apart by their ends
  cases receiver with
  | implicit =>
    cases h
    exact StandsFor.self_iff (.inl rfl)
  | super =>
    cases h
    exact StandsFor.self_iff (.inr rfl)
  | object chain =>
    rw [Receiver.emit] at h
    obtain ⟨text, t, -, h⟩ := Emit.bind_eq_ok h
    cases h
    rw [StandsFor.value_iff, holder, Option.some_inj, eq_comm]
  | static className =>
    rw [Receiver.emit] at h
    obtain ⟨key, rfl⟩ := exists_of_classAddress h
    rw [StandsFor.address_iff, holder, Option.some_inj, eq_comm]
  | dynamic name =>
    rw [Receiver.emit] at h
    obtain ⟨address, t, haddress, h⟩ := Emit.bind_eq_ok h
    obtain ⟨_, t', -, h⟩ := Emit.bind_eq_ok h
    cases h
    obtain ⟨key, rfl⟩ := exists_of_emitClass haddress
    rw [StandsFor.address_iff, holder, Option.some_inj, eq_comm]

end Receiver

/-! ## Calls -/

/-- The method of a call is the one that its reference is bound to, under the name it has there, or
else the one of the name as written. -/
theorem Operand.exists_of_namedMethod {method : String} {callee : Callee}
    (h : namedMethod base name context s = .ok (method, callee) s') :
    ∃ reference?, Emit.ask (fun v => v.methodReference? name) context s = .ok reference? s' ∧
      method = base ++ "." ++ reference?.elim (Identifier.plain name.text) (·.name) := by
  rw [namedMethod] at h
  obtain ⟨reference?, t, href, h⟩ := Emit.bind_eq_ok h
  cases reference? with
  | none =>
    cases h
    exact ⟨none, href, rfl⟩
  | some reference =>
    cases h
    exact ⟨some reference, href, rfl⟩

/-- What a call is made of. -/
theorem MethodCall.exists_of_emit {receiver : Receiver} {parameters : CallParameters}
    (h : MethodCall.emit ⟨receiver, .named name, parameters⟩ context s = .ok code s') :
    ∃ base s₁ member arguments, receiver.emit context s = .ok base s₁ ∧
      code = "await " ++ base ++ "." ++ member ++ "(" ++ arguments ++ ")" ∧
      ((receiver = .super ∧ Operand.isConstructorName name = true ∧ member = "constructor_") ∨
        ∃ reference? s₂,
          Emit.ask (fun v => v.methodReference? name) context s₁ = .ok reference? s₂ ∧
          member = reference?.elim (Identifier.plain name.text) (·.name)) := by
  -- `super` has an equation of its own, since constructors are called by another name
  by_cases hsuper : receiver = .super
  · subst hsuper
    rw [MethodCall.emit] at h
    split at h
    next hconstructor =>
      obtain ⟨given, t, -, h⟩ := Emit.bind_eq_ok h
      cases h
      exact ⟨"super", s, "constructor_", if given.isEmpty then "INPUT" else given, rfl,
        String.toList_inj.mp (by simp), .inl ⟨rfl, hconstructor, rfl⟩⟩
    next =>
      obtain ⟨⟨method, callee⟩, t, hmethod, h⟩ := Emit.bind_eq_ok h
      obtain ⟨given, t', -, h⟩ := Emit.bind_eq_ok h
      cases h
      obtain ⟨reference?, hreference, rfl⟩ := Operand.exists_of_namedMethod hmethod
      exact ⟨"super", s, _, given, rfl, String.toList_inj.mp (by simp),
        .inr ⟨_, _, hreference, rfl⟩⟩
  · rw [MethodCall.emit] at h
    · obtain ⟨base, s₁, hbase, h⟩ := Emit.bind_eq_ok h
      obtain ⟨⟨method, callee⟩, t, hmethod, h⟩ := Emit.bind_eq_ok h
      obtain ⟨given, t', -, h⟩ := Emit.bind_eq_ok h
      cases h
      rw [MethodRef.emit] at hmethod
      obtain ⟨reference?, hreference, rfl⟩ := Operand.exists_of_namedMethod hmethod
      exact ⟨base, s₁, _, given, hbase, String.toList_inj.mp (by simp),
        .inr ⟨_, _, hreference, rfl⟩⟩
    · exact fun _ h => absurd h hsuper

/-! ## Functions -/

/-- The own object of a function with that header. -/
def Holder.ofHeader (header : String) : Holder :=
  if "static ".toList.isPrefixOf header.toList then .classObject else .object

theorem Holder.ofHeader_append (isStatic : Bool) (text : String) :
    ofHeader ((if isStatic then "static " else "") ++ "async " ++ text) =
      if isStatic then .classObject else .object := by
  cases isStatic <;> simp [ofHeader]

/-- A list of words begins with its first one. -/
theorem exists_intercalate_cons (separator first : String) (rest : List String) :
    ∃ tail, separator.intercalate (first :: rest) = first ++ tail := by
  cases rest with
  | nil => exact ⟨"", by simp⟩
  | cons next others =>
    rw [String.intercalate_cons_cons, String.append_assoc]
    exact ⟨_, rfl⟩

/-- Whether the definition of a method is found and is static. -/
def EnclosingMethod.isStatic (m : EnclosingMethod) : Bool := m.definition.any (·.isStatic)

/-- METHOD gives a static function iff the method that it stands in is static. -/
theorem Flow.ofHeader_methodAt {position : Position} {header : String}
    (h : methodAt position name context s = .ok header s') :
    ∃ m t, Emit.ask (fun v => v.enclosingMethod position) context s = .ok m t ∧
      Holder.ofHeader header = if m.any (·.isStatic) then .classObject else .object := by
  obtain ⟨m, t, _, _, blocks, setup, hm, -, -, -, rfl⟩ := exists_of_methodAt h
  refine ⟨m, t, hm, ?_⟩
  have hstatic : (m.bind (·.definition)).any (·.isStatic) = m.any (·.isStatic) := by
    cases m <;> rfl
  -- what follows the first line does not matter
  obtain ⟨tail, htail⟩ := exists_intercalate_cons "\n"
    ((if m.any (·.isStatic) then "static " else "") ++ "async " ++ Identifier.method name.text
      ++ "(INPUT) \x7b") (blocks.flatten ++ setup)
  rw [hstatic, List.cons_append, htail, String.append_assoc, String.append_assoc,
    Holder.ofHeader_append]

/-! ## The result -/

/-- A call of a named method is a call of the member that its reference is bound to, made on what the
receiver stands for: on the own object of the function around it, on the value of a reference or on a
class. In the function that METHOD gives this is a class object iff the receiver is a class, or the
receiver is the own object and the method of the function is static. Whether the method that is called
is static does not matter. -/
theorem MethodCall.holder_of_emit {receiver : Receiver} {parameters : CallParameters}
    (h : MethodCall.emit ⟨receiver, .named name, parameters⟩ context s = .ok code s') :
    ∃ base s₁ member arguments,
      receiver.emit context s = .ok base s₁ ∧
      code = "await " ++ base ++ "." ++ member ++ "(" ++ arguments ++ ")" ∧
      (∀ reference s₂,
        Emit.ask (fun v => v.methodReference? name) context s₁ = .ok (some reference) s₂ →
          member = reference.name ∨ receiver = .super ∧ Operand.isConstructorName name = true) ∧
      (∀ self holder, StandsFor self base holder ↔ receiver.holder self = some holder) ∧
      ∀ (opening : StatementNode) (methodName : Token) (header : String) (t t' : EmissionState),
        opening.statement = .method methodName → opening.emit context t = .ok header t' →
        ∃ m u, Emit.ask (fun v => v.enclosingMethod opening.span.start) context t = .ok m u ∧
          (StandsFor (some (.ofHeader header)) base .classObject ↔
            receiver.namesClass = true ∨ receiver.isOwn = true ∧ m.any (·.isStatic) = true) := by
  obtain ⟨base, s₁, member, arguments, hbase, hcode, hmember⟩ := MethodCall.exists_of_emit h
  have hholder := fun self holder => Receiver.standsFor_iff hbase self holder
  refine ⟨base, s₁, member, arguments, hbase, hcode, ?_, hholder, ?_⟩
  · intro reference s₂ hreference
    rcases hmember with ⟨hsuper, hconstructor, -⟩ | ⟨reference?, s₂', hreference', rfl⟩
    · exact .inr ⟨hsuper, hconstructor⟩
    · cases hreference.symm.trans hreference'
      exact .inl rfl
  -- a call without a class goes to the holder of the method it stands in
  · intro opening methodName header t t' hopening hheader
    rw [StatementNode.emit, hopening] at hheader
    obtain ⟨m, u, hm, hself⟩ := Flow.ofHeader_methodAt hheader
    refine ⟨m, u, hm, ?_⟩
    rw [hholder, Receiver.holder_eq_classObject_iff, hself]
    cases m.any (·.isStatic) <;> simp

namespace SourceUnit

/-- A static method that creates something, and a method of the instance. -/
def creatorMethods : List MethodDefinition := [⟨"CREATE", true, []⟩, ⟨"RUN", false, []⟩]

/-- The class of these methods. -/
def creatorClass : ClassDefinition :=
  { name := "zcl_bar", isGlobal := true, file := "zcl_bar.clas.abap", implementing := []
    attributes := .none, aliases := [], methods := creatorMethods, superClass := none }

/-- The start of the static method. -/
def creatorDeclaring : StatementNode :=
  ⟨.method ⟨"create", ⟨2, 10⟩⟩, ⟨⟨2, 3⟩, ⟨2, 17⟩⟩, "METHOD create."⟩

/-- The start of the method of the instance. -/
def creatorOpening : StatementNode :=
  ⟨.method ⟨"run", ⟨4, 10⟩⟩, ⟨⟨4, 3⟩, ⟨4, 14⟩⟩, "METHOD run."⟩

/-- A call of the static method, with the name of the class before it or without. -/
def creatorCalling : Bool → StatementNode
  | true => ⟨.call ⟨.static ⟨"zcl_bar", ⟨5, 5⟩⟩, .named ⟨"create", ⟨5, 14⟩⟩, .none⟩,
      ⟨⟨5, 5⟩, ⟨5, 23⟩⟩, "zcl_bar=>create( )."⟩
  | false => ⟨.call ⟨.implicit, .named ⟨"create", ⟨5, 5⟩⟩, .none⟩,
      ⟨⟨5, 5⟩, ⟨5, 14⟩⟩, "create( )."⟩

/-- The implementation of the class, in which the method of the instance makes the call. -/
def creating (qualified : Bool) : SourceUnit :=
  let opening : StatementNode :=
    ⟨.classImplementation ⟨"zcl_bar", ⟨1, 7⟩⟩, ⟨⟨1, 1⟩, ⟨1, 30⟩⟩, "CLASS zcl_bar IMPLEMENTATION."⟩
  let ending (row : UInt32) : StatementNode :=
    ⟨.endMethod, ⟨⟨row, 3⟩, ⟨row, 13⟩⟩, "ENDMETHOD."⟩
  let closing : StatementNode := ⟨.endBlock .classBlock, ⟨⟨7, 1⟩, ⟨7, 10⟩⟩, "ENDCLASS."⟩
  { file := "zcl_bar.clas.abap"
    object := ⟨.clas, "ZCL_BAR"⟩
    root := ⟨.program, [.branch ⟨.classImplementation, [.leaf opening,
        .branch ⟨.method, [.leaf creatorDeclaring, .leaf (ending 3)], ⟨⟨2, 3⟩, ⟨3, 13⟩⟩⟩,
        .branch ⟨.method, [.leaf creatorOpening, .leaf (creatorCalling qualified),
          .leaf (ending 6)], ⟨⟨4, 3⟩, ⟨6, 13⟩⟩⟩,
        .leaf closing], ⟨⟨1, 1⟩, ⟨7, 10⟩⟩⟩], ⟨⟨1, 1⟩, ⟨7, 10⟩⟩⟩
    scopes := ⟨#[{ Scope.fresh .classImplementation "zcl_bar" "zcl_bar.clas.abap"
        ⟨⟨1, 1⟩, ⟨7, 10⟩⟩ none with children := [⟨1⟩, ⟨2⟩] },
      .fresh .method "create" "zcl_bar.clas.abap" ⟨⟨2, 3⟩, ⟨3, 13⟩⟩ (some .root),
      { Scope.fresh .method "run" "zcl_bar.clas.abap" ⟨⟨4, 3⟩, ⟨6, 13⟩⟩ (some .root) with
        references := [⟨.methodCall, ⟨5, if qualified then 14 else 5⟩,
          creatorMethods.head?.map fun m => .method m (some "zcl_bar") (some .classOwner)⟩] }]⟩ }

/-- This unit, in which the class is known. -/
def creatorContext (qualified : Bool) : Context :=
  ⟨(creating qualified).view (Registry.empty.addClass creatorClass), .standard⟩

/-- With the name of the class before it the method is called on the class. -/
theorem holder_of_emit_creating :
    ∃ base s₁ s' header t',
      (creatorCalling true).emit (creatorContext true) (.initial 0) =
        .ok ("await " ++ base ++ ".create();") s' ∧
      Receiver.emit (.static ⟨"zcl_bar", ⟨5, 5⟩⟩) (creatorContext true) (.initial 0) = .ok base s₁ ∧
      creatorOpening.emit (creatorContext true) (.initial 0) = .ok header t' ∧
      StandsFor (some (.ofHeader header)) base .classObject := by
  obtain ⟨s', hcall⟩ : ∃ s', MethodCall.emit
      ⟨.static ⟨"zcl_bar", ⟨5, 5⟩⟩, .named ⟨"create", ⟨5, 14⟩⟩, .none⟩ (creatorContext true)
      (.initial 0) = .ok "await abap.Classes['ZCL_BAR'].create()" s' := ⟨_, rfl⟩
  obtain ⟨header, t', hheader⟩ : ∃ header t', creatorOpening.emit (creatorContext true) (.initial 0) =
    .ok header t' := ⟨_, _, rfl⟩
  obtain ⟨base, s₁, member, arguments, hbase, -, -, -, hclass⟩ := MethodCall.holder_of_emit hcall
  obtain ⟨m, u, -, hclass⟩ := hclass _ _ _ _ _ rfl hheader
  cases hbase
  exact ⟨_, _, _, header, t', rfl, rfl, hheader, hclass.mpr (.inl rfl)⟩

/-- Without it the static method is called on the instance, of which it is no member. -/
theorem emit_creating :
    (∃ reference s', Emit.ask (fun v => v.methodReference? ⟨"create", ⟨5, 5⟩⟩)
      (creatorContext false) (.initial 0) = .ok (some reference) s' ∧
      reference.definition.isStatic = true) ∧
    (∃ s', creatorDeclaring.emit (creatorContext false) (.initial 0) =
      .ok "static async create(INPUT) \x7b" s') ∧
    (∃ s', creatorOpening.emit (creatorContext false) (.initial 0) =
      .ok "async run(INPUT) \x7b" s') ∧
    (∃ s', (creatorCalling false).emit (creatorContext false) (.initial 0) =
      .ok "await this.create();" s') ∧
    StandsFor (some (.ofHeader "async run(INPUT) \x7b")) "this" .object ∧
    ¬ StandsFor (some (.ofHeader "async run(INPUT) \x7b")) "this" .classObject := by
  refine ⟨⟨_, _, rfl, rfl⟩, ⟨_, rfl⟩, ⟨_, rfl⟩, ⟨_, rfl⟩, ?_⟩
  have hself : Holder.ofHeader "async run(INPUT) \x7b" = .object := by decide
  rw [hself, StandsFor.self_iff (.inl rfl), StandsFor.self_iff (.inl rfl)]
  exact ⟨rfl, nofun⟩

end SourceUnit

end AbapLowering
