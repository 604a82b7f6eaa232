import AbapLowering.Proofs.Caseless.Agreement
import AbapLowering.Proofs.Caseless.Tree

/-!
# Operands without case

Names are looked up and spelled in lower or in upper case. So what a token is bound to does not
depend on its case, and an operand without case is emitted like the operand itself, but for the
wording of warnings (`Source.agree`, `Condition.agree`).
-/

namespace AbapLowering

open Emit (Agree AgreeBy)

/-! ## Questions about names -/

namespace View

/-- Classes are kept under names in lower case in scopes and in upper case in the registry. -/
@[simp] theorem findClass?_caseless (v : View) (scope : Option ScopeId) (name : String) :
    v.findClass? scope (Text.caseless name) = v.findClass? scope name := by
  simp [findClass?, Registry.findClass?, ScopeGraph.findClass?]

/-- Interfaces are found like classes. -/
@[simp] theorem findInterface?_caseless (v : View) (scope : Option ScopeId) (name : String) :
    v.findInterface? scope (Text.caseless name) = v.findInterface? scope name := by
  simp [findInterface?, Registry.findInterface?, ScopeGraph.findInterface?]

/-- References are kept by position, which is the same without case. -/
@[simp] theorem referenceOf_caseless (v : View) (token : Token) (kinds : List ReferenceKind) :
    v.referenceOf token.caseless kinds = v.referenceOf token kinds := rfl

@[simp] theorem attributeInterface?_caseless (v : View) (token : Token) :
    v.attributeInterface? token.caseless = v.attributeInterface? token := by
  rw [attributeInterface?, referenceOf_caseless, attributeInterface?]

@[simp] theorem methodReference?_caseless (v : View) (token : Token) :
    v.methodReference? token.caseless = v.methodReference? token := by
  rw [methodReference?, referenceOf_caseless, methodReference?]

/-- Variables are found by their names in upper case. -/
@[simp] theorem variableNamed_caseless (v : View) (token : Token) :
    v.variableNamed token.caseless = v.variableNamed token := by
  simp [variableNamed, ScopeGraph.findVariable?]

/-- Whether a name is one of an interface does not depend on its case. -/
@[simp] theorem namesInterface_caseless (v : View) (token : Token) :
    v.namesInterface token.caseless = v.namesInterface token := by
  simp [namesInterface]

@[simp] theorem classAddress_caseless (v : View) (name : String) (position : Position) :
    v.classAddress (Text.caseless name) position = v.classAddress name position := by
  simp [classAddress, ScopeGraph.findClass?, ScopeGraph.findInterface?]

theorem ownResolution_caseless (name : String) (declared : Option (Scope × Variable)) :
    ownResolution (Text.caseless name) declared = ownResolution name declared := by
  simp [ownResolution]

/-- The scope that declares a name does not depend on its case. -/
theorem declaration?_caseless (v : View) (scope : ScopeId) (name : String) :
    v.declaration? scope (Text.caseless name) = v.declaration? scope name := by
  simp [declaration?]

/-- A token is bound to the same thing without case. -/
@[simp] theorem resolve_caseless (v : View) (token : Token) :
    v.resolve token.caseless = v.resolve token := by
  simp [resolve, declaration?_caseless, ownResolution_caseless]

end View

namespace Emit

@[simp] theorem classAddress_caseless (name : String) (position : Position) :
    classAddress (Text.caseless name) position = classAddress name position := by
  simp [classAddress]

/-- A name is qualified by the same owner and spelled in lower case. -/
@[simp] theorem qualifiedName_caseless (token : Token) :
    qualifiedName token.caseless = qualifiedName token := by
  simp [qualifiedName]

end Emit

namespace Operand

/-- The class at the head of a path is found and spelled without case. -/
@[simp] theorem classHead_caseless (name : Token) : classHead name.caseless = classHead name := by
  simp [classHead]

/-- Members are spelled in lower case, with the interface they come from. -/
@[simp] theorem memberName_caseless (name : Token) :
    memberName name.caseless = memberName name := by
  simp [memberName]

@[simp] theorem segment_caseless (interfaceName : Option String) (segment : ChainSegment) :
    Operand.segment interfaceName segment.caseless = Operand.segment interfaceName segment := by
  cases segment <;> simp [ChainSegment.caseless, Operand.segment]

/-- A path is spelled alike, segment by segment. -/
@[simp] theorem path_caseless (head : Head) (segments : List ChainSegment) :
    path head (segments.map (·.caseless)) = path head segments := by
  simp [path, List.mapM_map, Function.comp_def]

/-- Components of a row are spelled in lower case. -/
@[simp] theorem rowComponent_caseless (steps : List Token) :
    rowComponent (steps.map (·.caseless)) = rowComponent steps := by
  cases steps with
  | nil => rfl
  | cons first rest => simp [rowComponent, Function.comp_def]

/-- The name of a constructor is told without case. -/
@[simp] theorem isConstructorName_caseless (name : Token) :
    isConstructorName name.caseless = isConstructorName name := by
  simp [isConstructorName]

end Operand

/-! ## Shapes of chains -/

/-- A segment is a dereference with and without case. -/
theorem ChainSegment.caseless_eq_dereference {segment : ChainSegment} :
    segment.caseless = .dereference ↔ segment = .dereference := by
  cases segment <;> simp [ChainSegment.caseless]

/-- Whether a chain ends with a dereference can be told without case. -/
theorem FieldChain.endsWithDereference_caseless (chain : FieldChain) :
    chain.caseless.endsWithDereference = chain.endsWithDereference := by
  obtain ⟨head, segments, offset, length⟩ := chain
  rw [Bool.eq_iff_iff, FieldChain.caseless, FieldChain.endsWithDereference,
    FieldChain.endsWithDereference, beq_iff_eq, beq_iff_eq, List.getLast?_map]
  cases segments.getLast? with
  | none => simp
  | some segment => simp [ChainSegment.caseless_eq_dereference]

mutual

/-- The first token of a chain without case is that token without case. -/
theorem FieldChain.firstToken_caseless :
    ∀ chain : FieldChain, chain.caseless.firstToken = chain.firstToken.map (·.caseless)
  | ⟨head, segments, offset, length⟩ => by
    rw [FieldChain.caseless, FieldChain.firstToken, FieldChain.firstToken]
    exact head.firstToken_caseless

theorem ChainHead.firstToken_caseless :
    ∀ head : ChainHead, head.caseless.firstToken = head.firstToken.map (·.caseless)
  | .field name | .fieldSymbol name | .classRef name => rfl
  | .call call => by
    rw [ChainHead.caseless, ChainHead.firstToken, ChainHead.firstToken]
    exact call.firstToken_caseless

theorem MethodCall.firstToken_caseless :
    ∀ call : MethodCall, call.caseless.firstToken = call.firstToken.map (·.caseless)
  | ⟨.object chain, _, _⟩ => by
    rw [MethodCall.caseless, Receiver.caseless, MethodCall.firstToken, MethodCall.firstToken]
    exact chain.firstToken_caseless
  | ⟨.static className, _, _⟩ => rfl
  | ⟨.implicit, method, _⟩ => by
    rw [MethodCall.caseless, Receiver.caseless, MethodCall.firstToken, MethodCall.firstToken]
    exact method.firstToken_caseless
  | ⟨.super, method, _⟩ => by
    rw [MethodCall.caseless, Receiver.caseless, MethodCall.firstToken, MethodCall.firstToken]
    exact method.firstToken_caseless
  | ⟨.dynamic _, method, _⟩ => by
    rw [MethodCall.caseless, Receiver.caseless, MethodCall.firstToken, MethodCall.firstToken]
    exact method.firstToken_caseless

theorem MethodRef.firstToken_caseless :
    ∀ method : MethodRef, method.caseless.firstToken = method.firstToken.map (·.caseless)
  | .named name => rfl
  | .dynamic (.literal _) => rfl
  | .dynamic (.field chain) => by
    rw [MethodRef.caseless, DynamicName.caseless, MethodRef.firstToken, MethodRef.firstToken]
    exact chain.firstToken_caseless

end

/-! ## Calls -/

namespace Operand

/-- What a call calls, without case. -/
def Callee.caseless : Callee → Callee
  | .dynamic => .dynamic
  | .named anchor definition => .named anchor.caseless definition

/-- A warning about a call names what is called. -/
theorem agree_singleParameter (callee : Callee) (value : String) :
    Agree (singleParameter callee.caseless value) (singleParameter callee value) := by
  cases callee with
  | dynamic => exact .pure _
  | named anchor definition =>
    unfold singleParameter Callee.caseless
    dsimp only
    split
    · exact .pure _
    · exact .bind (Emit.agree_warn _ _ _) fun _ => .pure _

/-- A text, and what a call calls, without case in the first of two. -/
abbrev CalledAlike (a b : String × Callee) : Prop := a = (b.1, b.2.caseless)

/-- The callee that is found has the same parameters, and its name differs in case at most. -/
theorem agree_namedMethod (base : String) (name : Token) :
    AgreeBy CalledAlike (namedMethod base name.caseless) (namedMethod base name) := by
  unfold namedMethod
  simp only [View.methodReference?_caseless, Token.text_caseless, Identifier.plain_caseless]
  refine .bind (Emit.agree_ask _) ?_
  rintro reference _ rfl
  cases reference with
  | none => exact .pure rfl
  | some reference => exact .pure rfl

end Operand

/-! ## Operands -/

/-- A receiver is the superclass with and without case. -/
theorem Receiver.caseless_eq_super {receiver : Receiver} :
    receiver.caseless = .super ↔ receiver = .super := by
  cases receiver <;> simp [Receiver.caseless]

/-- A method that is named without case is named by a token. -/
theorem MethodRef.eq_named_of_caseless {method : MethodRef} {name : Token}
    (h : method.caseless = .named name) : ∃ name, method = .named name := by
  cases method with
  | named name => exact ⟨name, rfl⟩
  | dynamic name => simp [MethodRef.caseless] at h

/-- A method call is emitted alike if its parts are. -/
theorem MethodCall.agree_of {receiver : Receiver} {method : MethodRef} {parameters : CallParameters}
    (hreceiver : Agree receiver.caseless.emit receiver.emit)
    (hmethod : ∀ base, AgreeBy Operand.CalledAlike (method.caseless.emit base) (method.emit base))
    (hparameters : ∀ callee : Operand.Callee,
      Agree (parameters.caseless.emit callee.caseless) (parameters.emit callee)) :
    Agree (MethodCall.caseless ⟨receiver, method, parameters⟩).emit
      (MethodCall.emit ⟨receiver, method, parameters⟩) := by
  -- a named method of the superclass is emitted by a rule of its own
  by_cases hsuper : ∃ name, receiver = .super ∧ method = .named name
  · obtain ⟨name, rfl, rfl⟩ := hsuper
    rw [MethodCall.caseless, Receiver.caseless, MethodRef.caseless, MethodCall.emit,
      MethodCall.emit, Operand.isConstructorName_caseless]
    split
    · exact .bind (hparameters (.named name none)) fun _ => .pure _
    · refine .bindBy (Operand.agree_namedMethod _ name) fun a b hab => ?_
      subst hab
      exact .bind (hparameters b.2) fun _ => .pure _
  · rw [MethodCall.caseless, MethodCall.emit, MethodCall.emit]
    · refine .bind hreceiver fun base => .bindBy (hmethod base) fun a b hab => ?_
      subst hab
      exact .bind (hparameters b.2) fun _ => .pure _
    · exact fun name hreceiver hmethod => hsuper ⟨name, hreceiver, hmethod⟩
    · intro name hreceiver hmethod
      obtain ⟨name', hnamed⟩ := MethodRef.eq_named_of_caseless hmethod
      exact hsuper ⟨name', Receiver.caseless_eq_super.mp hreceiver, hnamed⟩

mutual

/-- Operands without case are emitted alike. -/
theorem Source.agree : ∀ source : Source, Agree source.caseless.emit source.emit
  | .constant value => by
    rw [Source.caseless, Source.emit]
    exact value.built.agree
  | .template parts => by
    rw [Source.caseless, Source.emit, Source.emit]
    exact .bind (agree_emitTemplate parts) fun _ => .pure _
  | .field chain => by
    rw [Source.caseless, Source.emit, Source.emit]
    exact chain.agree .read
  | .call call => by
    rw [Source.caseless, Source.emit, Source.emit]
    exact call.agree
  | .builtin name (some single) parameters => by
    rw [Source.caseless, Source.emit, Source.emit, Token.text_caseless, Identifier.plain_caseless]
    exact .bind single.agree fun _ => .pure _
  | .builtin name none parameters => by
    rw [Source.caseless, Source.emit, Source.emit, Token.text_caseless, Identifier.plain_caseless]
    exact .bind (agree_emitBindings parameters) fun _ => .pure _
  | .arithmetic left operator right => by
    rw [Source.caseless, Source.emit, Source.emit]
    exact .bind left.agree fun _ => .bind right.agree fun _ => .pure _
  | .component path => by
    rw [Source.caseless, Source.emit, Source.emit, Operand.rowComponent_caseless]
    exact .pure _
  | .unsupported name text span => .fail rfl

/-- The texts of a template keep their case; the operands in it lose theirs. -/
theorem agree_emitTemplate :
    ∀ parts : List TemplatePart, Agree (emitTemplate (caselessTemplate parts)) (emitTemplate parts)
  | [] => .pure _
  | part :: rest => by
    rw [caselessTemplate, emitTemplate, emitTemplate]
    exact .bind part.agree fun _ => .bind (agree_emitTemplate rest) fun _ => .pure _

theorem TemplatePart.agree : ∀ part : TemplatePart, Agree part.caseless.emit part.emit
  | .text text => .pure _
  | .embed source => by
    rw [TemplatePart.caseless, TemplatePart.emit, TemplatePart.emit]
    exact .bind source.agree fun _ => .pure _

/-- A chain of fields is emitted alike, to be read and to be set. -/
theorem FieldChain.agree (access : Access) :
    ∀ chain : FieldChain, Agree (chain.caseless.emit access) (chain.emit access)
  | ⟨head, segments, offset, length⟩ => by
    rw [FieldChain.caseless, FieldChain.emit, FieldChain.emit]
    refine .bind head.agree fun start => ?_
    rw [Operand.path_caseless]
    refine .bind (Operand.built_path start segments).agree fun _ => ?_
    exact .bind (agree_emitOffset offset) fun _ => .bind (agree_emitLength length) fun _ => .pure _

/-- The head of a chain is a name, a call or a class; in each case it is emitted alike. -/
theorem ChainHead.agree : ∀ head : ChainHead, Agree head.caseless.emit head.emit
  | .field name => by
    rw [ChainHead.caseless, ChainHead.emit, ChainHead.emit, Emit.qualifiedName_caseless]
    exact .bind (Emit.Built.qualifiedName name).agree fun _ => .pure _
  | .fieldSymbol name => by
    rw [ChainHead.caseless, ChainHead.emit, ChainHead.emit, Token.text_caseless,
      Identifier.fieldSymbol_caseless]
    exact .pure _
  | .classRef name => by
    rw [ChainHead.caseless, ChainHead.emit, ChainHead.emit, Operand.classHead_caseless]
    exact (Operand.built_classHead name).agree
  | .call call => by
    rw [ChainHead.caseless, ChainHead.emit, ChainHead.emit]
    exact .bind call.agree fun _ => .pure _

theorem agree_emitOffset :
    ∀ offset : Option Offset, Agree (emitOffset (caselessOffset offset)) (emitOffset offset)
  | none => .pure _
  | some (.literal value) => .pure _
  | some (.field chain) => by
    rw [caselessOffset, emitOffset, emitOffset]
    exact .bind (chain.agree .read) fun _ => .pure _

theorem agree_emitLength :
    ∀ length : Option Length, Agree (emitLength (caselessLength length)) (emitLength length)
  | none => .pure _
  | some (.literal value) => .pure _
  | some (.field chain) => by
    rw [caselessLength, emitLength, emitLength]
    exact .bind (chain.agree .read) fun _ => .pure _
  | some .rest => .pure _

/-- Calls without case are emitted alike, also those of the constructor of the superclass. -/
theorem MethodCall.agree : ∀ call : MethodCall, Agree call.caseless.emit call.emit
  | ⟨receiver, method, parameters⟩ =>
    MethodCall.agree_of receiver.agree method.agree parameters.agree

/-- What a method is called on is emitted alike. -/
theorem Receiver.agree : ∀ receiver : Receiver, Agree receiver.caseless.emit receiver.emit
  | .implicit => .pure _
  | .object chain => by
    rw [Receiver.caseless, Receiver.emit, Receiver.emit]
    exact .bind (chain.agree .read) fun _ => .pure _
  | .static className => by
    rw [Receiver.caseless, Receiver.emit, Receiver.emit, Token.text_caseless, Token.start_caseless,
      Emit.classAddress_caseless]
    exact Emit.agree_ask _
  | .super => .pure _
  | .dynamic name => by
    rw [Receiver.caseless, Receiver.emit, Receiver.emit]
    exact .bind name.agree_emitClass fun _ => .bind (Emit.agree_requireTarget _ _) fun _ => .pure _

/-- Methods are addressed alike; their names differ in case at most. -/
theorem MethodRef.agree : ∀ (method : MethodRef) (base : String),
    AgreeBy Operand.CalledAlike (method.caseless.emit base) (method.emit base)
  | .named name, base => Operand.agree_namedMethod base name
  | .dynamic name, base => by
    rw [MethodRef.caseless, MethodRef.emit, MethodRef.emit]
    refine .bind (name.agree_emitMethod base) fun a b hab => ?_
    subst hab
    exact .bind (Emit.agree_requireTarget _ _) fun _ _ _ => .pure rfl

/-- A class that is named by a literal keeps it, so nothing has to be looked up. -/
theorem DynamicName.agree_emitClass :
    ∀ name : DynamicName, Agree name.caseless.emitClass name.emitClass
  | .literal value => .pure _
  | .field chain => by
    rw [DynamicName.caseless, DynamicName.emitClass, DynamicName.emitClass]
    exact .bind (chain.agree .read) fun _ => .pure _

theorem DynamicName.agree_emitMethod (base : String) :
    ∀ name : DynamicName, Agree (name.caseless.emitMethod base) (name.emitMethod base)
  | .literal value => .pure _
  | .field chain => by
    rw [DynamicName.caseless, DynamicName.emitMethod, DynamicName.emitMethod]
    exact .bind (chain.agree .read) fun _ => .pure _

/-- The parameters of a call go to the same formal parameters. -/
theorem CallParameters.agree : ∀ (parameters : CallParameters) (callee : Operand.Callee),
    Agree (parameters.caseless.emit callee.caseless) (parameters.emit callee)
  | ⟨some single, _, _, _, _, _⟩, callee => by
    rw [CallParameters.caseless, caselessSource?, CallParameters.emit, CallParameters.emit]
    exact .bind single.agree fun value => Operand.agree_singleParameter callee value
  | ⟨none, exporting, importing, changing, _, _⟩, callee => by
    rw [CallParameters.caseless, caselessSource?, CallParameters.emit, CallParameters.emit]
    refine .bind (agree_emitBindings exporting) fun _ => ?_
    refine .bind (agree_emitTargetBindings importing) fun _ => ?_
    exact .bind (agree_emitTargetBindings changing) fun _ => .pure _

/-- Actual parameters are emitted alike, under names in lower case. -/
theorem agree_emitBindings : ∀ bindings : List Binding,
    Agree (emitBindings (caselessBindings bindings)) (emitBindings bindings)
  | [] => .pure _
  | ⟨name, value⟩ :: rest => by
    rw [caselessBindings, emitBindings, emitBindings, Token.lower_caseless]
    exact .bind (.named _ value.agree) fun _ => .bind (agree_emitBindings rest) fun _ => .pure _

theorem agree_emitTargetBindings : ∀ bindings : List TargetBinding,
    Agree (emitTargetBindings (caselessTargetBindings bindings)) (emitTargetBindings bindings)
  | [] => .pure _
  | ⟨name, target⟩ :: rest => by
    rw [caselessTargetBindings, emitTargetBindings, emitTargetBindings, Token.lower_caseless]
    refine .bind (.named _ (target.agree .write)) fun _ => ?_
    exact .bind (agree_emitTargetBindings rest) fun _ => .pure _

end

theorem FieldChain.agree_emitTarget (target : FieldChain) :
    Agree target.caseless.emitTarget target.emitTarget :=
  target.agree .write

/-- A call that stands as a statement is emitted alike, also if it sets up the superclass. -/
theorem MethodCall.agree_emitStatement (call : MethodCall) :
    Agree call.caseless.emitStatement call.emitStatement := by
  obtain ⟨receiver, method, ⟨single, exporting, importing, changing, receiving, exceptions⟩⟩ := call
  refine .bind (MethodCall.agree _) fun text => ?_
  match receiving with
  | none => exact .pure _
  | some ⟨name, target⟩ => exact .bind target.agree_emitTarget fun _ => .pure _

theorem DynamicName.agree_emitText (name : DynamicName) :
    Agree name.caseless.emitText name.emitText := by
  cases name with
  | literal value => exact .pure _
  | field chain => exact .bind (chain.agree .read) fun _ => .pure _

/-! ## Conditions -/

namespace Condition

theorem agree_emitPredicate (operand : Source) (predicate : Predicate) (negated : Bool) :
    Agree (emitPredicate operand.caseless predicate negated)
      (emitPredicate operand predicate negated) :=
  .bind operand.agree fun _ => .pure _

theorem agree_emitWithin (operand range : Source) (negated : Bool) :
    Agree (emitWithin operand.caseless range.caseless negated)
      (emitWithin operand range negated) :=
  .bind operand.agree fun _ => .bind range.agree fun _ => .pure _

theorem agree_emitCompare (left : Source) (operator : CompareOperator) (right : Source) :
    Agree (emitCompare left.caseless operator right.caseless) (emitCompare left operator right) :=
  .bind left.agree fun _ => .bind right.agree fun _ => .pure _

/-- Whether a condition has to be put in parentheses can be told without case. -/
@[simp] theorem isDisjunction_caseless (condition : Condition) :
    condition.caseless.isDisjunction = condition.isDisjunction := by
  cases condition <;> simp [Condition.caseless, isDisjunction]

end Condition

mutual

/-- Conditions without case are emitted alike. -/
theorem Condition.agree : ∀ condition : Condition, Agree condition.caseless.emit condition.emit
  | .compare left operator right => by
    rw [Condition.caseless]
    exact Condition.agree_emitCompare left operator right
  | .predicate operand predicate negated => by
    rw [Condition.caseless]
    exact Condition.agree_emitPredicate operand predicate negated
  | .within operand range negated => by
    rw [Condition.caseless]
    exact Condition.agree_emitWithin operand range negated
  | .not (.predicate operand predicate negated) => by
    rw [Condition.caseless, Condition.caseless]
    exact Condition.agree_emitPredicate operand predicate (!negated)
  | .not (.within operand range negated) => by
    rw [Condition.caseless, Condition.caseless]
    exact Condition.agree_emitWithin operand range (!negated)
  | .not (.compare left operator right) => by
    rw [Condition.caseless, Condition.caseless]
    exact .bind (Condition.agree_emitCompare left operator right) fun _ => .pure _
  | .not (.paren inner) => by
    rw [Condition.caseless, Condition.caseless, Condition.emit, Condition.emit]
    exact .bind inner.agree fun _ => .pure _
  -- what is under the negation decides which rule holds, and case does not change what that is
  | .not (.not inner) => by
    rw [Condition.caseless, Condition.emit, Condition.emit]
    · exact .bind (Condition.not inner).agree fun _ => .pure _
    all_goals simp [Condition.caseless]
  | .not (.and items) => by
    rw [Condition.caseless, Condition.emit, Condition.emit]
    · exact .bind (Condition.and items).agree fun _ => .pure _
    all_goals simp [Condition.caseless]
  | .not (.or items) => by
    rw [Condition.caseless, Condition.emit, Condition.emit]
    · exact .bind (Condition.or items).agree fun _ => .pure _
    all_goals simp [Condition.caseless]
  | .not (.unsupported name text span) => .bind (.fail rfl) fun _ => .pure _
  | .and items => by
    rw [Condition.caseless, Condition.emit, Condition.emit]
    exact .bind (agree_emitConjuncts items) fun _ => .pure _
  | .or items => by
    rw [Condition.caseless, Condition.emit, Condition.emit]
    exact .bind (agree_emitDisjuncts items) fun _ => .pure _
  | .paren inner => by
    rw [Condition.caseless, Condition.emit, Condition.emit]
    exact .bind inner.agree fun _ => .pure _
  | .unsupported name text span => .fail rfl

theorem agree_emitConjuncts : ∀ items : List Condition,
    Agree (emitConjuncts (caselessConditions items)) (emitConjuncts items)
  | [] => .pure _
  | item :: rest => by
    rw [caselessConditions, emitConjuncts, emitConjuncts, Condition.isDisjunction_caseless]
    exact .bind item.agree fun _ => .bind (agree_emitConjuncts rest) fun _ => .pure _

theorem agree_emitDisjuncts : ∀ items : List Condition,
    Agree (emitDisjuncts (caselessConditions items)) (emitDisjuncts items)
  | [] => .pure _
  | item :: rest => by
    rw [caselessConditions, emitDisjuncts, emitDisjuncts]
    exact .bind item.agree fun _ => .bind (agree_emitDisjuncts rest) fun _ => .pure _

end

/-- Filters of rows without case are emitted alike. -/
theorem Condition.agree_emitRowFilter (condition : Condition) :
    Agree condition.caseless.emitRowFilter condition.emitRowFilter :=
  .bind condition.agree fun _ => .pure _

end AbapLowering
