import AbapLowering.Proofs.Integers.Notes

/-!
# Integers noted by operands

Emitting an operand, a call or a condition notes just the integers that its syntax mentions
(`Source.notes`, `Condition.notes`).
-/

namespace AbapLowering

open Emit (Notes)

/-! ## Names -/

namespace Operand

/-- A class at the head of a path notes nothing. -/
theorem notes_classHead (name : Token) : (classHead name).Notes [] :=
  (Notes.ask _).after fun _ => (Notes.classAddress _ _).give

/-- The spelling of a member notes nothing. -/
theorem notes_memberName (name : Token) : (memberName name).Notes [] := by
  refine (Notes.ask _).after fun owner => ?_
  cases owner with
  | none => exact .pure
  | some owner => exact .pure

/-- The segments of a path are names and mention no integer. -/
theorem notes_segment (interfaceName : Option String) (step : ChainSegment) :
    (segment interfaceName step).Notes [] := by
  match step with
  | .attribute name => exact (notes_memberName name).give
  | .component _ | .static _ | .dereference => exact .pure

theorem notes_path (head : Head) (segments : List ChainSegment) :
    (path head segments).Notes [] :=
  (Notes.mapM_nil segments (notes_segment head.interfaceName)).give

/-- If there is no parameter to take an argument there is a warning, and nothing is noted. -/
theorem notes_singleParameter (callee : Callee) (value : String) :
    (singleParameter callee value).Notes [] := by
  unfold singleParameter
  split
  · exact .pure
  · split
    · exact .pure
    · exact (Notes.warn _ _).give

/-- A method that is looked up by its name notes nothing. -/
theorem notes_namedMethod (base : String) (name : Token) : (namedMethod base name).Notes [] := by
  refine (Notes.ask _).after fun reference => ?_
  cases reference with
  | none => exact .pure
  | some reference => exact .pure

end Operand

/-! ## Operands -/

/-- Of all constants only integers are noted. -/
theorem Constant.notes (value : Constant) : value.emit.Notes value.mentions := by
  cases value with
  | integer value => exact .integer value
  | text value => exact .pure
  | backtick value => exact .pure

mutual

/-- An operand notes the integers that its syntax mentions. -/
theorem Source.notes : ∀ source : Source, source.emit.Notes source.mentions
  | .constant value => value.notes
  | .template parts => by
    rw [Source.emit]
    exact (notes_emitTemplate parts).give
  | .field chain => by
    rw [Source.emit]
    exact chain.notes .read
  | .call call => by
    rw [Source.emit]
    exact call.notes
  | .builtin name (some single) _ => by
    rw [Source.emit]
    exact single.notes.give
  | .builtin name none parameters => by
    rw [Source.emit]
    exact (notes_emitBindings parameters).give
  | .arithmetic left operator right => by
    rw [Source.emit]
    exact left.notes.bind fun _ => right.notes.give
  | .component path => .pure
  | .unsupported name text span => .fail _

theorem notes_emitTemplate :
    ∀ parts : List TemplatePart, (emitTemplate parts).Notes (mentionsOfParts parts)
  | [] => .pure
  | part :: rest => by
    rw [emitTemplate]
    exact part.notes.bind fun _ => (notes_emitTemplate rest).give

/-- The texts of a template are not looked into; digits in them are no integers. -/
theorem TemplatePart.notes : ∀ part : TemplatePart, part.emit.Notes part.mentions
  | .text text => .pure
  | .embed source => by
    rw [TemplatePart.emit]
    exact source.notes.give

/-- A chain notes the integers of its head, its offset and its length. -/
theorem FieldChain.notes (access : Access) :
    ∀ chain : FieldChain, (chain.emit access).Notes chain.mentions
  | ⟨head, segments, offset, length⟩ => by
    rw [FieldChain.emit]
    refine head.notes.bind fun start => (Operand.notes_path start segments).after fun base => ?_
    exact (notes_emitOffset offset).bind fun _ => (notes_emitLength length).give

/-- The head of a chain mentions integers if it is a call. -/
theorem ChainHead.notes : ∀ head : ChainHead, head.emit.Notes head.mentions
  | .field name => (Notes.qualifiedName name).give.congr rfl
  | .fieldSymbol name => Notes.pure.congr rfl
  | .classRef name => Operand.notes_classHead name
  | .call call => by
    rw [ChainHead.emit]
    exact call.notes.give

/-- An offset is an integer or a field. -/
theorem notes_emitOffset : ∀ offset : Option Offset,
    (emitOffset offset).Notes (mentionsOfOffset offset)
  | none => .pure
  | some (.literal value) => .pure
  | some (.field chain) => by
    rw [emitOffset]
    exact (chain.notes .read).give

theorem notes_emitLength : ∀ length : Option Length,
    (emitLength length).Notes (mentionsOfLength length)
  | none => .pure
  | some (.literal value) => .pure
  | some (.field chain) => by
    rw [emitLength]
    exact (chain.notes .read).give
  | some .rest => .pure

/-- A call notes what its receiver, its method and its parameters mention. -/
theorem MethodCall.notes : ∀ call : MethodCall, call.emit.Notes call.mentions
  | ⟨receiver, method, parameters⟩ => by
    rw [MethodCall.emit.eq_def, MethodCall.mentions]
    split
    next name given heq =>
      cases heq
      split
      · exact (parameters.notes _).give
      · refine (Operand.notes_namedMethod _ name).after fun callee => ?_
        exact (parameters.notes callee.2).give
    next heq =>
      cases heq
      rw [List.append_assoc]
      refine receiver.notes.bind fun base => (method.notes base).bind fun callee => ?_
      exact (parameters.notes callee.2).give

/-- A receiver is emitted before the method, and so are the integers in it. -/
theorem Receiver.notes : ∀ receiver : Receiver, receiver.emit.Notes receiver.mentions
  | .implicit => .pure
  | .object chain => by
    rw [Receiver.emit]
    exact (chain.notes .read).give
  | .static className => .classAddress _ _
  | .super => .pure
  | .dynamic name => by
    rw [Receiver.emit]
    exact name.notes_emitClass.before fun _ => (Notes.requireTarget _ _).give

/-- A method that is named at run time mentions what the operand with its name does. -/
theorem MethodRef.notes (base : String) :
    ∀ method : MethodRef, (method.emit base).Notes method.mentions
  | .named name => Operand.notes_namedMethod base name
  | .dynamic name => by
    rw [MethodRef.emit]
    exact (name.notes_emitMethod base).before fun _ => (Notes.requireTarget _ _).give

theorem DynamicName.notes_emitClass :
    ∀ name : DynamicName, name.emitClass.Notes name.mentions
  | .literal value => .pure
  | .field chain => by
    rw [DynamicName.emitClass]
    exact (chain.notes .read).give

theorem DynamicName.notes_emitMethod (base : String) :
    ∀ name : DynamicName, (name.emitMethod base).Notes name.mentions
  | .literal value => .pure
  | .field chain => by
    rw [DynamicName.emitMethod]
    exact (chain.notes .read).give

/-- Parameters note what their values mention. -/
theorem CallParameters.notes (callee : Operand.Callee) : ∀ parameters : CallParameters,
    (parameters.emit callee).Notes parameters.mentions
  | ⟨some single, _, _, _, _, _⟩ => by
    rw [CallParameters.emit]
    exact single.notes.before fun value => Operand.notes_singleParameter callee value
  | ⟨none, exporting, importing, changing, _, _⟩ => by
    rw [CallParameters.emit, CallParameters.mentions, List.append_assoc]
    refine (notes_emitBindings exporting).bind fun _ => ?_
    exact (notes_emitTargetBindings importing).bind fun _ =>
      (notes_emitTargetBindings changing).give

/-- Actual parameters note the integers of their values, in order. -/
theorem notes_emitBindings : ∀ bindings : List Binding,
    (emitBindings bindings).Notes (mentionsOfBindings bindings)
  | [] => .pure
  | ⟨name, value⟩ :: rest => by
    rw [emitBindings]
    exact (Notes.named _ value.notes).bind fun _ => (notes_emitBindings rest).give

theorem notes_emitTargetBindings : ∀ bindings : List TargetBinding,
    (emitTargetBindings bindings).Notes (mentionsOfTargets bindings)
  | [] => .pure
  | ⟨name, target⟩ :: rest => by
    rw [emitTargetBindings]
    exact (Notes.named _ (target.notes .write)).bind fun _ =>
      (notes_emitTargetBindings rest).give

end

theorem FieldChain.notes_emitTarget (target : FieldChain) :
    target.emitTarget.Notes target.mentions := target.notes .write

/-- What receives the result of a call is mentioned before the call, but emitted after it. -/
theorem MethodCall.notes_emitStatement (call : MethodCall) :
    call.emitStatement.Notes call.statementMentions := by
  refine .bind_swap call.notes fun text => ?_
  cases call.parameters.receiving with
  | none => exact .pure
  | some receiving => exact receiving.target.notes_emitTarget.give

theorem DynamicName.notes_emitText (name : DynamicName) : name.emitText.Notes name.mentions := by
  cases name with
  | literal value => exact .pure
  | field chain => exact (chain.notes .read).give

/-! ## Conditions -/

namespace Condition

theorem notes_emitPredicate (operand : Source) (predicate : Predicate) (negated : Bool) :
    (emitPredicate operand predicate negated).Notes operand.mentions :=
  operand.notes.give

theorem notes_emitWithin (operand range : Source) (negated : Bool) :
    (emitWithin operand range negated).Notes (operand.mentions ++ range.mentions) :=
  operand.notes.bind fun _ => range.notes.give

theorem notes_emitCompare (left : Source) (operator : CompareOperator) (right : Source) :
    (emitCompare left operator right).Notes (left.mentions ++ right.mentions) :=
  left.notes.bind fun _ => right.notes.give

end Condition

mutual

/-- A condition notes what its operands mention, in whatever way they are combined. -/
theorem Condition.notes : ∀ condition : Condition, condition.emit.Notes condition.mentions
  | .compare left operator right => Condition.notes_emitCompare left operator right
  | .predicate operand predicate negated => Condition.notes_emitPredicate operand predicate negated
  | .within operand range negated => Condition.notes_emitWithin operand range negated
  | .not (.predicate operand predicate negated) =>
    Condition.notes_emitPredicate operand predicate (!negated)
  | .not (.within operand range negated) => Condition.notes_emitWithin operand range (!negated)
  | .not (.compare left operator right) => (Condition.notes_emitCompare left operator right).give
  | .not (.paren inner) => by
    rw [Condition.emit]
    exact inner.notes.give
  | .not (.not inner) => by
    rw [Condition.emit]
    · exact (Condition.not inner).notes.give
    all_goals simp
  | .not (.and items) => by
    rw [Condition.emit]
    · exact (Condition.and items).notes.give
    all_goals simp
  | .not (.or items) => by
    rw [Condition.emit]
    · exact (Condition.or items).notes.give
    all_goals simp
  | .not (.unsupported name text span) => by
    have hfail : (Emit.fail (.unsupported name text span) : Emit String).Notes [] := .fail _
    exact hfail.give
  | .and items => by
    rw [Condition.emit]
    exact (notes_emitConjuncts items).give
  | .or items => by
    rw [Condition.emit]
    exact (notes_emitDisjuncts items).give
  | .paren inner => by
    rw [Condition.emit]
    exact inner.notes.give
  | .unsupported name text span => .fail _

/-- Conditions that all have to hold note what each of them mentions. -/
theorem notes_emitConjuncts : ∀ items : List Condition,
    (emitConjuncts items).Notes (mentionsOfConditions items)
  | [] => .pure
  | item :: rest => by
    rw [emitConjuncts]
    exact item.notes.bind fun _ => (notes_emitConjuncts rest).give

theorem notes_emitDisjuncts : ∀ items : List Condition,
    (emitDisjuncts items).Notes (mentionsOfConditions items)
  | [] => .pure
  | item :: rest => by
    rw [emitDisjuncts]
    exact item.notes.bind fun _ => (notes_emitDisjuncts rest).give

end

/-- A filter of rows notes what a condition on rows mentions. -/
theorem Condition.notes_emitRowFilter (condition : Condition) :
    condition.emitRowFilter.Notes condition.rowMentions :=
  condition.notes.give.under .row

end AbapLowering
