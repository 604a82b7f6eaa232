import AbapLowering.Proofs.Mention.Marked

/-!
# Mentions in operands

The text of every operand, call and condition spells just what its syntax mentions, in the same
order (`Source.marks`, `Condition.marks`).
-/

namespace AbapLowering

variable {v : View} {ms : List Mention}

/-! ## Names -/

namespace Emit

/-- The answer that is given is one the view gives. -/
theorem yields_ask {α : Type} (question : View → Query α) :
    (ask question).Yields v (v.Answers (question v)) := by
  intro config s a s' h
  unfold ask at h
  dsimp only at h
  split at h
  next b slot hrun =>
    cases h
    exact ⟨s.slot, slot, hrun⟩
  next => cases h

/-- A name is spelled as it is, unless it is qualified by what it is bound to. -/
theorem marks_qualifiedName (token : Token) :
    (qualifiedName token).Yields v (Marks v (Referent.name token).mentioned) := by
  refine .bind (yields_ask fun v => v.resolve token) fun resolution hresolve => ?_
  -- what a name is bound to decides how it is spelled; a local one alone keeps its spelling
  have hother : ∀ text, resolution ≠ .localName → Marks v (Referent.name token).mentioned text :=
    fun text hne =>
      marks_use (r := .name token) (o := .other text) ⟨resolution, hresolve, by simp [hne]⟩
  cases resolution with
  | localName =>
    exact .pure (marks_use (r := .name token) (o := .plain token.text) ⟨_, hresolve, by simp⟩)
  | interfaceAttribute owner => exact .after fun _ => .pure (hother _ (by simp))
  | foreignAttribute owner => exact .after fun _ => .pure (hother _ (by simp))
  | _ => exact .pure (hother _ (by simp))

/-- An integer is spelled by its constant. -/
theorem marks_integer (value : Int64) :
    (integer value).Yields v (Marks v (Referent.integer value).mentioned) := by
  rintro _ _ _ _ ⟨⟩
  exact marks_use (r := .integer value) (o := .integer value) rfl

theorem marks_named (key : String) {value : Emit String} (h : value.Yields v (Marks v ms)) :
    (named key value).Yields v (Marks v ms) :=
  .bind h fun _ htext => .pure (htext.before _)

variable {α : Type} {mentions : α → List Mention} {emit : α → Emit String}

/-- An optional argument stands in the list if it is given. -/
theorem marks_namedIfGiven (key : String) (value : Option α)
    (h : ∀ a, (emit a).Yields v (Marks v (mentions a))) :
    (namedIfGiven key value emit).Yields v (MarksAll v (value.elim [] mentions)) := by
  cases value with
  | none => exact .pure .nil
  | some a => exact .bind (marks_named key (h a)) fun _ htext => .pure (.single htext)

/-- The texts of a list are those of its items. -/
theorem marks_mapM (items : List α) (h : ∀ a, (emit a).Yields v (Marks v (mentions a))) :
    (items.mapM emit).Yields v (MarksAll v (items.flatMap mentions)) := by
  induction items with
  | nil => exact .pure .nil
  | cons a rest ih =>
    rw [List.mapM_cons]
    exact .bind (h a) fun _ hfirst => .bind ih fun _ hrest => .pure (.cons hfirst hrest)

/-- A list of arguments stands in brackets under one name. -/
theorem marks_namedListIfAny (key separator : String) (items : List α)
    (h : ∀ a, (emit a).Yields v (Marks v (mentions a))) :
    (namedListIfAny key separator items emit).Yields v
      (MarksAll v (items.flatMap mentions)) := by
  cases items with
  | nil => exact .pure .nil
  | cons a rest =>
    refine .bind (marks_mapM (a :: rest) h) fun _ hparts => .pure (.single ?_)
    exact ((hparts.intercalate separator).before _).after _

/-- Lines that are run first repeat operands, which are marked where the condition is. -/
theorem marks_guarded {condition : String} (h : Marks v ms condition) :
    (guarded condition).Yields v (Marks v ms) := by
  refine .after fun lines => ?_
  split
  · exact .pure h
  · exact .pure (h.before _)

end Emit

/-! ## Operands -/

open Emit (Yields)

namespace Operand

/-- Offset and length stand behind what they are taken of. -/
theorem marks_substring (access : Access) {ns : List Mention} {base : String}
    {options : List String} (hbase : Marks v ms base) (hoptions : MarksAll v ns options) :
    Marks v (ms ++ ns) (substring access base options) := by
  unfold substring
  cases hoptions with
  | nil => simpa using hbase
  | cons hfirst hrest =>
    have hbraced := (MarksAll.cons hfirst hrest).braced ", "
    cases access with
    | read => exact ((hbase.after _).append hbraced).after _
    | write => exact (((hbase.before _).after _).append hbraced).after _

/-- A path begins with its head, and no segment mentions anything. -/
theorem marks_path {head : Head} (segments : List ChainSegment) (h : Marks v ms head.text) :
    (path head segments).Yields v (Marks v ms) :=
  .after fun _ => .pure (h.after _)

/-- The parameter that takes an argument is spelled without mentioning anything. -/
theorem marks_singleParameter (callee : Callee) {value : String} (h : Marks v ms value) :
    (singleParameter callee value).Yields v (Marks v ms) := by
  unfold singleParameter
  split
  · exact .pure h
  · split
    · exact .pure ((h.before _).after _)
    · exact .after fun _ => .pure h

/-- A method stands behind what it is called on. -/
theorem marks_namedMethod {base : String} (name : Token) (h : Marks v ms base) :
    (namedMethod base name).Yields v fun callee => Marks v ms callee.1 := by
  refine .after fun reference => ?_
  cases reference with
  | none => exact .pure ((h.after _).after _)
  | some reference => exact .pure ((h.after _).after _)

/-- Where nothing is passed to the constructor of the superclass, nothing is mentioned. -/
theorem marks_superCall {parameters : String} (h : Marks v ms parameters) :
    Marks v ms ("await super.constructor_("
      ++ (if parameters.isEmpty then "INPUT" else parameters) ++ ")") := by
  refine .after _ (.before _ ?_)
  split
  next hempty =>
    rw [String.isEmpty_iff.mp hempty] at h
    exact h.after "INPUT"
  next => exact h

end Operand

/-- Of all constants only integers mention anything. -/
theorem Constant.marks (value : Constant) : value.emit.Yields v (Marks v value.mentions) := by
  cases value with
  | integer value => exact Emit.marks_integer value
  | text value => exact .pure (marks_text v _)
  | backtick value => exact .pure (marks_text v _)

mutual

/-- An operand contains what its syntax mentions. -/
theorem Source.marks : ∀ source : Source, source.emit.Yields v (Marks v source.mentions)
  | .constant value => value.marks
  | .template parts => by
    rw [Source.emit]
    exact .bind (marks_emitTemplate parts) fun _ h =>
      .pure ((((h.before _).after _).before _).after _)
  | .field chain => by
    rw [Source.emit]
    exact chain.marks .read
  | .call call => by
    rw [Source.emit]
    exact call.marks
  | .builtin name (some single) _ => by
    rw [Source.emit]
    exact .bind single.marks fun _ h => .pure ((h.before _).after _)
  | .builtin name none parameters => by
    rw [Source.emit]
    exact .bind (marks_emitBindings parameters) fun _ h =>
      .pure (((h.bracedIfAny ", ").before _).after _)
  | .arithmetic left operator right => by
    rw [Source.emit]
    exact .bind left.marks fun _ hleft => .bind right.marks fun _ hright =>
      .pure ((((hleft.before _).after _).append hright).after _)
  | .component path => .pure (marks_text v _)
  | .unsupported name text span => .fail _

theorem marks_emitTemplate :
    ∀ parts : List TemplatePart, (emitTemplate parts).Yields v (Marks v (mentionsOfParts parts))
  | [] => .pure (marks_text v _)
  | part :: rest => by
    rw [emitTemplate]
    exact .bind part.marks fun _ hfirst => .bind (marks_emitTemplate rest) fun _ hrest =>
      .pure (hfirst.append hrest)

/-- The texts of a template mention nothing, whatever stands in them. -/
theorem TemplatePart.marks : ∀ part : TemplatePart, part.emit.Yields v (Marks v part.mentions)
  | .text text => .pure (marks_text v _)
  | .embed source => by
    rw [TemplatePart.emit]
    exact .bind source.marks fun _ h => .pure ((h.before _).after _)

/-- A chain contains what its head mentions, and then its offset and its length. -/
theorem FieldChain.marks (access : Access) :
    ∀ chain : FieldChain, (chain.emit access).Yields v (Marks v chain.mentions)
  | ⟨head, segments, offset, length⟩ => by
    rw [FieldChain.emit]
    refine .bind head.marks fun start hstart => ?_
    refine .bind (Operand.marks_path segments hstart) fun base hbase => ?_
    refine .bind (marks_emitOffset offset) fun first hfirst => ?_
    refine .bind (marks_emitLength length) fun second hsecond => .pure ?_
    exact Operand.marks_substring access hbase (hfirst.append hsecond)

/-- A head is the name of a variable, a call, or a class, which mentions nothing. -/
theorem ChainHead.marks :
    ∀ head : ChainHead, head.emit.Yields v fun start => Marks v head.mentions start.text
  | .field name => .bind (Emit.marks_qualifiedName name) fun _ h => .pure h
  | .fieldSymbol name => .pure (marks_use (r := .symbol name) (o := .symbol name.text) rfl)
  | .classRef name => .after fun _ => .after fun _ => .pure (marks_text v _)
  | .call call => by
    rw [ChainHead.emit]
    exact .bind call.marks fun _ h => .pure ((h.before _).after _)

/-- An offset stands under its name in a list. -/
theorem marks_emitOffset : ∀ offset : Option Offset,
    (emitOffset offset).Yields v (MarksAll v (mentionsOfOffset offset))
  | none => .pure .nil
  | some (.literal value) => .pure (.text v _)
  | some (.field chain) => by
    rw [emitOffset]
    exact .bind (chain.marks .read) fun _ h => .pure (.single ((h.before _).after _))

theorem marks_emitLength : ∀ length : Option Length,
    (emitLength length).Yields v (MarksAll v (mentionsOfLength length))
  | none => .pure .nil
  | some (.literal value) => .pure (.text v _)
  | some (.field chain) => by
    rw [emitLength]
    exact .bind (chain.marks .read) fun _ h => .pure (.single ((h.before _).after _))
  | some .rest => .pure .nil

/-- A call contains its receiver, its method and its parameters, in this order. -/
theorem MethodCall.marks : ∀ call : MethodCall, call.emit.Yields v (Marks v call.mentions)
  | ⟨receiver, method, parameters⟩ => by
    rw [MethodCall.emit.eq_def, MethodCall.mentions]
    -- all calls but that of the superclass constructor go on from their receiver in this way
    have hrest : ∀ base : String, Marks v receiver.mentions base → Yields v (do
        let callee ← method.emit base
        return "await " ++ callee.1 ++ "(" ++ (← parameters.emit callee.2) ++ ")")
        (Marks v (receiver.mentions ++ method.mentions ++ parameters.mentions)) := by
      intro base hbase
      refine .bind (method.marks hbase) fun callee hcallee => ?_
      exact .bind (parameters.marks callee.2) fun _ hparameters =>
        .pure ((((hcallee.before _).after _).append hparameters).after _)
    split
    next name given heq =>
      cases heq
      split
      · exact .bind (parameters.marks _) fun _ h => .pure (Operand.marks_superCall h)
      · exact hrest "super" (marks_text v _)
    next heq =>
      cases heq
      exact .bind receiver.marks hrest

/-- What a method is called on stands before the method. -/
theorem Receiver.marks :
    ∀ receiver : Receiver, receiver.emit.Yields v (Marks v receiver.mentions)
  | .implicit => .pure (marks_text v _)
  | .object chain => by
    rw [Receiver.emit]
    exact .bind (chain.marks .read) fun _ h => .pure (h.after _)
  | .static className => fun _ _ _ _ _ => marks_text v _
  | .super => .pure (marks_text v _)
  | .dynamic name => by
    rw [Receiver.emit]
    exact .bind name.marks_emitClass fun _ h => .after fun _ => .pure h

/-- A method that is named at run time stands in brackets behind the receiver. -/
theorem MethodRef.marks {ms : List Mention} {base : String} (hbase : Marks v ms base) :
    ∀ method : MethodRef,
      (method.emit base).Yields v fun callee => Marks v (ms ++ method.mentions) callee.1
  | .named name => by
    rw [MethodRef.emit, MethodRef.mentions, List.append_nil]
    exact Operand.marks_namedMethod name hbase
  | .dynamic name => by
    rw [MethodRef.emit]
    exact .bind (name.marks_emitMethod hbase) fun _ h => .after fun _ => .pure h

theorem DynamicName.marks_emitClass :
    ∀ name : DynamicName, name.emitClass.Yields v (Marks v name.mentions)
  | .literal value => .pure (marks_text v _)
  | .field chain => by
    rw [DynamicName.emitClass]
    exact .bind (chain.marks .read) fun _ h => .pure ((h.before _).after _)

theorem DynamicName.marks_emitMethod {ms : List Mention} {base : String} (hbase : Marks v ms base) :
    ∀ name : DynamicName, (name.emitMethod base).Yields v (Marks v (ms ++ name.mentions))
  | .literal value => .pure ((hbase.after _).append (marks_text v _))
  | .field chain => by
    rw [DynamicName.emitMethod]
    exact .bind (chain.marks .read) fun _ h => .pure (((hbase.after _).append h).after _)

/-- Parameters contain what their values mention, whichever way they are passed. -/
theorem CallParameters.marks (callee : Operand.Callee) : ∀ parameters : CallParameters,
    (parameters.emit callee).Yields v (Marks v parameters.mentions)
  | ⟨some single, _, _, _, _, _⟩ => by
    rw [CallParameters.emit]
    exact .bind single.marks fun _ h => Operand.marks_singleParameter callee h
  | ⟨none, exporting, importing, changing, _, _⟩ => by
    rw [CallParameters.emit]
    refine .bind (marks_emitBindings exporting) fun given hgiven => ?_
    refine .bind (marks_emitTargetBindings importing) fun taken htaken => ?_
    refine .bind (marks_emitTargetBindings changing) fun changed hchanged => .pure ?_
    exact ((hgiven.append htaken).append hchanged).bracedIfAny ", "

/-- Each actual parameter contains what its value mentions. -/
theorem marks_emitBindings : ∀ bindings : List Binding,
    (emitBindings bindings).Yields v (MarksAll v (mentionsOfBindings bindings))
  | [] => .pure .nil
  | ⟨name, value⟩ :: rest => by
    rw [emitBindings]
    exact .bind (Emit.marks_named _ value.marks) fun _ hfirst =>
      .bind (marks_emitBindings rest) fun _ hrest => .pure (.cons hfirst hrest)

theorem marks_emitTargetBindings : ∀ bindings : List TargetBinding,
    (emitTargetBindings bindings).Yields v (MarksAll v (mentionsOfTargets bindings))
  | [] => .pure .nil
  | ⟨name, target⟩ :: rest => by
    rw [emitTargetBindings]
    exact .bind (Emit.marks_named _ (target.marks .write)) fun _ hfirst =>
      .bind (marks_emitTargetBindings rest) fun _ hrest => .pure (.cons hfirst hrest)

end

theorem FieldChain.marks_emitTarget (target : FieldChain) :
    target.emitTarget.Yields v (Marks v target.mentions) := target.marks .write

/-- A call of the constructor of the superclass has no receiver in the text. -/
theorem MethodCall.marks_emitStatement (call : MethodCall) :
    call.emitStatement.Yields v (Marks v call.statementMentions) := by
  refine .bind call.marks fun text htext => ?_
  unfold statementMentions
  cases call.parameters.receiving with
  | none => exact .pure (htext.after _)
  | some receiving =>
    refine .bind receiving.target.marks_emitTarget fun target htarget => .pure ?_
    exact ((htarget.after _).append htext).after _

theorem DynamicName.marks_emitText (name : DynamicName) :
    name.emitText.Yields v (Marks v name.mentions) := by
  cases name with
  | literal value => exact .pure (marks_text v _)
  | field chain => exact .bind (chain.marks .read) fun _ h => .pure (h.after _)

/-! ## Conditions -/

namespace Condition

/-- A negation adds no mention. -/
theorem marks_negateIf (negated : Bool) {check : String} (h : Marks v ms check) :
    Marks v ms (negateIf negated check) := by
  cases negated with
  | true => exact h.after _
  | false => exact h

/-- A predicate is a call with its operand. -/
theorem marks_emitPredicate (operand : Source) (predicate : Predicate) (negated : Bool) :
    (emitPredicate operand predicate negated).Yields v (Marks v operand.mentions) :=
  .bind operand.marks fun _ h => .pure (marks_negateIf negated ((h.before _).after _))

theorem marks_emitWithin (operand range : Source) (negated : Bool) :
    (emitWithin operand range negated).Yields v (Marks v (operand.mentions ++ range.mentions)) := by
  refine .bind operand.marks fun _ hoperand => .bind range.marks fun _ hrange => .pure ?_
  exact marks_negateIf negated ((((hoperand.before _).after _).append hrange).after _)

theorem marks_emitCompare (left : Source) (operator : CompareOperator) (right : Source) :
    (emitCompare left operator right).Yields v (Marks v (left.mentions ++ right.mentions)) :=
  .bind left.marks fun _ hleft => .bind right.marks fun _ hright =>
    .pure ((((hleft.before _).after _).append hright).after _)

theorem marks_inParens {text : String} (h : Marks v ms text) : Marks v ms (inParens text) :=
  (h.before _).after _

end Condition

open Condition (marks_inParens)

mutual

/-- A condition contains what its operands mention, in whatever way they are combined. -/
theorem Condition.marks :
    ∀ condition : Condition, condition.emit.Yields v (Marks v condition.mentions)
  | .compare left operator right => Condition.marks_emitCompare left operator right
  | .predicate operand predicate negated => Condition.marks_emitPredicate operand predicate negated
  | .within operand range negated => Condition.marks_emitWithin operand range negated
  | .not (.predicate operand predicate negated) =>
    Condition.marks_emitPredicate operand predicate (!negated)
  | .not (.within operand range negated) => Condition.marks_emitWithin operand range (!negated)
  | .not (.compare left operator right) =>
    .bind (Condition.marks_emitCompare left operator right) fun _ h => .pure (h.before _)
  | .not (.paren inner) => by
    rw [Condition.emit]
    exact .bind inner.marks fun _ h => .pure ((marks_inParens h).before _)
  | .not (.not inner) => by
    rw [Condition.emit]
    · exact .bind (Condition.not inner).marks fun _ h => .pure ((marks_inParens h).before _)
    all_goals simp
  | .not (.and items) => by
    rw [Condition.emit]
    · exact .bind (Condition.and items).marks fun _ h => .pure ((marks_inParens h).before _)
    all_goals simp
  | .not (.or items) => by
    rw [Condition.emit]
    · exact .bind (Condition.or items).marks fun _ h => .pure ((marks_inParens h).before _)
    all_goals simp
  | .not (.unsupported name text span) =>
    .bind (P := fun _ => False) (.fail _) fun _ h => h.elim
  | .and items => by
    rw [Condition.emit]
    exact .bind (marks_emitConjuncts items) fun _ h => .pure (h.intercalate _)
  | .or items => by
    rw [Condition.emit]
    exact .bind (marks_emitDisjuncts items) fun _ h => .pure (h.intercalate _)
  | .paren inner => by
    rw [Condition.emit]
    exact .bind inner.marks fun _ h => .pure (marks_inParens h)
  | .unsupported name text span => .fail _

/-- Conditions that all have to hold keep their mentions, also in parentheses. -/
theorem marks_emitConjuncts : ∀ items : List Condition,
    (emitConjuncts items).Yields v (MarksAll v (mentionsOfConditions items))
  | [] => .pure .nil
  | item :: rest => by
    rw [emitConjuncts]
    refine .bind item.marks fun text htext => ?_
    refine .bind (marks_emitConjuncts rest) fun _ hrest => .pure (.cons ?_ hrest)
    split
    · exact marks_inParens htext
    · exact htext

theorem marks_emitDisjuncts : ∀ items : List Condition,
    (emitDisjuncts items).Yields v (MarksAll v (mentionsOfConditions items))
  | [] => .pure .nil
  | item :: rest => by
    rw [emitDisjuncts]
    exact .bind item.marks fun _ hfirst => .bind (marks_emitDisjuncts rest) fun _ hrest =>
      .pure (.cons hfirst hrest)

end

/-- Whatever a condition on rows mentions stands where the row is bound. -/
theorem Condition.marks_emitRowFilter (condition : Condition) :
    condition.emitRowFilter.Yields v (Marks v condition.rowMentions) :=
  .bind condition.marks fun _ h => .pure (h.bound .row)

end AbapLowering
