import AbapLowering.Emission.Condition
import AbapLowering.Proofs.Blocks.Keeps

/-!
# Operands within a line

The text of every operand, call and condition leads from code to code (`Source.keeps`,
`Condition.keeps`): whatever it opens it closes again, and it breaks no line.
-/

namespace AbapLowering

open Script
open Script.Reading (readLine)
open Emit (Keeps)

-- the theorems of a mutual block hand the wording of the view on to each other
set_option linter.unusedSectionVars false

variable {w : Wording} {v : View}

/-! ## Names -/

/-- The parameter that takes an unnamed argument is one of the importing ones. -/
theorem MethodDefinition.Worded.defaultImporting {m : MethodDefinition} (h : m.Worded w)
    {formal : MethodParameter} (hformal : m.defaultImporting? = some formal) :
    w.Word formal.name := by
  have honly : ∀ {ps : List MethodParameter} {p : MethodParameter},
      MethodDefinition.only? ps = some p → p ∈ ps := by
    intro ps p hp
    unfold MethodDefinition.only? at hp
    split at hp
    next => cases hp; exact List.mem_singleton.mpr rfl
    next => cases hp
  have hmem : formal ∈ m.parameters.filter fun p => p.direction == .importing := by
    rcases Option.or_eq_some_iff.mp hformal with hformal | ⟨-, hformal⟩
    · exact List.mem_of_find?_eq_some hformal
    · rcases Option.or_eq_some_iff.mp hformal with hformal | ⟨-, hformal⟩
      · exact honly hformal
      · exact List.mem_of_mem_filter (honly hformal)
  exact (h.parameters formal (List.mem_of_mem_filter hmem)).name

namespace Operand

/-- The names at the head of a chain. -/
def Head.Worded (w : Wording) (head : Head) : Prop :=
  Inline w head.text ∧ ∀ owner ∈ head.interfaceName, w.Word owner

/-- The names that a call takes from what it calls. -/
def Callee.Worded (w : Wording) : Callee → Prop
  | .dynamic => True
  | .named _ definition => ∀ m ∈ definition, m.Worded w

/-- Options of a substring stand in braces, in parentheses or behind a call. -/
theorem inline_substring (access : Access) {base : String} {options : List String}
    (hbase : Inline w base) (hoptions : InlineAll w options) :
    Inline w (substring access base options) := by
  have hbraced : Inline w (braced ", " options) := hoptions.braced (.fixed rfl)
  unfold substring
  split
  · exact hbase
  · cases access with
    | read => exact ((hbase.andFixed rfl).andInline hbraced).andFixed rfl
    | write =>
      exact ((((Reads.fixed rfl).andInline hbase).andFixed rfl).andInline hbraced).andFixed rfl

/-- A path of components stands on one line. -/
theorem inline_rowComponent {path : List Token} (h : ∀ name ∈ path, w.Word name.text) :
    Inline w (rowComponent path) := by
  unfold rowComponent
  split
  next => exact .fixed rfl
  next first rest =>
    obtain ⟨hfirst, hrest⟩ := List.forall_mem_cons.mp h
    refine .append (.append (.fixed rfl) ?_) (InlineAll.join ?_)
    · split
      · exact .fixed rfl
      · exact (Reads.fixed rfl).andName hfirst.plain rfl
    · exact List.forall_mem_map.mpr fun step hstep =>
        (Reads.fixed rfl).andName (hrest step hstep).plain rfl

/-- Where nothing is passed to the constructor of the superclass, its own parameters are. -/
theorem inline_superCall {parameters : String} (h : Inline w parameters) :
    Inline w ("await super.constructor_("
      ++ (if parameters.isEmpty then "INPUT" else parameters) ++ ")") := by
  split
  · exact .fixed rfl
  · exact ((Reads.fixed rfl).andInline h).andFixed rfl

/-- An unnamed argument is put in braces under the name of its parameter. -/
theorem keeps_singleParameter {callee : Callee} (hcallee : callee.Worded w) {value : String}
    (h : Inline w value) : (singleParameter callee value).Keeps w v (Inline w) := by
  unfold singleParameter
  split
  next => exact .pure h
  next anchor definition =>
    split
    next formal hformal =>
      obtain ⟨m, hm, hformal⟩ := Option.bind_eq_some_iff.mp hformal
      have hname := ((hcallee m hm).defaultImporting hformal).toLower
      exact .pure (((((Reads.fixed rfl).andName hname rfl).andFixed rfl).andInline h).andFixed rfl)
    next => exact .bind (.warn _ _) fun _ _ => .pure h

end Operand

open Operand

section

variable (hv : v.Worded w)

include hv

/-- The owner that qualifies a name is a word. -/
theorem Emit.keeps_qualifiedName {token : Token} (h : w.Word token.text) :
    (Emit.qualifiedName token).Keeps w v (Inline w) := by
  refine .bind (.ask (hv.resolve token)) fun resolution hresolution => ?_
  cases resolution with
  | localName => exact .pure h.plain.inline
  | staticAttribute owner => exact .pure ((hresolution.inline.andFixed rfl).andName h.plain rfl)
  | superReference => exact .pure (.fixed rfl)
  | instanceAttribute => exact .pure ((Reads.fixed rfl).andName h.plain rfl)
  | builtin => exact .pure ((Reads.fixed rfl).andName h.plain rfl)
  | interfaceAttribute owner =>
    refine .bind (.classAddress hv hresolution _) fun _ haddress => .pure ?_
    exact (haddress.andFixed rfl).andName (hresolution.interfaceMember h) rfl
  | foreignAttribute owner =>
    exact .bind (.classAddress hv hresolution _) fun _ haddress =>
      .pure ((haddress.andFixed rfl).andName h.plain rfl)

namespace Operand

/-- A class at the head of a path is addressed by a word or by a quoted key. -/
theorem keeps_classHead {name : Token} (h : w.Word name.text) :
    (classHead name).Keeps w v (Head.Worded w) := by
  refine .bind (.asked _) fun isInterface _ => ?_
  refine .bind (.classAddress hv h _) fun address haddress => .pure ⟨haddress, ?_⟩
  intro owner howner
  dsimp only at howner
  split at howner
  next => cases howner; exact h.toLower
  next => cases howner

/-- The name of a member with its owner is a word. -/
theorem keeps_memberName {name : Token} (h : w.Word name.text) :
    (memberName name).Keeps w v w.Word := by
  refine .bind (.ask (hv.attributeInterface name)) fun owner howner => ?_
  cases owner with
  | none => exact .pure h.plain
  | some owner =>
    refine .pure ?_
    split
    · exact h.plain
    · exact (howner owner rfl).interfaceMember h

/-- The segments of a path are names and calls without arguments. -/
theorem keeps_segment {interfaceName : Option String}
    (howner : ∀ owner ∈ interfaceName, w.Word owner)
    {segment : ChainSegment} (h : segment.Worded w) :
    (Operand.segment interfaceName segment).Keeps w v (Inline w) := by
  match segment, h with
  | .component name, h => exact .pure ((Reads.fixed rfl).andName (Wording.Word.plain h) rfl)
  | .attribute name, h =>
    exact .bind (keeps_memberName hv h) fun _ hname => .pure ((Reads.fixed rfl).andName hname rfl)
  | .static name, h =>
    refine .pure ((Reads.fixed rfl).andName ?_ rfl)
    cases interfaceName with
    | none => exact Wording.Word.plain h
    | some owner => exact (howner owner rfl).interfaceMember h
  | .dereference, _ => exact .pure (.fixed rfl)

/-- A path closes what it opens, segment by segment. -/
theorem keeps_path {head : Head} (hhead : head.Worded w) {segments : List ChainSegment}
    (h : ∀ segment ∈ segments, segment.Worded w) : (path head segments).Keeps w v (Inline w) := by
  refine .bind (.mapM fun segment hsegment => keeps_segment hv hhead.2 (h segment hsegment))
    fun parts hparts => .pure (hhead.1.append ?_)
  exact InlineAll.join hparts

/-- The definition of the method that is found is worded as those of the view are. -/
theorem keeps_namedMethod {base : String} (hbase : Inline w base) {name : Token}
    (h : w.Word name.text) : (namedMethod base name).Keeps w v fun callee =>
      Inline w callee.1 ∧ callee.2.Worded w := by
  refine .bind (.ask (hv.methodReference name)) fun reference hreference => ?_
  cases reference with
  | none => exact .pure ⟨(hbase.andFixed rfl).andName h.plain rfl, nofun⟩
  | some reference =>
    obtain ⟨hname, hdefinition⟩ := hreference reference rfl
    refine .pure ⟨(hbase.andFixed rfl).andName hname rfl, ?_⟩
    rintro m ⟨⟩
    exact hdefinition

end Operand

end

/-! ## Operands -/

/-- A literal without breaks stands within a line. -/
theorem Constant.keeps {value : Constant} (h : value.Unbroken) :
    value.emit.Keeps w v (Inline w) := by
  match value, h with
  | .integer value, _ => exact .mono (.integer value) fun _ h => h.inline
  | .text raw, h =>
    refine .pure ((((Reads.fixed rfl).andName (Wording.word_toString _) rfl).andFixed rfl).andFixed
      (readLine_quoted h) |>.andFixed rfl)
  | .backtick raw, h => exact .pure (((Reads.fixed rfl).andFixed (readLine_string h)).andFixed rfl)

/-- Arithmetic operators are named by words. -/
theorem ArithmeticOperator.word_name (operator : ArithmeticOperator) : w.Word operator.name := by
  cases operator <;> exact .of_strict (by decide)

theorem CompareOperator.word_name (operator : CompareOperator) : w.Word operator.name := by
  cases operator <;> exact .of_strict (by decide)

/-- Predicates are named by words. -/
theorem Predicate.word_name (predicate : Predicate) : w.Word predicate.name := by
  cases predicate <;> exact .of_strict (by decide)

/-- A call of a function with one text. -/
theorem Script.Inline.applied {function argument : String} (hfunction : Inline w function)
    (h : Inline w argument) : Inline w (function ++ "(" ++ argument ++ ")") :=
  ((hfunction.andFixed rfl).andInline h).andFixed rfl

section

variable (hv : v.Worded w)

include hv

mutual

/-- The text of an operand stands within a line and closes what it opens. -/
theorem Source.keeps : ∀ source : Source, source.Worded w → source.emit.Keeps w v (Inline w)
  | .constant _, h => Constant.keeps h
  | .template parts, h => by
    rw [Source.emit]
    refine .bind (keeps_emitTemplate parts _ h (.inl rfl)) fun text htext => .pure ?_
    obtain ⟨m, hm, htext⟩ := htext
    have hend : readLine ⟨m, []⟩ "\x60" = some Reading.start := by rcases hm with rfl | rfl <;> rfl
    have hquoted : Inline w (Literal.backticked text) :=
      ((Reads.fixed rfl).append htext).andFixed hend
    exact ((Reads.fixed rfl).andInline hquoted).andFixed rfl
  | .field chain, h => by
    rw [Source.emit]
    exact chain.keeps .read h
  | .call call, h => by
    rw [Source.emit]
    exact call.keeps h
  | .builtin name (some single) _, ⟨hname, hsingle⟩ => by
    rw [Source.emit]
    exact .bind (single.keeps hsingle) fun _ htext => .pure
      (((((Reads.fixed rfl).andName hname.plain rfl).andFixed rfl).andInline htext).andFixed rfl)
  | .builtin name none parameters, ⟨hname, hparameters⟩ => by
    rw [Source.emit]
    exact .bind (keeps_emitBindings parameters hparameters) fun _ hparts =>
      .pure (.applied ((Reads.fixed rfl).andName hname.plain rfl)
        (hparts.bracedIfAny (.fixed rfl)))
  | .arithmetic left operator right, ⟨hleft, hright⟩ => by
    rw [Source.emit]
    refine .bind (left.keeps hleft) fun _ hfirst => .bind (right.keeps hright) fun _ hsecond =>
      .pure ?_
    have hfunction : Inline w ("abap.operators." ++ operator.name) :=
      (Reads.fixed rfl).andName operator.word_name rfl
    exact ((((hfunction.andFixed rfl).andInline hfirst).andFixed rfl).andInline hsecond).andFixed
      rfl
  | .component path, h => .pure (inline_rowComponent h)
  | .unsupported name text span, _ => .fail _

/-- The pieces of a template lead from one place of it to another. -/
theorem keeps_emitTemplate : ∀ (parts : List TemplatePart) (m : Mode), partsWorded w m parts →
    m.IsTemplate → (emitTemplate parts).Keeps w v fun text =>
      ∃ m' : Mode, m'.IsTemplate ∧ Reads w ⟨m, []⟩ text ⟨m', []⟩
  | [], m, _, hm => .pure ⟨m, hm, .fixed rfl⟩
  | part :: rest, m, ⟨m', hpart, hrest⟩, hm => by
    rw [emitTemplate]
    refine .bind (part.keeps hpart hm) fun first ⟨hm', hfirst⟩ => ?_
    refine .bind (keeps_emitTemplate rest m' hrest hm') fun text htext => .pure ?_
    obtain ⟨m'', hm'', htext⟩ := htext
    exact ⟨m'', hm'', hfirst.append htext⟩

/-- The texts of a template are read in the mode of templates, in which operands open code. -/
theorem TemplatePart.keeps {m m' : Mode} : ∀ part : TemplatePart, part.Worded w m m' →
    m.IsTemplate → part.emit.Keeps w v fun text => m'.IsTemplate ∧ Reads w ⟨m, []⟩ text ⟨m', []⟩
  | .text raw, h, hm => .pure ⟨Wording.Part.isTemplate h, .part hm h⟩
  | .embed source, ⟨h, hm'⟩, hm => by
    rw [TemplatePart.emit]
    refine .bind (source.keeps h) fun _ htext => .pure ⟨.inl hm', ?_⟩
    have hopen : readLine ⟨m, []⟩ "$\x7b" = some ⟨.code, [.substitution]⟩ := by
      rcases hm with rfl | rfl <;> rfl
    rw [hm']
    exact ((Reads.fixed hopen).andInline htext).andFixed rfl

/-- A chain stands within a line, with its offset and its length. -/
theorem FieldChain.keeps (access : Access) : ∀ chain : FieldChain, chain.Worded w →
    (chain.emit access).Keeps w v (Inline w)
  | ⟨head, segments, offset, length⟩, ⟨hhead, hsegments, hoffset, hlength⟩ => by
    rw [FieldChain.emit]
    refine .bind (head.keeps hhead) fun start hstart => ?_
    refine .bind (keeps_path hv hstart hsegments) fun base hbase => ?_
    refine .bind (keeps_emitOffset offset hoffset) fun first hfirst => ?_
    refine .bind (keeps_emitLength length hlength) fun second hsecond => .pure ?_
    exact inline_substring access hbase (hfirst.append hsecond)

/-- A head is a name or a call, and knows the interface its segments come from. -/
theorem ChainHead.keeps : ∀ head : ChainHead, head.Worded w → head.emit.Keeps w v (Head.Worded w)
  | .field _, h => .bind (Emit.keeps_qualifiedName hv h) fun _ htext => .pure ⟨htext, nofun⟩
  | .fieldSymbol _, h => .pure ⟨(Wording.Word.fieldSymbol h).inline, nofun⟩
  | .classRef _, h => keeps_classHead hv h
  | .call call, h => by
    rw [ChainHead.emit]
    exact .bind (call.keeps h) fun _ htext =>
      .pure ⟨((Reads.fixed rfl).andInline htext).andFixed rfl, nofun⟩

/-- An offset is an option by name. -/
theorem keeps_emitOffset : ∀ offset : Option Offset, offsetWorded w offset →
    (emitOffset offset).Keeps w v (InlineAll w)
  | none, _ => .pure .nil
  | some (.literal _), _ =>
    .pure (.single ((Reads.fixed rfl).andName (Wording.word_toString _) rfl))
  | some (.field chain), h => by
    rw [emitOffset]
    exact .bind (chain.keeps .read h) fun _ htext =>
      .pure (.single (((Reads.fixed rfl).andInline htext).andFixed rfl))

theorem keeps_emitLength : ∀ length : Option Length, lengthWorded w length →
    (emitLength length).Keeps w v (InlineAll w)
  | none, _ => .pure .nil
  | some (.literal _), _ =>
    .pure (.single ((Reads.fixed rfl).andName (Wording.word_toString _) rfl))
  | some (.field chain), h => by
    rw [emitLength]
    exact .bind (chain.keeps .read h) fun _ htext =>
      .pure (.single (((Reads.fixed rfl).andInline htext).andFixed rfl))
  | some .rest, _ => .pure .nil

/-- A call closes the parentheses that it opens. -/
theorem MethodCall.keeps : ∀ call : MethodCall, call.Worded w → call.emit.Keeps w v (Inline w)
  | ⟨receiver, method, parameters⟩, ⟨hreceiver, hmethod, hparameters⟩ => by
    rw [MethodCall.emit.eq_def]
    -- all calls but that of the superclass constructor go on from their receiver in this way
    have hrest : ∀ base : String, Inline w base → Keeps w v (do
        let callee ← method.emit base
        return "await " ++ callee.1 ++ "(" ++ (← parameters.emit callee.2) ++ ")") (Inline w) := by
      intro base hbase
      refine .bind (method.keeps hmethod hbase) fun callee ⟨hcallee, hdefinition⟩ => ?_
      exact .bind (parameters.keeps hparameters hdefinition) fun _ htext =>
        .pure (((((Reads.fixed rfl).andInline hcallee).andFixed rfl).andInline htext).andFixed rfl)
    split
    next name given heq =>
      cases heq
      split
      · exact .bind (parameters.keeps hparameters nofun) fun _ htext =>
          .pure (inline_superCall htext)
      · exact hrest "super" (.fixed rfl)
    next heq =>
      cases heq
      exact .bind (receiver.keeps hreceiver) hrest

/-- What a method is called on stands within a line. -/
theorem Receiver.keeps : ∀ receiver : Receiver, receiver.Worded w →
    receiver.emit.Keeps w v (Inline w)
  | .implicit, _ => .pure (.fixed rfl)
  | .object chain, h => by
    rw [Receiver.emit]
    exact .bind (chain.keeps .read h) fun _ htext => .pure (htext.andFixed rfl)
  | .static _, h => .classAddress hv h _
  | .super, _ => .pure (.fixed rfl)
  | .dynamic name, h => by
    rw [Receiver.emit]
    exact .bind (name.keeps_emitClass h) fun _ htext =>
      .bind (.requireTarget _ htext) fun _ _ => .pure htext

/-- The method of a call is named by a word, or looked up in brackets. -/
theorem MethodRef.keeps {base : String} : ∀ method : MethodRef, method.Worded w → Inline w base →
    (method.emit base).Keeps w v fun callee => Inline w callee.1 ∧ callee.2.Worded w
  | .named name, h, hbase => by
    rw [MethodRef.emit]
    exact keeps_namedMethod hv hbase h
  | .dynamic name, h, hbase => by
    rw [MethodRef.emit]
    exact .bind (name.keeps_emitMethod h hbase) fun _ htext =>
      .bind (.requireTarget _ htext) fun _ _ => .pure ⟨htext, trivial⟩

/-- A class that is named at run time is looked up in brackets, and the guard for it is queued. -/
theorem DynamicName.keeps_emitClass : ∀ name : DynamicName, name.Worded w →
    name.emitClass.Keeps w v (Inline w)
  | .literal _, h => .pure (Wording.Word.trim h).toUpper.inline_lookup
  | .field chain, h => by
    rw [DynamicName.emitClass]
    exact .bind (chain.keeps .read h) fun _ htext =>
      .pure (((Reads.fixed rfl).andInline htext).andFixed rfl)

theorem DynamicName.keeps_emitMethod {base : String} : ∀ name : DynamicName, name.Worded w →
    Inline w base → (name.emitMethod base).Keeps w v (Inline w)
  | .literal _, h, hbase => .pure ((hbase.andFixed rfl).andName (Wording.Word.trim h).plain rfl)
  | .field chain, h, hbase => by
    rw [DynamicName.emitMethod]
    exact .bind (chain.keeps .read h) fun _ htext =>
      .pure (((hbase.andFixed rfl).andInline htext).andFixed rfl)

/-- Parameters stand in braces that are closed again. -/
theorem CallParameters.keeps {callee : Callee} : ∀ parameters : CallParameters,
    parameters.Worded w → callee.Worded w → (parameters.emit callee).Keeps w v (Inline w)
  | ⟨some single, _, _, _, _, _⟩, ⟨h, _⟩, hcallee => by
    rw [CallParameters.emit]
    exact .bind (single.keeps h) fun _ htext => keeps_singleParameter hcallee htext
  | ⟨none, exporting, importing, changing, _, _⟩, ⟨_, hexporting, himporting, hchanging, _⟩, _ => by
    rw [CallParameters.emit]
    refine .bind (keeps_emitBindings exporting hexporting) fun given hgiven => ?_
    refine .bind (keeps_emitTargetBindings importing himporting) fun taken htaken => ?_
    refine .bind (keeps_emitTargetBindings changing hchanging) fun changed hchanged => .pure ?_
    exact ((hgiven.append htaken).append hchanged).bracedIfAny (.fixed rfl)

/-- Each actual parameter stands within a line. -/
theorem keeps_emitBindings : ∀ bindings : List Binding, bindingsWorded w bindings →
    (emitBindings bindings).Keeps w v (InlineAll w)
  | [], _ => .pure .nil
  | ⟨name, value⟩ :: rest, ⟨hname, hvalue, hrest⟩ => by
    rw [emitBindings]
    exact .bind (.named hname.toLower.inline (value.keeps hvalue)) fun _ hfirst =>
      .bind (keeps_emitBindings rest hrest) fun _ hparts => .pure (.cons hfirst hparts)

theorem keeps_emitTargetBindings : ∀ bindings : List TargetBinding, targetsWorded w bindings →
    (emitTargetBindings bindings).Keeps w v (InlineAll w)
  | [], _ => .pure .nil
  | ⟨name, target⟩ :: rest, ⟨hname, htarget, hrest⟩ => by
    rw [emitTargetBindings]
    exact .bind (.named hname.toLower.inline (target.keeps .write htarget)) fun _ hfirst =>
      .bind (keeps_emitTargetBindings rest hrest) fun _ hparts => .pure (.cons hfirst hparts)

end

theorem FieldChain.keeps_emitTarget {target : FieldChain} (h : target.Worded w) :
    target.emitTarget.Keeps w v (Inline w) := target.keeps hv .write h

/-- A call that stands as a statement is one line. -/
theorem MethodCall.keeps_emitStatement {call : MethodCall} (h : call.Worded w) :
    call.emitStatement.Keeps w v (Inline w) := by
  refine .bind (call.keeps hv h) fun text htext => ?_
  obtain ⟨receiver, method, ⟨single, exporting, importing, changing, receiving, exceptions⟩⟩ := call
  obtain ⟨-, -, -, -, -, -, hreceiving⟩ := h
  match receiving, hreceiving with
  | none, _ => exact .pure (htext.andFixed rfl)
  | some ⟨_, target⟩, hreceiving =>
    refine .bind (FieldChain.keeps_emitTarget hv hreceiving) fun target htarget => .pure ?_
    exact ((htarget.andFixed rfl).andInline htext).andFixed rfl

theorem DynamicName.keeps_emitText {name : DynamicName} (h : name.Worded w) :
    name.emitText.Keeps w v (Inline w) := by
  match name, h with
  | .literal _, h => exact .pure (.fixed (readLine_quoted (Wording.Word.isUnbroken h)))
  | .field chain, h =>
    exact .bind (chain.keeps hv .read h) fun _ htext => .pure (htext.andFixed rfl)

end

/-! ## Conditions -/

namespace Condition

/-- A negation puts parentheses around what it negates. -/
theorem inline_negateIf (negated : Bool) {check : String} (h : Inline w check) :
    Inline w (negateIf negated check) := by
  cases negated with
  | true => exact h.andFixed rfl
  | false => exact h

theorem inline_inParens {text : String} (h : Inline w text) : Inline w (inParens text) :=
  ((Reads.fixed rfl).andInline h).andFixed rfl

end Condition

section

variable (hv : v.Worded w)

include hv

namespace Condition

theorem keeps_emitPredicate {operand : Source} (h : operand.Worded w) (predicate : Predicate)
    (negated : Bool) : (emitPredicate operand predicate negated).Keeps w v (Inline w) :=
  .bind (operand.keeps hv h) fun _ htext => .pure (inline_negateIf negated
    (.applied ((Reads.fixed rfl).andName predicate.word_name rfl) htext))

theorem keeps_emitWithin {operand range : Source} (hoperand : operand.Worded w)
    (hrange : range.Worded w) (negated : Bool) :
    (emitWithin operand range negated).Keeps w v (Inline w) := by
  refine .bind (operand.keeps hv hoperand) fun _ hfirst => .bind (range.keeps hv hrange)
    fun _ hsecond => .pure (inline_negateIf negated ?_)
  exact ((((Reads.fixed rfl).andInline hfirst).andFixed rfl).andInline hsecond).andFixed rfl

/-- A comparison is a call with two operands. -/
theorem keeps_emitCompare {left right : Source} (hleft : left.Worded w) (hright : right.Worded w)
    (operator : CompareOperator) : (emitCompare left operator right).Keeps w v (Inline w) := by
  refine .bind (left.keeps hv hleft) fun _ hfirst => .bind (right.keeps hv hright)
    fun _ hsecond => .pure ?_
  have hfunction : Inline w ("abap.compare." ++ operator.name) :=
    (Reads.fixed rfl).andName operator.word_name rfl
  exact ((((hfunction.andFixed rfl).andInline hfirst).andFixed rfl).andInline hsecond).andFixed rfl

end Condition

open Condition

mutual

/-- A condition stands within a line and closes what it opens. -/
theorem Condition.keeps : ∀ condition : Condition, condition.Worded w →
    condition.emit.Keeps w v (Inline w)
  | .compare _ operator _, ⟨hleft, hright⟩ => keeps_emitCompare hv hleft hright operator
  | .predicate _ property negated, h => keeps_emitPredicate hv h property negated
  | .within _ _ negated, ⟨hoperand, hrange⟩ => keeps_emitWithin hv hoperand hrange negated
  | .not (.predicate _ property negated), h => keeps_emitPredicate hv h property (!negated)
  | .not (.within _ _ negated), ⟨hoperand, hrange⟩ =>
    keeps_emitWithin hv hoperand hrange (!negated)
  | .not (.compare _ operator _), ⟨hleft, hright⟩ =>
    .bind (keeps_emitCompare hv hleft hright operator) fun _ h =>
      .pure ((Reads.fixed rfl).andInline h)
  | .not (.paren inner), h => by
    rw [Condition.emit]
    exact .bind (inner.keeps h) fun _ htext =>
      .pure ((Reads.fixed rfl).andInline (inline_inParens htext))
  | .not (.not inner), h => by
    rw [Condition.emit]
    · exact .bind ((Condition.not inner).keeps h) fun _ htext =>
        .pure ((Reads.fixed rfl).andInline (inline_inParens htext))
    all_goals simp
  | .not (.and items), h => by
    rw [Condition.emit]
    · exact .bind ((Condition.and items).keeps h) fun _ htext =>
        .pure ((Reads.fixed rfl).andInline (inline_inParens htext))
    all_goals simp
  | .not (.or items), h => by
    rw [Condition.emit]
    · exact .bind ((Condition.or items).keeps h) fun _ htext =>
        .pure ((Reads.fixed rfl).andInline (inline_inParens htext))
    all_goals simp
  | .not (.unsupported name text span), _ =>
    .bind (P := fun _ => False) (.fail _) fun _ h => h.elim
  | .and items, h => by
    rw [Condition.emit]
    exact .bind (keeps_emitConjuncts items h) fun _ htexts =>
      .pure (InlineAll.intercalate htexts (.fixed rfl))
  | .or items, h => by
    rw [Condition.emit]
    exact .bind (keeps_emitDisjuncts items h) fun _ htexts =>
      .pure (InlineAll.intercalate htexts (.fixed rfl))
  | .paren inner, h => by
    rw [Condition.emit]
    exact .bind (inner.keeps h) fun _ htext => .pure (inline_inParens htext)
  | .unsupported name text span, _ => .fail _

/-- Conditions that all have to hold are put in parentheses where needed. -/
theorem keeps_emitConjuncts : ∀ items : List Condition, conditionsWorded w items →
    (emitConjuncts items).Keeps w v (InlineAll w)
  | [], _ => .pure .nil
  | item :: rest, ⟨hitem, hrest⟩ => by
    rw [emitConjuncts]
    refine .bind (item.keeps hitem) fun text htext => ?_
    refine .bind (keeps_emitConjuncts rest hrest) fun _ htexts => .pure (.cons ?_ htexts)
    split
    · exact inline_inParens htext
    · exact htext

theorem keeps_emitDisjuncts : ∀ items : List Condition, conditionsWorded w items →
    (emitDisjuncts items).Keeps w v (InlineAll w)
  | [], _ => .pure .nil
  | item :: rest, ⟨hitem, hrest⟩ => by
    rw [emitDisjuncts]
    exact .bind (item.keeps hitem) fun _ hfirst => .bind (keeps_emitDisjuncts rest hrest)
      fun _ htexts => .pure (.cons hfirst htexts)

end

/-- A condition on rows is a function, which closes what it opens. -/
theorem Condition.keeps_emitRowFilter {condition : Condition} (h : condition.Worded w) :
    condition.emitRowFilter.Keeps w v (Inline w) :=
  .bind (condition.keeps hv h) fun _ htext =>
    .pure (((Reads.fixed rfl).andInline htext).andFixed rfl)

end

end AbapLowering
