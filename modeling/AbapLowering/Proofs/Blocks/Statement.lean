import AbapLowering.Emission.Statement
import AbapLowering.Proofs.Blocks.Operand

/-!
# Statements that leave the blocks alone

The code of a statement that neither opens nor closes a block is one line, or several lines, that
leads from code to code: runtime types, data objects, texts, tables and calls. Whatever such a line
opens, as the options of a call or the function of a row, it closes again.
-/

namespace AbapLowering

open Script
open Script.Reading (readLine)
open Emit (Keeps)

variable {w : Wording} {v : View}

/-! ## Types -/

namespace DataType

/-- The options of a constructor are a number, a quoted name, or both. -/
theorem inline_constructorOptions (length : Option UInt32) {name : Option String}
    (h : ∀ n ∈ name, w.Word n) : Inline w (constructorOptions length name) := by
  refine InlineAll.bracedIfAny (.append ?_ ?_) (.fixed rfl)
  · cases length with
    | none => exact .nil
    | some n => exact .single ((Reads.fixed rfl).andName (Wording.word_toString n.toNat) rfl)
  · cases name with
    | none => exact .nil
    | some n =>
      exact .single (((Reads.fixed rfl).andName (h n rfl).toUpper rfl).andFixed rfl)

/-- A constructor is its kind with its arguments in parentheses. -/
theorem inline_construct {kind arguments : String} (hkind : readLine .start kind = some .start)
    (h : Inline w arguments) : Inline w (construct kind arguments) :=
  .applied ((Reads.fixed rfl).andFixed hkind) h

/-- The options of a table are written as JSON. -/
theorem inline_tableOptions (options : TableOptions) : Inline w (encode options).compact := by
  have hboolean : ∀ b : Bool, Inline w (encode b).compact := by
    intro b
    cases b <;> exact .fixed rfl
  have hfield : ∀ {key text : String}, Inline w text → Inline w (Json.quote key ++ ":" ++ text) :=
    fun h => ((Reads.fixed (readLine_jsonQuote _)).andFixed rfl).andInline h
  have hkeys : InlineAll w (Json.compactItems (options.keyFields.map encode)) := by
    induction options.keyFields with
    | nil => exact .nil
    | cons key rest ih => exact .cons (.fixed (readLine_jsonQuote key)) ih
  have hlist : Inline w (encode options.keyFields).compact :=
    ((Reads.fixed rfl).andInline (hkeys.intercalate (.fixed rfl))).andFixed rfl
  have hfields : InlineAll w (Json.compactFields [("withHeader", encode options.withHeader),
      ("type", encode options.kind), ("isUnique", encode options.isUnique),
      ("keyFields", encode options.keyFields)]) :=
    .cons (hfield (hboolean _)) <| .cons (hfield (.fixed (readLine_jsonQuote _))) <|
      .cons (hfield (hboolean _)) <| .single (hfield hlist)
  exact hfields.braced (.fixed rfl)

theorem ok_of_bind {α β : Type} {m : Except Unresolved α} {f : α → Except Unresolved β} {b : β}
    (h : m >>= f = .ok b) : ∃ a, m = .ok a ∧ f a = .ok b := by
  cases m with
  | error => cases h
  | ok a => exact ⟨a, rfl, h⟩

mutual

/-- The constructor of a type stands on one line and closes what it opens. -/
theorem inline_constructor {lenient : Bool} {text : String} : ∀ type : DataType, type.Worded w →
    type.constructor lenient = .ok text → Inline w text
  | .integer _, h, rfl => inline_construct rfl (inline_constructorOptions none h)
  | .character _ _, h, rfl => inline_construct rfl (inline_constructorOptions _ h)
  | .string _, h, rfl => inline_construct rfl (inline_constructorOptions none h)
  | .xString, _, rfl => .fixed rfl
  | .hex length, _, rfl => inline_construct rfl (inline_constructorOptions (some length) nofun)
  | .packed length decimals, _, rfl => by
    have hlengths : Reads w .start
        ("\x7blength: " ++ toString length ++ ", decimals: " ++ toString decimals)
        ⟨.code, [.brace]⟩ :=
      (((Reads.fixed rfl).andName (Wording.word_toString length.toNat) rfl).andFixed rfl).andName
        (Wording.word_toString decimals.toNat) rfl
    exact inline_construct rfl (hlengths.andFixed rfl)
  | .float, _, rfl => .fixed rfl
  | .date, _, rfl => .fixed rfl
  | .time, _, rfl => .fixed rfl
  | .numc length, _, rfl => inline_construct rfl (inline_constructorOptions (some length) nofun)
  | .structured components _, h, hok => by
    obtain ⟨fields, hfields, hok⟩ := ok_of_bind hok
    cases hok
    exact inline_construct rfl
      ((inline_componentConstructors components h hfields).braced (.fixed rfl))
  | .table row options, h, hok => by
    obtain ⟨text, hrow, hok⟩ := ok_of_bind hok
    cases hok
    exact inline_construct rfl
      (((inline_constructor row h hrow).andFixed rfl).andInline (inline_tableOptions options))
  | .dataReference target, h, hok => by
    obtain ⟨text, htarget, hok⟩ := ok_of_bind hok
    cases hok
    exact inline_construct rfl (inline_constructor target h htarget)
  | .objectReference _, _, rfl => .fixed rfl
  | .generic _, _, rfl => .fixed rfl
  | .unknown _ _, _, hok => by
    rw [constructor] at hok
    split at hok
    next => cases hok; exact .fixed rfl
    next => cases hok

/-- Components of a structure are named constructors. -/
theorem inline_componentConstructors {lenient : Bool} {texts : List String} :
    ∀ components : List Component, componentsWorded w components →
      componentConstructors lenient components = .ok texts → InlineAll w texts
  | [], _, rfl => .nil
  | ⟨name, type⟩ :: rest, ⟨hname, htype, hrest⟩, hok => by
    obtain ⟨text, hfirst, hok⟩ := ok_of_bind hok
    obtain ⟨others, hothers, hok⟩ := ok_of_bind hok
    cases hok
    refine .cons ?_ (inline_componentConstructors rest hrest hothers)
    exact (hname.toLower.inline.andFixed rfl).andInline (inline_constructor type htype hfirst)

end

end DataType

/-- What is emitted for a type is its constructor. -/
theorem Emit.keeps_typeConstructor {type : DataType} (h : type.Worded w) :
    (Emit.typeConstructor type).Keeps w v (Inline w) := by
  refine .of_frame fun config s text s' hrun => ?_
  obtain ⟨rfl, htext⟩ := Emit.typeConstructor_eq_ok hrun
  exact ⟨rfl, rfl, type.inline_constructor h htext⟩

/-- A part under a fixed label. -/
theorem Script.Inline.labelled {text : String} (h : Inline w text) (label : String)
    (hlabel : readLine .start label = some .start) : Inline w (label ++ text) :=
  (Reads.fixed hlabel).andInline h

/-- Two parts with a fixed text between them. -/
theorem Script.Inline.joined {first between second : String} (h : Inline w first)
    (hbetween : readLine .start between = some .start) (h' : Inline w second) :
    Inline w (first ++ between ++ second) := (h.andFixed hbetween).andInline h'

section

variable (hv : v.Worded w)

include hv

/-! ## Data objects -/

namespace DataObject

/-- A `MOVE` stands on one line and closes what it opens. -/
theorem keeps_move {source : Source} {target : FieldChain} (hsource : source.Worded w)
    (htarget : target.Worded w) : (move source target).Keeps w v (Inline w) := by
  refine .bind (source.keeps hv hsource) fun value hvalue => ?_
  refine .bind (FieldChain.keeps_emitTarget hv htarget) fun place hplace => .pure ?_
  exact (hplace.joined rfl hvalue).andFixed rfl

/-- The target of an arithmetic statement is read and set on the same line. -/
theorem keeps_arithmetic (verb : ArithmeticVerb) {source : Source} {target : FieldChain}
    (hsource : source.Worded w) (htarget : target.Worded w) :
    (arithmetic verb source target).Keeps w v (Inline w) := by
  refine .bind (target.keeps hv .read htarget) fun current hcurrent => ?_
  refine .bind (source.keeps hv hsource) fun value hvalue => ?_
  refine .bind (FieldChain.keeps_emitTarget hv htarget) fun place hplace => .pure ?_
  have hcall : Inline w (place ++ ".set(abap.operators." ++ verb.operator.name) :=
    Inline.andWord (hplace.andFixed rfl) (ArithmeticOperator.word_name _)
  exact ((((hcall.andFixed rfl).andInline hcurrent).andFixed rfl).andInline hvalue).andFixed rfl

theorem keeps_clear {target : FieldChain} (h : target.Worded w) :
    (clear target).Keeps w v (Inline w) :=
  .bind (FieldChain.keeps_emitTarget hv h) fun _ htext => .pure (htext.runtimeCall rfl)

theorem keeps_moveCorresponding {source : Source} {target : FieldChain}
    (hsource : source.Worded w) (htarget : target.Worded w) :
    (moveCorresponding source target).Keeps w v (Inline w) := by
  refine .bind (source.keeps hv hsource) fun value hvalue => ?_
  refine .bind (FieldChain.keeps_emitTarget hv htarget) fun place hplace => .pure ?_
  exact (hvalue.joined rfl hplace).runtimeCall rfl

/-- A pointer is taken on the line of the assignment. -/
theorem keeps_assigned {source : Source} (h : source.Worded w) :
    (assigned source).Keeps w v (Inline w) := by
  unfold assigned
  split
  next chain =>
    rw [Source.Worded] at h
    split
    · obtain ⟨head, segments, offset, length⟩ := chain
      obtain ⟨hhead, hsegments, hrest⟩ := h
      refine .bind (FieldChain.keeps hv .read _ ⟨hhead, ?_, hrest⟩) fun pointer hpointer =>
        .pure (((Reads.fixed rfl).andInline hpointer).andFixed rfl)
      exact fun segment hsegment => hsegments segment ((List.dropLast_sublist _).mem hsegment)
    · exact chain.keeps hv .read h
  next => exact Source.keeps hv _ h

/-- Whether a cast is made shows as a fixed text. -/
theorem keeps_assign {source : Source} {target : FieldChain} (hsource : source.Worded w)
    (htarget : target.Worded w) (casting : Bool) :
    (assign source target casting).Keeps w v (Inline w) := by
  refine .bind (FieldChain.keeps_emitTarget hv htarget) fun place hplace => ?_
  refine .bind (keeps_assigned hv hsource) fun value hvalue => .pure ?_
  have hparts := InlineAll.cons (hplace.labelled "target: " rfl)
    (.single (hvalue.labelled "source: " rfl))
  exact ((hparts.append (.partIf (.fixed rfl))).braced (.fixed rfl)).runtimeCall rfl

theorem keeps_getReference {source : Source} {target : FieldChain} (hsource : source.Worded w)
    (htarget : target.Worded w) : (getReference source target).Keeps w v (Inline w) := by
  refine .bind (source.keeps hv hsource) fun value hvalue => ?_
  refine .bind (FieldChain.keeps_emitTarget hv htarget) fun place hplace => .pure ?_
  have hpointer : Inline w (if isFieldSymbol source then value ++ ".getPointer()" else value) := by
    split
    · exact hvalue.andFixed rfl
    · exact hvalue
  exact (hplace.joined rfl hpointer).andFixed rfl

/-- The name of a type is quoted, so its text cannot open anything. -/
theorem keeps_typeName {name : DynamicName} (h : name.Worded w) :
    (typeName name).Keeps w v (Inline w) := by
  cases name with
  | literal text => exact .pure (.fixed (readLine_quoted (Wording.Word.isUnbroken h)))
  | field chain =>
    exact .bind (chain.keeps hv .read h) fun _ htext => .pure (htext.andFixed rfl)

/-- Every form of `CREATE DATA` stands on one line. -/
theorem keeps_create {target : FieldChain} {spec : CreateDataSpec} (htarget : target.Worded w)
    (hspec : spec.Worded w) : (create target spec).Keeps w v (Inline w) := by
  refine .bind (FieldChain.keeps_emitTarget hv htarget) fun place hplace => ?_
  cases spec with
  | type named =>
    exact .bind (Emit.keeps_typeConstructor hspec) fun _ htype =>
      .pure ((hplace.joined rfl htype).andFixed rfl)
  | dynamic name table =>
    refine .bind (keeps_typeName hv hspec) fun _ hname => .pure (Inline.runtimeCall ?_ rfl)
    have hparts := InlineAll.single (hname.labelled "\"name\": " rfl)
    exact hplace.joined rfl ((hparts.append (.partIf (.fixed rfl))).braced (.fixed rfl))
  | likeLineOf source =>
    refine .bind (source.keeps hv hspec) fun _ hvalue => .pure (Inline.runtimeCall ?_ rfl)
    exact ((hplace.andFixed rfl).andInline hvalue).andFixed rfl
  | like source =>
    refine .bind (source.keeps hv hspec) fun _ hvalue => .pure (Inline.runtimeCall ?_ rfl)
    exact ((hplace.andFixed rfl).andInline hvalue).andFixed rfl

end DataObject

/-! ## Character processing -/

/-- The results of operands that are emitted one after the other. -/
theorem keeps_sources {sources : List Source} (h : ∀ source ∈ sources, source.Worded w) :
    (sources.mapM Source.emit).Keeps w v (InlineAll w) :=
  .mapM fun source hsource => source.keeps hv (h source hsource)

/-- The fields that are set each stand within a line. -/
theorem keeps_targets {targets : List FieldChain} (h : ∀ target ∈ targets, target.Worded w) :
    (targets.mapM FieldChain.emitTarget).Keeps w v (InlineAll w) :=
  .mapM fun target htarget => FieldChain.keeps_emitTarget hv (h target htarget)

/-- A named operand that may be given. -/
theorem keeps_sourceIfGiven {key : String} (hkey : Inline w key) {source : Option Source}
    (h : ∀ s ∈ source, s.Worded w) :
    (Emit.namedIfGiven key source Source.emit).Keeps w v (InlineAll w) :=
  .namedIfGiven hkey fun s hs => s.keeps hv (h s hs)

/-- An optional field to set is given under a name or left out. -/
theorem keeps_targetIfGiven {key : String} (hkey : Inline w key) {target : Option FieldChain}
    (h : ∀ t ∈ target, t.Worded w) :
    (Emit.namedIfGiven key target FieldChain.emitTarget).Keeps w v (InlineAll w) :=
  .namedIfGiven hkey fun t ht => FieldChain.keeps_emitTarget hv (h t ht)

/-- A filter of rows is a function on the same line. -/
theorem keeps_filterIfGiven {key : String} (hkey : Inline w key) {filter : Option Condition}
    (h : ∀ c ∈ filter, c.Worded w) :
    (Emit.namedIfGiven key filter Condition.emitRowFilter).Keeps w v (InlineAll w) :=
  .namedIfGiven hkey fun c hc => c.keeps_emitRowFilter hv (h c hc)

omit hv in
/-- The texts of truth values are words. -/
theorem word_toString_bool (b : Bool) : w.Word (toString b) := by
  cases b <;> exact .of_strict (by decide)

namespace CharacterProcessing

/-- The sources stand in a list on one line. -/
theorem keeps_concatenate {sources : List Source} {target : FieldChain}
    {separatedBy : Option Source} (hsources : ∀ source ∈ sources, source.Worded w)
    (htarget : target.Worded w) (hseparator : ∀ source ∈ separatedBy, source.Worded w)
    (lines : Bool) : (concatenate sources target separatedBy lines).Keeps w v (Inline w) := by
  refine .bind (keeps_sources hv hsources) fun values hvalues => ?_
  refine .bind (FieldChain.keeps_emitTarget hv htarget) fun place hplace => ?_
  refine .bind (keeps_sourceIfGiven hv (.fixed rfl) hseparator) fun separator hparts => .pure ?_
  have hlist : Inline w ("source: [" ++ ", ".intercalate values ++ "]") :=
    ((Reads.fixed rfl).andInline (hvalues.intercalate (.fixed rfl))).andFixed rfl
  have hfixed := InlineAll.cons hlist (.single (hplace.labelled "target: " rfl))
  exact (((hfixed.append hparts).append (.partIf (.fixed rfl))).braced (.fixed rfl)).runtimeCall
    rfl

/-- The parts of a `SPLIT` go into a table or a list of fields, on the same line. -/
theorem keeps_splitTarget {into : SplitInto} (h : into.Worded w) :
    (splitTarget into).Keeps w v (Inline w) := by
  cases into with
  | table target =>
    exact .bind (FieldChain.keeps_emitTarget hv h) fun _ hplace => .pure (hplace.labelled _ rfl)
  | targets several =>
    exact .bind (keeps_targets hv h) fun _ hplaces =>
      .pure (((Reads.fixed rfl).andInline (hplaces.intercalate (.fixed rfl))).andFixed rfl)

theorem keeps_split {source separator : Source} {into : SplitInto} (hsource : source.Worded w)
    (hseparator : separator.Worded w) (hinto : into.Worded w) :
    (split source separator into).Keeps w v (Inline w) := by
  refine .bind (source.keeps hv hsource) fun value hvalue => ?_
  refine .bind (separator.keeps hv hseparator) fun mark hmark => ?_
  refine .bind (keeps_splitTarget hv hinto) fun target htarget => .pure ?_
  have hparts := InlineAll.cons (hvalue.labelled "source: " rfl)
    (.cons (hmark.labelled "at: " rfl) (.single htarget))
  exact (hparts.braced (.fixed rfl)).runtimeCall rfl

/-- The options of `REPLACE` stand in one pair of braces. -/
theorem keeps_replace {target : FieldChain} {pattern replacement : Source}
    (htarget : target.Worded w) (all : Bool) (hpattern : pattern.Worded w)
    (hreplacement : replacement.Worded w) :
    (replace target all pattern replacement).Keeps w v (Inline w) := by
  refine .bind (FieldChain.keeps_emitTarget hv htarget) fun place hplace => ?_
  refine .bind (pattern.keeps hv hpattern) fun wanted hwanted => ?_
  refine .bind (replacement.keeps hv hreplacement) fun value hvalue => .pure ?_
  have hparts := InlineAll.cons hplace
    (.cons (word_toString_bool all).inline (.cons hwanted (.single hvalue)))
  exact (hparts.intercalate (.fixed rfl)).runtimeCall rfl

theorem keeps_condense {target : FieldChain} (h : target.Worded w) (noGaps : Bool) :
    (condense target noGaps).Keeps w v (Inline w) := by
  refine .bind (FieldChain.keeps_emitTarget hv h) fun _ hplace => .pure (Inline.runtimeCall ?_ rfl)
  exact ((hplace.andFixed rfl).andName (word_toString_bool noGaps) rfl).andFixed rfl

/-- A pattern is given by name. -/
theorem keeps_pattern {wanted : FindPattern} (h : wanted.Worded w) :
    (pattern wanted).Keeps w v (Inline w) := by
  cases wanted with
  | _ source => exact .bind (source.keeps hv h) fun _ hvalue => .pure (hvalue.labelled _ rfl)

/-- The fields to set stand in one pair of braces with the pattern. -/
theorem keeps_find {wanted : FindPattern} {within : Source}
    {count offset length : Option FieldChain} {submatches : List FieldChain}
    (hwanted : wanted.Worded w) (hwithin : within.Worded w) (first : Bool)
    (hcount : ∀ target ∈ count, target.Worded w) (hoffset : ∀ target ∈ offset, target.Worded w)
    (hlength : ∀ target ∈ length, target.Worded w)
    (hsubmatches : ∀ target ∈ submatches, target.Worded w) :
    (find wanted within first count offset length submatches).Keeps w v (Inline w) := by
  refine .bind (within.keeps hv hwithin) fun text htext => ?_
  refine .bind (keeps_pattern hv hwanted) fun wanted hwanted => ?_
  refine .bind (keeps_targetIfGiven hv (.fixed rfl) hcount) fun count hcount => ?_
  refine .bind (keeps_targetIfGiven hv (.fixed rfl) hoffset) fun offset hoffset => ?_
  refine .bind (keeps_targetIfGiven hv (.fixed rfl) hlength) fun length hlength => ?_
  refine .bind (.namedListIfAny (.fixed rfl) (.fixed rfl) fun target htarget =>
    FieldChain.keeps_emitTarget hv (hsubmatches target htarget)) fun parts hparts => .pure ?_
  have hfirst : InlineAll w (partIf first "first: true") := .partIf (.fixed rfl)
  have hgiven := (InlineAll.single hwanted).append hfirst
  have hall := (((hgiven.append hcount).append hoffset).append hlength).append hparts
  exact (htext.joined rfl (hall.braced (.fixed rfl))).runtimeCall rfl

/-- The distance of a `SHIFT` is an option by name, if it is given. -/
theorem keeps_shiftDistance {mode : ShiftMode} (h : mode.Worded w) :
    (shiftDistance mode).Keeps w v (InlineAll w) := by
  cases mode with
  | single => exact .pure .nil
  | _ source =>
    exact .bind (source.keeps hv h) fun _ hvalue => .pure (.single (hvalue.labelled _ rfl))

/-- All options of a `SHIFT` stand in one pair of braces. -/
theorem keeps_shift {target : FieldChain} {mode : ShiftMode} (htarget : target.Worded w)
    (direction : ShiftDirection) (hmode : mode.Worded w) (circular byteMode : Bool) :
    (shift target direction mode circular byteMode).Keeps w v (Inline w) := by
  refine .bind (keeps_shiftDistance hv hmode) fun distance hdistance => ?_
  refine .bind (FieldChain.keeps_emitTarget hv htarget) fun place hplace => .pure ?_
  have hdirection : Inline w ("direction: '" ++ directionKeyword direction ++ "'") := by
    cases direction <;> exact .fixed rfl
  have hcircular : InlineAll w (partIf circular "circular: true") := .partIf (.fixed rfl)
  have hparts := ((InlineAll.single hdirection).append hdistance).append hcircular
  exact (hplace.joined rfl
    ((hparts.append (.partIf (.fixed rfl))).braced (.fixed rfl))).runtimeCall rfl

/-- The rule of a `TRANSLATE` is a quoted word or an operand. -/
theorem keeps_translate {target : FieldChain} {rule : TranslateRule} (htarget : target.Worded w)
    (hrule : rule.Worded w) : (translate target rule).Keeps w v (Inline w) := by
  refine .bind (FieldChain.keeps_emitTarget hv htarget) fun place hplace => ?_
  match rule, hrule with
  | .upper, _ => exact .pure (Inline.runtimeCall ((hplace.andFixed rfl).andFixed rfl) rfl)
  | .lower, _ => exact .pure (Inline.runtimeCall ((hplace.andFixed rfl).andFixed rfl) rfl)
  | .using mask, hrule =>
    exact .bind (mask.keeps hv hrule) fun _ hmask =>
      .pure ((hplace.joined rfl hmask).runtimeCall rfl)

/-- The fields to set stand in one pair of braces. -/
theorem keeps_describe {field : Source} {typeTarget length : Option FieldChain}
    (hfield : field.Worded w) (htype : ∀ target ∈ typeTarget, target.Worded w)
    (hlength : ∀ target ∈ length, target.Worded w) (mode : Option DescribeMode) :
    (describe field typeTarget length mode).Keeps w v (Inline w) := by
  refine .bind (field.keeps hv hfield) fun value hvalue => ?_
  refine .bind (keeps_targetIfGiven hv (.fixed rfl) htype) fun type htype => ?_
  refine .bind (keeps_targetIfGiven hv (.fixed rfl) hlength) fun length hlength => .pure ?_
  have hmode : InlineAll w (lengthMode mode) := by
    match mode with
    | none => exact .nil
    | some .character => exact .single (.fixed rfl)
    | some .byte => exact .single (.fixed rfl)
  have hparts := (InlineAll.single (hvalue.labelled "field: " rfl)).append htype
  exact (((hparts.append hlength).append hmode).braced (.fixed rfl)).runtimeCall rfl

/-- SET BIT is a call on one line, with two arguments or three. -/
theorem keeps_setBit {position : Source} {target : FieldChain} {value : Option Source}
    (hposition : position.Worded w) (htarget : target.Worded w)
    (hvalue : ∀ source ∈ value, source.Worded w) :
    (setBit position target value).Keeps w v (Inline w) := by
  refine .bind (position.keeps hv hposition) fun bit hbit => ?_
  refine .bind (FieldChain.keeps_emitTarget hv htarget) fun place hplace => ?_
  cases value with
  | none => exact .pure ((hbit.joined rfl hplace).runtimeCall rfl)
  | some source =>
    exact .bind (source.keeps hv (hvalue source rfl)) fun _ htext =>
      .pure (Inline.runtimeCall ((hbit.joined rfl hplace).joined rfl htext) rfl)

theorem keeps_getBit {position source : Source} {target : FieldChain}
    (hposition : position.Worded w) (hsource : source.Worded w) (htarget : target.Worded w) :
    (getBit position source target).Keeps w v (Inline w) := by
  refine .bind (position.keeps hv hposition) fun bit hbit => ?_
  refine .bind (source.keeps hv hsource) fun value hvalue => ?_
  refine .bind (FieldChain.keeps_emitTarget hv htarget) fun place hplace => .pure ?_
  exact Inline.runtimeCall ((hbit.joined rfl hvalue).joined rfl hplace) rfl

/-- What is written is an operand, unless it is code that is handed through. -/
theorem keeps_write {source : Source} (hkernel : kernelCode? source = none)
    (h : source.Worded w) (newLine : Bool) : (write source newLine).Keeps w v (Inline w) := by
  unfold write
  rw [hkernel]
  refine .bind (source.keeps hv h) fun _ hvalue => .pure (Inline.runtimeCall ?_ rfl)
  cases newLine <;> exact hvalue.andFixed rfl

end CharacterProcessing

/-! ## Rows of tables -/

namespace Row

omit hv in
/-- A sort key stands in braces of its own. -/
theorem inline_sortKey {key : SortKey} (h : w.Word key.component) : Inline w (sortKey key) := by
  have hname : Reads w .start ("\x7bcomponent: \"" ++ Text.toLower key.component ++ "\"")
      ⟨.code, [.brace]⟩ := ((Reads.fixed rfl).andName h.toLower rfl).andFixed rfl
  unfold sortKey
  dsimp only
  split <;> exact (hname.andFixed rfl).andFixed rfl

/-- Sort keys stand in a list inside the braces of the options. -/
theorem keeps_sort {target : FieldChain} {keys : List SortKey} (htarget : target.Worded w)
    (descending : Bool) (hkeys : ∀ key ∈ keys, w.Word key.component) :
    (sort target descending keys).Keeps w v (Inline w) := by
  refine .bind (FieldChain.keeps_emitTarget hv htarget) fun place hplace => .pure ?_
  have hall : InlineAll w (keys.map sortKey) :=
    List.forall_mem_map.mpr fun key hkey => inline_sortKey (hkeys key hkey)
  have horder : InlineAll w
      (if keys.isEmpty then [] else ["by: [" ++ ",".intercalate (keys.map sortKey) ++ "]"]) := by
    split
    · exact .nil
    · exact .single (((Reads.fixed rfl).andInline (hall.intercalate (.fixed rfl))).andFixed rfl)
  exact (hplace.joined rfl
    ((InlineAll.append (.partIf (.fixed rfl)) horder).braced (.fixed rfl))).runtimeCall rfl

theorem keeps_appendRows {table : String} (htable : Inline w table) {source : Source}
    (hsource : source.Worded w) (lines : Bool) {assigning : Option FieldChain}
    (hassigning : ∀ symbol ∈ assigning, symbol.Worded w) :
    (appendRows table source lines assigning).Keeps w v (Inline w) := by
  refine .bind (source.keeps hv hsource) fun value hvalue => ?_
  refine .bind (keeps_targetIfGiven hv (.fixed rfl) hassigning) fun parts hparts => .pure ?_
  have hfixed := InlineAll.cons (hvalue.labelled "source: " rfl)
    (.single (htable.labelled "target: " rfl))
  exact (((hfixed.append (.partIf (.fixed rfl))).append hparts).braced (.fixed rfl)).runtimeCall
    rfl

/-- Whatever is appended, the statement stands on one line. -/
theorem keeps_append {source : AppendSource} {target : FieldChain}
    {assigning : Option FieldChain} (hsource : source.Worded w) (htarget : target.Worded w)
    (hassigning : ∀ symbol ∈ assigning, symbol.Worded w) :
    (append source target assigning).Keeps w v (Inline w) := by
  refine .bind (FieldChain.keeps_emitTarget hv htarget) fun place hplace => ?_
  cases source with
  | value source => exact keeps_appendRows hv hplace hsource false hassigning
  | linesOf source => exact keeps_appendRows hv hplace hsource true hassigning
  | initialLine =>
    cases assigning with
    | none => exact .pure (hplace.andFixed rfl)
    | some symbol =>
      exact .bind (FieldChain.keeps_emitTarget hv (hassigning symbol rfl)) fun _ hsymbol =>
        .pure (((hsymbol.andFixed rfl).andInline hplace).andFixed rfl)

theorem keeps_inserted {given : InsertData} (h : given.Worded w) :
    (inserted given).Keeps w v (Inline w) := by
  cases given with
  | value source => exact .bind (source.keeps hv h) fun _ hvalue => .pure (hvalue.labelled _ rfl)
  | initialLine => exact .pure (.fixed rfl)

/-- The options of `INSERT` stand in one pair of braces. -/
theorem keeps_insert {given : InsertData} {table : FieldChain} {index : Option Source}
    {assigning : Option FieldChain} (hgiven : given.Worded w) (htable : table.Worded w)
    (hindex : ∀ source ∈ index, source.Worded w)
    (hassigning : ∀ symbol ∈ assigning, symbol.Worded w) :
    (insert given table index assigning).Keeps w v (Inline w) := by
  refine .bind (keeps_inserted hv hgiven) fun row hrow => ?_
  refine .bind (keeps_sourceIfGiven hv (.fixed rfl) hindex) fun index hindex => ?_
  refine .bind (keeps_targetIfGiven hv (.fixed rfl) hassigning) fun symbol hsymbol => ?_
  refine .bind (.named (.fixed rfl) (FieldChain.keeps_emitTarget hv htable)) fun table htable =>
    .pure ?_
  have hparts := (((InlineAll.single hrow).append hindex).append hsymbol).append (.single htable)
  exact (hparts.braced (.fixed rfl)).runtimeCall rfl

theorem keeps_modify {table : FieldChain} {index row : Option Source} (htable : table.Worded w)
    (hindex : ∀ source ∈ index, source.Worded w) (hrow : ∀ source ∈ row, source.Worded w) :
    (modify table index row).Keeps w v (Inline w) := by
  refine .bind (FieldChain.keeps_emitTarget hv htable) fun table htable => ?_
  refine .bind (keeps_sourceIfGiven hv (.fixed rfl) hindex) fun index hindex => ?_
  refine .bind (keeps_sourceIfGiven hv (.fixed rfl) hrow) fun row hrow => .pure ?_
  exact (htable.joined rfl ((hindex.append hrow).braced (.fixed rfl))).runtimeCall rfl

/-- The filter stands between other options in one pair of braces. -/
theorem keeps_delete {table : FieldChain} {filter : Option Condition}
    {index row : Option Source} (htable : table.Worded w)
    (hfilter : ∀ condition ∈ filter, condition.Worded w) (adjacent : Bool)
    (hindex : ∀ source ∈ index, source.Worded w) (hrow : ∀ source ∈ row, source.Worded w) :
    (delete table filter adjacent index row).Keeps w v (Inline w) := by
  refine .bind (FieldChain.keeps_emitTarget hv htable) fun table htable => ?_
  refine .bind (keeps_filterIfGiven hv (.fixed rfl) hfilter) fun filter hfilter => ?_
  refine .bind (keeps_sourceIfGiven hv (.fixed rfl) hindex) fun index hindex => ?_
  refine .bind (keeps_sourceIfGiven hv (.fixed rfl) hrow) fun row hrow => .pure ?_
  have hadjacent : InlineAll w (partIf adjacent "adjacent: true") := .partIf (.fixed rfl)
  have hparts := ((hfilter.append hadjacent).append hindex).append hrow
  exact (htable.joined rfl (hparts.braced (.fixed rfl))).runtimeCall rfl

/-- The options of `READ TABLE` stand in one pair of braces. -/
theorem keeps_read {table : Source} {index : Option Source}
    {into referenceInto assigning : Option FieldChain} {withKey : Option Condition}
    (htable : table.Worded w) (hindex : ∀ source ∈ index, source.Worded w)
    (hinto : ∀ target ∈ into, target.Worded w)
    (hreference : ∀ target ∈ referenceInto, target.Worded w)
    (hassigning : ∀ symbol ∈ assigning, symbol.Worded w)
    (hkey : ∀ condition ∈ withKey, condition.Worded w) (binarySearch : Bool) :
    (read table index into referenceInto assigning withKey binarySearch).Keeps w v
      (Inline w) := by
  refine .bind (table.keeps hv htable) fun table htable => ?_
  refine .bind (keeps_sourceIfGiven hv (.fixed rfl) hindex) fun index hindex => ?_
  refine .bind (keeps_targetIfGiven hv (.fixed rfl) hinto) fun into hinto => ?_
  refine .bind (keeps_targetIfGiven hv (.fixed rfl) hreference) fun reference hreference => ?_
  refine .bind (keeps_targetIfGiven hv (.fixed rfl) hassigning) fun symbol hsymbol => ?_
  refine .bind (keeps_filterIfGiven hv (.fixed rfl) hkey) fun key hkey => .pure ?_
  have hparts := (((hindex.append hinto).append hreference).append hsymbol).append hkey
  exact (htable.joined rfl
    ((hparts.append (.partIf (.fixed rfl))).braced (.fixed rfl))).runtimeCall rfl

/-! ### Database tables -/

omit hv in
/-- A query stays a text between quotation marks, whatever the condition contains. -/
theorem reads_querySuffix {filter : Option String} (h : ∀ condition ∈ filter, IsUnbroken condition)
    (limit : Option UInt32) :
    Reads w ⟨.text .double, []⟩ (querySuffix filter limit) ⟨.text .double, []⟩ := by
  refine Reads.append (show Reads w _ _ ⟨.text .double, []⟩ from ?_) ?_
  · cases filter with
    | none => exact .fixed rfl
    | some condition => exact (Reads.fixed rfl).andFixed (readLine_sql (h condition rfl).trim)
  · cases limit with
    | none => exact .fixed rfl
    | some n => exact (Reads.fixed rfl).andName (Wording.word_toString n.toNat) rfl

/-- The query is a quoted text without breaks, so nothing in it can end the line. -/
theorem keeps_select {target : FieldChain} {fields : String} {table : DatabaseTable}
    {filter : Option String} (htarget : target.Worded w) (hfields : IsUnbroken fields)
    (htable : table.Worded w) (hfilter : ∀ condition ∈ filter, IsUnbroken condition)
    (single : Bool) (upTo : Option UInt32) :
    (select target fields table filter single upTo).Keeps w v (Inline w) := by
  refine .bind (FieldChain.keeps_emitTarget hv htarget) fun target htarget => ?_
  have hstart : Reads w .start ("\"" ++ ("SELECT " ++ Literal.sql (Text.trim fields) ++ " FROM "))
      ⟨.text .double, []⟩ :=
    (Reads.fixed rfl).append
      (((Reads.fixed rfl).andFixed (readLine_sql hfields.trim)).andFixed rfl)
  have hend := reads_querySuffix (w := w) hfilter (limit? single upTo)
  cases table with
  | named name =>
    have hname : w.Word (Text.toLower name) := Wording.Word.toLower htable
    exact .pure ((htarget.joined rfl
      (((hstart.andName hname rfl).append hend).andFixed rfl)).runtimeCall rfl)
  | dynamic chain =>
    refine .bind (chain.keeps hv .read htable) fun name hname => ?_
    exact .pure ((htarget.joined rfl ((((hstart.andFixed rfl).andInline hname).andFixed rfl).append
      hend |>.andFixed rfl)).runtimeCall rfl)

/-- The name of a database table is quoted or an operand. -/
theorem keeps_tableName {table : DatabaseTable} (h : table.Worded w) :
    (tableName table).Keeps w v (Inline w) := by
  cases table with
  | named name =>
    exact .pure (((Reads.fixed rfl).andName (Wording.Word.toLower h) rfl).andFixed rfl)
  | dynamic chain => exact chain.keeps hv .read h

theorem keeps_insertDatabase {table : DatabaseTable} {values : Source} (htable : table.Worded w)
    (hvalues : values.Worded w) : (insertDatabase table values).Keeps w v (Inline w) := by
  refine .bind (keeps_tableName hv htable) fun table htable => ?_
  refine .bind (values.keeps hv hvalues) fun rows hrows => .pure (Inline.runtimeCall ?_ rfl)
  exact ((htable.andFixed rfl).andInline hrows).andFixed rfl

theorem keeps_changedRows {rows : DatabaseSource} (h : rows.Worded w) :
    (changedRows rows).Keeps w v (Inline w) := by
  cases rows with
  | _ source => exact .bind (source.keeps hv h) fun _ hvalue => .pure (hvalue.labelled _ rfl)

/-- Rows stand in one pair of braces behind the name of the table. -/
theorem keeps_changeDatabase (change : DatabaseChange) {table : DatabaseTable}
    {rows : DatabaseSource} (htable : table.Worded w) (hrows : rows.Worded w) :
    (changeDatabase change table rows).Keeps w v (Inline w) := by
  refine .bind (keeps_tableName hv htable) fun table htable => ?_
  refine .bind (keeps_changedRows hv hrows) fun rows hrows => .pure ?_
  have hfunction : readLine .start (changeFunction change) = some .start := by cases change <;> rfl
  exact (htable.joined rfl ((InlineAll.single hrows).braced (.fixed rfl))).runtimeCall hfunction

end Row

/-! ## Calls -/

namespace Invocation

/-- Actual parameters stand in one pair of braces. -/
theorem keeps_bindings {given : List Binding} (h : bindingsWorded w given) :
    (bindings given).Keeps w v (Inline w) :=
  .bind (keeps_emitBindings hv given h) fun _ hparts => .pure (hparts.braced (.fixed rfl))

theorem keeps_bindingsIfAny {given : List Binding} (h : bindingsWorded w given) :
    (bindingsIfAny given).Keeps w v (Inline w) := by
  unfold bindingsIfAny
  split
  · exact .pure (.fixed rfl)
  · exact keeps_bindings hv h

/-- A group of parameters stands in braces of its own, unless it is left out. -/
theorem keeps_targetGroup {key : String} (hkey : Inline w key) {targets : List TargetBinding}
    (h : targetsWorded w targets) : (targetGroup key targets).Keeps w v (InlineAll w) := by
  unfold targetGroup
  split
  · exact .pure .nil
  · refine .bind (keeps_emitTargetBindings hv targets h) fun _ hparts => .pure (.single ?_)
    exact hkey.joined rfl (hparts.braced (.fixed rfl))

/-- The groups of a call are parts of one list. -/
theorem keeps_functionGroups {exporting : List Binding}
    {importing changing tables : List TargetBinding} (hexporting : bindingsWorded w exporting)
    (himporting : targetsWorded w importing) (hchanging : targetsWorded w changing)
    (htables : targetsWorded w tables) :
    (functionGroups exporting importing changing tables).Keeps w v (InlineAll w) := by
  have hrest : ∀ given : List String, InlineAll w given → Keeps w v (do
      let taken ← targetGroup "importing" importing
      let changed ← targetGroup "changing" changing
      let tables ← targetGroup "tables" tables
      return given ++ taken ++ changed ++ tables) (InlineAll w) := by
    intro given hgiven
    refine .bind (keeps_targetGroup hv (.fixed rfl) himporting) fun taken htaken => ?_
    refine .bind (keeps_targetGroup hv (.fixed rfl) hchanging) fun changed hchanged => ?_
    refine .bind (keeps_targetGroup hv (.fixed rfl) htables) fun rows hrows => .pure ?_
    exact ((hgiven.append htaken).append hchanged).append hrows
  unfold functionGroups
  split
  · exact .bind (.pure .nil) hrest
  · exact .bind (keeps_bindings hv hexporting) fun _ h =>
      .bind (.pure (P := InlineAll w) (.single (h.labelled _ rfl))) hrest

/-- A function module is looked up by a quoted text or an operand. -/
theorem keeps_functionAddress {name : DynamicName} (h : name.Worded w) :
    (functionAddress name).Keeps w v (Inline w) := by
  cases name with
  | literal text =>
    exact .pure (((Reads.fixed rfl).andName (Wording.Word.trim h).toUpper rfl).andFixed rfl)
  | field chain =>
    exact .bind (chain.keeps hv .read h) fun _ htext =>
      .pure (((Reads.fixed rfl).andInline htext).andFixed rfl)

/-- A call of a function module stands on one line, here and at a destination. -/
theorem keeps_callFunction {name : DynamicName} {destination : Option DynamicName}
    {exporting : List Binding} {importing changing tables : List TargetBinding}
    (hname : name.Worded w) (hdestination : ∀ place ∈ destination, place.Worded w)
    (hexporting : bindingsWorded w exporting) (himporting : targetsWorded w importing)
    (hchanging : targetsWorded w changing) (htables : targetsWorded w tables) :
    (callFunction name destination exporting importing changing tables).Keeps w v (Inline w) := by
  refine .bind (keeps_functionGroups hv hexporting himporting hchanging htables)
    fun groups hgroups => ?_
  cases destination with
  | some place =>
    refine .bind (DynamicName.keeps_emitText hv hname) fun name hname => ?_
    refine .bind (DynamicName.keeps_emitText hv (hdestination place rfl)) fun place hplace =>
      .pure (Inline.labelled (Inline.runtimeCall ?_ rfl) _ rfl)
    have hparts := InlineAll.cons (hname.labelled "name:" rfl)
      (.single (hplace.labelled "destination:" rfl))
    exact (hparts.append hgroups).braced (.fixed rfl)
  | none =>
    refine .bind (keeps_functionAddress hv hname) fun address haddress => .pure ?_
    exact (((haddress.labelled _ rfl).andFixed rfl).andInline
      (hgroups.bracedIfAny (.fixed rfl))).andFixed rfl

/-- To throw an exception takes one line. -/
theorem keeps_raise {raised : Raise} (h : raised.Worded w) :
    (raise raised).Keeps w v (Inline w) := by
  cases raised with
  | type className exporting =>
    refine .bind (.classAddress hv h.1 _) fun address haddress => ?_
    refine .bind (keeps_bindingsIfAny hv h.2) fun parameters hparameters => .pure ?_
    exact (((haddress.labelled _ rfl).andFixed rfl).andInline hparameters).andFixed rfl
  | object source =>
    exact .bind (source.keeps hv h) fun _ hvalue => .pure ((hvalue.labelled _ rfl).andFixed rfl)

/-- The address of the class of a target is a name. -/
theorem keeps_classOfTarget (target : FieldChain) :
    (classOfTarget target).Keeps w v (Inline w) := by
  unfold classOfTarget
  split
  next => exact .fail _
  next token _ =>
    refine .bind (.ask (hv.variableNamed token)) fun found hfound => ?_
    split
    next name _ _ _ => exact .classAddress hv (hfound _ rfl name rfl) _
    next => exact .fail _

/-- The address of a class stands within a line, also if it is named at run time. -/
theorem keeps_createdClass (target : FieldChain) {spec : Option ClassSpec}
    (h : ∀ named ∈ spec, named.Worded w) : (createdClass target spec).Keeps w v (Inline w) := by
  match spec, h with
  | some (.static name), h => exact .classAddress hv (h _ rfl) _
  | some (.dynamic name), h =>
    exact .bind (name.keeps_emitClass hv (h _ rfl)) fun _ haddress =>
      .bind (.requireTarget _ haddress) fun _ _ => .pure haddress
  | none, _ => exact keeps_classOfTarget hv target

/-- An object is created and initialised on one line. -/
theorem keeps_createObject {target : FieldChain} {spec : Option ClassSpec}
    {parameters : List Binding} (htarget : target.Worded w)
    (hspec : ∀ named ∈ spec, named.Worded w) (hparameters : bindingsWorded w parameters) :
    (createObject target spec parameters).Keeps w v (Inline w) := by
  refine .bind (keeps_createdClass hv target hspec) fun address haddress => ?_
  refine .bind (keeps_bindingsIfAny hv hparameters) fun parameters hparameters => ?_
  refine .bind (FieldChain.keeps_emitTarget hv htarget) fun place hplace => .pure ?_
  exact (((hplace.joined rfl haddress).andFixed rfl).andInline hparameters).andFixed rfl

/-- The parts of a `MESSAGE` are quoted words or operands by name. -/
theorem keeps_messageParts {spec : MessageSpec} (h : spec.Worded w) :
    (messageParts spec).Keeps w v (InlineAll w) := by
  cases spec with
  | short messageType number id =>
    obtain ⟨htype, hnumber, hid⟩ := h
    exact .pure (.cons (((Reads.fixed rfl).andName hid.toUpper rfl).andFixed rfl)
      (.cons (((Reads.fixed rfl).andName hnumber rfl).andFixed rfl)
        (.single (((Reads.fixed rfl).andName htype.toUpper rfl).andFixed rfl))))
  | parts id messageType number =>
    obtain ⟨hid, htype, hnumber⟩ := h
    refine .bind (.named (.fixed rfl) (id.keeps hv hid)) fun id hid => ?_
    refine .bind (.named (.fixed rfl) (messageType.keeps hv htype)) fun type htype => ?_
    refine .bind (.named (.fixed rfl) (number.keeps hv hnumber)) fun number hnumber => .pure ?_
    exact .cons hid (.cons htype (.single hnumber))

/-- Arguments of a `MESSAGE` stand in a list inside the braces. -/
theorem keeps_message {spec : MessageSpec} {arguments : List Source} {into : Option FieldChain}
    (hspec : spec.Worded w) (harguments : ∀ source ∈ arguments, source.Worded w)
    (hinto : ∀ target ∈ into, target.Worded w) :
    (message spec arguments into).Keeps w v (Inline w) := by
  refine .bind (keeps_targetIfGiven hv (.fixed rfl) hinto) fun into hinto => ?_
  refine .bind (keeps_messageParts hv hspec) fun parts hparts => ?_
  refine .bind (.namedListIfAny (.fixed rfl) (.fixed rfl) fun source hsource =>
    source.keeps hv (harguments source hsource)) fun arguments harguments => .pure ?_
  exact (((hinto.append hparts).append harguments).braced (.fixed rfl)).runtimeCall rfl

/-! ### Services of the kernel -/

omit hv in
/-- A service of the kernel is called on a line of its own, after the check that it is there. -/
theorem shifts_kernelCall {className statement method : String} (hclass : w.Word className)
    (hstatement : w.Word statement) (hmethod : w.Word method) {parts : List String}
    (h : InlineAll w parts) : Shifts w 0 0 (kernelCall className statement method parts) := by
  intro d
  have haddress := hclass.inline_lookup
  have hcheck : Inline w (kernelCheck className statement) :=
    (((haddress.labelled _ rfl).andFixed rfl).andName hstatement rfl).andFixed rfl
  have hcall : Inline w ("await " ++ (ClassKey.lookup className ++ "." ++ method) ++ "("
      ++ braced "," parts ++ ");") :=
    (((Inline.labelled ((haddress.andFixed rfl).andName hmethod rfl) _ rfl).andFixed rfl).andInline
      (h.braced (.fixed rfl))).andFixed rfl
  have htext : kernelCall className statement method parts ++ "\n" =
      kernelCheck className statement ++ "\n" ++ ("await " ++ (ClassKey.lookup className ++ "."
        ++ method) ++ "(" ++ braced "," parts ++ ");") ++ "\n" := by
    rw [kernelCall, show "\nawait " = "\n" ++ "await " from rfl]
    simp only [String.append_assoc]
  rw [htext]
  exact .andThen (.inline hcheck) (.inline hcall)

/-- Bindings stand in braces without blanks between them. -/
theorem keeps_tightBindings {given : List Binding} (h : bindingsWorded w given) :
    (tightBindings given).Keeps w v (Inline w) := by
  refine .bind (P := InlineAll w) ?_ fun _ hparts => .pure (hparts.braced (.fixed rfl))
  induction given with
  | nil => exact .pure nofun
  | cons binding rest ih =>
    obtain ⟨name, value⟩ := binding
    obtain ⟨hname, hvalue, hrest⟩ := h
    rw [List.mapM_cons]
    refine .bind (P := Inline w) ?_ fun _ hfirst => .bind (ih hrest) fun _ hparts =>
      .pure (.cons hfirst hparts)
    exact .bind (value.keeps hv hvalue) fun _ htext =>
      .pure ((hname.toLower.inline.andFixed rfl).andInline htext)

/-- Each form of an operand stands within a line. -/
theorem keeps_transformationOperand {operand : TransformationOperand} (h : operand.Worded w) :
    (transformationOperand operand).Keeps w v (Inline w) := by
  cases operand with
  | xml value => exact value.keeps hv h
  | bindings given => exact keeps_tightBindings hv h
  | dynamic value =>
    exact .bind (value.keeps hv h) fun _ htext => .pure ((htext.labelled _ rfl).andFixed rfl)

theorem keeps_transformationPart (wanted : Bool) {key : String} (hkey : Inline w key)
    {operand : TransformationOperand} (h : operand.Worded w) :
    (transformationPart wanted key operand).Keeps w v (InlineAll w) := by
  unfold transformationPart
  split
  · exact .bind (keeps_transformationOperand hv h) fun _ htext =>
      .pure (.single (hkey.joined rfl htext))
  · exact .pure .nil

/-- A call of the kernel opens a block and closes it again. -/
theorem keeps_callTransformation {name : String} {options : List Binding}
    {source result : TransformationOperand} (hname : w.Word name)
    (hoptions : bindingsWorded w options) (hsource : source.Worded w)
    (hresult : result.Worded w) :
    (callTransformation name options source result).Keeps w v (Shifts w 0 0) := by
  -- what is no XML comes behind the options
  have hrest : ∀ before given : List String, InlineAll w before → InlineAll w given →
      Keeps w v (do
        let source ← transformationPart (!isXml source) "source" source
        let result ← transformationPart (!isXml result) "result" result
        return kernelCall "KERNEL_CALL_TRANSFORMATION" "CallTransformation" "call"
          (before ++ given ++ source ++ result)) (Shifts w 0 0) := by
    intro before given hbefore hgiven
    refine .bind (keeps_transformationPart hv _ (.fixed rfl) hsource) fun _ hsource => ?_
    refine .bind (keeps_transformationPart hv _ (.fixed rfl) hresult) fun _ hresult => .pure ?_
    exact shifts_kernelCall (.of_strict (by decide)) (.of_strict (by decide))
      (.of_strict (by decide)) (((hbefore.append hgiven).append hsource).append hresult)
  have hlabel : Inline w ("name: \"" ++ Text.toLower name ++ "\"") :=
    ((Reads.fixed rfl).andName hname.toLower rfl).andFixed rfl
  refine .bind (keeps_transformationPart hv _ (.fixed rfl) hsource) fun _ hfirst => ?_
  refine .bind (keeps_transformationPart hv _ (.fixed rfl) hresult) fun _ hsecond => ?_
  have hbefore := ((InlineAll.single hlabel).append hfirst).append hsecond
  dsimp only
  split
  · exact .bind (.pure .nil) fun _ => hrest _ _ hbefore
  · exact .bind (keeps_tightBindings hv hoptions) fun _ h =>
      .bind (.pure (P := InlineAll w) (.single (h.labelled _ rfl))) fun _ => hrest _ _ hbefore

/-- What is converted and what is found are lists of named parts. -/
theorem keeps_conversionParts {conversion : Conversion} (h : conversion.Worded w) :
    (conversionParts conversion).Keeps w v fun parts =>
      InlineAll w parts.1 ∧ InlineAll w parts.2 := by
  cases conversion with
  | toStamp date time zone stamp =>
    obtain ⟨hdate, htime, hzone, hstamp⟩ := h
    refine .bind (.named (.fixed rfl) (date.keeps hv hdate)) fun date hdate => ?_
    refine .bind (keeps_sourceIfGiven hv (.fixed rfl) htime) fun time htime => ?_
    refine .bind (keeps_sourceIfGiven hv (.fixed rfl) hzone) fun zone hzone => ?_
    refine .bind (.named (.fixed rfl) (FieldChain.keeps_emitTarget hv hstamp)) fun stamp hstamp =>
      .pure ?_
    exact ⟨((InlineAll.single hdate).append htime).append hzone, .single hstamp⟩
  | fromStamp stamp zone date time =>
    obtain ⟨hstamp, hzone, hdate, htime⟩ := h
    refine .bind (.named (.fixed rfl) (stamp.keeps hv hstamp)) fun stamp hstamp => ?_
    refine .bind (keeps_sourceIfGiven hv (.fixed rfl) hzone) fun zone hzone => ?_
    refine .bind (keeps_targetIfGiven hv (.fixed rfl) hdate) fun date hdate => ?_
    refine .bind (keeps_targetIfGiven hv (.fixed rfl) htime) fun time htime => .pure ?_
    exact ⟨(InlineAll.single hstamp).append hzone, hdate.append htime⟩

theorem keeps_convert {conversion : Conversion} (h : conversion.Worded w) :
    (convert conversion).Keeps w v (Inline w) := by
  refine .bind (keeps_conversionParts hv h) fun parts ⟨hinputs, houtputs⟩ => .pure ?_
  exact ((hinputs.braced (.fixed rfl)).joined rfl (houtputs.braced (.fixed rfl))).runtimeCall rfl

/-- To wait for push channels is a call of the kernel. -/
theorem keeps_waitForPushChannels {condition : Condition} {seconds : Option Source}
    (hcondition : condition.Worded w) (hseconds : ∀ source ∈ seconds, source.Worded w) :
    (waitForPushChannels condition seconds).Keeps w v (Shifts w 0 0) := by
  refine .bind (.named (.fixed rfl) (condition.keeps hv hcondition)) fun _ hcondition => ?_
  refine .bind (keeps_sourceIfGiven hv (.fixed rfl) hseconds) fun _ hseconds => .pure ?_
  exact shifts_kernelCall (.of_strict (by decide)) (.of_strict (by decide))
    (.of_strict (by decide)) ((InlineAll.single hcondition).append hseconds)

end Invocation

end

end AbapLowering
