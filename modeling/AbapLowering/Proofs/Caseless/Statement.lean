import AbapLowering.Proofs.Caseless.Operand
import AbapLowering.Proofs.Emission.BuiltStatement

/-!
# Statements without case

A statement without case is emitted like the statement itself, but for the wording of warnings and
of faults (`StatementNode.agree`). Names that stand directly in a statement are spelled or looked up
in lower case; where they show as written is in messages only.
-/

namespace AbapLowering

open Emit (Agree AgreeBy)

/-! ## Data objects -/

namespace DataObject

/-- A variable is declared under its name in lower case. -/
theorem declare_caseless (name : Token) (type : DataType) (value : Option Constant) :
    declare name.caseless type value = declare name type value := by
  simp [declare]

/-- A field symbol is declared under its name in lower case. -/
theorem declareFieldSymbol_caseless (name : Token) :
    declareFieldSymbol name.caseless = declareFieldSymbol name := by
  simp [declareFieldSymbol]

/-- A `MOVE` is emitted alike if both of its operands are. -/
theorem agree_move (source : Source) (target : FieldChain) :
    Agree (move source.caseless target.caseless) (move source target) :=
  .bind source.agree fun _ => .bind target.agree_emitTarget fun _ => .pure _

/-- The verb is a keyword and has no case to lose. -/
theorem agree_arithmetic (verb : ArithmeticVerb) (source : Source) (target : FieldChain) :
    Agree (arithmetic verb source.caseless target.caseless) (arithmetic verb source target) :=
  .bind (target.agree .read) fun _ => .bind source.agree fun _ =>
    .bind target.agree_emitTarget fun _ => .pure _

theorem agree_clear (target : FieldChain) : Agree (clear target.caseless) (clear target) :=
  .bind target.agree_emitTarget fun _ => .pure _

theorem agree_moveCorresponding (source : Source) (target : FieldChain) :
    Agree (moveCorresponding source.caseless target.caseless) (moveCorresponding source target) :=
  .bind source.agree fun _ => .bind target.agree_emitTarget fun _ => .pure _

/-- Whether a pointer is assigned or a value depends on how the chain ends, not on case. -/
theorem agree_assigned (source : Source) :
    Agree (assigned source.caseless) (assigned source) := by
  cases source with
  | field chain =>
    rw [Source.caseless, assigned, assigned, FieldChain.endsWithDereference_caseless]
    split
    · obtain ⟨head, segments, offset, length⟩ := chain
      have hpointer := FieldChain.agree .read ⟨head, segments.dropLast, offset, length⟩
      rw [FieldChain.caseless, List.map_dropLast] at hpointer
      rw [FieldChain.caseless]
      exact .bind hpointer fun _ => .pure _
    · exact chain.agree .read
  | builtin name single parameters =>
    have hbuiltin := (Source.builtin name single parameters).agree
    cases single <;> exact hbuiltin
  | constant value => exact (Source.constant value).agree
  | template parts => exact (Source.template parts).agree
  | call called => exact (Source.call called).agree
  | arithmetic left operator right => exact (Source.arithmetic left operator right).agree
  | component path => exact (Source.component path).agree
  | unsupported name text span => exact (Source.unsupported name text span).agree

/-- ASSIGN is emitted alike, with or without a cast. -/
theorem agree_assign (source : Source) (target : FieldChain) (casting : Bool) :
    Agree (assign source.caseless target.caseless casting) (assign source target casting) :=
  .bind target.agree_emitTarget fun _ => .bind (agree_assigned source) fun _ => .pure _

/-- A field symbol is known by its brackets. -/
theorem isFieldSymbol_caseless (source : Source) :
    isFieldSymbol source.caseless = isFieldSymbol source := by
  cases source with
  | field chain =>
    obtain ⟨head, segments, offset, length⟩ := chain
    cases head <;> simp [Source.caseless, FieldChain.caseless, ChainHead.caseless, isFieldSymbol,
      FieldChain.isPlainFieldSymbol]
  | builtin name single parameters => cases single <;> simp [Source.caseless, isFieldSymbol]
  | _ => simp [Source.caseless, isFieldSymbol]

/-- Whether a reference is taken of a field symbol can be told without case. -/
theorem agree_getReference (source : Source) (target : FieldChain) :
    Agree (getReference source.caseless target.caseless) (getReference source target) := by
  unfold getReference
  rw [isFieldSymbol_caseless]
  exact .bind source.agree fun _ => .bind target.agree_emitTarget fun _ => .pure _

/-- The name of a type is a literal, which keeps its case, or an operand. -/
theorem agree_typeName (name : DynamicName) : Agree (typeName name.caseless) (typeName name) := by
  cases name with
  | literal value => exact .pure _
  | field chain => exact .bind (chain.agree .read) fun _ => .pure _

/-- Every form of `CREATE DATA` is emitted alike. -/
theorem agree_create (target : FieldChain) (spec : CreateDataSpec) :
    Agree (create target.caseless spec.caseless) (create target spec) := by
  refine .bind target.agree_emitTarget fun _ => ?_
  cases spec with
  | type type => exact .bind (Emit.agree_typeConstructor type) fun _ => .pure _
  | dynamic name table => exact .bind (agree_typeName name) fun _ => .pure _
  | likeLineOf source => exact .bind source.agree fun _ => .pure _
  | like source => exact .bind source.agree fun _ => .pure _

end DataObject

/-! ## Character processing -/

namespace CharacterProcessing

/-- The sources are emitted alike one by one. -/
theorem agree_concatenate (sources : List Source) (target : FieldChain)
    (separatedBy : Option Source) (lines : Bool) :
    Agree (concatenate (sources.map (·.caseless)) target.caseless (separatedBy.map (·.caseless))
      lines) (concatenate sources target separatedBy lines) :=
  .bind (.mapM _ _ Source.agree) fun _ => .bind target.agree_emitTarget fun _ =>
    .bind (.namedIfGiven _ _ _ Source.agree) fun _ => .pure _

/-- A `SPLIT` goes into the same table or the same fields. -/
theorem agree_splitTarget (into : SplitInto) :
    Agree (splitTarget into.caseless) (splitTarget into) := by
  cases into with
  | table target => exact .bind target.agree_emitTarget fun _ => .pure _
  | targets targets => exact .bind (.mapM _ _ FieldChain.agree_emitTarget) fun _ => .pure _

theorem agree_split (source separator : Source) (into : SplitInto) :
    Agree (split source.caseless separator.caseless into.caseless)
      (split source separator into) :=
  .bind source.agree fun _ => .bind separator.agree fun _ =>
    .bind (agree_splitTarget into) fun _ => .pure _

/-- What is replaced is known by operands only. -/
theorem agree_replace (target : FieldChain) (all : Bool) (pattern replacement : Source) :
    Agree (replace target.caseless all pattern.caseless replacement.caseless)
      (replace target all pattern replacement) :=
  .bind target.agree_emitTarget fun _ => .bind pattern.agree fun _ =>
    .bind replacement.agree fun _ => .pure _

theorem agree_condense (target : FieldChain) (noGaps : Bool) :
    Agree (condense target.caseless noGaps) (condense target noGaps) :=
  .bind target.agree_emitTarget fun _ => .pure _

/-- A pattern is an operand; a literal in it keeps its case. -/
theorem agree_pattern (wanted : FindPattern) :
    Agree (pattern wanted.caseless) (pattern wanted) := by
  cases wanted with
  | substring source => exact .bind source.agree fun _ => .pure _
  | regex source => exact .bind source.agree fun _ => .pure _

/-- FIND sets the same fields. -/
theorem agree_find (wanted : FindPattern) (within : Source) (first : Bool)
    (count offset length : Option FieldChain) (submatches : List FieldChain) :
    Agree (find wanted.caseless within.caseless first (count.map (·.caseless))
      (offset.map (·.caseless)) (length.map (·.caseless)) (submatches.map (·.caseless)))
      (find wanted within first count offset length submatches) := by
  refine .bind within.agree fun _ => .bind (agree_pattern wanted) fun _ => ?_
  refine .bind (.namedIfGiven _ _ _ FieldChain.agree_emitTarget) fun _ => ?_
  refine .bind (.namedIfGiven _ _ _ FieldChain.agree_emitTarget) fun _ => ?_
  refine .bind (.namedIfGiven _ _ _ FieldChain.agree_emitTarget) fun _ => ?_
  exact .bind (.namedListIfAny _ _ _ _ FieldChain.agree_emitTarget) fun _ => .pure _

/-- The distance of a `SHIFT` is emitted alike. -/
theorem agree_shiftDistance (mode : ShiftMode) :
    Agree (shiftDistance mode.caseless) (shiftDistance mode) := by
  cases mode with
  | single => exact .pure _
  | places source => exact .bind source.agree fun _ => .pure _
  | upTo source => exact .bind source.agree fun _ => .pure _
  | deletingLeading source => exact .bind source.agree fun _ => .pure _
  | deletingTrailing source => exact .bind source.agree fun _ => .pure _

theorem agree_shift (target : FieldChain) (direction : ShiftDirection) (mode : ShiftMode)
    (circular byteMode : Bool) :
    Agree (shift target.caseless direction mode.caseless circular byteMode)
      (shift target direction mode circular byteMode) :=
  .bind (agree_shiftDistance mode) fun _ => .bind target.agree_emitTarget fun _ => .pure _

/-- Upper and lower case as rules of a `TRANSLATE` are keywords. -/
theorem agree_translate (target : FieldChain) (rule : TranslateRule) :
    Agree (translate target.caseless rule.caseless) (translate target rule) := by
  refine .bind target.agree_emitTarget fun _ => ?_
  match rule with
  | .upper | .lower => exact .pure _
  | .using mask => exact .bind mask.agree fun _ => .pure _

/-- DESCRIBE FIELD sets the same fields. -/
theorem agree_describe (field : Source) (typeTarget length : Option FieldChain)
    (mode : Option DescribeMode) :
    Agree (describe field.caseless (typeTarget.map (·.caseless)) (length.map (·.caseless)) mode)
      (describe field typeTarget length mode) :=
  .bind field.agree fun _ => .bind (.namedIfGiven _ _ _ FieldChain.agree_emitTarget) fun _ =>
    .bind (.namedIfGiven _ _ _ FieldChain.agree_emitTarget) fun _ => .pure _

/-- SET BIT without a value is emitted alike, and so it is with one. -/
theorem agree_setBit (position : Source) (target : FieldChain) (value : Option Source) :
    Agree (setBit position.caseless target.caseless (value.map (·.caseless)))
      (setBit position target value) := by
  refine .bind position.agree fun _ => .bind target.agree_emitTarget fun _ => ?_
  cases value with
  | none => exact .pure _
  | some value => exact .bind value.agree fun _ => .pure _

theorem agree_getBit (position source : Source) (target : FieldChain) :
    Agree (getBit position.caseless source.caseless target.caseless)
      (getBit position source target) :=
  .bind position.agree fun _ => .bind source.agree fun _ =>
    .bind target.agree_emitTarget fun _ => .pure _

/-- Code of the kernel is a literal and keeps its case. -/
theorem kernelCode?_caseless (source : Source) :
    kernelCode? source.caseless = kernelCode? source := by
  cases source with
  | builtin name single parameters => cases single <;> simp [Source.caseless, kernelCode?]
  | _ => simp [Source.caseless, kernelCode?]

/-- WRITE is emitted alike, whether it writes code of the kernel or an operand. -/
theorem agree_write (source : Source) (newLine : Bool) :
    Agree (write source.caseless newLine) (write source newLine) := by
  unfold write
  rw [kernelCode?_caseless]
  split
  · exact .pure _
  · exact .bind source.agree fun _ => .pure _

end CharacterProcessing

/-! ## Rows of tables -/

namespace Row

/-- Sort keys are the same texts, which are spelled in lower case. -/
theorem agree_sort (target : FieldChain) (descending : Bool) (keys : List SortKey) :
    Agree (sort target.caseless descending keys) (sort target descending keys) :=
  .bind target.agree_emitTarget fun _ => .pure _

/-- Rows are appended alike, one or many. -/
theorem agree_appendRows (table : String) (source : Source) (lines : Bool)
    (assigning : Option FieldChain) :
    Agree (appendRows table source.caseless lines (assigning.map (·.caseless)))
      (appendRows table source lines assigning) :=
  .bind source.agree fun _ => .bind (.namedIfGiven _ _ _ FieldChain.agree_emitTarget) fun _ =>
    .pure _

/-- Whatever is appended is appended alike. -/
theorem agree_append (source : AppendSource) (target : FieldChain)
    (assigning : Option FieldChain) :
    Agree (append source.caseless target.caseless (assigning.map (·.caseless)))
      (append source target assigning) := by
  refine .bind target.agree_emitTarget fun table => ?_
  cases source with
  | value source => exact agree_appendRows table source false assigning
  | linesOf source => exact agree_appendRows table source true assigning
  | initialLine =>
    cases assigning with
    | none => exact .pure _
    | some symbol => exact .bind symbol.agree_emitTarget fun _ => .pure _

theorem agree_inserted (data : InsertData) : Agree (inserted data.caseless) (inserted data) := by
  cases data with
  | value source => exact .bind source.agree fun _ => .pure _
  | initialLine => exact .pure _

/-- INSERT is emitted alike with all options. -/
theorem agree_insert (data : InsertData) (table : FieldChain) (index : Option Source)
    (assigning : Option FieldChain) :
    Agree (insert data.caseless table.caseless (index.map (·.caseless))
      (assigning.map (·.caseless))) (insert data table index assigning) := by
  refine .bind (agree_inserted data) fun _ => .bind (.namedIfGiven _ _ _ Source.agree) fun _ => ?_
  refine .bind (.namedIfGiven _ _ _ FieldChain.agree_emitTarget) fun _ => ?_
  exact .bind (.named _ table.agree_emitTarget) fun _ => .pure _

theorem agree_modify (table : FieldChain) (index row : Option Source) :
    Agree (modify table.caseless (index.map (·.caseless)) (row.map (·.caseless)))
      (modify table index row) :=
  .bind table.agree_emitTarget fun _ => .bind (.namedIfGiven _ _ _ Source.agree) fun _ =>
    .bind (.namedIfGiven _ _ _ Source.agree) fun _ => .pure _

/-- The filter of a `DELETE` names components, which are spelled in lower case. -/
theorem agree_delete (table : FieldChain) (filter : Option Condition) (adjacent : Bool)
    (index row : Option Source) :
    Agree (delete table.caseless (filter.map (·.caseless)) adjacent (index.map (·.caseless))
      (row.map (·.caseless))) (delete table filter adjacent index row) := by
  refine .bind table.agree_emitTarget fun _ => ?_
  refine .bind (.namedIfGiven _ _ _ Condition.agree_emitRowFilter) fun _ => ?_
  exact .bind (.namedIfGiven _ _ _ Source.agree) fun _ =>
    .bind (.namedIfGiven _ _ _ Source.agree) fun _ => .pure _

/-- READ TABLE is emitted alike with all options. -/
theorem agree_read (table : Source) (index : Option Source)
    (into referenceInto assigning : Option FieldChain) (withKey : Option Condition)
    (binarySearch : Bool) :
    Agree (read table.caseless (index.map (·.caseless)) (into.map (·.caseless))
      (referenceInto.map (·.caseless)) (assigning.map (·.caseless)) (withKey.map (·.caseless))
      binarySearch) (read table index into referenceInto assigning withKey binarySearch) := by
  refine .bind table.agree fun _ => .bind (.namedIfGiven _ _ _ Source.agree) fun _ => ?_
  refine .bind (.namedIfGiven _ _ _ FieldChain.agree_emitTarget) fun _ => ?_
  refine .bind (.namedIfGiven _ _ _ FieldChain.agree_emitTarget) fun _ => ?_
  refine .bind (.namedIfGiven _ _ _ FieldChain.agree_emitTarget) fun _ => ?_
  exact .bind (.namedIfGiven _ _ _ Condition.agree_emitRowFilter) fun _ => .pure _

/-- The text of a `SELECT` is taken as it stands; only its operands could differ in case. -/
theorem agree_select (target : FieldChain) (fields : String) (table : DatabaseTable)
    (filter : Option String) (single : Bool) (upTo : Option UInt32) :
    Agree (select target.caseless fields table.caseless filter single upTo)
      (select target fields table filter single upTo) := by
  refine .bind target.agree_emitTarget fun _ => ?_
  cases table with
  | named name => exact .pure _
  | dynamic chain => exact .bind (chain.agree .read) fun _ => .pure _

/-- The name of a database table is a literal or an operand. -/
theorem agree_tableName (table : DatabaseTable) :
    Agree (tableName table.caseless) (tableName table) := by
  cases table with
  | named name => exact .pure _
  | dynamic chain => exact chain.agree .read

theorem agree_insertDatabase (table : DatabaseTable) (values : Source) :
    Agree (insertDatabase table.caseless values.caseless) (insertDatabase table values) :=
  .bind (agree_tableName table) fun _ => .bind values.agree fun _ => .pure _

theorem agree_changedRows (rows : DatabaseSource) :
    Agree (changedRows rows.caseless) (changedRows rows) := by
  cases rows with
  | row source => exact .bind source.agree fun _ => .pure _
  | table source => exact .bind source.agree fun _ => .pure _

/-- Changes of a database table are emitted alike. -/
theorem agree_changeDatabase (change : DatabaseChange) (table : DatabaseTable)
    (rows : DatabaseSource) :
    Agree (changeDatabase change table.caseless rows.caseless)
      (changeDatabase change table rows) :=
  .bind (agree_tableName table) fun _ => .bind (agree_changedRows rows) fun _ => .pure _

end Row

/-! ## Invocations -/

/-- Bindings lose case one by one. -/
theorem caselessBindings_eq_map (bindings : List Binding) :
    caselessBindings bindings = bindings.map fun b => ⟨b.name.caseless, b.value.caseless⟩ := by
  induction bindings with
  | nil => rfl
  | cons b rest ih =>
    cases b
    rw [caselessBindings, ih, List.map_cons]

/-- There are as many bindings as before, so none only if there were none. -/
theorem isEmpty_caselessBindings (bindings : List Binding) :
    (caselessBindings bindings).isEmpty = bindings.isEmpty := by
  rw [caselessBindings_eq_map, List.isEmpty_map]

theorem isEmpty_caselessTargetBindings (bindings : List TargetBinding) :
    (caselessTargetBindings bindings).isEmpty = bindings.isEmpty := by
  cases bindings with
  | nil => rfl
  | cons b rest =>
    cases b
    rfl

namespace Invocation

/-- Actual parameters stand in the same order under the same names. -/
theorem agree_bindings (given : List Binding) :
    Agree (bindings (caselessBindings given)) (bindings given) :=
  .bind (agree_emitBindings given) fun _ => .pure _

theorem agree_bindingsIfAny (given : List Binding) :
    Agree (bindingsIfAny (caselessBindings given)) (bindingsIfAny given) := by
  unfold bindingsIfAny
  rw [isEmpty_caselessBindings]
  split
  · exact .pure _
  · exact agree_bindings given

/-- A group of parameters is left out if it was left out. -/
theorem agree_targetGroup (key : String) (targets : List TargetBinding) :
    Agree (targetGroup key (caselessTargetBindings targets)) (targetGroup key targets) := by
  unfold targetGroup
  rw [isEmpty_caselessTargetBindings]
  split
  · exact .pure _
  · exact .bind (agree_emitTargetBindings targets) fun _ => .pure _

/-- The groups of parameters of a function module are emitted alike. -/
theorem agree_functionGroups (exporting : List Binding)
    (importing changing tables : List TargetBinding) :
    Agree (functionGroups (caselessBindings exporting) (caselessTargetBindings importing)
      (caselessTargetBindings changing) (caselessTargetBindings tables))
      (functionGroups exporting importing changing tables) := by
  unfold functionGroups
  rw [isEmpty_caselessBindings]
  dsimp only
  split
  · refine .bind (.pure _) fun _ => ?_
    exact .bind (agree_targetGroup _ _) fun _ => .bind (agree_targetGroup _ _) fun _ =>
      .bind (agree_targetGroup _ _) fun _ => .pure _
  · refine .bind (agree_bindings exporting) fun _ => .bind (.pure _) fun _ => ?_
    exact .bind (agree_targetGroup _ _) fun _ => .bind (agree_targetGroup _ _) fun _ =>
      .bind (agree_targetGroup _ _) fun _ => .pure _

/-- The name of a function module is a literal, which keeps its case, or an operand. -/
theorem agree_functionAddress (name : DynamicName) :
    Agree (functionAddress name.caseless) (functionAddress name) := by
  cases name with
  | literal value => exact .pure _
  | field chain => exact .bind (chain.agree .read) fun _ => .pure _

/-- Function modules are called alike, here and at a destination. -/
theorem agree_callFunction (name : DynamicName) (destination : Option DynamicName)
    (exporting : List Binding) (importing changing tables : List TargetBinding) :
    Agree (callFunction name.caseless (destination.map (·.caseless)) (caselessBindings exporting)
      (caselessTargetBindings importing) (caselessTargetBindings changing)
      (caselessTargetBindings tables))
      (callFunction name destination exporting importing changing tables) := by
  refine .bind (agree_functionGroups exporting importing changing tables) fun _ => ?_
  cases destination with
  | none => exact .bind (agree_functionAddress name) fun _ => .pure _
  | some destination =>
    exact .bind name.agree_emitText fun _ => .bind destination.agree_emitText fun _ => .pure _

/-- The class that a token names has the same address without case. -/
theorem agree_classAddress (name : Token) :
    Agree (Emit.classAddress name.caseless.text name.caseless.start)
      (Emit.classAddress name.text name.start) := by
  rw [Token.text_caseless, Token.start_caseless, Emit.classAddress_caseless]
  exact Emit.agree_ask _

/-- RAISE EXCEPTION is emitted alike with a class and with an object. -/
theorem agree_raise (how : Raise) : Agree (raise how.caseless) (raise how) := by
  cases how with
  | type className exporting =>
    exact .bind (agree_classAddress className) fun _ =>
      .bind (agree_bindingsIfAny exporting) fun _ => .pure _
  | object source => exact .bind source.agree fun _ => .pure _

/-- The variable that the class is taken from is found without case. -/
theorem agree_classOfTarget (target : FieldChain) :
    Agree (classOfTarget target.caseless) (classOfTarget target) := by
  unfold classOfTarget
  rw [FieldChain.firstToken_caseless]
  cases target.firstToken with
  | none => exact .fail rfl
  | some token =>
    simp only [Option.map_some, View.variableNamed_caseless, Token.start_caseless]
    refine .bind (Emit.agree_ask _) fun found => ?_
    split
    · exact Emit.agree_ask _
    · exact .fail rfl

/-- The class of `CREATE OBJECT` is the same, written out or not. -/
theorem agree_createdClass (target : FieldChain) (spec : Option ClassSpec) :
    Agree (createdClass target.caseless (spec.map (·.caseless))) (createdClass target spec) := by
  match spec with
  | some (.static name) => exact agree_classAddress name
  | some (.dynamic name) =>
    exact .bind name.agree_emitClass fun _ => .bind (Emit.agree_requireTarget _ _) fun _ => .pure _
  | none => exact agree_classOfTarget target

theorem agree_createObject (target : FieldChain) (spec : Option ClassSpec)
    (parameters : List Binding) :
    Agree (createObject target.caseless (spec.map (·.caseless)) (caselessBindings parameters))
      (createObject target spec parameters) :=
  .bind (agree_createdClass target spec) fun _ => .bind (agree_bindingsIfAny parameters) fun _ =>
    .bind target.agree_emitTarget fun _ => .pure _

/-- The short form of a `MESSAGE` is a text and keeps its case. -/
theorem agree_messageParts (spec : MessageSpec) :
    Agree (messageParts spec.caseless) (messageParts spec) := by
  cases spec with
  | short messageType number id => exact .pure _
  | parts id messageType number =>
    exact .bind (.named _ id.agree) fun _ => .bind (.named _ messageType.agree) fun _ =>
      .bind (.named _ number.agree) fun _ => .pure _

theorem agree_message (spec : MessageSpec) (arguments : List Source) (into : Option FieldChain) :
    Agree (message spec.caseless (arguments.map (·.caseless)) (into.map (·.caseless)))
      (message spec arguments into) :=
  .bind (.namedIfGiven _ _ _ FieldChain.agree_emitTarget) fun _ =>
    .bind (agree_messageParts spec) fun _ =>
      .bind (.namedListIfAny _ _ _ _ Source.agree) fun _ => .pure _

theorem agree_tightBindings (given : List Binding) :
    Agree (tightBindings (caselessBindings given)) (tightBindings given) := by
  unfold tightBindings
  rw [caselessBindings_eq_map]
  refine .bind (.mapM _ _ fun b => ?_) fun _ => .pure _
  rw [Token.lower_caseless]
  exact .bind b.value.agree fun _ => .pure _

/-- The operands of a transformation are emitted alike in each of their forms. -/
theorem agree_transformationOperand (operand : TransformationOperand) :
    Agree (transformationOperand operand.caseless) (transformationOperand operand) := by
  cases operand with
  | xml value => exact value.agree
  | bindings bindings => exact agree_tightBindings bindings
  | dynamic value => exact .bind value.agree fun _ => .pure _

theorem agree_transformationPart (wanted : Bool) (key : String)
    (operand : TransformationOperand) :
    Agree (transformationPart wanted key operand.caseless)
      (transformationPart wanted key operand) := by
  unfold transformationPart
  split
  · exact .bind (agree_transformationOperand operand) fun _ => .pure _
  · exact .pure _

/-- Whether an operand is XML can be told without case. -/
theorem isXml_caseless (operand : TransformationOperand) :
    isXml operand.caseless = isXml operand := by
  cases operand <;> rfl

theorem agree_callTransformation (name : String) (options : List Binding)
    (source result : TransformationOperand) :
    Agree (callTransformation name (caselessBindings options) source.caseless result.caseless)
      (callTransformation name options source result) := by
  unfold callTransformation
  rw [isXml_caseless, isXml_caseless, isEmpty_caselessBindings]
  refine .bind (agree_transformationPart _ _ source) fun _ => ?_
  refine .bind (agree_transformationPart _ _ result) fun _ => ?_
  dsimp only
  split
  · exact .bind (.pure _) fun _ => .bind (agree_transformationPart _ _ source) fun _ =>
      .bind (agree_transformationPart _ _ result) fun _ => .pure _
  · refine .bind (agree_tightBindings options) fun _ => .bind (.pure _) fun _ => ?_
    exact .bind (agree_transformationPart _ _ source) fun _ =>
      .bind (agree_transformationPart _ _ result) fun _ => .pure _

/-- The parts of a conversion are emitted alike in both directions. -/
theorem agree_conversionParts (conversion : Conversion) :
    Agree (conversionParts conversion.caseless) (conversionParts conversion) := by
  cases conversion with
  | toStamp date time zone stamp =>
    refine .bind (.named _ date.agree) fun _ => ?_
    refine .bind (.namedIfGiven _ _ _ Source.agree) fun _ => ?_
    exact .bind (.namedIfGiven _ _ _ Source.agree) fun _ =>
      .bind (.named _ stamp.agree_emitTarget) fun _ => .pure _
  | fromStamp stamp zone date time =>
    refine .bind (.named _ stamp.agree) fun _ => ?_
    refine .bind (.namedIfGiven _ _ _ Source.agree) fun _ => ?_
    exact .bind (.namedIfGiven _ _ _ FieldChain.agree_emitTarget) fun _ =>
      .bind (.namedIfGiven _ _ _ FieldChain.agree_emitTarget) fun _ => .pure _

theorem agree_convert (conversion : Conversion) :
    Agree (convert conversion.caseless) (convert conversion) :=
  .bind (agree_conversionParts conversion) fun _ => .pure _

theorem agree_waitForPushChannels (condition : Condition) (seconds : Option Source) :
    Agree (waitForPushChannels condition.caseless (seconds.map (·.caseless)))
      (waitForPushChannels condition seconds) :=
  .bind (.named _ condition.agree) fun _ =>
    .bind (.namedIfGiven _ _ _ Source.agree) fun _ => .pure _

end Invocation

/-! ## Members -/

namespace Members

/-- The class around a token is found by position; only the message that there is none has its name.
-/
theorem agree_classOf (name : Token) : Agree (classOf name.caseless) (classOf name) := by
  refine .bind (Emit.agree_ask _) fun found => ?_
  cases found with
  | none => exact .fail rfl
  | some c => exact .pure _

/-- A constructor that is made up does not depend on case. -/
theorem agree_defaultConstructor (name : Token) :
    Agree (defaultConstructor name.caseless) (defaultConstructor name) :=
  .bind (agree_classOf name) fun c => .bind (Emit.agree_ask _) fun scope =>
    .bind (built_constructorLines c scope true).agree fun _ => .pure _

/-- The static section of a class is emitted under its name in lower case. -/
theorem agree_staticPart (name : Token) :
    Agree (staticPart name.caseless) (staticPart name) := by
  unfold staticPart
  simp only [Token.lower_caseless, Token.start_caseless]
  refine .bind (agree_classOf name) fun c => .bind (Emit.agree_ask _) fun scope => ?_
  refine .bind (built_collectStatics c scope).agree fun _ => ?_
  exact .bind (Emit.Built.mapM _ (built_staticLines name.lower)).agree fun _ => .pure _

/-- An interface is found by position and by name, neither of which depends on case. -/
theorem agree_interfaceOf (name : Token) :
    Agree (interfaceOf name.caseless) (interfaceOf name) := by
  unfold interfaceOf
  simp only [Token.text_caseless, Token.start_caseless, View.findInterface?_caseless]
  refine .bind (Emit.agree_ask _) fun scope => .bind (Emit.agree_ask _) fun found => ?_
  cases found with
  | some i => exact .pure _
  | none =>
    refine .bind (Emit.agree_ask _) fun found => ?_
    cases found with
    | none => exact .fail rfl
    | some i => exact .pure _

/-- The static section of an interface is emitted under its name in lower case. -/
theorem interfacePart_caseless (name : Token) (i : InterfaceDefinition) :
    interfacePart name.caseless i = interfacePart name i := by
  simp [interfacePart]

/-- What is defined is registered under the same key. -/
theorem register_caseless (d : Definition) (name : Token) :
    register d name.caseless = register d name := by
  simp [register]

end Members

/-! ## Flow of control -/

namespace Flow

theorem agree_ifThen (condition : Condition) :
    Agree (ifThen condition.caseless) (ifThen condition) :=
  .bind condition.agree fun _ => .pure _

theorem agree_elseIf (condition : Condition) :
    Agree (elseIf condition.caseless) (elseIf condition) :=
  .bind condition.agree fun text => .bind (Emit.Built.guarded text).agree fun _ => .pure _

/-- The condition of a loop is emitted alike, with the guards of each round. -/
theorem agree_whileTrue (condition : Condition) :
    Agree (whileTrue condition.caseless) (whileTrue condition) :=
  .bind condition.agree fun text => .bind (Emit.Built.guarded text).agree fun _ => .pure _

/-- DO draws the same temporary. -/
theorem agree_doTimes (times : Option Source) :
    Agree (doTimes (times.map (·.caseless))) (doTimes times) := by
  cases times with
  | none => exact (built_doTimes none).agree
  | some times =>
    exact .bind (Emit.Built.temporary rfl).agree fun _ =>
      .bind (Emit.Built.temporary rfl).agree fun _ => .bind times.agree fun _ => .pure _

/-- A row goes to the same variable, field symbol or reference. -/
theorem agree_loopOutput (row : String) (output : LoopOutput) :
    Agree (loopOutput row output.caseless) (loopOutput row output) := by
  cases output with
  | into target => exact .bind target.agree_emitTarget fun _ => .pure _
  | assigning target => exact .bind target.agree_emitTarget fun _ => .pure _
  | referenceInto target => exact .bind target.agree_emitTarget fun _ => .pure _
  | nothing => exact .pure _

/-- LOOP AT draws the same temporary, and its filter is emitted alike. -/
theorem agree_loopAt (table : Source) (output : LoopOutput) (filter : Option Condition) :
    Agree (loopAt table.caseless output.caseless (filter.map (·.caseless)))
      (loopAt table output filter) := by
  refine .bind (Emit.Built.temporary rfl).agree fun row => .bind table.agree fun _ => ?_
  cases filter with
  | none => exact .bind (.pure _) fun _ => .bind (agree_loopOutput row output) fun _ => .pure _
  | some condition =>
    exact .bind condition.agree_emitRowFilter fun _ => .bind (.pure _) fun _ =>
      .bind (agree_loopOutput row output) fun _ => .pure _

theorem agree_assert (condition : Condition) :
    Agree (assert condition.caseless) (assert condition) :=
  .bind condition.agree fun _ => .pure _

/-- A method is a constructor without case if it is one. -/
theorem agree_setupLines (enclosing : Option EnclosingMethod) (position : Position)
    (name : Token) :
    Agree (setupLines enclosing position name.caseless) (setupLines enclosing position name) := by
  unfold setupLines
  split
  · refine .bind (Emit.agree_ask _) fun found => ?_
    cases found with
    | none => exact .fail rfl
    | some c =>
      exact .bind (Emit.agree_ask _) fun scope =>
        (Members.built_constructorLines c scope false).agree
  · exact .pure _

/-- The header of a method is the same, and so are the lines that set up its parameters. -/
theorem agree_methodAt (position : Position) (name : Token) :
    Agree (methodAt position name.caseless) (methodAt position name) := by
  unfold methodAt
  rw [Token.text_caseless, Token.start_caseless, Identifier.method_caseless]
  refine .bind (Emit.agree_ask _) fun enclosing => ?_
  dsimp only
  split
  · refine .bind (Emit.agree_warn _ _ _) fun _ => ?_
    refine .bind (Emit.Built.mapM _ built_parameterLines).agree fun _ => ?_
    exact .bind (agree_setupLines enclosing position name) fun _ => .pure _
  · refine .bind (Emit.Built.mapM _ built_parameterLines).agree fun _ => ?_
    exact .bind (agree_setupLines enclosing position name) fun _ => .pure _

/-- The header of a class is spelled in lower case. -/
theorem classHeader_caseless (name : Token) : classHeader name.caseless = classHeader name := by
  simp [classHeader]

end Flow

/-! ## Statements -/

/-- A statement keeps the keyword it is known by. -/
theorem Statement.name_caseless (s : Statement) : s.caseless.name = s.name := by
  cases s with
  | changeDatabase change table rows => cases change <;> rfl
  | _ => rfl

theorem StatementNode.refuse_caseless (node : StatementNode) :
    node.caseless.refuse = node.refuse := by
  rw [refuse, refuse, caseless, Statement.name_caseless]

/-- What is refused does not depend on case. -/
theorem StatementNode.agree_refuse {α β : Type} {R : α → β → Prop} (node : StatementNode) :
    AgreeBy R (Emit.fail node.caseless.refuse) (Emit.fail node.refuse) :=
  .fail (congrArg LoweringError.unworded node.refuse_caseless)

/-- A statement without case is emitted like the statement itself, but for wording. -/
theorem StatementNode.agree : ∀ node : StatementNode, Agree node.caseless.emit node.emit
  | ⟨.data name type value, _, _⟩ => by
    change Agree (DataObject.declare name.caseless type value) (DataObject.declare name type value)
    rw [DataObject.declare_caseless]
    exact (DataObject.built_declare name type value).agree
  | ⟨.constants name type value, _, _⟩ => by
    change Agree (DataObject.declare name.caseless type (some value))
      (DataObject.declare name type (some value))
    rw [DataObject.declare_caseless]
    exact (DataObject.built_declare name type value).agree
  | ⟨.fieldSymbol name, _, _⟩ =>
    .of_eq (DataObject.declareFieldSymbol_caseless name)
  | ⟨.declarative _, _, _⟩ | ⟨.comment _, _, _⟩ => .pure _
  | ⟨.move source target, _, _⟩ => DataObject.agree_move source target
  | ⟨.arithmetic verb source target, _, _⟩ => DataObject.agree_arithmetic verb source target
  | ⟨.clear target, _, _⟩ | ⟨.free target, _, _⟩ => DataObject.agree_clear target
  | ⟨.moveCorresponding source target, _, _⟩ => DataObject.agree_moveCorresponding source target
  | ⟨.ifThen condition, _, _⟩ => Flow.agree_ifThen condition
  | ⟨.elseIf condition, _, _⟩ => Flow.agree_elseIf condition
  | ⟨.otherwise, _, _⟩ => .pure _
  | ⟨.doTimes times, _, _⟩ => Flow.agree_doTimes times
  | ⟨.whileTrue condition, _, _⟩ => Flow.agree_whileTrue condition
  | ⟨.loopAt table output filter, _, _⟩ => Flow.agree_loopAt table output filter
  | ⟨.endBlock _, _, _⟩ => .pure _
  | ⟨.caseOf _, _, _⟩ | ⟨.whenOneOf _, _, _⟩ | ⟨.whenOthers, _, _⟩ | ⟨.endCase, _, _⟩ => .fail rfl
  | ⟨.tryBody, _, _⟩ | ⟨.catchClasses _ _, _, _⟩ | ⟨.endTry, _, _⟩ => .fail rfl
  | ⟨.continueLoop, _, _⟩ | ⟨.exitLoop, _, _⟩ => .pure _
  | ⟨.returnHere, _, _⟩ => (Flow.built_returnAt _).agree
  | ⟨.assert condition, _, _⟩ => Flow.agree_assert condition
  | ⟨.classImplementation name, _, _⟩ => by
    change Agree (Flow.classHeader name.caseless) (Flow.classHeader name)
    rw [Flow.classHeader_caseless]
    exact (Flow.built_classHeader name).agree
  | ⟨.interfaceHeader name, _, _⟩ => .of_eq (by rw [Token.lower_caseless])
  | ⟨.method name, _, _⟩ => Flow.agree_methodAt _ name
  | ⟨.endMethod, _, _⟩ => (Flow.built_endMethodAt _).agree
  | ⟨.form name, _, _⟩ => .of_eq (by rw [Token.lower_caseless])
  | ⟨.perform name, _, _⟩ => .of_eq (by rw [Token.lower_caseless])
  | ⟨.call call, _, _⟩ => call.agree_emitStatement
  | ⟨.callFunction name destination exporting importing changing tables _, _, _⟩ =>
    Invocation.agree_callFunction name destination exporting importing changing tables
  | ⟨.callTransformation name options source result, _, _⟩ =>
    Invocation.agree_callTransformation name options source result
  | ⟨.raiseException raise, _, _⟩ => Invocation.agree_raise raise
  | ⟨.message message arguments into, _, _⟩ => Invocation.agree_message message arguments into
  | ⟨.createObject target spec parameters, _, _⟩ =>
    Invocation.agree_createObject target spec parameters
  | ⟨.createData target spec, _, _⟩ => DataObject.agree_create target spec
  | ⟨.assign source target casting, _, _⟩ => DataObject.agree_assign source target casting
  | ⟨.getReference source target, _, _⟩ => DataObject.agree_getReference source target
  | ⟨.concatenate sources target separatedBy lines, _, _⟩ =>
    CharacterProcessing.agree_concatenate sources target separatedBy lines
  | ⟨.split source separator into, _, _⟩ => CharacterProcessing.agree_split source separator into
  | ⟨.replace target all pattern replacement, _, _⟩ =>
    CharacterProcessing.agree_replace target all pattern replacement
  | ⟨.condense target noGaps, _, _⟩ => CharacterProcessing.agree_condense target noGaps
  | ⟨.find pattern within first count offset length submatches, _, _⟩ =>
    CharacterProcessing.agree_find pattern within first count offset length submatches
  | ⟨.shift target direction mode circular byteMode, _, _⟩ =>
    CharacterProcessing.agree_shift target direction mode circular byteMode
  | ⟨.translate target rule, _, _⟩ => CharacterProcessing.agree_translate target rule
  | ⟨.describe field typeTarget length mode, _, _⟩ =>
    CharacterProcessing.agree_describe field typeTarget length mode
  | ⟨.setBit position target value, _, _⟩ => CharacterProcessing.agree_setBit position target value
  | ⟨.getBit position source target, _, _⟩ =>
    CharacterProcessing.agree_getBit position source target
  | ⟨.write source newLine, _, _⟩ => CharacterProcessing.agree_write source newLine
  | ⟨.sort target descending keys, _, _⟩ => Row.agree_sort target descending keys
  | ⟨.append source target assigning, _, _⟩ => Row.agree_append source target assigning
  | ⟨.insertInternal data table index assigning, _, _⟩ =>
    Row.agree_insert data table index assigning
  | ⟨.modifyInternal table index row, _, _⟩ => Row.agree_modify table index row
  | ⟨.deleteInternal table filter adjacent index row, _, _⟩ =>
    Row.agree_delete table filter adjacent index row
  | ⟨.readTable table index into referenceInto assigning withKey binarySearch, _, _⟩ =>
    Row.agree_read table index into referenceInto assigning withKey binarySearch
  | ⟨.select target fields table filter single upTo, _, _⟩ =>
    Row.agree_select target fields table filter single upTo
  | ⟨.insertDatabase table values, _, _⟩ => Row.agree_insertDatabase table values
  | ⟨.changeDatabase change table rows, _, _⟩ => Row.agree_changeDatabase change table rows
  | ⟨.commit, _, _⟩ | ⟨.rollback, _, _⟩ => .pure _
  | ⟨.convert conversion, _, _⟩ => Invocation.agree_convert conversion
  | ⟨.waitForPushChannels condition seconds, _, _⟩ =>
    Invocation.agree_waitForPushChannels condition seconds
  | ⟨.authorityCheck _, _, _⟩ => .pure _
  | ⟨.unsupported _, _, _⟩ => .fail rfl

theorem StatementNode.agree_emitLine (node : StatementNode) :
    Agree node.caseless.emitLine node.emitLine :=
  .bind Emit.agree_countStatement fun _ => .bind node.agree fun _ =>
    .bind Emit.Built.takeHoisted.agree fun _ => .pure _

end AbapLowering
