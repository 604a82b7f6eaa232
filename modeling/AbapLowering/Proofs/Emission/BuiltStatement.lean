import AbapLowering.Proofs.Emission.Built

/-!
# What statements are built from

Each statement is built from the basic effects (`StatementNode.built`). Temporaries are among them
only for `DO` and `LOOP AT` (`Statement.drawsTemporaries`), and emptying the queue of guards only for
`ELSEIF` and `WHILE` (`Statement.guardedCondition?`).
-/

namespace AbapLowering

open Emit (Built)

variable {draws drains : Bool} {effects : Emit.Effects}

/-! ## Data objects -/

namespace DataObject

/-- DATA asks for the constructor of its type; the initial value is a literal and needs nothing. -/
theorem built_declare (name : Token) (type : DataType) (value : Option Constant) :
    (declare name type value).Built (.guarding draws drains) := by
  refine .bind (.typeConstructor type) fun _ => ?_
  cases value with
  | none => exact .pure _
  | some value => exact .pure _

/-- A `MOVE` is its source, which is emitted first, and its target. -/
theorem built_move (source : Source) (target : FieldChain) :
    (move source target).Built (.guarding draws drains) :=
  .bind source.built fun _ => .bind target.built_emitTarget fun _ => .pure _

/-- The target of `ADD` and its relatives is emitted twice, once to be read and once to be set. -/
theorem built_arithmetic (verb : ArithmeticVerb) (source : Source) (target : FieldChain) :
    (arithmetic verb source target).Built (.guarding draws drains) :=
  .bind (target.built .read) fun _ => .bind source.built fun _ =>
    .bind target.built_emitTarget fun _ => .pure _

/-- CLEAR needs nothing besides its target. -/
theorem built_clear (target : FieldChain) : (clear target).Built (.guarding draws drains) :=
  .bind target.built_emitTarget fun _ => .pure _

theorem built_moveCorresponding (source : Source) (target : FieldChain) :
    (moveCorresponding source target).Built (.guarding draws drains) :=
  .bind source.built fun _ => .bind target.built_emitTarget fun _ => .pure _

/-- What is assigned to a field symbol is an operand, whichever form it is written in. -/
theorem built_assigned (source : Source) : (assigned source).Built (.guarding draws drains) := by
  unfold assigned
  split
  · split
    · exact .bind (FieldChain.built .read _) fun _ => .pure _
    · exact FieldChain.built .read _
  · exact source.built

/-- ASSIGN emits the field symbol before what is assigned to it. -/
theorem built_assign (source : Source) (target : FieldChain) (casting : Bool) :
    (assign source target casting).Built (.guarding draws drains) :=
  .bind target.built_emitTarget fun _ => .bind (built_assigned source) fun _ => .pure _

theorem built_getReference (source : Source) (target : FieldChain) :
    (getReference source target).Built (.guarding draws drains) :=
  .bind source.built fun _ => .bind target.built_emitTarget fun _ => .pure _

/-- The type of a `CREATE DATA` is a text or an operand that is read. -/
theorem built_typeName (name : DynamicName) : (typeName name).Built (.guarding draws drains) := by
  cases name with
  | literal value => exact .pure _
  | field chain => exact .bind (chain.built .read) fun _ => .pure _

/-- Every form of `CREATE DATA` is a target and at most one name, operand or type besides. -/
theorem built_create (target : FieldChain) (spec : CreateDataSpec) :
    (create target spec).Built (.guarding draws drains) := by
  refine .bind target.built_emitTarget fun _ => ?_
  cases spec with
  | type type => exact .bind (.typeConstructor type) fun _ => .pure _
  | dynamic name table => exact .bind (built_typeName name) fun _ => .pure _
  | likeLineOf source => exact .bind source.built fun _ => .pure _
  | like source => exact .bind source.built fun _ => .pure _

end DataObject

/-! ## Character processing -/

namespace CharacterProcessing

/-- CONCATENATE goes through its sources, its target and the separator if there is one. -/
theorem built_concatenate (sources : List Source) (target : FieldChain)
    (separatedBy : Option Source) (lines : Bool) :
    (concatenate sources target separatedBy lines).Built (.guarding draws drains) :=
  .bind (.mapM _ Source.built) fun _ => .bind target.built_emitTarget fun _ =>
    .bind (.namedIfGiven _ _ Source.built) fun _ => .pure _

/-- The parts of a `SPLIT` go into one table or into several fields, all of them targets. -/
theorem built_splitTarget (into : SplitInto) : (splitTarget into).Built (.guarding draws drains) := by
  cases into with
  | table target => exact .bind target.built_emitTarget fun _ => .pure _
  | targets targets => exact .bind (.mapM _ FieldChain.built_emitTarget) fun _ => .pure _

theorem built_split (source separator : Source) (into : SplitInto) :
    (split source separator into).Built (.guarding draws drains) :=
  .bind source.built fun _ => .bind separator.built fun _ =>
    .bind (built_splitTarget into) fun _ => .pure _

/-- REPLACE names its three operands. -/
theorem built_replace (target : FieldChain) (all : Bool) (pattern replacement : Source) :
    (replace target all pattern replacement).Built (.guarding draws drains) :=
  .bind target.built_emitTarget fun _ => .bind pattern.built fun _ =>
    .bind replacement.built fun _ => .pure _

theorem built_condense (target : FieldChain) (noGaps : Bool) :
    (condense target noGaps).Built (.guarding draws drains) :=
  .bind target.built_emitTarget fun _ => .pure _

/-- A pattern to look for is one operand, a regular expression or not. -/
theorem built_pattern (wanted : FindPattern) : (pattern wanted).Built (.guarding draws drains) := by
  cases wanted with
  | substring source => exact .bind source.built fun _ => .pure _
  | regex source => exact .bind source.built fun _ => .pure _

/-- FIND sets up to three fields besides those for the submatches; only those that are given are
emitted. -/
theorem built_find (wanted : FindPattern) (within : Source) (first : Bool)
    (count offset length : Option FieldChain) (submatches : List FieldChain) :
    (find wanted within first count offset length submatches).Built (.guarding draws drains) := by
  refine .bind within.built fun _ => .bind (built_pattern wanted) fun _ => ?_
  refine .bind (.namedIfGiven _ _ FieldChain.built_emitTarget) fun _ => ?_
  refine .bind (.namedIfGiven _ _ FieldChain.built_emitTarget) fun _ => ?_
  refine .bind (.namedIfGiven _ _ FieldChain.built_emitTarget) fun _ => ?_
  exact .bind (.namedListIfAny _ _ _ FieldChain.built_emitTarget) fun _ => .pure _

/-- The distance of a `SHIFT` is at most one operand. -/
theorem built_shiftDistance (mode : ShiftMode) :
    (shiftDistance mode).Built (.guarding draws drains) := by
  cases mode with
  | single => exact .pure _
  | places source => exact .bind source.built fun _ => .pure _
  | upTo source => exact .bind source.built fun _ => .pure _
  | deletingLeading source => exact .bind source.built fun _ => .pure _
  | deletingTrailing source => exact .bind source.built fun _ => .pure _

theorem built_shift (target : FieldChain) (direction : ShiftDirection) (mode : ShiftMode)
    (circular byteMode : Bool) :
    (shift target direction mode circular byteMode).Built (.guarding draws drains) :=
  .bind (built_shiftDistance mode) fun _ => .bind target.built_emitTarget fun _ => .pure _

/-- The rule of a `TRANSLATE` is fixed or an operand. -/
theorem built_translate (target : FieldChain) (rule : TranslateRule) :
    (translate target rule).Built (.guarding draws drains) := by
  refine .bind target.built_emitTarget fun _ => ?_
  match rule with
  | .upper | .lower => exact .pure _
  | .using mask => exact .bind mask.built fun _ => .pure _

/-- DESCRIBE FIELD emits its operand and the fields that are given. -/
theorem built_describe (field : Source) (typeTarget length : Option FieldChain)
    (mode : Option DescribeMode) :
    (describe field typeTarget length mode).Built (.guarding draws drains) :=
  .bind field.built fun _ => .bind (.namedIfGiven _ _ FieldChain.built_emitTarget) fun _ =>
    .bind (.namedIfGiven _ _ FieldChain.built_emitTarget) fun _ => .pure _

/-- SET BIT takes the value it sets from an operand, if there is one. -/
theorem built_setBit (position : Source) (target : FieldChain) (value : Option Source) :
    (setBit position target value).Built (.guarding draws drains) := by
  refine .bind position.built fun _ => .bind target.built_emitTarget fun _ => ?_
  cases value with
  | none => exact .pure _
  | some value => exact .bind value.built fun _ => .pure _

theorem built_getBit (position source : Source) (target : FieldChain) :
    (getBit position source target).Built (.guarding draws drains) :=
  .bind position.built fun _ => .bind source.built fun _ =>
    .bind target.built_emitTarget fun _ => .pure _

/-- WRITE emits at most the one operand it writes. -/
theorem built_write (source : Source) (newLine : Bool) :
    (write source newLine).Built (.guarding draws drains) := by
  unfold write
  split
  · exact .pure _
  · exact .bind source.built fun _ => .pure _

end CharacterProcessing

/-! ## Rows of tables -/

namespace Row

/-- The keys of a `SORT` are texts and have no effects. -/
theorem built_sort (target : FieldChain) (descending : Bool) (keys : List SortKey) :
    (sort target descending keys).Built (.guarding draws drains) :=
  .bind target.built_emitTarget fun _ => .pure _

/-- What is appended is emitted before a field symbol that is made to point at it. -/
theorem built_appendRows (table : String) (source : Source) (lines : Bool)
    (assigning : Option FieldChain) :
    (appendRows table source lines assigning).Built (.guarding draws drains) :=
  .bind source.built fun _ => .bind (.namedIfGiven _ _ FieldChain.built_emitTarget) fun _ =>
    .pure _

/-- APPEND emits the table first, whatever is appended to it. -/
theorem built_append (source : AppendSource) (target : FieldChain)
    (assigning : Option FieldChain) :
    (append source target assigning).Built (.guarding draws drains) := by
  refine .bind target.built_emitTarget fun table => ?_
  cases source with
  | value source => exact built_appendRows table source false assigning
  | linesOf source => exact built_appendRows table source true assigning
  | initialLine =>
    cases assigning with
    | none => exact .pure _
    | some symbol => exact .bind symbol.built_emitTarget fun _ => .pure _

/-- What `INSERT` inserts is an operand or an initial line. -/
theorem built_inserted (data : InsertData) : (inserted data).Built (.guarding draws drains) := by
  cases data with
  | value source => exact .bind source.built fun _ => .pure _
  | initialLine => exact .pure _

/-- INSERT emits the row and the options that are given, and its table last. -/
theorem built_insert (data : InsertData) (table : FieldChain) (index : Option Source)
    (assigning : Option FieldChain) :
    (insert data table index assigning).Built (.guarding draws drains) := by
  refine .bind (built_inserted data) fun _ => .bind (.namedIfGiven _ _ Source.built) fun _ => ?_
  refine .bind (.namedIfGiven _ _ FieldChain.built_emitTarget) fun _ => ?_
  exact .bind (.named _ table.built_emitTarget) fun _ => .pure _

/-- MODIFY names the index and the row that are given. -/
theorem built_modify (table : FieldChain) (index row : Option Source) :
    (modify table index row).Built (.guarding draws drains) :=
  .bind table.built_emitTarget fun _ => .bind (.namedIfGiven _ _ Source.built) fun _ =>
    .bind (.namedIfGiven _ _ Source.built) fun _ => .pure _

/-- The filter of a `DELETE` is a condition on rows; its guards stay in the queue of the statement. -/
theorem built_delete (table : FieldChain) (filter : Option Condition) (adjacent : Bool)
    (index row : Option Source) :
    (delete table filter adjacent index row).Built (.guarding draws drains) := by
  refine .bind table.built_emitTarget fun _ => ?_
  refine .bind (.namedIfGiven _ _ Condition.built_emitRowFilter) fun _ => ?_
  exact .bind (.namedIfGiven _ _ Source.built) fun _ =>
    .bind (.namedIfGiven _ _ Source.built) fun _ => .pure _

/-- READ TABLE names its table and those of its six options that are given. -/
theorem built_read (table : Source) (index : Option Source)
    (into referenceInto assigning : Option FieldChain) (withKey : Option Condition)
    (binarySearch : Bool) :
    (read table index into referenceInto assigning withKey binarySearch).Built
      (.guarding draws drains) := by
  refine .bind table.built fun _ => .bind (.namedIfGiven _ _ Source.built) fun _ => ?_
  refine .bind (.namedIfGiven _ _ FieldChain.built_emitTarget) fun _ => ?_
  refine .bind (.namedIfGiven _ _ FieldChain.built_emitTarget) fun _ => ?_
  refine .bind (.namedIfGiven _ _ FieldChain.built_emitTarget) fun _ => ?_
  exact .bind (.namedIfGiven _ _ Condition.built_emitRowFilter) fun _ => .pure _

/-- SELECT is emitted as a text for the database, apart from its target. -/
theorem built_select (target : FieldChain) (fields : String) (table : DatabaseTable)
    (filter : Option String) (single : Bool) (upTo : Option UInt32) :
    (select target fields table filter single upTo).Built (.guarding draws drains) := by
  refine .bind target.built_emitTarget fun _ => ?_
  cases table with
  | named name => exact .pure _
  | dynamic chain => exact .bind (chain.built .read) fun _ => .pure _

/-- The name of a database table is a literal or an operand that is read. -/
theorem built_tableName (table : DatabaseTable) :
    (tableName table).Built (.guarding draws drains) := by
  cases table with
  | named name => exact .pure _
  | dynamic chain => exact chain.built .read

theorem built_insertDatabase (table : DatabaseTable) (values : Source) :
    (insertDatabase table values).Built (.guarding draws drains) :=
  .bind (built_tableName table) fun _ => .bind values.built fun _ => .pure _

/-- The rows of a database change come from a single operand. -/
theorem built_changedRows (rows : DatabaseSource) :
    (changedRows rows).Built (.guarding draws drains) := by
  cases rows with
  | row source => exact .bind source.built fun _ => .pure _
  | table source => exact .bind source.built fun _ => .pure _

/-- The four statements that change a database table are emitted alike. -/
theorem built_changeDatabase (change : DatabaseChange) (table : DatabaseTable)
    (rows : DatabaseSource) : (changeDatabase change table rows).Built (.guarding draws drains) :=
  .bind (built_tableName table) fun _ => .bind (built_changedRows rows) fun _ => .pure _

end Row

/-! ## Invocations -/

namespace Invocation

/-- Actual parameters are emitted in the order in which they stand. -/
theorem built_bindings (given : List Binding) : (bindings given).Built (.guarding draws drains) :=
  .bind (built_emitBindings given) fun _ => .pure _

theorem built_bindingsIfAny (given : List Binding) :
    (bindingsIfAny given).Built (.guarding draws drains) := by
  unfold bindingsIfAny
  split
  · exact .pure _
  · exact built_bindings given

/-- A group of parameters of a function module is left out if it is empty. -/
theorem built_targetGroup (key : String) (targets : List TargetBinding) :
    (targetGroup key targets).Built (.guarding draws drains) := by
  unfold targetGroup
  split
  · exact .pure _
  · exact .bind (built_emitTargetBindings targets) fun _ => .pure _

/-- The four groups of parameters are emitted in a fixed order. -/
theorem built_functionGroups (exporting : List Binding)
    (importing changing tables : List TargetBinding) :
    (functionGroups exporting importing changing tables).Built (.guarding draws drains) := by
  unfold functionGroups
  dsimp only
  split
  · refine .bind (.pure _) fun _ => ?_
    exact .bind (built_targetGroup _ _) fun _ => .bind (built_targetGroup _ _) fun _ =>
      .bind (built_targetGroup _ _) fun _ => .pure _
  · refine .bind (built_bindings exporting) fun _ => .bind (.pure _) fun _ => ?_
    exact .bind (built_targetGroup _ _) fun _ => .bind (built_targetGroup _ _) fun _ =>
      .bind (built_targetGroup _ _) fun _ => .pure _

/-- A function module is looked up by a literal or by an operand that is read. -/
theorem built_functionAddress (name : DynamicName) :
    (functionAddress name).Built (.guarding draws drains) := by
  cases name with
  | literal value => exact .pure _
  | field chain => exact .bind (chain.built .read) fun _ => .pure _

/-- The parameters of a call are emitted before the function module and its destination. -/
theorem built_callFunction (name : DynamicName) (destination : Option DynamicName)
    (exporting : List Binding) (importing changing tables : List TargetBinding) :
    (callFunction name destination exporting importing changing tables).Built
      (.guarding draws drains) := by
  refine .bind (built_functionGroups exporting importing changing tables) fun _ => ?_
  cases destination with
  | none => exact .bind (built_functionAddress name) fun _ => .pure _
  | some destination =>
    exact .bind name.built_emitText fun _ => .bind destination.built_emitText fun _ => .pure _

/-- RAISE EXCEPTION creates an exception with parameters or throws one that an operand holds. -/
theorem built_raise (how : Raise) : (raise how).Built (.guarding draws drains) := by
  cases how with
  | type className exporting =>
    exact .bind (.classAddress _ _) fun _ => .bind (built_bindingsIfAny exporting) fun _ => .pure _
  | object source => exact .bind source.built fun _ => .pure _

/-- If the class of a target cannot be told the emission ends. -/
theorem built_classOfTarget (target : FieldChain) :
    (classOfTarget target).Built (.guarding draws drains) := by
  unfold classOfTarget
  split
  · exact .fail _
  · refine .bind (.ask _) fun found => ?_
    split
    · exact .classAddress _ _
    · exact .fail _

/-- Without a class that is written out, the class to create is that of the target. -/
theorem built_createdClass (target : FieldChain) (spec : Option ClassSpec) :
    (createdClass target spec).Built (.guarding draws drains) := by
  match spec with
  | some (.static name) => exact .classAddress _ _
  | some (.dynamic name) =>
    exact .bind name.built_emitClass fun _ => .bind (.requireTarget _ _ rfl) fun _ => .pure _
  | none => exact built_classOfTarget target

/-- CREATE OBJECT emits the class and the parameters of its constructor before its target. -/
theorem built_createObject (target : FieldChain) (spec : Option ClassSpec)
    (parameters : List Binding) :
    (createObject target spec parameters).Built (.guarding draws drains) :=
  .bind (built_createdClass target spec) fun _ => .bind (built_bindingsIfAny parameters) fun _ =>
    .bind target.built_emitTarget fun _ => .pure _

/-- The parts by which a message is known are a text or three operands. -/
theorem built_messageParts (spec : MessageSpec) :
    (messageParts spec).Built (.guarding draws drains) := by
  cases spec with
  | short messageType number id => exact .pure _
  | parts id messageType number =>
    exact .bind (.named _ id.built) fun _ => .bind (.named _ messageType.built) fun _ =>
      .bind (.named _ number.built) fun _ => .pure _

/-- MESSAGE emits the field it is written into, its parts and its arguments. -/
theorem built_message (spec : MessageSpec) (arguments : List Source) (into : Option FieldChain) :
    (message spec arguments into).Built (.guarding draws drains) :=
  .bind (.namedIfGiven _ _ FieldChain.built_emitTarget) fun _ =>
    .bind (built_messageParts spec) fun _ =>
      .bind (.namedListIfAny _ _ _ Source.built) fun _ => .pure _

theorem built_tightBindings (given : List Binding) :
    (tightBindings given).Built (.guarding draws drains) :=
  .bind (.mapM _ fun b => .bind b.value.built fun _ => .pure _) fun _ => .pure _

/-- The source or the result of a transformation is an operand or a list of bindings. -/
theorem built_transformationOperand (operand : TransformationOperand) :
    (transformationOperand operand).Built (.guarding draws drains) := by
  cases operand with
  | xml value => exact value.built
  | bindings bindings => exact built_tightBindings bindings
  | dynamic value => exact .bind value.built fun _ => .pure _

theorem built_transformationPart (wanted : Bool) (key : String)
    (operand : TransformationOperand) :
    (transformationPart wanted key operand).Built (.guarding draws drains) := by
  unfold transformationPart
  split
  · exact .bind (built_transformationOperand operand) fun _ => .pure _
  · exact .pure _

/-- Operands that are XML are emitted before the options of a transformation, others after them. -/
theorem built_callTransformation (name : String) (options : List Binding)
    (source result : TransformationOperand) :
    (callTransformation name options source result).Built (.guarding draws drains) := by
  refine .bind (built_transformationPart _ _ source) fun _ => ?_
  refine .bind (built_transformationPart _ _ result) fun _ => ?_
  dsimp only
  split
  · exact .bind (.pure _) fun _ => .bind (built_transformationPart _ _ source) fun _ =>
      .bind (built_transformationPart _ _ result) fun _ => .pure _
  · refine .bind (built_tightBindings options) fun _ => .bind (.pure _) fun _ => ?_
    exact .bind (built_transformationPart _ _ source) fun _ =>
      .bind (built_transformationPart _ _ result) fun _ => .pure _

/-- CONVERT goes through its operands and targets in the order in which they are named. -/
theorem built_conversionParts (conversion : Conversion) :
    (conversionParts conversion).Built (.guarding draws drains) := by
  cases conversion with
  | toStamp date time zone stamp =>
    refine .bind (.named _ date.built) fun _ => .bind (.namedIfGiven _ _ Source.built) fun _ => ?_
    exact .bind (.namedIfGiven _ _ Source.built) fun _ =>
      .bind (.named _ stamp.built_emitTarget) fun _ => .pure _
  | fromStamp stamp zone date time =>
    refine .bind (.named _ stamp.built) fun _ => .bind (.namedIfGiven _ _ Source.built) fun _ => ?_
    exact .bind (.namedIfGiven _ _ FieldChain.built_emitTarget) fun _ =>
      .bind (.namedIfGiven _ _ FieldChain.built_emitTarget) fun _ => .pure _

theorem built_convert (conversion : Conversion) :
    (convert conversion).Built (.guarding draws drains) :=
  .bind (built_conversionParts conversion) fun _ => .pure _

/-- The condition that is waited for is emitted like any other condition. -/
theorem built_waitForPushChannels (condition : Condition) (seconds : Option Source) :
    (waitForPushChannels condition seconds).Built (.guarding draws drains) :=
  .bind (.named _ condition.built) fun _ => .bind (.namedIfGiven _ _ Source.built) fun _ => .pure _

end Invocation

/-! ## Members -/

namespace Members

/-- To visit an interface is to warn if there is none; a faulty lookup ends the emission. -/
theorem built_visited (what : String) (visit : InterfaceVisit) :
    (visited what visit).Built effects := by
  unfold visited
  split
  · exact .throw _
  · exact .pure _
  · exact .bind (.warn _ _) fun _ => .pure _

/-- An attribute of an instance asks for the constructor of its type. -/
theorem built_instanceLine (name : String) (type : DataType) :
    (instanceLine name type).Built effects :=
  .bind (.typeConstructor type) fun _ => .pure _

theorem built_interfaceLines (visit : InterfaceVisit) : (interfaceLines visit).Built effects := by
  refine .bind (built_visited _ visit) fun found => ?_
  cases found with
  | none => exact .pure _
  | some i => exact .mapM _ fun a => built_instanceLine _ a.type

/-- The lines of a constructor queue no guards and draw no temporaries. -/
theorem built_constructorLines (c : ClassDefinition) (scope : Option ScopeId) (forward : Bool) :
    (constructorLines c scope forward).Built effects :=
  .bind (.mapM _ fun a => built_instanceLine _ a.type) fun _ => .onView
    (fun _ => .bind (.mapM _ built_interfaceLines) fun _ => .pure _)
    (fun _ _ h => by rw [h])

/-- A class that is not known ends the emission. -/
theorem built_classOf (name : Token) : (classOf name).Built effects := by
  refine .bind (.ask _) fun found => ?_
  cases found with
  | none => exact .fail _
  | some c => exact .pure _

theorem built_defaultConstructor (name : Token) : (defaultConstructor name).Built effects :=
  .bind (built_classOf name) fun c => .bind (.ask _) fun scope =>
    .bind (built_constructorLines c scope true) fun _ => .pure _

theorem built_interfaceMembers (visit : InterfaceVisit) :
    (interfaceMembers visit).Built effects := by
  refine .bind (built_visited _ visit) fun found => ?_
  cases found with
  | none => exact .pure _
  | some i => exact .pure _

theorem built_staticLines (className : String) (m : StaticMember) :
    (staticLines className m).Built effects :=
  .bind (.typeConstructor m.type) fun _ => .pure _

/-- Static members are collected by looking at the unit alone, without its configuration. -/
theorem built_collectStatics (c : ClassDefinition) (scope : ScopeId) :
    (collectStatics c scope).Built effects :=
  .onView (fun _ => .bind (.mapM _ built_interfaceMembers) fun _ => .pure _)
    (fun _ _ h => by rw [h])

theorem built_staticPart (name : Token) : (staticPart name).Built effects :=
  .bind (built_classOf name) fun c => .bind (.ask _) fun scope =>
    .bind (built_collectStatics c scope) fun _ =>
      .bind (.mapM _ (built_staticLines name.lower)) fun _ => .pure _

/-- An interface is looked for around a token and then under its name. -/
theorem built_interfaceOf (name : Token) : (interfaceOf name).Built effects := by
  refine .bind (.ask _) fun scope => .bind (.ask _) fun found => ?_
  cases found with
  | some i => exact .pure _
  | none =>
    refine .bind (.walk _) fun found => ?_
    cases found with
    | none => exact .fail _
    | some i => exact .pure _

theorem built_interfacePart (name : Token) (i : InterfaceDefinition) :
    (interfacePart name i).Built effects :=
  .bind (.mapM _ (built_staticLines name.lower)) fun _ => .pure _

/-- The key of a registration rests on the unit alone. -/
theorem built_register (d : Definition) (name : Token) : (register d name).Built effects :=
  .onView (fun _ => .register _) (fun _ _ h => by rw [h])

end Members

/-! ## Flow of control -/

namespace Flow

theorem built_ifThen (condition : Condition) : (ifThen condition).Built (.guarding draws drains) :=
  .bind condition.built fun _ => .pure _

/-- ELSEIF takes the guards from the queue and folds them into its condition. -/
theorem built_elseIf (condition : Condition) :
    (elseIf condition).Built (.guarding draws true) :=
  .bind condition.built fun text => .bind (.guarded text) fun _ => .pure _

/-- WHILE takes the guards from the queue, to have them checked in each round. -/
theorem built_whileTrue (condition : Condition) :
    (whileTrue condition).Built (.guarding draws true) :=
  .bind condition.built fun text => .bind (.guarded text) fun _ => .pure _

/-- DO draws temporaries to count its passes. -/
theorem built_doTimes (times : Option Source) : (doTimes times).Built (.guarding true drains) := by
  cases times with
  | none => exact .bind (.temporary rfl) fun _ => .pure _
  | some times =>
    exact .bind (.temporary rfl) fun _ => .bind (.temporary rfl) fun _ =>
      .bind times.built fun _ => .pure _

theorem built_loopOutput (row : String) (output : LoopOutput) :
    (loopOutput row output).Built (.guarding draws drains) := by
  cases output with
  | into target => exact .bind target.built_emitTarget fun _ => .pure _
  | assigning target => exact .bind target.built_emitTarget fun _ => .pure _
  | referenceInto target => exact .bind target.built_emitTarget fun _ => .pure _
  | nothing => exact .pure _

/-- LOOP AT draws a temporary for the row; its filter belongs to the statement. -/
theorem built_loopAt (table : Source) (output : LoopOutput) (filter : Option Condition) :
    (loopAt table output filter).Built (.guarding true drains) := by
  refine .bind (.temporary rfl) fun row => .bind table.built fun _ => ?_
  cases filter with
  | none => exact .bind (.pure _) fun _ => .bind (built_loopOutput row output) fun _ => .pure _
  | some condition =>
    exact .bind condition.built_emitRowFilter fun _ => .bind (.pure _) fun _ =>
      .bind (built_loopOutput row output) fun _ => .pure _

theorem built_assert (condition : Condition) : (assert condition).Built (.guarding draws drains) :=
  .bind condition.built fun _ => .pure _

/-- The value a method returns is known from the method around a position. -/
theorem built_resultAt (position : Position) : (resultAt position).Built effects :=
  .bind (.ask _) fun _ => .pure _

/-- RETURN depends on the method around it and on nothing that was emitted. -/
theorem built_returnAt (position : Position) : (returnAt position).Built effects := by
  refine .bind (built_resultAt position) fun value => ?_
  cases value with
  | none => exact .pure _
  | some value => exact .pure _

/-- The end of a method returns what a `RETURN` returns, if anything. -/
theorem built_endMethodAt (position : Position) : (endMethodAt position).Built effects := by
  refine .bind (built_resultAt position) fun value => ?_
  cases value with
  | none => exact .pure _
  | some value => exact .pure _

theorem built_parameterLines (p : MethodParameter) : (parameterLines p).Built effects :=
  .bind (.typeConstructor p.type) fun _ => .pure _

/-- What a method begins with is made of its parameters, or is the beginning of a constructor. -/
theorem built_setupLines (enclosing : Option EnclosingMethod) (position : Position)
    (name : Token) : (setupLines enclosing position name).Built effects := by
  unfold setupLines
  split
  · refine .bind (.ask _) fun found => ?_
    cases found with
    | none => exact .fail _
    | some c =>
      exact .bind (.ask _) fun scope => Members.built_constructorLines c scope false
  · exact .pure _

/-- The header of a method is followed by the lines that set up its parameters. -/
theorem built_methodAt (position : Position) (name : Token) :
    (methodAt position name).Built effects := by
  refine .bind (.ask _) fun enclosing => ?_
  dsimp only
  split
  · refine .bind (.warn _ _) fun _ => .bind (.mapM _ built_parameterLines) fun _ => ?_
    exact .bind (built_setupLines enclosing position name) fun _ => .pure _
  · refine .bind (.mapM _ built_parameterLines) fun _ => ?_
    exact .bind (built_setupLines enclosing position name) fun _ => .pure _

theorem built_classHeader (name : Token) : (classHeader name).Built effects := by
  refine .bind (.ask _) fun scope => .bind (.walk _) fun definition => ?_
  split
  · exact .bind (.classAddress _ _) fun _ => .pure _
  · exact .pure _

end Flow

/-! ## Statements -/

/-- Whether a statement gets temporaries. -/
def Statement.drawsTemporaries : Statement → Bool
  | .doTimes _ | .loopAt _ _ _ => true
  | _ => false

/-- Only `DO` and `LOOP AT` draw temporaries. -/
theorem Statement.eq_of_drawsTemporaries {s : Statement} (h : s.drawsTemporaries = true) :
    (∃ times, s = .doTimes times) ∨ ∃ table output filter, s = .loopAt table output filter := by
  unfold drawsTemporaries at h
  split at h
  · exact .inl ⟨_, rfl⟩
  · exact .inr ⟨_, _, _, rfl⟩
  · cases h

/-- The condition in front of which guards are run each time it is evaluated. -/
def Statement.guardedCondition? : Statement → Option Condition
  | .elseIf condition | .whileTrue condition => some condition
  | _ => none

/-- A statement queues guards. It draws temporaries or empties the queue only if it is one of those
that do. -/
theorem StatementNode.built : ∀ node : StatementNode, node.emit.Built
    (.guarding node.statement.drawsTemporaries node.statement.guardedCondition?.isSome)
  | ⟨.data name type value, _, _⟩ => DataObject.built_declare name type value
  | ⟨.constants name type value, _, _⟩ => DataObject.built_declare name type (some value)
  | ⟨.fieldSymbol _, _, _⟩ | ⟨.declarative _, _, _⟩ | ⟨.comment _, _, _⟩ => .pure _
  | ⟨.move source target, _, _⟩ => DataObject.built_move source target
  | ⟨.arithmetic verb source target, _, _⟩ => DataObject.built_arithmetic verb source target
  | ⟨.clear target, _, _⟩ | ⟨.free target, _, _⟩ => DataObject.built_clear target
  | ⟨.moveCorresponding source target, _, _⟩ => DataObject.built_moveCorresponding source target
  | ⟨.ifThen condition, _, _⟩ => Flow.built_ifThen condition
  | ⟨.elseIf condition, _, _⟩ => Flow.built_elseIf condition
  | ⟨.otherwise, _, _⟩ => .pure _
  | ⟨.doTimes times, _, _⟩ => Flow.built_doTimes times
  | ⟨.whileTrue condition, _, _⟩ => Flow.built_whileTrue condition
  | ⟨.loopAt table output filter, _, _⟩ => Flow.built_loopAt table output filter
  | ⟨.endBlock _, _, _⟩ => .pure _
  | ⟨.caseOf _, _, _⟩ | ⟨.whenOneOf _, _, _⟩ | ⟨.whenOthers, _, _⟩ | ⟨.endCase, _, _⟩ => .fail _
  | ⟨.tryBody, _, _⟩ | ⟨.catchClasses _ _, _, _⟩ | ⟨.endTry, _, _⟩ => .fail _
  | ⟨.continueLoop, _, _⟩ | ⟨.exitLoop, _, _⟩ => .pure _
  | ⟨.returnHere, _, _⟩ => Flow.built_returnAt _
  | ⟨.assert condition, _, _⟩ => Flow.built_assert condition
  | ⟨.classImplementation name, _, _⟩ => Flow.built_classHeader name
  | ⟨.interfaceHeader _, _, _⟩ => .pure _
  | ⟨.method name, _, _⟩ => Flow.built_methodAt _ name
  | ⟨.endMethod, _, _⟩ => Flow.built_endMethodAt _
  | ⟨.form _, _, _⟩ | ⟨.perform _, _, _⟩ => .pure _
  | ⟨.call call, _, _⟩ => call.built_emitStatement
  | ⟨.callFunction name destination exporting importing changing tables _, _, _⟩ =>
    Invocation.built_callFunction name destination exporting importing changing tables
  | ⟨.callTransformation name options source result, _, _⟩ =>
    Invocation.built_callTransformation name options source result
  | ⟨.raiseException raise, _, _⟩ => Invocation.built_raise raise
  | ⟨.message message arguments into, _, _⟩ => Invocation.built_message message arguments into
  | ⟨.createObject target spec parameters, _, _⟩ =>
    Invocation.built_createObject target spec parameters
  | ⟨.createData target spec, _, _⟩ => DataObject.built_create target spec
  | ⟨.assign source target casting, _, _⟩ => DataObject.built_assign source target casting
  | ⟨.getReference source target, _, _⟩ => DataObject.built_getReference source target
  | ⟨.concatenate sources target separatedBy lines, _, _⟩ =>
    CharacterProcessing.built_concatenate sources target separatedBy lines
  | ⟨.split source separator into, _, _⟩ => CharacterProcessing.built_split source separator into
  | ⟨.replace target all pattern replacement, _, _⟩ =>
    CharacterProcessing.built_replace target all pattern replacement
  | ⟨.condense target noGaps, _, _⟩ => CharacterProcessing.built_condense target noGaps
  | ⟨.find pattern within first count offset length submatches, _, _⟩ =>
    CharacterProcessing.built_find pattern within first count offset length submatches
  | ⟨.shift target direction mode circular byteMode, _, _⟩ =>
    CharacterProcessing.built_shift target direction mode circular byteMode
  | ⟨.translate target rule, _, _⟩ => CharacterProcessing.built_translate target rule
  | ⟨.describe field typeTarget length mode, _, _⟩ =>
    CharacterProcessing.built_describe field typeTarget length mode
  | ⟨.setBit position target value, _, _⟩ => CharacterProcessing.built_setBit position target value
  | ⟨.getBit position source target, _, _⟩ =>
    CharacterProcessing.built_getBit position source target
  | ⟨.write source newLine, _, _⟩ => CharacterProcessing.built_write source newLine
  | ⟨.sort target descending keys, _, _⟩ => Row.built_sort target descending keys
  | ⟨.append source target assigning, _, _⟩ => Row.built_append source target assigning
  | ⟨.insertInternal data table index assigning, _, _⟩ =>
    Row.built_insert data table index assigning
  | ⟨.modifyInternal table index row, _, _⟩ => Row.built_modify table index row
  | ⟨.deleteInternal table filter adjacent index row, _, _⟩ =>
    Row.built_delete table filter adjacent index row
  | ⟨.readTable table index into referenceInto assigning withKey binarySearch, _, _⟩ =>
    Row.built_read table index into referenceInto assigning withKey binarySearch
  | ⟨.select target fields table filter single upTo, _, _⟩ =>
    Row.built_select target fields table filter single upTo
  | ⟨.insertDatabase table values, _, _⟩ => Row.built_insertDatabase table values
  | ⟨.changeDatabase change table rows, _, _⟩ => Row.built_changeDatabase change table rows
  | ⟨.commit, _, _⟩ | ⟨.rollback, _, _⟩ => .pure _
  | ⟨.convert conversion, _, _⟩ => Invocation.built_convert conversion
  | ⟨.waitForPushChannels condition seconds, _, _⟩ =>
    Invocation.built_waitForPushChannels condition seconds
  | ⟨.authorityCheck _, _, _⟩ => .pure _
  | ⟨.unsupported _, _, _⟩ => .fail _

end AbapLowering
