import AbapLowering.Proofs.Integers.Operand

/-!
# Integers noted by statements

Emitting a statement notes just the integers that its syntax mentions (`StatementNode.notes`). What
a statement declares, and what a class gets besides its statements, notes none: the values of
constants are written out.
-/

namespace AbapLowering

open Emit (Notes)

/-! ## Members of classes -/

namespace Members

/-- To visit an interface notes nothing, whether it is found or not. -/
theorem notes_visited (what : String) (visit : InterfaceVisit) : (visited what visit).Notes [] := by
  unfold visited
  split
  · exact .throw _
  · exact .pure
  · exact (Notes.warn _ _).give

/-- The constructor of a type spells lengths as they are and notes no integer. -/
theorem notes_instanceLine (name : String) (type : DataType) :
    (instanceLine name type).Notes [] := (Notes.typeConstructor type).give

theorem notes_interfaceLines (visit : InterfaceVisit) : (interfaceLines visit).Notes [] := by
  refine (notes_visited _ visit).after fun found => ?_
  cases found with
  | none => exact .pure
  | some i => exact Notes.mapM_nil _ fun _ => notes_instanceLine _ _

/-- No line of a constructor mentions an integer. -/
theorem notes_constructorLines (c : ClassDefinition) (scope : Option ScopeId) (forward : Bool) :
    (constructorLines c scope forward).Notes [] := by
  refine (Notes.mapM_nil _ fun _ => notes_instanceLine _ _).after fun own => ?_
  refine Notes.read.after fun context => ?_
  exact (Notes.mapM_nil _ notes_interfaceLines).give

/-- A class is looked up by position. -/
theorem notes_classOf (name : Token) : (classOf name).Notes [] := by
  refine (Notes.ask _).after fun found => ?_
  cases found with
  | none => exact .fail _
  | some c => exact .pure

theorem notes_defaultConstructor (name : Token) : (defaultConstructor name).Notes [] := by
  refine (notes_classOf name).after fun c => (Notes.ask _).after fun scope => ?_
  exact (notes_constructorLines c scope true).give

theorem notes_interfaceMembers (visit : InterfaceVisit) : (interfaceMembers visit).Notes [] := by
  refine (notes_visited _ visit).after fun found => ?_
  cases found with
  | none => exact .pure
  | some i => exact .pure

/-- The initial values of static members are texts and are not among the integers. -/
theorem notes_staticLines (className : String) (m : StaticMember) :
    (staticLines className m).Notes [] := (Notes.typeConstructor m.type).give

/-- To collect static members notes nothing. -/
theorem notes_collectStatics (c : ClassDefinition) (scope : ScopeId) :
    (collectStatics c scope).Notes [] :=
  Notes.read.after fun _ => (Notes.mapM_nil _ notes_interfaceMembers).give

/-- The static section of a class notes nothing. -/
theorem notes_staticPart (name : Token) : (staticPart name).Notes [] := by
  refine (notes_classOf name).after fun c => (Notes.ask _).after fun scope => ?_
  refine (notes_collectStatics c scope).after fun members => ?_
  exact (Notes.mapM_nil _ (notes_staticLines name.lower)).give

/-- An interface is looked up by position and by name. -/
theorem notes_interfaceOf (name : Token) : (interfaceOf name).Notes [] := by
  refine (Notes.ask _).after fun scope => (Notes.ask _).after fun here => ?_
  cases here with
  | some i => exact .pure
  | none =>
    refine (Notes.walk _).after fun found => ?_
    cases found with
    | some i => exact .pure
    | none => exact .fail _

theorem notes_interfacePart (name : Token) (i : InterfaceDefinition) :
    (interfacePart name i).Notes [] :=
  (Notes.mapM_nil _ (notes_staticLines name.lower)).give

/-- To register a class notes nothing. -/
theorem notes_register (d : Definition) (name : Token) : (register d name).Notes [] :=
  Notes.read.after fun _ => .register _

end Members

/-! ## Data objects -/

namespace DataObject

/-- The initial value of a variable is a literal and is not among the integers. -/
theorem notes_declare (name : Token) (type : DataType) (value : Option Constant) :
    (declare name type value).Notes [] := by
  refine (Notes.typeConstructor type).after fun _ => ?_
  cases value with
  | none => exact .pure
  | some value => exact .pure

/-- A `MOVE` notes the integers of both operands. -/
theorem notes_move (source : Source) (target : FieldChain) :
    (move source target).Notes (target.mentions ++ source.mentions) :=
  .bind_swap source.notes fun _ => target.notes_emitTarget.give

/-- The target is emitted twice, so what it mentions is mentioned twice. -/
theorem notes_arithmetic (verb : ArithmeticVerb) (source : Source) (target : FieldChain) :
    (arithmetic verb source target).Notes
      (target.mentions ++ target.mentions ++ source.mentions) := by
  rw [List.append_assoc]
  exact (target.notes .read).bind fun _ => .bind_swap source.notes fun _ =>
    target.notes_emitTarget.give

theorem notes_clear (target : FieldChain) : (clear target).Notes target.mentions :=
  target.notes_emitTarget.give

theorem notes_moveCorresponding (source : Source) (target : FieldChain) :
    (moveCorresponding source target).Notes (source.mentions ++ target.mentions) :=
  source.notes.bind fun _ => target.notes_emitTarget.give

/-- Without its last dereference a chain mentions the same integers. -/
theorem notes_assigned (source : Source) : (assigned source).Notes source.mentions := by
  unfold assigned
  split
  next chain =>
    rw [Source.mentions]
    split
    · have hmentions : FieldChain.mentions { chain with segments := chain.segments.dropLast }
          = chain.mentions := by
        cases chain
        rw [FieldChain.mentions, FieldChain.mentions]
      rw [← hmentions]
      exact (FieldChain.notes .read _).give
    · exact chain.notes .read
  next => exact source.notes

/-- ASSIGN notes the integers of the field symbol and of what is assigned. -/
theorem notes_assign (source : Source) (target : FieldChain) (casting : Bool) :
    (assign source target casting).Notes (target.mentions ++ source.mentions) :=
  target.notes_emitTarget.bind fun _ => (notes_assigned source).give

theorem notes_getReference (source : Source) (target : FieldChain) :
    (getReference source target).Notes (target.mentions ++ source.mentions) :=
  .bind_swap source.notes fun _ => target.notes_emitTarget.give

/-- The name of a type is a literal or an operand with integers of its own. -/
theorem notes_typeName (name : DynamicName) : (typeName name).Notes name.mentions := by
  cases name with
  | literal value => exact .pure
  | field chain => exact (chain.notes .read).give

/-- Every form of `CREATE DATA` notes what its operands mention. -/
theorem notes_create (target : FieldChain) (spec : CreateDataSpec) :
    (create target spec).Notes (target.mentions ++ spec.mentions) := by
  refine target.notes_emitTarget.bind fun _ => ?_
  cases spec with
  | type type => exact (Notes.typeConstructor type).give
  | dynamic name table => exact (notes_typeName name).give
  | likeLineOf source => exact source.notes.give
  | like source => exact source.notes.give

end DataObject

/-! ## Character processing -/

namespace CharacterProcessing

/-- Integers are noted for each source, for the target and for the separator. -/
theorem notes_concatenate (sources : List Source) (target : FieldChain)
    (separatedBy : Option Source) (lines : Bool) :
    (concatenate sources target separatedBy lines).Notes
      (sources.flatMap Source.mentions ++ target.mentions
        ++ separatedBy.elim [] Source.mentions) := by
  rw [List.append_assoc]
  exact (Notes.mapM sources Source.notes).bind fun _ => target.notes_emitTarget.bind fun _ =>
    (Notes.namedIfGiven _ separatedBy Source.notes).give

/-- Fields that a `SPLIT` goes into can mention integers as offsets. -/
theorem notes_splitTarget (into : SplitInto) : (splitTarget into).Notes into.mentions := by
  cases into with
  | table target => exact target.notes_emitTarget.give
  | targets several => exact (Notes.mapM several FieldChain.notes_emitTarget).give

theorem notes_split (source separator : Source) (into : SplitInto) :
    (split source separator into).Notes
      (source.mentions ++ separator.mentions ++ into.mentions) := by
  rw [List.append_assoc]
  exact source.notes.bind fun _ => separator.notes.bind fun _ => (notes_splitTarget into).give

/-- The three operands of `REPLACE` are all mentioned. -/
theorem notes_replace (target : FieldChain) (all : Bool) (pattern replacement : Source) :
    (replace target all pattern replacement).Notes
      (target.mentions ++ pattern.mentions ++ replacement.mentions) := by
  rw [List.append_assoc]
  exact target.notes_emitTarget.bind fun _ => pattern.notes.bind fun _ => replacement.notes.give

theorem notes_condense (target : FieldChain) (noGaps : Bool) :
    (condense target noGaps).Notes target.mentions := target.notes_emitTarget.give

/-- A pattern is an operand. -/
theorem notes_pattern (wanted : FindPattern) : (pattern wanted).Notes wanted.mentions := by
  cases wanted with
  | substring source => exact source.notes.give
  | regex source => exact source.notes.give

/-- Options that are not given mention nothing. -/
theorem notes_find (wanted : FindPattern) (within : Source) (first : Bool)
    (count offset length : Option FieldChain) (submatches : List FieldChain) :
    (find wanted within first count offset length submatches).Notes
      (within.mentions ++ (wanted.mentions ++ count.elim [] FieldChain.mentions
        ++ offset.elim [] FieldChain.mentions ++ length.elim [] FieldChain.mentions
        ++ submatches.flatMap FieldChain.mentions)) := by
  simp only [List.append_assoc]
  refine within.notes.bind fun _ => (notes_pattern wanted).bind fun _ => ?_
  refine (Notes.namedIfGiven _ count FieldChain.notes_emitTarget).bind fun _ => ?_
  refine (Notes.namedIfGiven _ offset FieldChain.notes_emitTarget).bind fun _ => ?_
  refine (Notes.namedIfGiven _ length FieldChain.notes_emitTarget).bind fun _ => ?_
  exact (Notes.namedListIfAny _ _ submatches FieldChain.notes_emitTarget).give

/-- The distance of a `SHIFT` is often an integer. -/
theorem notes_shiftDistance (mode : ShiftMode) : (shiftDistance mode).Notes mode.mentions := by
  cases mode with
  | single => exact .pure
  | places source => exact source.notes.give
  | upTo source => exact source.notes.give
  | deletingLeading source => exact source.notes.give
  | deletingTrailing source => exact source.notes.give

theorem notes_shift (target : FieldChain) (direction : ShiftDirection) (mode : ShiftMode)
    (circular byteMode : Bool) :
    (shift target direction mode circular byteMode).Notes (target.mentions ++ mode.mentions) :=
  .bind_swap (notes_shiftDistance mode) fun _ => target.notes_emitTarget.give

/-- A `TRANSLATE` to upper or lower case mentions only its target. -/
theorem notes_translate (target : FieldChain) (rule : TranslateRule) :
    (translate target rule).Notes (target.mentions ++ rule.mentions) := by
  refine target.notes_emitTarget.bind fun place => ?_
  match rule with
  | .upper | .lower => exact .pure
  | .using mask => exact mask.notes.give

/-- DESCRIBE FIELD notes what its operand and the fields it sets mention. -/
theorem notes_describe (field : Source) (typeTarget length : Option FieldChain)
    (mode : Option DescribeMode) :
    (describe field typeTarget length mode).Notes
      (field.mentions ++ typeTarget.elim [] FieldChain.mentions
        ++ length.elim [] FieldChain.mentions) := by
  rw [List.append_assoc]
  refine field.notes.bind fun _ => ?_
  refine (Notes.namedIfGiven _ typeTarget FieldChain.notes_emitTarget).bind fun _ => ?_
  exact (Notes.namedIfGiven _ length FieldChain.notes_emitTarget).give

/-- The value of a bit is mentioned only if it is given. -/
theorem notes_setBit (position : Source) (target : FieldChain) (value : Option Source) :
    (setBit position target value).Notes
      (position.mentions ++ target.mentions ++ value.elim [] Source.mentions) := by
  rw [List.append_assoc]
  refine position.notes.bind fun _ => target.notes_emitTarget.bind fun _ => ?_
  cases value with
  | none => exact .pure
  | some value => exact value.notes.give

theorem notes_getBit (position source : Source) (target : FieldChain) :
    (getBit position source target).Notes
      (position.mentions ++ source.mentions ++ target.mentions) := by
  rw [List.append_assoc]
  exact position.notes.bind fun _ => source.notes.bind fun _ => target.notes_emitTarget.give

/-- Code that is handed through is a literal, which mentions nothing. -/
theorem notes_write (source : Source) (newLine : Bool) :
    (write source newLine).Notes source.mentions := by
  unfold write
  split
  next code hcode =>
    unfold kernelCode? at hcode
    split at hcode
    · exact .pure
    · cases hcode
  next => exact source.notes.give

end CharacterProcessing

/-! ## Flow of control -/

namespace Flow

theorem notes_ifThen (condition : Condition) : (ifThen condition).Notes condition.mentions :=
  condition.notes.give

/-- The guards that are folded into a condition mention nothing. -/
theorem notes_elseIf (condition : Condition) : (elseIf condition).Notes condition.mentions :=
  condition.notes.before fun text => (Notes.guarded text).give

/-- The guards of a loop mention nothing. -/
theorem notes_whileTrue (condition : Condition) :
    (whileTrue condition).Notes condition.mentions :=
  condition.notes.before fun text => (Notes.guarded text).give

/-- How often a `DO` is gone through may be an integer. -/
theorem notes_doTimes (times : Option Source) :
    (doTimes times).Notes (times.elim [] Source.mentions) := by
  cases times with
  | none => exact Notes.temporary.give
  | some times => exact Notes.temporary.after fun _ => Notes.temporary.after fun _ => times.notes.give

theorem notes_loopOutput (row : String) (output : LoopOutput) :
    (loopOutput row output).Notes output.mentions := by
  match output with
  | .into target => exact target.notes_emitTarget.give
  | .assigning target | .referenceInto target => exact target.notes_emitTarget.give
  | .nothing => exact .pure

/-- The filter of a `LOOP AT` mentions what a condition on rows does. -/
theorem notes_loopAt (table : Source) (output : LoopOutput) (filter : Option Condition) :
    (loopAt table output filter).Notes
      (table.mentions ++ filter.elim [] Condition.rowMentions ++ output.mentions) := by
  rw [List.append_assoc]
  refine Notes.temporary.after fun row => table.notes.bind fun rows => ?_
  cases filter with
  | none => exact Notes.pure.after fun _ => (notes_loopOutput row output).give
  | some condition =>
    exact condition.notes_emitRowFilter.bind fun _ => Notes.pure.after fun _ =>
      (notes_loopOutput row output).give

theorem notes_assert (condition : Condition) : (assert condition).Notes condition.mentions :=
  condition.notes.give

/-- The value a method returns is known from the view. -/
theorem notes_resultAt (position : Position) : (resultAt position).Notes [] :=
  (Notes.ask _).give

/-- RETURN mentions the result of the method, and no integer. -/
theorem notes_returnAt (position : Position) :
    (returnAt position).Notes (Referent.result position).mentioned := by
  refine Notes.congr ((notes_resultAt position).after fun result => (?_ : Notes [] _)) rfl
  cases result with
  | none => exact .pure
  | some value => exact .pure

/-- The end of a method mentions its result, and no integer. -/
theorem notes_endMethodAt (position : Position) :
    (endMethodAt position).Notes (Referent.result position).mentioned := by
  refine Notes.congr ((notes_resultAt position).after fun result => (?_ : Notes [] _)) rfl
  cases result with
  | none => exact .pure
  | some value => exact .pure

/-- The types of parameters spell lengths as they are. -/
theorem notes_parameterLines (p : MethodParameter) : (parameterLines p).Notes [] :=
  (Notes.typeConstructor p.type).give

/-- What a method begins with notes nothing. -/
theorem notes_setupLines (enclosing : Option EnclosingMethod) (position : Position)
    (name : Token) : (setupLines enclosing position name).Notes [] := by
  unfold setupLines
  split
  · refine (Notes.ask _).after fun found => ?_
    cases found with
    | none => exact .fail _
    | some c => exact (Notes.ask _).after fun scope => Members.notes_constructorLines c scope false
  · exact .pure

/-- The header of a method notes nothing. -/
theorem notes_methodAt (position : Position) (name : Token) : (methodAt position name).Notes [] := by
  refine (Notes.ask _).after fun enclosing => ?_
  dsimp only
  split
  · refine (Notes.warn _ _).after fun _ => (Notes.mapM_nil _ notes_parameterLines).after fun _ => ?_
    exact (notes_setupLines enclosing position name).give
  · refine (Notes.mapM_nil _ notes_parameterLines).after fun _ => ?_
    exact (notes_setupLines enclosing position name).give

theorem notes_classHeader (name : Token) : (classHeader name).Notes [] := by
  refine (Notes.ask _).after fun scope => (Notes.walk _).after fun definition => ?_
  split
  · exact (Notes.classAddress _ _).give
  · exact .pure

end Flow

/-! ## Rows -/

namespace Row

theorem notes_sort (target : FieldChain) (descending : Bool) (keys : List SortKey) :
    (sort target descending keys).Notes target.mentions := target.notes_emitTarget.give

/-- What is appended is mentioned, and the field symbol that points at it. -/
theorem notes_appendRows (table : String) (source : Source) (lines : Bool)
    (assigning : Option FieldChain) :
    (appendRows table source lines assigning).Notes
      (source.mentions ++ assigning.elim [] FieldChain.mentions) :=
  source.notes.bind fun _ => (Notes.namedIfGiven _ assigning FieldChain.notes_emitTarget).give

/-- The table is emitted first, but mentioned after the rows. -/
theorem notes_append (source : AppendSource) (target : FieldChain)
    (assigning : Option FieldChain) :
    (append source target assigning).Notes (source.statementMentions target assigning) := by
  cases source with
  | value source =>
    refine (target.notes_emitTarget.bind fun table =>
      notes_appendRows table source false assigning).perm ?_
    rw [← List.append_assoc]
    exact List.perm_append_comm.append_right _
  | linesOf source =>
    refine (target.notes_emitTarget.bind fun table =>
      notes_appendRows table source true assigning).perm ?_
    rw [← List.append_assoc]
    exact List.perm_append_comm.append_right _
  | initialLine =>
    refine .bind_swap target.notes_emitTarget fun table => ?_
    cases assigning with
    | none => exact .pure
    | some symbol => exact symbol.notes_emitTarget.give

/-- An initial line mentions nothing. -/
theorem notes_inserted (data : InsertData) : (inserted data).Notes data.mentions := by
  cases data with
  | value source => exact source.notes.give
  | initialLine => exact .pure

/-- INSERT notes the integers of its operands; an index is often one. -/
theorem notes_insert (data : InsertData) (table : FieldChain) (index : Option Source)
    (assigning : Option FieldChain) :
    (insert data table index assigning).Notes
      (data.mentions ++ index.elim [] Source.mentions ++ assigning.elim [] FieldChain.mentions
        ++ table.mentions) := by
  simp only [List.append_assoc]
  refine (notes_inserted data).bind fun _ => ?_
  refine (Notes.namedIfGiven _ index Source.notes).bind fun _ => ?_
  refine (Notes.namedIfGiven _ assigning FieldChain.notes_emitTarget).bind fun _ => ?_
  exact (Notes.named _ table.notes_emitTarget).give

/-- MODIFY notes the integers of the index and the row that are given. -/
theorem notes_modify (table : FieldChain) (index row : Option Source) :
    (modify table index row).Notes
      (table.mentions ++ (index.elim [] Source.mentions ++ row.elim [] Source.mentions)) := by
  refine table.notes_emitTarget.bind fun _ => ?_
  exact (Notes.namedIfGiven _ index Source.notes).bind fun _ =>
    (Notes.namedIfGiven _ row Source.notes).give

/-- The filter of a `DELETE` mentions what a condition on rows does. -/
theorem notes_delete (table : FieldChain) (filter : Option Condition) (adjacent : Bool)
    (index row : Option Source) :
    (delete table filter adjacent index row).Notes
      (table.mentions ++ (filter.elim [] Condition.rowMentions ++ index.elim [] Source.mentions
        ++ row.elim [] Source.mentions)) := by
  rw [List.append_assoc]
  refine table.notes_emitTarget.bind fun _ => ?_
  refine (Notes.namedIfGiven _ filter Condition.notes_emitRowFilter).bind fun _ => ?_
  exact (Notes.namedIfGiven _ index Source.notes).bind fun _ =>
    (Notes.namedIfGiven _ row Source.notes).give

/-- READ TABLE notes the integers of its table and of the options that are given. -/
theorem notes_read (table : Source) (index : Option Source)
    (into referenceInto assigning : Option FieldChain) (withKey : Option Condition)
    (binarySearch : Bool) :
    (read table index into referenceInto assigning withKey binarySearch).Notes
      (table.mentions ++ (index.elim [] Source.mentions ++ into.elim [] FieldChain.mentions
        ++ referenceInto.elim [] FieldChain.mentions ++ assigning.elim [] FieldChain.mentions
        ++ withKey.elim [] Condition.rowMentions)) := by
  simp only [List.append_assoc]
  refine table.notes.bind fun _ => (Notes.namedIfGiven _ index Source.notes).bind fun _ => ?_
  refine (Notes.namedIfGiven _ into FieldChain.notes_emitTarget).bind fun _ => ?_
  refine (Notes.namedIfGiven _ referenceInto FieldChain.notes_emitTarget).bind fun _ => ?_
  refine (Notes.namedIfGiven _ assigning FieldChain.notes_emitTarget).bind fun _ => ?_
  exact (Notes.namedIfGiven _ withKey Condition.notes_emitRowFilter).give

/-- The text of a `SELECT` is not looked into, so its integers are not noted. -/
theorem notes_select (target : FieldChain) (fields : String) (table : DatabaseTable)
    (filter : Option String) (single : Bool) (upTo : Option UInt32) :
    (select target fields table filter single upTo).Notes (target.mentions ++ table.mentions) := by
  refine target.notes_emitTarget.bind fun _ => ?_
  cases table with
  | named name => exact .pure
  | dynamic chain => exact (chain.notes .read).before fun _ => Notes.pure.give

/-- The name of a database table is a literal or an operand with integers of its own. -/
theorem notes_tableName (table : DatabaseTable) : (tableName table).Notes table.mentions := by
  cases table with
  | named name => exact .pure
  | dynamic chain => exact chain.notes .read

theorem notes_insertDatabase (table : DatabaseTable) (values : Source) :
    (insertDatabase table values).Notes (table.mentions ++ values.mentions) :=
  (notes_tableName table).bind fun _ => values.notes.give

theorem notes_changedRows (rows : DatabaseSource) : (changedRows rows).Notes rows.mentions := by
  cases rows with
  | row source => exact source.notes.give
  | table source => exact source.notes.give

/-- The name of the table and the rows are all that is mentioned. -/
theorem notes_changeDatabase (change : DatabaseChange) (table : DatabaseTable)
    (rows : DatabaseSource) :
    (changeDatabase change table rows).Notes (table.mentions ++ rows.mentions) :=
  (notes_tableName table).bind fun _ => (notes_changedRows rows).give

end Row

/-! ## Calls outside of expressions -/

namespace Invocation

/-- Actual parameters mention what their values do. -/
theorem notes_bindings (given : List Binding) :
    (bindings given).Notes (mentionsOfBindings given) := (notes_emitBindings given).give

/-- No parameters mention nothing. -/
theorem notes_bindingsIfAny (given : List Binding) :
    (bindingsIfAny given).Notes (mentionsOfBindings given) := by
  cases given with
  | nil => exact .pure
  | cons first rest => exact notes_bindings (first :: rest)

/-- A group that is left out mentions nothing. -/
theorem notes_targetGroup (key : String) (targets : List TargetBinding) :
    (targetGroup key targets).Notes (mentionsOfTargets targets) := by
  cases targets with
  | nil => exact .pure
  | cons first rest => exact (notes_emitTargetBindings (first :: rest)).give

/-- The groups are mentioned in the order in which they are emitted. -/
theorem notes_functionGroups (exporting : List Binding)
    (importing changing tables : List TargetBinding) :
    (functionGroups exporting importing changing tables).Notes
      (mentionsOfBindings exporting ++ mentionsOfTargets importing ++ mentionsOfTargets changing
        ++ mentionsOfTargets tables) := by
  simp only [List.append_assoc]
  have hrest : ∀ given : List String, Notes (mentionsOfTargets importing
      ++ (mentionsOfTargets changing ++ mentionsOfTargets tables)) (do
        let taken ← targetGroup "importing" importing
        let changed ← targetGroup "changing" changing
        let tables ← targetGroup "tables" tables
        return given ++ taken ++ changed ++ tables) := fun given =>
    (notes_targetGroup _ importing).bind fun _ => (notes_targetGroup _ changing).bind fun _ =>
      (notes_targetGroup _ tables).give
  cases exporting with
  | nil => exact Notes.pure.after hrest
  | cons first rest =>
    exact (notes_bindings (first :: rest)).bind fun _ => Notes.pure.after hrest

/-- A function module is named by a literal or by an operand. -/
theorem notes_functionAddress (name : DynamicName) :
    (functionAddress name).Notes name.mentions := by
  cases name with
  | literal value => exact .pure
  | field chain => exact (chain.notes .read).give

/-- The parameters are emitted first, but mentioned after the name. -/
theorem notes_callFunction (name : DynamicName) (destination : Option DynamicName)
    (exporting : List Binding) (importing changing tables : List TargetBinding) :
    (callFunction name destination exporting importing changing tables).Notes
      (name.mentions ++ destination.elim [] DynamicName.mentions
        ++ (mentionsOfBindings exporting ++ mentionsOfTargets importing
          ++ mentionsOfTargets changing ++ mentionsOfTargets tables)) := by
  refine .bind_swap (notes_functionGroups exporting importing changing tables) fun groups => ?_
  cases destination with
  | some destination => exact name.notes_emitText.bind fun _ => destination.notes_emitText.give
  | none =>
    rw [Option.elim_none, List.append_nil]
    exact (notes_functionAddress name).give

/-- RAISE EXCEPTION notes the integers of its parameters or of the object. -/
theorem notes_raise (raise : Raise) : (Invocation.raise raise).Notes raise.mentions := by
  cases raise with
  | type className exporting =>
    exact (Notes.classAddress _ _).after fun _ => (notes_bindingsIfAny exporting).give
  | object source => exact source.notes.give

/-- The class of a target is looked up. -/
theorem notes_classOfTarget (target : FieldChain) : (classOfTarget target).Notes [] := by
  unfold classOfTarget
  split
  · exact .fail _
  · refine (Notes.ask _).after fun found => ?_
    split
    · exact .classAddress _ _
    · exact .fail _

/-- Only a class that is named at run time mentions anything. -/
theorem notes_createdClass (target : FieldChain) (spec : Option ClassSpec) :
    (createdClass target spec).Notes (spec.elim [] ClassSpec.mentions) := by
  match spec with
  | some (.static name) => exact .classAddress _ _
  | some (.dynamic name) =>
    exact name.notes_emitClass.before fun _ => (Notes.requireTarget _ _).give
  | none => exact notes_classOfTarget target

/-- CREATE OBJECT notes the integers of its target and its parameters. -/
theorem notes_createObject (target : FieldChain) (spec : Option ClassSpec)
    (parameters : List Binding) :
    (createObject target spec parameters).Notes
      (target.mentions ++ spec.elim [] ClassSpec.mentions ++ mentionsOfBindings parameters) := by
  have hcreate : (createObject target spec parameters).Notes
      (spec.elim [] ClassSpec.mentions ++ (mentionsOfBindings parameters ++ target.mentions)) :=
    (notes_createdClass target spec).bind fun _ =>
      (notes_bindingsIfAny parameters).bind fun _ => target.notes_emitTarget.give
  refine hcreate.perm ?_
  rw [← List.append_assoc, List.append_assoc target.mentions]
  exact List.perm_append_comm

/-- The short form of a `MESSAGE` mentions nothing, as its number is a text. -/
theorem notes_messageParts (spec : MessageSpec) : (messageParts spec).Notes spec.mentions := by
  cases spec with
  | short messageType number id => exact .pure
  | parts id messageType number =>
    rw [MessageSpec.mentions, List.append_assoc]
    refine (Notes.named _ id.notes).bind fun _ => ?_
    exact (Notes.named _ messageType.notes).bind fun _ => (Notes.named _ number.notes).give

/-- MESSAGE notes the integers of its arguments. -/
theorem notes_message (spec : MessageSpec) (arguments : List Source) (into : Option FieldChain) :
    (message spec arguments into).Notes
      (into.elim [] FieldChain.mentions ++ spec.mentions
        ++ arguments.flatMap Source.mentions) := by
  rw [List.append_assoc]
  refine (Notes.namedIfGiven _ into FieldChain.notes_emitTarget).bind fun _ => ?_
  exact (notes_messageParts spec).bind fun _ =>
    (Notes.namedListIfAny _ _ arguments Source.notes).give

theorem notes_tightBindings (given : List Binding) :
    (tightBindings given).Notes (mentionsOfBindings given) := by
  have hmentions : mentionsOfBindings given = given.flatMap fun b => b.value.mentions := by
    induction given with
    | nil => rfl
    | cons b rest ih =>
      cases b
      rw [mentionsOfBindings, ih, List.flatMap_cons]
  rw [hmentions]
  exact (Notes.mapM given fun b => b.value.notes.give).give

/-- Each form of an operand mentions what its operands do. -/
theorem notes_transformationOperand (operand : TransformationOperand) :
    (transformationOperand operand).Notes operand.mentions := by
  cases operand with
  | xml value => exact value.notes
  | bindings given => exact notes_tightBindings given
  | dynamic value => exact value.notes.give

/-- A part that is not asked for mentions nothing. -/
theorem notes_transformationPart (wanted : Bool) (key : String)
    (operand : TransformationOperand) :
    (transformationPart wanted key operand).Notes (operand.mentionsIf wanted) := by
  cases wanted with
  | true => exact (notes_transformationOperand operand).give
  | false => exact .pure

/-- Each operand is asked for once, before the options or after them. -/
theorem notes_callTransformation (name : String) (options : List Binding)
    (source result : TransformationOperand) :
    (callTransformation name options source result).Notes
      (source.mentionsIf (isXml source) ++ result.mentionsIf (isXml result)
        ++ mentionsOfBindings options ++ source.mentionsIf (!isXml source)
        ++ result.mentionsIf (!isXml result)) := by
  simp only [List.append_assoc]
  refine (notes_transformationPart (isXml source) _ source).bind fun sourceXml => ?_
  refine (notes_transformationPart (isXml result) _ result).bind fun resultXml => ?_
  -- the parts are put together in the same way whether there are options
  have hrest : ∀ given : List String, Notes (source.mentionsIf (!isXml source)
      ++ result.mentionsIf (!isXml result)) (do
        let sourcePart ← transformationPart (!isXml source) "source" source
        let resultPart ← transformationPart (!isXml result) "result" result
        return kernelCall "KERNEL_CALL_TRANSFORMATION" "CallTransformation" "call"
          (["name: \"" ++ Text.toLower name ++ "\""] ++ sourceXml ++ resultXml ++ given
            ++ sourcePart ++ resultPart)) := fun given =>
    (notes_transformationPart _ _ source).bind fun _ => (notes_transformationPart _ _ result).give
  cases options with
  | nil => exact Notes.pure.after hrest
  | cons first rest =>
    exact (notes_tightBindings (first :: rest)).bind fun _ => Notes.pure.after hrest

/-- CONVERT notes the integers of its operands, in both directions. -/
theorem notes_conversionParts (conversion : Conversion) :
    (conversionParts conversion).Notes conversion.mentions := by
  cases conversion with
  | toStamp date time zone stamp =>
    rw [Conversion.mentions]
    simp only [List.append_assoc]
    refine (Notes.named _ date.notes).bind fun _ => ?_
    refine (Notes.namedIfGiven _ time Source.notes).bind fun _ => ?_
    refine (Notes.namedIfGiven _ zone Source.notes).bind fun _ => ?_
    exact (Notes.named _ stamp.notes_emitTarget).give
  | fromStamp stamp zone date time =>
    rw [Conversion.mentions]
    simp only [List.append_assoc]
    refine (Notes.named _ stamp.notes).bind fun _ => ?_
    refine (Notes.namedIfGiven _ zone Source.notes).bind fun _ => ?_
    refine (Notes.namedIfGiven _ date FieldChain.notes_emitTarget).bind fun _ => ?_
    exact (Notes.namedIfGiven _ time FieldChain.notes_emitTarget).give

theorem notes_convert (conversion : Conversion) :
    (convert conversion).Notes conversion.mentions := (notes_conversionParts conversion).give

/-- The seconds to wait for are often an integer. -/
theorem notes_waitForPushChannels (condition : Condition) (seconds : Option Source) :
    (waitForPushChannels condition seconds).Notes
      (condition.mentions ++ seconds.elim [] Source.mentions) :=
  (Notes.named _ condition.notes).bind fun _ =>
    (Notes.namedIfGiven _ seconds Source.notes).give

end Invocation

/-! ## All statements -/

/-- Emitting a statement notes just the integers that its syntax mentions. -/
theorem StatementNode.notes : ∀ node : StatementNode, node.emit.Notes node.mentions
  | ⟨.data name type value, _, _⟩ => DataObject.notes_declare name type value
  | ⟨.constants name type value, _, _⟩ => DataObject.notes_declare name type (some value)
  | ⟨.fieldSymbol _, _, _⟩ | ⟨.declarative _, _, _⟩ | ⟨.comment _, _, _⟩ => .pure
  | ⟨.move source target, _, _⟩ => DataObject.notes_move source target
  | ⟨.arithmetic verb source target, _, _⟩ => DataObject.notes_arithmetic verb source target
  | ⟨.clear target, _, _⟩ | ⟨.free target, _, _⟩ => DataObject.notes_clear target
  | ⟨.moveCorresponding source target, _, _⟩ => DataObject.notes_moveCorresponding source target
  | ⟨.ifThen condition, _, _⟩ => Flow.notes_ifThen condition
  | ⟨.elseIf condition, _, _⟩ => Flow.notes_elseIf condition
  | ⟨.otherwise, _, _⟩ | ⟨.endBlock _, _, _⟩ => .pure
  | ⟨.continueLoop, _, _⟩ | ⟨.exitLoop, _, _⟩ => .pure
  | ⟨.doTimes times, _, _⟩ => Flow.notes_doTimes times
  | ⟨.whileTrue condition, _, _⟩ => Flow.notes_whileTrue condition
  | ⟨.loopAt table output filter, _, _⟩ => Flow.notes_loopAt table output filter
  | ⟨.caseOf _, _, _⟩ | ⟨.whenOneOf _, _, _⟩ | ⟨.whenOthers, _, _⟩ | ⟨.endCase, _, _⟩ => .fail _
  | ⟨.tryBody, _, _⟩ | ⟨.catchClasses _ _, _, _⟩ | ⟨.endTry, _, _⟩ => .fail _
  | ⟨.returnHere, span, _⟩ => Flow.notes_returnAt span.start
  | ⟨.assert condition, _, _⟩ => Flow.notes_assert condition
  | ⟨.classImplementation name, _, _⟩ => Flow.notes_classHeader name
  | ⟨.method name, span, _⟩ => Flow.notes_methodAt span.start name
  | ⟨.interfaceHeader _, _, _⟩ | ⟨.form _, _, _⟩ | ⟨.perform _, _, _⟩ => .pure
  | ⟨.endMethod, span, _⟩ => Flow.notes_endMethodAt span.start
  | ⟨.call c, _, _⟩ => c.notes_emitStatement
  | ⟨.callFunction name destination exporting importing changing tables _, _, _⟩ =>
    Invocation.notes_callFunction name destination exporting importing changing tables
  | ⟨.callTransformation name options source result, _, _⟩ =>
    Invocation.notes_callTransformation name options source result
  | ⟨.raiseException raise, _, _⟩ => Invocation.notes_raise raise
  | ⟨.message spec arguments into, _, _⟩ => Invocation.notes_message spec arguments into
  | ⟨.createObject target spec parameters, _, _⟩ =>
    Invocation.notes_createObject target spec parameters
  | ⟨.createData target spec, _, _⟩ => DataObject.notes_create target spec
  | ⟨.assign source target casting, _, _⟩ => DataObject.notes_assign source target casting
  | ⟨.getReference source target, _, _⟩ => DataObject.notes_getReference source target
  | ⟨.concatenate sources target separatedBy lines, _, _⟩ =>
    CharacterProcessing.notes_concatenate sources target separatedBy lines
  | ⟨.split source separator into, _, _⟩ => CharacterProcessing.notes_split source separator into
  | ⟨.replace target all pattern replacement, _, _⟩ =>
    CharacterProcessing.notes_replace target all pattern replacement
  | ⟨.condense target noGaps, _, _⟩ => CharacterProcessing.notes_condense target noGaps
  | ⟨.find pattern within first count offset length submatches, _, _⟩ =>
    CharacterProcessing.notes_find pattern within first count offset length submatches
  | ⟨.shift target direction mode circular byteMode, _, _⟩ =>
    CharacterProcessing.notes_shift target direction mode circular byteMode
  | ⟨.translate target rule, _, _⟩ => CharacterProcessing.notes_translate target rule
  | ⟨.describe field typeTarget length mode, _, _⟩ =>
    CharacterProcessing.notes_describe field typeTarget length mode
  | ⟨.setBit position target value, _, _⟩ =>
    CharacterProcessing.notes_setBit position target value
  | ⟨.getBit position source target, _, _⟩ =>
    CharacterProcessing.notes_getBit position source target
  | ⟨.write source newLine, _, _⟩ => CharacterProcessing.notes_write source newLine
  | ⟨.sort target descending keys, _, _⟩ => Row.notes_sort target descending keys
  | ⟨.append source target assigning, _, _⟩ => Row.notes_append source target assigning
  | ⟨.insertInternal inserted table index assigning, _, _⟩ =>
    Row.notes_insert inserted table index assigning
  | ⟨.modifyInternal table index row, _, _⟩ => Row.notes_modify table index row
  | ⟨.deleteInternal table filter adjacent index row, _, _⟩ =>
    Row.notes_delete table filter adjacent index row
  | ⟨.readTable table index into referenceInto assigning withKey binarySearch, _, _⟩ =>
    Row.notes_read table index into referenceInto assigning withKey binarySearch
  | ⟨.select target fields table filter single upTo, _, _⟩ =>
    Row.notes_select target fields table filter single upTo
  | ⟨.insertDatabase table values, _, _⟩ => Row.notes_insertDatabase table values
  | ⟨.changeDatabase change table rows, _, _⟩ => Row.notes_changeDatabase change table rows
  | ⟨.commit, _, _⟩ | ⟨.rollback, _, _⟩ | ⟨.authorityCheck _, _, _⟩ => .pure
  | ⟨.convert conversion, _, _⟩ => Invocation.notes_convert conversion
  | ⟨.waitForPushChannels condition seconds, _, _⟩ =>
    Invocation.notes_waitForPushChannels condition seconds
  | ⟨.unsupported _, _, _⟩ => .fail _

end AbapLowering
