import AbapLowering.Proofs.Mention.Operand

/-!
# Mentions in statements

The code of every statement spells just what its syntax mentions, in the order in which the parts of
the statement stand in the code (`StatementNode.marks`).
-/

namespace AbapLowering

open Emit (Yields)

variable {v : View} {ms : List Mention}

/-- Nothing needs to be marked in code for which nothing is mentioned. -/
theorem Emit.marks_none (m : Emit String) : m.Yields v (Marks v []) :=
  fun _ _ _ _ _ => marks_text v _

/-- The segments of a chain mention nothing: they are members, not names of the scope. -/
theorem FieldChain.mentions_segments (chain : FieldChain) (segments : List ChainSegment) :
    FieldChain.mentions { chain with segments := segments } = chain.mentions := by
  cases chain
  rw [FieldChain.mentions, FieldChain.mentions]

/-! ## Data objects -/

namespace DataObject

/-- The text of a `MOVE` contains the target and then the source. -/
theorem marks_move (source : Source) (target : FieldChain) :
    (move source target).Yields v (Marks v (target.mentions ++ source.mentions)) := by
  refine .bind source.marks fun value hvalue => ?_
  refine .bind target.marks_emitTarget fun place hplace => .pure ?_
  exact ((hplace.after _).append hvalue).after _

/-- The target stands in the text twice, so its names occur twice. -/
theorem marks_arithmetic (verb : ArithmeticVerb) (source : Source) (target : FieldChain) :
    (arithmetic verb source target).Yields v
      (Marks v (target.mentions ++ target.mentions ++ source.mentions)) := by
  refine .bind (target.marks .read) fun current hcurrent => ?_
  refine .bind source.marks fun value hvalue => ?_
  refine .bind target.marks_emitTarget fun place hplace => .pure ?_
  have hresult := ((hplace.after ".set(abap.operators.").after verb.operator.name).after "("
  exact (((hresult.append hcurrent).after _).append hvalue).after _

theorem marks_clear (target : FieldChain) :
    (clear target).Yields v (Marks v target.mentions) :=
  .bind target.marks_emitTarget fun _ h => .pure (h.runtimeCall _)

theorem marks_moveCorresponding (source : Source) (target : FieldChain) :
    (moveCorresponding source target).Yields v (Marks v (source.mentions ++ target.mentions)) := by
  refine .bind source.marks fun value hvalue => ?_
  refine .bind target.marks_emitTarget fun place hplace => .pure ?_
  exact ((hvalue.after _).append hplace).runtimeCall _

/-- A dereference at the end is left off, and no name with it. -/
theorem marks_assigned (source : Source) :
    (assigned source).Yields v (Marks v source.mentions) := by
  unfold assigned
  split
  next chain =>
    rw [Source.mentions]
    split
    · rw [← chain.mentions_segments chain.segments.dropLast]
      exact .bind (FieldChain.marks .read _) fun _ h => .pure ((h.before _).after _)
    · exact chain.marks .read
  next => exact source.marks

/-- The field symbol stands before what is assigned to it. -/
theorem marks_assign (source : Source) (target : FieldChain) (casting : Bool) :
    (assign source target casting).Yields v (Marks v (target.mentions ++ source.mentions)) := by
  refine .bind target.marks_emitTarget fun place hplace => ?_
  refine .bind (marks_assigned source) fun data hdata => .pure ?_
  have hparts := (MarksAll.single (hplace.before "target: ")).append
    (.single (hdata.before "source: "))
  exact ((hparts.after _).braced _).runtimeCall _

/-- The target stands before what it will refer to. -/
theorem marks_getReference (source : Source) (target : FieldChain) :
    (getReference source target).Yields v (Marks v (target.mentions ++ source.mentions)) := by
  refine .bind source.marks fun value hvalue => ?_
  refine .bind target.marks_emitTarget fun place hplace => .pure ?_
  refine .after _ (.append (hplace.after _) ?_)
  split
  · exact hvalue.after _
  · exact hvalue

/-- A literal is a text, in which nothing is mentioned. -/
theorem marks_typeName (name : DynamicName) :
    (typeName name).Yields v (Marks v name.mentions) := by
  cases name with
  | literal value => exact .pure (marks_text v _)
  | field chain => exact .bind (chain.marks .read) fun _ h => .pure (h.after _)

/-- Each form of `CREATE DATA` puts its name or operand behind the target. -/
theorem marks_create (target : FieldChain) (spec : CreateDataSpec) :
    (create target spec).Yields v (Marks v (target.mentions ++ spec.mentions)) := by
  refine .bind target.marks_emitTarget fun place hplace => ?_
  cases spec with
  | type type =>
    exact .after fun _ => .pure (((hplace.after _).append (marks_text v _)).after _)
  | dynamic name table =>
    refine .bind (marks_typeName name) fun type htype => .pure ?_
    have hparts := (MarksAll.single (htype.before "\"name\": ")).after
      (partIf table "\"table\": true")
    exact ((hplace.after _).append (hparts.braced _)).runtimeCall _
  | likeLineOf source =>
    refine .bind source.marks fun _ h => .pure ?_
    exact (((hplace.after _).append h).after _).runtimeCall _
  | like source =>
    refine .bind source.marks fun _ h => .pure ?_
    exact (((hplace.after _).append h).after _).runtimeCall _

end DataObject

/-! ## Character processing -/

namespace CharacterProcessing

/-- The sources are given as a list, and the target and the separator by name. -/
theorem marks_concatenate (sources : List Source) (target : FieldChain)
    (separatedBy : Option Source) (lines : Bool) :
    (concatenate sources target separatedBy lines).Yields v
      (Marks v (sources.flatMap Source.mentions ++ target.mentions
        ++ separatedBy.elim [] Source.mentions)) := by
  refine .bind (Emit.marks_mapM sources Source.marks) fun values hvalues => ?_
  refine .bind target.marks_emitTarget fun result hresult => ?_
  refine .bind (Emit.marks_namedIfGiven _ separatedBy Source.marks) fun _ hseparator => .pure ?_
  have hsources := MarksAll.single (((hvalues.intercalate ", ").before "source: [").after "]")
  have hparts := (hsources.append (.single (hresult.before "target: "))).append hseparator
  exact ((hparts.after _).braced _).runtimeCall _

/-- A list of targets contains the names of all of them. -/
theorem marks_splitTarget (into : SplitInto) :
    (splitTarget into).Yields v (Marks v into.mentions) := by
  match into with
  | .table target => exact .bind target.marks_emitTarget fun _ h => .pure (h.before _)
  | .targets several =>
    refine .bind (Emit.marks_mapM several FieldChain.marks_emitTarget) fun _ h => .pure ?_
    exact ((h.intercalate _).before _).after _

theorem marks_split (source separator : Source) (into : SplitInto) :
    (split source separator into).Yields v
      (Marks v (source.mentions ++ separator.mentions ++ into.mentions)) := by
  refine .bind source.marks fun value hvalue => ?_
  refine .bind separator.marks fun cut hcut => ?_
  refine .bind (marks_splitTarget into) fun target htarget => .pure ?_
  have hparts := (MarksAll.single (hvalue.before "source: ")).append (.single (hcut.before "at: "))
  exact ((hparts.append (.single htarget)).braced _).runtimeCall _

/-- The three operands stand behind each other. -/
theorem marks_replace (target : FieldChain) (all : Bool) (pattern replacement : Source) :
    (replace target all pattern replacement).Yields v
      (Marks v (target.mentions ++ pattern.mentions ++ replacement.mentions)) := by
  refine .bind target.marks_emitTarget fun place hplace => ?_
  refine .bind pattern.marks fun old hold => ?_
  refine .bind replacement.marks fun new hnew => .pure ?_
  have hparts := ((MarksAll.single hplace).after [toString all]).append (.single hold)
  exact ((hparts.append (.single hnew)).intercalate _).runtimeCall _

theorem marks_condense (target : FieldChain) (noGaps : Bool) :
    (condense target noGaps).Yields v (Marks v target.mentions) := by
  refine .bind target.marks_emitTarget fun _ h => .pure ?_
  exact (((h.after _).after _).after _).runtimeCall _

/-- A pattern is given by name. -/
theorem marks_pattern (wanted : FindPattern) :
    (pattern wanted).Yields v (Marks v wanted.mentions) := by
  cases wanted with
  | substring source => exact .bind source.marks fun _ h => .pure (h.before _)
  | regex source => exact .bind source.marks fun _ h => .pure (h.before _)

/-- The fields to set are given by name, each as it was emitted. -/
theorem marks_find (wanted : FindPattern) (within : Source) (first : Bool)
    (count offset length : Option FieldChain) (submatches : List FieldChain) :
    (find wanted within first count offset length submatches).Yields v
      (Marks v (within.mentions ++ (wanted.mentions ++ count.elim [] FieldChain.mentions
        ++ offset.elim [] FieldChain.mentions ++ length.elim [] FieldChain.mentions
        ++ submatches.flatMap FieldChain.mentions))) := by
  refine .bind within.marks fun text htext => ?_
  refine .bind (marks_pattern wanted) fun wanted hwanted => ?_
  refine .bind (Emit.marks_namedIfGiven _ count FieldChain.marks_emitTarget) fun _ hcount => ?_
  refine .bind (Emit.marks_namedIfGiven _ offset FieldChain.marks_emitTarget) fun _ hoffset => ?_
  refine .bind (Emit.marks_namedIfGiven _ length FieldChain.marks_emitTarget) fun _ hlength => ?_
  refine .bind (Emit.marks_namedListIfAny _ _ submatches FieldChain.marks_emitTarget)
    fun _ hsubmatches => .pure ?_
  have hfound := (((MarksAll.single hwanted).after (partIf first "first: true")).append
    hcount).append hoffset
  have hparts := (hfound.append hlength).append hsubmatches
  exact ((htext.after _).append (hparts.braced _)).runtimeCall _

/-- The distance of a `SHIFT` is given by name, if there is one. -/
theorem marks_shiftDistance (mode : ShiftMode) :
    (shiftDistance mode).Yields v (MarksAll v mode.mentions) := by
  cases mode with
  | single => exact .pure .nil
  | places source => exact .bind source.marks fun _ h => .pure (.single (h.before _))
  | upTo source => exact .bind source.marks fun _ h => .pure (.single (h.before _))
  | deletingLeading source => exact .bind source.marks fun _ h => .pure (.single (h.before _))
  | deletingTrailing source => exact .bind source.marks fun _ h => .pure (.single (h.before _))

theorem marks_shift (target : FieldChain) (direction : ShiftDirection) (mode : ShiftMode)
    (circular byteMode : Bool) :
    (shift target direction mode circular byteMode).Yields v
      (Marks v (target.mentions ++ mode.mentions)) := by
  refine .bind (marks_shiftDistance mode) fun distance hdistance => ?_
  refine .bind target.marks_emitTarget fun place hplace => .pure ?_
  have hparts := ((hdistance.before ["direction: '" ++ directionKeyword direction ++ "'"]).after
    (partIf circular "circular: true")).after (partIf byteMode "mode: 'BYTE'")
  exact ((hplace.after _).append (hparts.braced _)).runtimeCall _

/-- The mask of a `TRANSLATE` stands behind its target. -/
theorem marks_translate (target : FieldChain) (rule : TranslateRule) :
    (translate target rule).Yields v (Marks v (target.mentions ++ rule.mentions)) := by
  refine .bind target.marks_emitTarget fun place hplace => ?_
  have hrest : ∀ argument, Marks v rule.mentions argument →
      Marks v (target.mentions ++ rule.mentions)
        (runtimeCall "translate" (place ++ ", " ++ argument)) :=
    fun _ h => ((hplace.after _).append h).runtimeCall _
  match rule with
  | .upper | .lower => exact .pure (hrest _ (marks_text v _))
  | .using mask => exact .bind mask.marks fun _ h => .pure (hrest _ h)

/-- The fields to set are given by name behind the operand. -/
theorem marks_describe (field : Source) (typeTarget length : Option FieldChain)
    (mode : Option DescribeMode) :
    (describe field typeTarget length mode).Yields v
      (Marks v (field.mentions ++ typeTarget.elim [] FieldChain.mentions
        ++ length.elim [] FieldChain.mentions)) := by
  refine .bind field.marks fun field hfield => ?_
  refine .bind (Emit.marks_namedIfGiven _ typeTarget FieldChain.marks_emitTarget) fun _ htype => ?_
  refine .bind (Emit.marks_namedIfGiven _ length FieldChain.marks_emitTarget)
    fun _ hlength => .pure ?_
  have hparts := ((MarksAll.single (hfield.before "field: ")).append htype).append hlength
  exact ((hparts.after _).braced _).runtimeCall _

/-- The value to set stands at the end, if it is given. -/
theorem marks_setBit (position : Source) (target : FieldChain) (value : Option Source) :
    (setBit position target value).Yields v
      (Marks v (position.mentions ++ target.mentions ++ value.elim [] Source.mentions)) := by
  refine .bind position.marks fun position hposition => ?_
  refine .bind target.marks_emitTarget fun place hplace => ?_
  have hbit := (hposition.after ", ").append hplace
  cases value with
  | none =>
    rw [Option.elim_none, List.append_nil]
    exact .pure (hbit.runtimeCall _)
  | some value =>
    exact .bind value.marks fun _ h => .pure (((hbit.after _).append h).runtimeCall _)

theorem marks_getBit (position source : Source) (target : FieldChain) :
    (getBit position source target).Yields v
      (Marks v (position.mentions ++ source.mentions ++ target.mentions)) := by
  refine .bind position.marks fun position hposition => ?_
  refine .bind source.marks fun value hvalue => ?_
  refine .bind target.marks_emitTarget fun place hplace => .pure ?_
  exact ((((hposition.after _).append hvalue).after _).append hplace).runtimeCall _

/-- Code that is handed through is a literal, which mentions nothing. -/
theorem mentions_of_kernelCode {source : Source} {code : String}
    (h : kernelCode? source = some code) : source.mentions = [] := by
  unfold kernelCode? at h
  split at h
  · rw [Source.mentions, Constant.mentions]
  · cases h

/-- Code of the kernel mentions nothing, and any other operand is written as emitted. -/
theorem marks_write (source : Source) (newLine : Bool) :
    (write source newLine).Yields v (Marks v source.mentions) := by
  unfold write
  split
  next code hcode =>
    rw [mentions_of_kernelCode hcode]
    exact .pure (marks_text v code)
  next => exact .bind source.marks fun _ h => .pure ((h.after _).runtimeCall _)

end CharacterProcessing

/-! ## Flow of control -/

namespace Flow

theorem marks_ifThen (condition : Condition) :
    (ifThen condition).Yields v (Marks v condition.mentions) :=
  .bind condition.marks fun _ h => .pure ((h.before _).after _)

/-- Guards mention nothing, so with them folded in a condition mentions the same. -/
theorem marks_elseIf (condition : Condition) :
    (elseIf condition).Yields v (Marks v condition.mentions) :=
  .bind condition.marks fun _ htext => .bind (Emit.marks_guarded htext) fun _ h =>
    .pure ((h.before _).after _)

/-- The condition of a loop stands in its header, with the guards of each round. -/
theorem marks_whileTrue (condition : Condition) :
    (whileTrue condition).Yields v (Marks v condition.mentions) :=
  .bind condition.marks fun _ htext => .bind (Emit.marks_guarded htext) fun _ h =>
    .pure ((h.before _).after _)

/-- How often is kept under a temporary before the loop. -/
theorem marks_doTimes (times : Option Source) :
    (doTimes times).Yields v (Marks v (times.elim [] Source.mentions)) := by
  cases times with
  | none => exact Emit.marks_none _
  | some times =>
    refine .after fun count => .after fun index => .bind times.marks fun value hvalue => .pure ?_
    have hcount := hvalue.before ("const " ++ count ++ " = ")
    have hhead := ((((hcount.after ".get();\nfor (let ").after index).after " = 0; ").after index)
    have hstep := (((hhead.after " < ").after count).after "; ").after index
    exact ((hstep.after _).after _).after _

/-- What a row goes to stands in the first line of the body. -/
theorem marks_loopOutput (row : String) (output : LoopOutput) :
    (loopOutput row output).Yields v (Marks v output.mentions) := by
  match output with
  | .into target =>
    exact .bind target.marks_emitTarget fun _ h => .pure ((((h.before _).after _).after _).after _)
  | .assigning target | .referenceInto target =>
    exact .bind target.marks_emitTarget fun _ h => .pure ((((h.before _).after _).after _).after _)
  | .nothing => exact .pure (marks_text v _)

/-- The table and the filter stand in the header, and the output behind it. -/
theorem marks_loopAt (table : Source) (output : LoopOutput) (filter : Option Condition) :
    (loopAt table output filter).Yields v
      (Marks v (table.mentions ++ filter.elim [] Condition.rowMentions ++ output.mentions)) := by
  refine .after fun row => .bind table.marks fun rows hrows => ?_
  dsimp only
  have hrest : ∀ options, Marks v (filter.elim [] Condition.rowMentions) options → Yields v (do
      return "for (const " ++ row ++ " of abap.statements.loop(" ++ rows ++ options ++ ")) \x7b"
        ++ (← loopOutput row output))
      (Marks v (table.mentions ++ filter.elim [] Condition.rowMentions ++ output.mentions)) := by
    intro options hoptions
    refine .bind (marks_loopOutput row output) fun _ houtput => .pure ?_
    exact (((hrows.before _).append hoptions).after _).append houtput
  cases filter with
  | none => exact .bind (.pure (marks_text v "")) hrest
  | some condition =>
    refine .bind condition.marks_emitRowFilter fun _ h => .bind (.pure ?_) hrest
    exact (h.before ", \x7bwhere: ").after "\x7d"

theorem marks_assert (condition : Condition) :
    (assert condition).Yields v (Marks v condition.mentions) :=
  .bind condition.marks fun _ h => .pure (h.runtimeCall _)

/-- What is handed back, as text that may be empty. -/
theorem marks_resultAt (position : Position) :
    (resultAt position).Yields v fun result =>
      Marks v (Referent.result position).mentioned (result.getD "") := by
  refine .bind (Emit.yields_ask fun v => v.enclosingMethod position) fun enclosing h => .pure ?_
  have hother : ∀ text, enclosing.bind handedBack? = none →
      Marks v (Referent.result position).mentioned text := by
    intro text hnone
    refine marks_use (r := .result position) (o := .other text) ⟨enclosing, h, ?_⟩
    rw [hnone]
    exact ⟨text, rfl⟩
  cases hback : enclosing.bind handedBack? with
  | none => exact hother _ hback
  | some p =>
    have hresult : enclosing.bind result? = some (Identifier.plain p.name) := by
      obtain ⟨m, rfl, hm⟩ := Option.bind_eq_some_iff.mp hback
      unfold handedBack? at hm
      split at hm
      · cases hm
      next hconstructor =>
        rw [Option.bind_some, result?, if_neg hconstructor, hm, Option.map_some]
    rw [hresult]
    refine marks_use (r := .result position) (o := .plain p.name) ⟨enclosing, h, ?_⟩
    rw [hback]

/-- The result stands behind `return`. -/
theorem marks_returnAt (position : Position) :
    (returnAt position).Yields v (Marks v (Referent.result position).mentioned) := by
  refine .bind (marks_resultAt position) fun result h => ?_
  cases result with
  | none => exact .pure ((h.before "return").after ";")
  | some value => exact .pure ((h.before "return ").after ";")

/-- The result stands behind `return` before the brace. -/
theorem marks_endMethodAt (position : Position) :
    (endMethodAt position).Yields v (Marks v (Referent.result position).mentioned) := by
  refine .bind (marks_resultAt position) fun result h => ?_
  cases result with
  | none => exact .pure (h.before "\x7d")
  | some value => exact .pure ((h.before "return ").after ";\n\x7d")

end Flow

/-! ## Rows -/

namespace Row

theorem marks_sort (target : FieldChain) (descending : Bool) (keys : List SortKey) :
    (sort target descending keys).Yields v (Marks v target.mentions) :=
  .bind target.marks_emitTarget fun _ h => .pure (((h.after _).after _).runtimeCall _)

/-- The text of the table comes from before and keeps its mentions. -/
theorem marks_appendRows {table : String} (htable : Marks v ms table) (source : Source)
    (lines : Bool) (assigning : Option FieldChain) :
    (appendRows table source lines assigning).Yields v
      (Marks v (source.mentions ++ ms ++ assigning.elim [] FieldChain.mentions)) := by
  refine .bind source.marks fun value hvalue => ?_
  refine .bind (Emit.marks_namedIfGiven _ assigning FieldChain.marks_emitTarget)
    fun _ hassigning => .pure ?_
  have hparts := (MarksAll.single (hvalue.before "source: ")).append
    (.single (htable.before "target: "))
  exact (((hparts.after _).append hassigning).braced _).runtimeCall _

/-- Whatever is appended, the names in it occur in the text. -/
theorem marks_append (source : AppendSource) (target : FieldChain) (assigning : Option FieldChain) :
    (append source target assigning).Yields v
      (Marks v (source.statementMentions target assigning)) := by
  refine .bind target.marks_emitTarget fun table htable => ?_
  cases source with
  | value source => exact marks_appendRows htable source false assigning
  | linesOf source => exact marks_appendRows htable source true assigning
  | initialLine =>
    cases assigning with
    | none => exact .pure (htable.after _)
    | some symbol =>
      refine .bind symbol.marks_emitTarget fun _ hsymbol => .pure ?_
      exact ((hsymbol.after _).append htable).after _

theorem marks_inserted (data : InsertData) :
    (inserted data).Yields v (Marks v data.mentions) := by
  cases data with
  | value source => exact .bind source.marks fun _ h => .pure (h.before _)
  | initialLine => exact .pure (marks_text v _)

/-- All options stand in one list, in the order in which they are emitted. -/
theorem marks_insert (data : InsertData) (table : FieldChain) (index : Option Source)
    (assigning : Option FieldChain) :
    (insert data table index assigning).Yields v
      (Marks v (data.mentions ++ index.elim [] Source.mentions
        ++ assigning.elim [] FieldChain.mentions ++ table.mentions)) := by
  refine .bind (marks_inserted data) fun data hdata => ?_
  refine .bind (Emit.marks_namedIfGiven _ index Source.marks) fun _ hindex => ?_
  refine .bind (Emit.marks_namedIfGiven _ assigning FieldChain.marks_emitTarget)
    fun _ hassigning => ?_
  refine .bind (Emit.marks_named _ table.marks_emitTarget) fun _ htable => .pure ?_
  have hparts := ((MarksAll.single hdata).append hindex).append hassigning
  exact ((hparts.append (.single htable)).braced _).runtimeCall _

/-- The index and the row stand behind the table. -/
theorem marks_modify (table : FieldChain) (index row : Option Source) :
    (modify table index row).Yields v
      (Marks v (table.mentions
        ++ (index.elim [] Source.mentions ++ row.elim [] Source.mentions))) := by
  refine .bind table.marks_emitTarget fun table htable => ?_
  refine .bind (Emit.marks_namedIfGiven _ index Source.marks) fun _ hindex => ?_
  refine .bind (Emit.marks_namedIfGiven _ row Source.marks) fun _ hrow => .pure ?_
  exact ((htable.after _).append ((hindex.append hrow).braced _)).runtimeCall _

/-- The filter is a function of a row and stands between the others. -/
theorem marks_delete (table : FieldChain) (filter : Option Condition) (adjacent : Bool)
    (index row : Option Source) :
    (delete table filter adjacent index row).Yields v
      (Marks v (table.mentions ++ (filter.elim [] Condition.rowMentions
        ++ index.elim [] Source.mentions ++ row.elim [] Source.mentions))) := by
  refine .bind table.marks_emitTarget fun table htable => ?_
  refine .bind (Emit.marks_namedIfGiven _ filter Condition.marks_emitRowFilter) fun _ hfilter => ?_
  refine .bind (Emit.marks_namedIfGiven _ index Source.marks) fun _ hindex => ?_
  refine .bind (Emit.marks_namedIfGiven _ row Source.marks) fun _ hrow => .pure ?_
  have hparts := ((hfilter.after (partIf adjacent "adjacent: true")).append hindex).append hrow
  exact ((htable.after _).append (hparts.braced _)).runtimeCall _

/-- All options stand behind the table, in the order in which they are emitted. -/
theorem marks_read (table : Source) (index : Option Source)
    (into referenceInto assigning : Option FieldChain) (withKey : Option Condition)
    (binarySearch : Bool) :
    (read table index into referenceInto assigning withKey binarySearch).Yields v
      (Marks v (table.mentions ++ (index.elim [] Source.mentions
        ++ into.elim [] FieldChain.mentions ++ referenceInto.elim [] FieldChain.mentions
        ++ assigning.elim [] FieldChain.mentions ++ withKey.elim [] Condition.rowMentions))) := by
  refine .bind table.marks fun table htable => ?_
  refine .bind (Emit.marks_namedIfGiven _ index Source.marks) fun _ hindex => ?_
  refine .bind (Emit.marks_namedIfGiven _ into FieldChain.marks_emitTarget) fun _ hinto => ?_
  refine .bind (Emit.marks_namedIfGiven _ referenceInto FieldChain.marks_emitTarget)
    fun _ hreference => ?_
  refine .bind (Emit.marks_namedIfGiven _ assigning FieldChain.marks_emitTarget)
    fun _ hassigning => ?_
  refine .bind (Emit.marks_namedIfGiven _ withKey Condition.marks_emitRowFilter)
    fun _ hkey => .pure ?_
  have hparts := (((hindex.append hinto).append hreference).append hassigning).append hkey
  exact ((htable.after _).append ((hparts.after _).braced _)).runtimeCall _

/-- A table that is known at run time stands between two literals of the query. -/
theorem marks_select (target : FieldChain) (fields : String) (table : DatabaseTable)
    (filter : Option String) (single : Bool) (upTo : Option UInt32) :
    (select target fields table filter single upTo).Yields v
      (Marks v (target.mentions ++ table.mentions)) := by
  refine .bind target.marks_emitTarget fun place hplace => ?_
  have hrest : ∀ query, Marks v table.mentions query →
      Marks v (target.mentions ++ table.mentions)
        (runtimeCall "select" (place ++ ", " ++ query)) :=
    fun _ h => ((hplace.after _).append h).runtimeCall _
  cases table with
  | named name => exact .pure (hrest _ (marks_text v _))
  | dynamic chain =>
    refine .bind (chain.marks .read) fun _ h => .pure (hrest _ ?_)
    exact (((h.before _).after _).after _).after _

theorem marks_tableName (table : DatabaseTable) :
    (tableName table).Yields v (Marks v table.mentions) := by
  cases table with
  | named name => exact .pure (marks_text v _)
  | dynamic chain => exact chain.marks .read

theorem marks_insertDatabase (table : DatabaseTable) (values : Source) :
    (insertDatabase table values).Yields v (Marks v (table.mentions ++ values.mentions)) := by
  refine .bind (marks_tableName table) fun table htable => ?_
  refine .bind values.marks fun _ hvalues => .pure ?_
  exact (((htable.after _).append hvalues).after _).runtimeCall _

theorem marks_changedRows (rows : DatabaseSource) :
    (changedRows rows).Yields v (Marks v rows.mentions) := by
  cases rows with
  | row source => exact .bind source.marks fun _ h => .pure (h.before _)
  | table source => exact .bind source.marks fun _ h => .pure (h.before _)

/-- The rows stand behind the name of the table. -/
theorem marks_changeDatabase (change : DatabaseChange) (table : DatabaseTable)
    (rows : DatabaseSource) :
    (changeDatabase change table rows).Yields v (Marks v (table.mentions ++ rows.mentions)) := by
  refine .bind (marks_tableName table) fun table htable => ?_
  refine .bind (marks_changedRows rows) fun _ hrows => .pure ?_
  exact ((htable.after _).append ((MarksAll.single hrows).braced _)).runtimeCall _

end Row

/-! ## Calls outside of expressions -/

namespace Invocation

theorem marks_bindings (given : List Binding) :
    (bindings given).Yields v (Marks v (mentionsOfBindings given)) :=
  .bind (marks_emitBindings given) fun _ h => .pure (h.braced _)

theorem marks_bindingsIfAny (given : List Binding) :
    (bindingsIfAny given).Yields v (Marks v (mentionsOfBindings given)) := by
  cases given with
  | nil => exact .pure (marks_text v _)
  | cons first rest => exact marks_bindings (first :: rest)

/-- A group of parameters stands in the text unless it is empty. -/
theorem marks_targetGroup (key : String) (targets : List TargetBinding) :
    (targetGroup key targets).Yields v (MarksAll v (mentionsOfTargets targets)) := by
  cases targets with
  | nil => exact .pure .nil
  | cons first rest =>
    exact .bind (marks_emitTargetBindings (first :: rest)) fun _ h =>
      .pure (.single ((h.braced _).before _))

/-- The groups stand behind each other. -/
theorem marks_functionGroups (exporting : List Binding)
    (importing changing tables : List TargetBinding) :
    (functionGroups exporting importing changing tables).Yields v
      (MarksAll v (mentionsOfBindings exporting ++ mentionsOfTargets importing
        ++ mentionsOfTargets changing ++ mentionsOfTargets tables)) := by
  unfold functionGroups
  dsimp only
  -- what comes behind the group that may be missing
  have hrest : ∀ given, MarksAll v (mentionsOfBindings exporting) given → Yields v (do
      let taken ← targetGroup "importing" importing
      let changed ← targetGroup "changing" changing
      let tables ← targetGroup "tables" tables
      return given ++ taken ++ changed ++ tables)
      (MarksAll v (mentionsOfBindings exporting ++ mentionsOfTargets importing
        ++ mentionsOfTargets changing ++ mentionsOfTargets tables)) := by
    intro given hgiven
    refine .bind (marks_targetGroup _ importing) fun _ htaken => ?_
    refine .bind (marks_targetGroup _ changing) fun _ hchanged => ?_
    refine .bind (marks_targetGroup _ tables) fun _ htables => .pure ?_
    exact ((hgiven.append htaken).append hchanged).append htables
  cases exporting with
  | nil => exact .bind (.pure .nil) hrest
  | cons first rest =>
    refine .bind (marks_bindings (first :: rest)) fun _ h => .bind (.pure ?_) hrest
    exact .single (h.before _)

theorem marks_functionAddress (name : DynamicName) :
    (functionAddress name).Yields v (Marks v name.mentions) := by
  cases name with
  | literal value => exact .pure (marks_text v _)
  | field chain => exact .bind (chain.marks .read) fun _ h => .pure ((h.before _).after _)

/-- Names and destination stand in the text besides the groups of parameters. -/
theorem marks_callFunction (name : DynamicName) (destination : Option DynamicName)
    (exporting : List Binding) (importing changing tables : List TargetBinding) :
    (callFunction name destination exporting importing changing tables).Yields v
      (Marks v (name.mentions ++ destination.elim [] DynamicName.mentions
        ++ (mentionsOfBindings exporting ++ mentionsOfTargets importing
          ++ mentionsOfTargets changing ++ mentionsOfTargets tables))) := by
  refine .bind (marks_functionGroups exporting importing changing tables) fun groups hgroups => ?_
  cases destination with
  | some destination =>
    refine .bind name.marks_emitText fun _ hname => ?_
    refine .bind destination.marks_emitText fun _ hdestination => .pure ?_
    have hparts := (MarksAll.single (hname.before "name:")).append
      (.single (hdestination.before "destination:"))
    exact (((hparts.append hgroups).braced _).runtimeCall _).before _
  | none =>
    rw [Option.elim_none, List.append_nil]
    refine .bind (marks_functionAddress name) fun _ haddress => .pure ?_
    exact (((haddress.before _).after _).append (hgroups.bracedIfAny _)).after _

/-- An exception is thrown with its parameters, or is thrown as it is. -/
theorem marks_raise (raise : Raise) :
    (Invocation.raise raise).Yields v (Marks v raise.mentions) := by
  cases raise with
  | type className exporting =>
    refine .after fun _ => .bind (marks_bindingsIfAny exporting) fun _ h => .pure ?_
    exact (h.before _).after _
  | object source => exact .bind source.marks fun _ h => .pure ((h.before _).after _)

/-- A class that is named at run time is given by an operand. -/
theorem marks_createdClass (target : FieldChain) (spec : Option ClassSpec) :
    (createdClass target spec).Yields v (Marks v (spec.elim [] ClassSpec.mentions)) := by
  match spec with
  | some (.static name) => exact Emit.marks_none _
  | some (.dynamic name) => exact .bind name.marks_emitClass fun _ h => .after fun _ => .pure h
  | none => exact Emit.marks_none _

/-- The parameters of the constructor stand behind the class. -/
theorem marks_createObject (target : FieldChain) (spec : Option ClassSpec)
    (parameters : List Binding) :
    (createObject target spec parameters).Yields v
      (Marks v (target.mentions ++ spec.elim [] ClassSpec.mentions
        ++ mentionsOfBindings parameters)) := by
  refine .bind (marks_createdClass target spec) fun address haddress => ?_
  refine .bind (marks_bindingsIfAny parameters) fun parameters hparameters => ?_
  refine .bind target.marks_emitTarget fun place hplace => .pure ?_
  have hclass := (hplace.after ".set(await (new ").append haddress
  exact ((hclass.after _).append hparameters).after _

/-- The parts of a `MESSAGE` are given by name. -/
theorem marks_messageParts (spec : MessageSpec) :
    (messageParts spec).Yields v (MarksAll v spec.mentions) := by
  cases spec with
  | short messageType number id => exact .pure (.text v _)
  | parts id messageType number =>
    refine .bind (Emit.marks_named _ id.marks) fun _ hid => ?_
    refine .bind (Emit.marks_named _ messageType.marks) fun _ htype => ?_
    refine .bind (Emit.marks_named _ number.marks) fun _ hnumber => .pure ?_
    exact ((MarksAll.single hid).append (.single htype)).append (.single hnumber)

/-- Arguments stand in a list behind the parts. -/
theorem marks_message (spec : MessageSpec) (arguments : List Source) (into : Option FieldChain) :
    (message spec arguments into).Yields v
      (Marks v (into.elim [] FieldChain.mentions ++ spec.mentions
        ++ arguments.flatMap Source.mentions)) := by
  refine .bind (Emit.marks_namedIfGiven _ into FieldChain.marks_emitTarget) fun _ hinto => ?_
  refine .bind (marks_messageParts spec) fun _ hparts => ?_
  refine .bind (Emit.marks_namedListIfAny _ _ arguments Source.marks) fun _ harguments => .pure ?_
  exact (((hinto.append hparts).append harguments).braced _).runtimeCall _

/-- A call of the kernel contains its parts. -/
theorem marks_kernelCall (className statement method : String) {parts : List String}
    (h : MarksAll v ms parts) : Marks v ms (kernelCall className statement method parts) :=
  ((h.braced _).before _).after _

/-- Bindings mention what their values mention, one after the other. -/
theorem mentionsOfBindings_eq (given : List Binding) :
    mentionsOfBindings given = given.flatMap fun b => b.value.mentions := by
  induction given with
  | nil => rfl
  | cons b rest ih =>
    cases b
    rw [mentionsOfBindings, ih, List.flatMap_cons]

theorem marks_tightBindings (given : List Binding) :
    (tightBindings given).Yields v (Marks v (mentionsOfBindings given)) := by
  rw [mentionsOfBindings_eq]
  refine .bind (Emit.marks_mapM given fun b => ?_) fun _ h => .pure (h.braced _)
  exact .bind b.value.marks fun _ h => .pure (h.before _)

theorem marks_transformationOperand (operand : TransformationOperand) :
    (transformationOperand operand).Yields v (Marks v operand.mentions) := by
  cases operand with
  | xml value => exact value.marks
  | bindings given => exact marks_tightBindings given
  | dynamic value => exact .bind value.marks fun _ h => .pure ((h.before _).after _)

/-- A part that is not asked for does not stand in the text. -/
theorem marks_transformationPart (wanted : Bool) (key : String)
    (operand : TransformationOperand) :
    (transformationPart wanted key operand).Yields v
      (MarksAll v (operand.mentionsIf wanted)) := by
  cases wanted with
  | true =>
    exact .bind (marks_transformationOperand operand) fun _ h => .pure (.single (h.before _))
  | false => exact .pure .nil

/-- Each operand stands in the text once, before the options or behind them. -/
theorem marks_callTransformation (name : String) (options : List Binding)
    (source result : TransformationOperand) :
    (callTransformation name options source result).Yields v
      (Marks v (source.mentionsIf (isXml source) ++ result.mentionsIf (isXml result)
        ++ mentionsOfBindings options ++ source.mentionsIf (!isXml source)
        ++ result.mentionsIf (!isXml result))) := by
  refine .bind (marks_transformationPart (isXml source) _ source) fun sourceXml hsourceXml => ?_
  refine .bind (marks_transformationPart (isXml result) _ result) fun resultXml hresultXml => ?_
  dsimp only
  -- the parts are put together in the same way whether there are options
  have hrest : ∀ given, MarksAll v (mentionsOfBindings options) given → Yields v (do
      let sourcePart ← transformationPart (!isXml source) "source" source
      let resultPart ← transformationPart (!isXml result) "result" result
      return kernelCall "KERNEL_CALL_TRANSFORMATION" "CallTransformation" "call"
        (["name: \"" ++ Text.toLower name ++ "\""] ++ sourceXml ++ resultXml ++ given ++ sourcePart
          ++ resultPart))
      (Marks v (source.mentionsIf (isXml source) ++ result.mentionsIf (isXml result)
        ++ mentionsOfBindings options ++ source.mentionsIf (!isXml source)
        ++ result.mentionsIf (!isXml result))) := by
    intro given hgiven
    refine .bind (marks_transformationPart (!isXml source) _ source) fun _ hsource => ?_
    refine .bind (marks_transformationPart (!isXml result) _ result) fun _ hresult => .pure ?_
    have hxml := (hsourceXml.before ["name: \"" ++ Text.toLower name ++ "\""]).append hresultXml
    exact marks_kernelCall _ _ _ (((hxml.append hgiven).append hsource).append hresult)
  cases options with
  | nil => exact .bind (.pure .nil) hrest
  | cons first rest =>
    refine .bind (marks_tightBindings (first :: rest)) fun _ h => .bind (.pure ?_) hrest
    exact .single (h.before _)

/-- What is converted and what is found are kept apart, and together mention all. -/
theorem marks_conversionParts (conversion : Conversion) :
    (conversionParts conversion).Yields v fun parts => ∃ ms ns,
      conversion.mentions = ms ++ ns ∧ MarksAll v ms parts.1 ∧ MarksAll v ns parts.2 := by
  cases conversion with
  | toStamp date time zone stamp =>
    refine .bind (Emit.marks_named _ date.marks) fun _ hdate => ?_
    refine .bind (Emit.marks_namedIfGiven _ time Source.marks) fun _ htime => ?_
    refine .bind (Emit.marks_namedIfGiven _ zone Source.marks) fun _ hzone => ?_
    refine .bind (Emit.marks_named _ stamp.marks_emitTarget) fun _ hstamp => .pure ?_
    exact ⟨_, _, rfl, ((MarksAll.single hdate).append htime).append hzone, .single hstamp⟩
  | fromStamp stamp zone date time =>
    refine .bind (Emit.marks_named _ stamp.marks) fun _ hstamp => ?_
    refine .bind (Emit.marks_namedIfGiven _ zone Source.marks) fun _ hzone => ?_
    refine .bind (Emit.marks_namedIfGiven _ date FieldChain.marks_emitTarget) fun _ hdate => ?_
    refine .bind (Emit.marks_namedIfGiven _ time FieldChain.marks_emitTarget)
      fun _ htime => .pure ?_
    exact ⟨_, _, rfl, (MarksAll.single hstamp).append hzone, hdate.append htime⟩

theorem marks_convert (conversion : Conversion) :
    (convert conversion).Yields v (Marks v conversion.mentions) := by
  refine .bind (marks_conversionParts conversion) fun parts hparts => .pure ?_
  obtain ⟨ms, ns, heq, hinputs, houtputs⟩ := hparts
  rw [heq]
  exact (((hinputs.braced _).after _).append (houtputs.braced _)).runtimeCall _

theorem marks_waitForPushChannels (condition : Condition) (seconds : Option Source) :
    (waitForPushChannels condition seconds).Yields v
      (Marks v (condition.mentions ++ seconds.elim [] Source.mentions)) := by
  refine .bind (Emit.marks_named _ condition.marks) fun _ hcondition => ?_
  refine .bind (Emit.marks_namedIfGiven _ seconds Source.marks) fun _ hseconds => .pure ?_
  exact marks_kernelCall _ _ _ ((MarksAll.single hcondition).append hseconds)

end Invocation

/-! ## All statements -/

/-- The code of a statement spells just what its syntax mentions. -/
theorem StatementNode.marks : ∀ node : StatementNode, node.emit.Yields v (Marks v node.mentions)
  | ⟨.data .., _, _⟩ | ⟨.constants .., _, _⟩ | ⟨.fieldSymbol _, _, _⟩ => Emit.marks_none _
  | ⟨.declarative _, _, _⟩ | ⟨.comment _, _, _⟩ => Emit.marks_none _
  | ⟨.move source target, _, _⟩ => DataObject.marks_move source target
  | ⟨.arithmetic verb source target, _, _⟩ => DataObject.marks_arithmetic verb source target
  | ⟨.clear target, _, _⟩ | ⟨.free target, _, _⟩ => DataObject.marks_clear target
  | ⟨.moveCorresponding source target, _, _⟩ => DataObject.marks_moveCorresponding source target
  | ⟨.ifThen condition, _, _⟩ => Flow.marks_ifThen condition
  | ⟨.elseIf condition, _, _⟩ => Flow.marks_elseIf condition
  | ⟨.otherwise, _, _⟩ | ⟨.endBlock _, _, _⟩ => Emit.marks_none _
  | ⟨.continueLoop, _, _⟩ | ⟨.exitLoop, _, _⟩ => Emit.marks_none _
  | ⟨.doTimes times, _, _⟩ => Flow.marks_doTimes times
  | ⟨.whileTrue condition, _, _⟩ => Flow.marks_whileTrue condition
  | ⟨.loopAt table output filter, _, _⟩ => Flow.marks_loopAt table output filter
  | ⟨.caseOf _, _, _⟩ | ⟨.whenOneOf _, _, _⟩ | ⟨.whenOthers, _, _⟩ | ⟨.endCase, _, _⟩ => .fail _
  | ⟨.tryBody, _, _⟩ | ⟨.catchClasses _ _, _, _⟩ | ⟨.endTry, _, _⟩ => .fail _
  | ⟨.returnHere, span, _⟩ => Flow.marks_returnAt span.start
  | ⟨.assert condition, _, _⟩ => Flow.marks_assert condition
  | ⟨.classImplementation _, _, _⟩ | ⟨.interfaceHeader _, _, _⟩ => Emit.marks_none _
  | ⟨.method _, _, _⟩ | ⟨.form _, _, _⟩ | ⟨.perform _, _, _⟩ => Emit.marks_none _
  | ⟨.endMethod, span, _⟩ => Flow.marks_endMethodAt span.start
  | ⟨.call c, _, _⟩ => c.marks_emitStatement
  | ⟨.callFunction name destination exporting importing changing tables _, _, _⟩ =>
    Invocation.marks_callFunction name destination exporting importing changing tables
  | ⟨.callTransformation name options source result, _, _⟩ =>
    Invocation.marks_callTransformation name options source result
  | ⟨.raiseException raise, _, _⟩ => Invocation.marks_raise raise
  | ⟨.message spec arguments into, _, _⟩ => Invocation.marks_message spec arguments into
  | ⟨.createObject target spec parameters, _, _⟩ =>
    Invocation.marks_createObject target spec parameters
  | ⟨.createData target spec, _, _⟩ => DataObject.marks_create target spec
  | ⟨.assign source target casting, _, _⟩ => DataObject.marks_assign source target casting
  | ⟨.getReference source target, _, _⟩ => DataObject.marks_getReference source target
  | ⟨.concatenate sources target separatedBy lines, _, _⟩ =>
    CharacterProcessing.marks_concatenate sources target separatedBy lines
  | ⟨.split source separator into, _, _⟩ => CharacterProcessing.marks_split source separator into
  | ⟨.replace target all pattern replacement, _, _⟩ =>
    CharacterProcessing.marks_replace target all pattern replacement
  | ⟨.condense target noGaps, _, _⟩ => CharacterProcessing.marks_condense target noGaps
  | ⟨.find pattern within first count offset length submatches, _, _⟩ =>
    CharacterProcessing.marks_find pattern within first count offset length submatches
  | ⟨.shift target direction mode circular byteMode, _, _⟩ =>
    CharacterProcessing.marks_shift target direction mode circular byteMode
  | ⟨.translate target rule, _, _⟩ => CharacterProcessing.marks_translate target rule
  | ⟨.describe field typeTarget length mode, _, _⟩ =>
    CharacterProcessing.marks_describe field typeTarget length mode
  | ⟨.setBit position target value, _, _⟩ =>
    CharacterProcessing.marks_setBit position target value
  | ⟨.getBit position source target, _, _⟩ =>
    CharacterProcessing.marks_getBit position source target
  | ⟨.write source newLine, _, _⟩ => CharacterProcessing.marks_write source newLine
  | ⟨.sort target descending keys, _, _⟩ => Row.marks_sort target descending keys
  | ⟨.append source target assigning, _, _⟩ => Row.marks_append source target assigning
  | ⟨.insertInternal inserted table index assigning, _, _⟩ =>
    Row.marks_insert inserted table index assigning
  | ⟨.modifyInternal table index row, _, _⟩ => Row.marks_modify table index row
  | ⟨.deleteInternal table filter adjacent index row, _, _⟩ =>
    Row.marks_delete table filter adjacent index row
  | ⟨.readTable table index into referenceInto assigning withKey binarySearch, _, _⟩ =>
    Row.marks_read table index into referenceInto assigning withKey binarySearch
  | ⟨.select target fields table filter single upTo, _, _⟩ =>
    Row.marks_select target fields table filter single upTo
  | ⟨.insertDatabase table values, _, _⟩ => Row.marks_insertDatabase table values
  | ⟨.changeDatabase change table rows, _, _⟩ => Row.marks_changeDatabase change table rows
  | ⟨.commit, _, _⟩ | ⟨.rollback, _, _⟩ | ⟨.authorityCheck _, _, _⟩ => Emit.marks_none _
  | ⟨.convert conversion, _, _⟩ => Invocation.marks_convert conversion
  | ⟨.waitForPushChannels condition seconds, _, _⟩ =>
    Invocation.marks_waitForPushChannels condition seconds
  | ⟨.unsupported _, _, _⟩ => .fail _

end AbapLowering
