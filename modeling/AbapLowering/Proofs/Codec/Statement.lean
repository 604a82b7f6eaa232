import AbapLowering.Proofs.Codec.Expression
import AbapLowering.Statement.Json

/-!
# Codecs of statements

Every statement is read from every variation of what is written for it. Its tag leads to its reader
in the table of all readers (`Statement.ofJson?_eq`), and the reader finds each of its fields.
-/

namespace AbapLowering

open FieldForm (required optional defaulted)

/-! ## Parts of statements -/

instance : LawfulCodec ArithmeticVerb := .ofNames _ _ (by rintro (_ | _ | _ | _) <;> rfl)
instance : LawfulCodec ShiftDirection := .ofNames _ _ (by rintro (_ | _) <;> rfl)
instance : LawfulCodec DescribeMode := .ofNames _ _ (by rintro (_ | _) <;> rfl)

instance : LawfulCodec LoopOutput where
  formOf
    | .into target => .tagged "kind" "into" [required "target" (formOf target)]
    | .assigning target => .tagged "kind" "assigning" [required "target" (formOf target)]
    | .referenceInto target => .tagged "kind" "reference_into" [required "target" (formOf target)]
    | .nothing => .tagged "kind" "none" []
  json_formOf output := by cases output <;> simp [encode]
  distinct_formOf output := by cases output <;> simp
  formOf_ne_null output := by cases output <;> nofun
  decode?_of_varies {output _} h := by
    cases output with
    | into _ | assigning _ | referenceInto _ =>
      obtain ⟨members, rfl, hkind, htarget, -⟩ := h
      simp [decode?, hkind.tag?, htarget.get]
    | nothing =>
      obtain ⟨members, rfl, hkind, -⟩ := h
      simp [decode?, hkind.tag?]

instance : LawfulCodec TransformationOperand where
  formOf
    | .xml value => .tagged "kind" "xml" [required "value" (formOf value)]
    | .bindings bindings => .tagged "kind" "bindings" [required "bindings" (formOf bindings)]
    | .dynamic value => .tagged "kind" "dynamic" [required "value" (formOf value)]
  json_formOf operand := by cases operand <;> simp [encode]
  distinct_formOf operand := by cases operand <;> simp
  formOf_ne_null operand := by cases operand <;> nofun
  decode?_of_varies {operand _} h := by
    cases operand with
    | xml _ | dynamic _ =>
      obtain ⟨members, rfl, hkind, hvalue, -⟩ := h
      simp [decode?, hkind.tag?, hvalue.get]
    | bindings _ =>
      obtain ⟨members, rfl, hkind, hbindings, -⟩ := h
      simp [decode?, hkind.tag?, hbindings.get]

instance : LawfulCodec Raise where
  formOf
    | .type className exporting =>
      .tagged "kind" "type" [required "class" (formOf className),
        defaulted "exporting" (exporting = []) (formOf exporting)]
    | .object source => .tagged "kind" "instance" [required "source" (formOf source)]
  json_formOf raise := by cases raise <;> simp [encode]
  distinct_formOf raise := by cases raise <;> simp
  formOf_ne_null raise := by cases raise <;> nofun
  decode?_of_varies {raise _} h := by
    cases raise with
    | type _ _ =>
      obtain ⟨members, rfl, hkind, hclassName, hexporting, -⟩ := h
      simp [decode?, hkind.tag?, hclassName.get, hexporting.getD]
    | object _ =>
      obtain ⟨members, rfl, hkind, hsource, -⟩ := h
      simp [decode?, hkind.tag?, hsource.get]

instance : LawfulCodec MessageSpec where
  formOf
    | .short messageType number id =>
      .tagged "kind" "short" [required "message_type" (formOf messageType),
        required "number" (formOf number), required "id" (formOf id)]
    | .parts id messageType number =>
      .tagged "kind" "id" [required "id" (formOf id), required "message_type" (formOf messageType),
        required "number" (formOf number)]
  json_formOf spec := by cases spec <;> simp [encode]
  distinct_formOf spec := by cases spec <;> simp
  formOf_ne_null spec := by cases spec <;> nofun
  decode?_of_varies {spec _} h := by
    cases spec with
    | short _ _ _ =>
      obtain ⟨members, rfl, hkind, hmessageType, hnumber, hid, -⟩ := h
      simp [decode?, hkind.tag?, hmessageType.get, hnumber.get, hid.get]
    | parts _ _ _ =>
      obtain ⟨members, rfl, hkind, hid, hmessageType, hnumber, -⟩ := h
      simp [decode?, hkind.tag?, hid.get, hmessageType.get, hnumber.get]

instance : LawfulCodec ClassSpec where
  formOf
    | .static name => .tagged "kind" "static" [required "name" (formOf name)]
    | .dynamic name => .tagged "kind" "dynamic" [required "name" (formOf name)]
  json_formOf spec := by cases spec <;> simp [encode]
  distinct_formOf spec := by cases spec <;> simp
  formOf_ne_null spec := by cases spec <;> nofun
  decode?_of_varies {spec _} h := by
    cases spec with
    | static _ | dynamic _ =>
      obtain ⟨members, rfl, hkind, hname, -⟩ := h
      simp [decode?, hkind.tag?, hname.get]

instance : LawfulCodec CreateDataSpec where
  formOf
    | .type type => .tagged "kind" "type" [required "type" (formOf type)]
    | .dynamic name table =>
      .tagged "kind" "dynamic" [required "name" (formOf name),
        defaulted "table" (table = false) (formOf table)]
    | .likeLineOf source => .tagged "kind" "like_line_of" [required "source" (formOf source)]
    | .like source => .tagged "kind" "like" [required "source" (formOf source)]
  json_formOf spec := by cases spec <;> simp [encode]
  distinct_formOf spec := by cases spec <;> simp
  formOf_ne_null spec := by cases spec <;> nofun
  decode?_of_varies {spec _} h := by
    cases spec with
    | type _ =>
      obtain ⟨members, rfl, hkind, htype, -⟩ := h
      simp [decode?, hkind.tag?, htype.get]
    | dynamic _ _ =>
      obtain ⟨members, rfl, hkind, hname, htable, -⟩ := h
      simp [decode?, hkind.tag?, hname.get, htable.getD]
    | likeLineOf _ | like _ =>
      obtain ⟨members, rfl, hkind, hsource, -⟩ := h
      simp [decode?, hkind.tag?, hsource.get]

instance : LawfulCodec SplitInto where
  formOf
    | .table target => .tagged "kind" "table" [required "target" (formOf target)]
    | .targets targets => .tagged "kind" "targets" [required "targets" (formOf targets)]
  json_formOf into := by cases into <;> simp [encode]
  distinct_formOf into := by cases into <;> simp
  formOf_ne_null into := by cases into <;> nofun
  decode?_of_varies {into _} h := by
    cases into with
    | table _ =>
      obtain ⟨members, rfl, hkind, htarget, -⟩ := h
      simp [decode?, hkind.tag?, htarget.get]
    | targets _ =>
      obtain ⟨members, rfl, hkind, htargets, -⟩ := h
      simp [decode?, hkind.tag?, htargets.get]

instance : LawfulCodec FindPattern where
  formOf
    | .substring source => .tagged "kind" "substring" [required "source" (formOf source)]
    | .regex source => .tagged "kind" "regex" [required "source" (formOf source)]
  json_formOf pattern := by cases pattern <;> simp [encode]
  distinct_formOf pattern := by cases pattern <;> simp
  formOf_ne_null pattern := by cases pattern <;> nofun
  decode?_of_varies {pattern _} h := by
    cases pattern with
    | substring _ | regex _ =>
      obtain ⟨members, rfl, hkind, hsource, -⟩ := h
      simp [decode?, hkind.tag?, hsource.get]

instance : LawfulCodec ShiftMode where
  formOf
    | .single => .tagged "kind" "single" []
    | .places source => .tagged "kind" "places" [required "source" (formOf source)]
    | .upTo source => .tagged "kind" "to" [required "source" (formOf source)]
    | .deletingLeading source =>
      .tagged "kind" "deleting_leading" [required "source" (formOf source)]
    | .deletingTrailing source =>
      .tagged "kind" "deleting_trailing" [required "source" (formOf source)]
  json_formOf mode := by cases mode <;> simp [encode]
  distinct_formOf mode := by cases mode <;> simp
  formOf_ne_null mode := by cases mode <;> nofun
  decode?_of_varies {mode _} h := by
    cases mode with
    | single =>
      obtain ⟨members, rfl, hkind, -⟩ := h
      simp [decode?, hkind.tag?]
    | places _ | upTo _ | deletingLeading _ | deletingTrailing _ =>
      obtain ⟨members, rfl, hkind, hsource, -⟩ := h
      simp [decode?, hkind.tag?, hsource.get]

instance : LawfulCodec TranslateRule where
  formOf
    | .upper => .tagged "kind" "upper" []
    | .lower => .tagged "kind" "lower" []
    | .using mask => .tagged "kind" "using" [required "mask" (formOf mask)]
  json_formOf rule := by cases rule <;> simp [encode]
  distinct_formOf rule := by cases rule <;> simp
  formOf_ne_null rule := by cases rule <;> nofun
  decode?_of_varies {rule _} h := by
    rcases rule with _ | _ | mask
    · obtain ⟨members, rfl, hkind, -⟩ := h
      simp [decode?, hkind.tag?]
    · obtain ⟨members, rfl, hkind, -⟩ := h
      simp [decode?, hkind.tag?]
    · obtain ⟨members, rfl, hkind, hmask, -⟩ := h
      simp [decode?, hkind.tag?, hmask.get]

instance : LawfulCodec AppendSource where
  formOf
    | .value source => .tagged "kind" "value" [required "source" (formOf source)]
    | .linesOf source => .tagged "kind" "lines_of" [required "source" (formOf source)]
    | .initialLine => .tagged "kind" "initial_line" []
  json_formOf source := by cases source <;> simp [encode]
  distinct_formOf source := by cases source <;> simp
  formOf_ne_null source := by cases source <;> nofun
  decode?_of_varies {source _} h := by
    cases source with
    | value _ | linesOf _ =>
      obtain ⟨members, rfl, hkind, hsource, -⟩ := h
      simp [decode?, hkind.tag?, hsource.get]
    | initialLine =>
      obtain ⟨members, rfl, hkind, -⟩ := h
      simp [decode?, hkind.tag?]

instance : LawfulCodec InsertData where
  formOf
    | .value source => .tagged "kind" "value" [required "source" (formOf source)]
    | .initialLine => .tagged "kind" "initial_line" []
  json_formOf item := by cases item <;> simp [encode]
  distinct_formOf item := by cases item <;> simp
  formOf_ne_null item := by cases item <;> nofun
  decode?_of_varies {item _} h := by
    cases item with
    | value _ =>
      obtain ⟨members, rfl, hkind, hsource, -⟩ := h
      simp [decode?, hkind.tag?, hsource.get]
    | initialLine =>
      obtain ⟨members, rfl, hkind, -⟩ := h
      simp [decode?, hkind.tag?]

instance : LawfulCodec DatabaseTable where
  formOf
    | .named name => .tagged "kind" "named" [required "name" (formOf name)]
    | .dynamic chain => .tagged "kind" "dynamic" [required "chain" (formOf chain)]
  json_formOf table := by cases table <;> simp [encode]
  distinct_formOf table := by cases table <;> simp
  formOf_ne_null table := by cases table <;> nofun
  decode?_of_varies {table _} h := by
    cases table with
    | named _ =>
      obtain ⟨members, rfl, hkind, hname, -⟩ := h
      simp [decode?, hkind.tag?, hname.get]
    | dynamic _ =>
      obtain ⟨members, rfl, hkind, hchain, -⟩ := h
      simp [decode?, hkind.tag?, hchain.get]

instance : LawfulCodec DatabaseSource where
  formOf
    | .row source => .tagged "kind" "row" [required "source" (formOf source)]
    | .table source => .tagged "kind" "table" [required "source" (formOf source)]
  json_formOf rows := by cases rows <;> simp [encode]
  distinct_formOf rows := by cases rows <;> simp
  formOf_ne_null rows := by cases rows <;> nofun
  decode?_of_varies {rows _} h := by
    cases rows with
    | row _ | table _ =>
      obtain ⟨members, rfl, hkind, hsource, -⟩ := h
      simp [decode?, hkind.tag?, hsource.get]

instance : LawfulCodec Conversion where
  formOf
    | .toStamp date time zone stamp =>
      .tagged "kind" "to_stamp" [required "date" (formOf date), optional "time" (time.map formOf),
        optional "zone" (zone.map formOf), required "stamp" (formOf stamp)]
    | .fromStamp stamp zone date time =>
      .tagged "kind" "from_stamp" [required "stamp" (formOf stamp),
        optional "zone" (zone.map formOf), optional "date" (date.map formOf),
        optional "time" (time.map formOf)]
  json_formOf conversion := by cases conversion <;> simp [encode]
  distinct_formOf conversion := by cases conversion <;> simp
  formOf_ne_null conversion := by cases conversion <;> nofun
  decode?_of_varies {conversion _} h := by
    cases conversion with
    | toStamp _ _ _ _ =>
      obtain ⟨members, rfl, hkind, hdate, htime, hzone, hstamp, -⟩ := h
      simp [decode?, hkind.tag?, hdate.get, htime.get?, hzone.get?, hstamp.get]
    | fromStamp _ _ _ _ =>
      obtain ⟨members, rfl, hkind, hstamp, hzone, hdate, htime, -⟩ := h
      simp [decode?, hkind.tag?, hstamp.get, hzone.get?, hdate.get?, htime.get?]

instance : LawfulCodec SortKey where
  formOf k := .record [required "component" (formOf k.component),
    defaulted "descending" (k.descending = false) (formOf k.descending)]
  json_formOf k := by simp [encode]
  distinct_formOf k := by simp
  formOf_ne_null k := nofun
  decode?_of_varies h := by
    obtain ⟨members, rfl, hcomponent, hdescending, -⟩ := h
    simp [decode?, hcomponent.get, hdescending.getD]

/-! ## Statements -/

namespace Statement

/-- The form of a statement. -/
def toForm : Statement → Form
  | .data name type value =>
    .tagged "kind" "data" [required "name" (formOf name), required "type" (formOf type),
      optional "value" (value.map formOf)]
  | .constants name type value =>
    .tagged "kind" "constants" [required "name" (formOf name), required "type" (formOf type),
      required "value" (formOf value)]
  | .fieldSymbol name => .tagged "kind" "field_symbol" [required "name" (formOf name)]
  | .declarative keyword => .tagged "kind" "declarative" [required "keyword" (formOf keyword)]
  | .comment text => .tagged "kind" "comment" [required "text" (formOf text)]
  | .move source target =>
    .tagged "kind" "move" [required "source" (formOf source), required "target" (formOf target)]
  | .arithmetic verb source target =>
    .tagged "kind" "arithmetic" [required "op" (formOf verb), required "source" (formOf source),
      required "target" (formOf target)]
  | .clear target => .tagged "kind" "clear" [required "target" (formOf target)]
  | .free target => .tagged "kind" "free" [required "target" (formOf target)]
  | .moveCorresponding source target =>
    .tagged "kind" "move_corresponding" [required "source" (formOf source),
      required "target" (formOf target)]
  | .ifThen condition => .tagged "kind" "if" [required "condition" (formOf condition)]
  | .elseIf condition => .tagged "kind" "else_if" [required "condition" (formOf condition)]
  | .otherwise => .tagged "kind" "else" []
  | .doTimes times => .tagged "kind" "do" [optional "times" (times.map formOf)]
  | .whileTrue condition => .tagged "kind" "while" [required "condition" (formOf condition)]
  | .loopAt table output filter =>
    .tagged "kind" "loop" [required "table" (formOf table), required "output" (formOf output),
      optional "where" (filter.map formOf)]
  | .endBlock block => .tagged "kind" block.endTag []
  | .caseOf source => .tagged "kind" "case" [required "source" (formOf source)]
  | .whenOneOf values => .tagged "kind" "when" [required "values" (formOf values)]
  | .whenOthers => .tagged "kind" "when_others" []
  | .endCase => .tagged "kind" "end_case" []
  | .tryBody => .tagged "kind" "try" []
  | .catchClasses classes into =>
    .tagged "kind" "catch" [required "classes" (formOf classes), optional "into" (into.map formOf)]
  | .endTry => .tagged "kind" "end_try" []
  | .continueLoop => .tagged "kind" "continue" []
  | .exitLoop => .tagged "kind" "exit" []
  | .returnHere => .tagged "kind" "return" []
  | .assert condition => .tagged "kind" "assert" [required "condition" (formOf condition)]
  | .classImplementation name =>
    .tagged "kind" "class_implementation" [required "name" (formOf name)]
  | .interfaceHeader name => .tagged "kind" "interface" [required "name" (formOf name)]
  | .method name => .tagged "kind" "method" [required "name" (formOf name)]
  | .endMethod => .tagged "kind" "end_method" []
  | .form name => .tagged "kind" "form" [required "name" (formOf name)]
  | .perform name => .tagged "kind" "perform" [required "name" (formOf name)]
  | .call invocation => .tagged "kind" "call" [required "call" (formOf invocation)]
  | .callFunction name destination exporting importing changing tables exceptions =>
    .tagged "kind" "call_function" [required "name" (formOf name),
      optional "destination" (destination.map formOf),
      defaulted "exporting" (exporting = []) (formOf exporting),
      defaulted "importing" (importing = []) (formOf importing),
      defaulted "changing" (changing = []) (formOf changing),
      defaulted "tables" (tables = []) (formOf tables),
      defaulted "exceptions" (exceptions = []) (formOf exceptions)]
  | .callTransformation name options source result =>
    .tagged "kind" "call_transformation" [required "name" (formOf name),
      defaulted "options" (options = []) (formOf options), required "source" (formOf source),
      required "result" (formOf result)]
  | .raiseException raise => .tagged "kind" "raise_exception" [required "raise" (formOf raise)]
  | .message spec arguments into =>
    .tagged "kind" "message" [required "message" (formOf spec),
      defaulted "with" (arguments = []) (formOf arguments), optional "into" (into.map formOf)]
  | .createObject target spec parameters =>
    .tagged "kind" "create_object" [required "target" (formOf target),
      optional "class" (spec.map formOf),
      defaulted "parameters" (parameters = []) (formOf parameters)]
  | .createData target spec =>
    .tagged "kind" "create_data" [required "target" (formOf target), required "spec" (formOf spec)]
  | .assign source target casting =>
    .tagged "kind" "assign" [required "source" (formOf source), required "target" (formOf target),
      defaulted "casting" (casting = false) (formOf casting)]
  | .getReference source target =>
    .tagged "kind" "get_reference" [required "source" (formOf source),
      required "target" (formOf target)]
  | .concatenate sources target separatedBy lines =>
    .tagged "kind" "concatenate" [required "sources" (formOf sources),
      required "target" (formOf target), optional "separated_by" (separatedBy.map formOf),
      defaulted "lines" (lines = false) (formOf lines)]
  | .split source separator into =>
    .tagged "kind" "split" [required "source" (formOf source), required "at" (formOf separator),
      required "into" (formOf into)]
  | .replace target all pattern replacement =>
    .tagged "kind" "replace" [required "target" (formOf target),
      defaulted "all" (all = false) (formOf all), required "of" (formOf pattern),
      required "with" (formOf replacement)]
  | .condense target noGaps =>
    .tagged "kind" "condense" [required "target" (formOf target),
      defaulted "no_gaps" (noGaps = false) (formOf noGaps)]
  | .find pattern within first count offset length submatches =>
    .tagged "kind" "find" [required "pattern" (formOf pattern), required "within" (formOf within),
      defaulted "first" (first = false) (formOf first), optional "count" (count.map formOf),
      optional "offset" (offset.map formOf), optional "length" (length.map formOf),
      defaulted "submatches" (submatches = []) (formOf submatches)]
  | .shift target direction mode circular byteMode =>
    .tagged "kind" "shift" [required "target" (formOf target),
      defaulted "direction" (direction = .left) (formOf direction),
      defaulted "mode" (mode = .single) (formOf mode),
      defaulted "circular" (circular = false) (formOf circular),
      defaulted "byte_mode" (byteMode = false) (formOf byteMode)]
  | .translate target rule =>
    .tagged "kind" "translate" [required "target" (formOf target),
      required "translation" (formOf rule)]
  | .describe field typeTarget length mode =>
    .tagged "kind" "describe" [required "field" (formOf field),
      optional "type" (typeTarget.map formOf), optional "length" (length.map formOf),
      optional "mode" (mode.map formOf)]
  | .setBit position target value =>
    .tagged "kind" "set_bit" [required "position" (formOf position),
      required "target" (formOf target), optional "value" (value.map formOf)]
  | .getBit position source target =>
    .tagged "kind" "get_bit" [required "position" (formOf position),
      required "source" (formOf source), required "target" (formOf target)]
  | .write source newLine =>
    .tagged "kind" "write" [required "source" (formOf source),
      defaulted "new_line" (newLine = false) (formOf newLine)]
  | .sort target descending keys =>
    .tagged "kind" "sort" [required "target" (formOf target),
      defaulted "descending" (descending = false) (formOf descending),
      defaulted "by" (keys = []) (formOf keys)]
  | .append source target assigning =>
    .tagged "kind" "append" [required "source" (formOf source), required "target" (formOf target),
      optional "assigning" (assigning.map formOf)]
  | .insertInternal item table index assigning =>
    .tagged "kind" "insert_internal" [required "data" (formOf item),
      required "table" (formOf table), optional "index" (index.map formOf),
      optional "assigning" (assigning.map formOf)]
  | .modifyInternal table index row =>
    .tagged "kind" "modify_internal" [required "table" (formOf table),
      optional "index" (index.map formOf), optional "from" (row.map formOf)]
  | .deleteInternal table filter adjacent index row =>
    .tagged "kind" "delete_internal" [required "table" (formOf table),
      optional "where" (filter.map formOf),
      defaulted "adjacent" (adjacent = false) (formOf adjacent),
      optional "index" (index.map formOf), optional "from" (row.map formOf)]
  | .readTable table index into referenceInto assigning withKey binarySearch =>
    .tagged "kind" "read_table" [required "table" (formOf table),
      optional "index" (index.map formOf), optional "into" (into.map formOf),
      optional "reference_into" (referenceInto.map formOf),
      optional "assigning" (assigning.map formOf), optional "with_key" (withKey.map formOf),
      defaulted "binary_search" (binarySearch = false) (formOf binarySearch)]
  | .select target fields table filter single upTo =>
    .tagged "kind" "select" [required "target" (formOf target), required "fields" (formOf fields),
      required "from" (formOf table), optional "where" (filter.map formOf),
      defaulted "single" (single = false) (formOf single), optional "up_to" (upTo.map formOf)]
  | .insertDatabase table values =>
    .tagged "kind" "insert_database" [required "table" (formOf table),
      required "values" (formOf values)]
  | .changeDatabase change table rows =>
    .tagged "kind" change.tag [required "table" (formOf table), required "from" (formOf rows)]
  | .commit => .tagged "kind" "commit" []
  | .rollback => .tagged "kind" "rollback" []
  | .convert conversion => .tagged "kind" "convert" [required "conversion" (formOf conversion)]
  | .waitForPushChannels condition seconds =>
    .tagged "kind" "wait_for_push_channels" [required "condition" (formOf condition),
      optional "seconds" (seconds.map formOf)]
  | .authorityCheck object => .tagged "kind" "authority_check" [required "object" (formOf object)]
  | .unsupported name => .tagged "kind" "unsupported" [required "name" (formOf name)]

/-- A statement is written as its form. -/
theorem writes_toForm (s : Statement) : s.toForm.Writes s.toJson := by
  cases s <;> simp [toForm, toJson]

/-- Whether a reader reads a statement from every object in which some fields stand. -/
def Reads (fields : List FieldForm) (reader : Json → Option Statement) (s : Statement) : Prop :=
  ∀ members, Form.FieldsVary fields members → reader (.obj members) = some s

namespace Reads

variable {α : Type} [Codec α] [LawfulCodec α] {key : String} {fields : List FieldForm}
  {s : Statement}

/-- Nothing is left to read. -/
theorem done : Reads [] (fun _ => some s) s :=
  fun _ _ => rfl

/-- A field that must be there is read before the others. -/
theorem get {a : α} {others : Json → α → Option Statement}
    (h : Reads fields (fun j => others j a) s) :
    Reads (required key (formOf a) :: fields) (fun j => j.get key >>= others j) s := by
  rintro members ⟨hfield, hfields⟩
  exact (congrArg (· >>= others (.obj members)) hfield.get).trans (h members hfields)

/-- A field that may have no value is read before the others. -/
theorem get? {o : Option α} {others : Json → Option α → Option Statement}
    (h : Reads fields (fun j => others j o) s) :
    Reads (optional key (o.map formOf) :: fields) (fun j => j.get? key >>= others j) s := by
  rintro members ⟨hfield, hfields⟩
  exact (congrArg (· >>= others (.obj members)) hfield.get?).trans (h members hfields)

/-- A field that has a default is read before the others. -/
theorem getD {a default : α} {others : Json → α → Option Statement}
    (h : Reads fields (fun j => others j a) s) :
    Reads (defaulted key (a = default) (formOf a) :: fields)
      (fun j => j.getD key default >>= others j) s := by
  rintro members ⟨hfield, hfields⟩
  exact (congrArg (· >>= others (.obj members)) hfield.getD).trans (h members hfields)

end Reads

/-- The reader that stands under a statement's tag reads the statement's fields. -/
theorem exists_reader (s : Statement) : ∃ tag fields reader,
    s.toForm = .tagged "kind" tag fields ∧ readers.lookup tag = some reader
      ∧ Reads fields reader s := by
  cases s
  -- the tag of these two depends on what they hold
  case endBlock block => cases block <;> exact ⟨_, _, _, rfl, rfl, .done⟩
  case changeDatabase change _ _ => cases change <;> exact ⟨_, _, _, rfl, rfl, .get (.get .done)⟩
  all_goals
    refine ⟨_, _, _, rfl, rfl, ?_⟩
    repeat first
      | exact .done
      | apply Reads.get
      | apply Reads.get?
      | apply Reads.getD

/-- A statement is read from every variation of its form. -/
theorem ofJson?_of_varies {s : Statement} {j : Json} (h : s.toForm.Varies j) :
    ofJson? j = some s := by
  obtain ⟨tag, fields, reader, hform, hreader, hreads⟩ := s.exists_reader
  rw [hform] at h
  obtain ⟨members, rfl, hkind, hfields⟩ := h
  simp [ofJson?, hkind.tag?, hreader, hreads members hfields]

end Statement

instance : LawfulCodec Statement where
  formOf := Statement.toForm
  json_formOf s := s.writes_toForm.1
  distinct_formOf s := s.writes_toForm.2
  formOf_ne_null s := by cases s <;> nofun
  decode?_of_varies := Statement.ofJson?_of_varies

end AbapLowering
