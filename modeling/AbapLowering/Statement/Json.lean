import AbapLowering.Expression.Json
import AbapLowering.Statement

/-!
# JSON form of statements

A statement is an object whose field `kind` names it. The readers of all statements stand in one
table, keyed by that name.
-/

namespace AbapLowering

/-! ## Parts of statements -/

/-- The tag of an arithmetic statement. -/
def ArithmeticVerb.tag : ArithmeticVerb → String
  | .add => "add"
  | .subtract => "subtract"
  | .multiply => "multiply"
  | .divide => "divide"

instance : Codec ArithmeticVerb := .ofNames [.add, .subtract, .multiply, .divide] ArithmeticVerb.tag

instance : Codec LoopOutput where
  encode
    | .into target => .tagged "kind" "into" [("target", encode target)]
    | .assigning target => .tagged "kind" "assigning" [("target", encode target)]
    | .referenceInto target => .tagged "kind" "reference_into" [("target", encode target)]
    | .nothing => .tagged "kind" "none" []
  decode? j := do
    match ← j.tag? "kind" with
    | "into" => some (.into (← j.get "target"))
    | "assigning" => some (.assigning (← j.get "target"))
    | "reference_into" => some (.referenceInto (← j.get "target"))
    | "none" => some .nothing
    | _ => none

instance : Codec TransformationOperand where
  encode
    | .xml value => .tagged "kind" "xml" [("value", encode value)]
    | .bindings bindings => .tagged "kind" "bindings" [("bindings", encode bindings)]
    | .dynamic value => .tagged "kind" "dynamic" [("value", encode value)]
  decode? j := do
    match ← j.tag? "kind" with
    | "xml" => some (.xml (← j.get "value"))
    | "bindings" => some (.bindings (← j.get "bindings"))
    | "dynamic" => some (.dynamic (← j.get "value"))
    | _ => none

instance : Codec Raise where
  encode
    | .type className exporting =>
      .tagged "kind" "type" [("class", encode className), ("exporting", encode exporting)]
    | .object source => .tagged "kind" "instance" [("source", encode source)]
  decode? j := do
    match ← j.tag? "kind" with
    | "type" => some (.type (← j.get "class") (← j.getD "exporting" []))
    | "instance" => some (.object (← j.get "source"))
    | _ => none

instance : Codec MessageSpec where
  encode
    | .short messageType number id =>
      .tagged "kind" "short"
        [("message_type", encode messageType), ("number", encode number), ("id", encode id)]
    | .parts id messageType number =>
      .tagged "kind" "id"
        [("id", encode id), ("message_type", encode messageType), ("number", encode number)]
  decode? j := do
    match ← j.tag? "kind" with
    | "short" => some (.short (← j.get "message_type") (← j.get "number") (← j.get "id"))
    | "id" => some (.parts (← j.get "id") (← j.get "message_type") (← j.get "number"))
    | _ => none

instance : Codec ClassSpec where
  encode
    | .static name => .tagged "kind" "static" [("name", encode name)]
    | .dynamic name => .tagged "kind" "dynamic" [("name", encode name)]
  decode? j := do
    match ← j.tag? "kind" with
    | "static" => some (.static (← j.get "name"))
    | "dynamic" => some (.dynamic (← j.get "name"))
    | _ => none

instance : Codec CreateDataSpec where
  encode
    | .type type => .tagged "kind" "type" [("type", encode type)]
    | .dynamic name table =>
      .tagged "kind" "dynamic" [("name", encode name), ("table", encode table)]
    | .likeLineOf source => .tagged "kind" "like_line_of" [("source", encode source)]
    | .like source => .tagged "kind" "like" [("source", encode source)]
  decode? j := do
    match ← j.tag? "kind" with
    | "type" => some (.type (← j.get "type"))
    | "dynamic" => some (.dynamic (← j.get "name") (← j.getD "table" false))
    | "like_line_of" => some (.likeLineOf (← j.get "source"))
    | "like" => some (.like (← j.get "source"))
    | _ => none

instance : Codec SplitInto where
  encode
    | .table target => .tagged "kind" "table" [("target", encode target)]
    | .targets targets => .tagged "kind" "targets" [("targets", encode targets)]
  decode? j := do
    match ← j.tag? "kind" with
    | "table" => some (.table (← j.get "target"))
    | "targets" => some (.targets (← j.get "targets"))
    | _ => none

instance : Codec FindPattern where
  encode
    | .substring source => .tagged "kind" "substring" [("source", encode source)]
    | .regex source => .tagged "kind" "regex" [("source", encode source)]
  decode? j := do
    match ← j.tag? "kind" with
    | "substring" => some (.substring (← j.get "source"))
    | "regex" => some (.regex (← j.get "source"))
    | _ => none

/-- The tag of a direction. -/
def ShiftDirection.tag : ShiftDirection → String
  | .left => "left"
  | .right => "right"

instance : Codec ShiftDirection := .ofNames [.left, .right] ShiftDirection.tag

instance : Codec ShiftMode where
  encode
    | .single => .tagged "kind" "single" []
    | .places source => .tagged "kind" "places" [("source", encode source)]
    | .upTo source => .tagged "kind" "to" [("source", encode source)]
    | .deletingLeading source => .tagged "kind" "deleting_leading" [("source", encode source)]
    | .deletingTrailing source => .tagged "kind" "deleting_trailing" [("source", encode source)]
  decode? j := do
    match ← j.tag? "kind" with
    | "single" => some .single
    | "places" => some (.places (← j.get "source"))
    | "to" => some (.upTo (← j.get "source"))
    | "deleting_leading" => some (.deletingLeading (← j.get "source"))
    | "deleting_trailing" => some (.deletingTrailing (← j.get "source"))
    | _ => none

instance : Codec TranslateRule where
  encode
    | .upper => .tagged "kind" "upper" []
    | .lower => .tagged "kind" "lower" []
    | .using mask => .tagged "kind" "using" [("mask", encode mask)]
  decode? j := do
    match ← j.tag? "kind" with
    | "upper" => some .upper
    | "lower" => some .lower
    | "using" => some (.using (← j.get "mask"))
    | _ => none

/-- The tag of a unit of length. -/
def DescribeMode.tag : DescribeMode → String
  | .character => "character"
  | .byte => "byte"

instance : Codec DescribeMode := .ofNames [.character, .byte] DescribeMode.tag

instance : Codec SortKey where
  encode k := .obj [("component", encode k.component), ("descending", encode k.descending)]
  decode? j := do
    some { component := ← j.get "component", descending := ← j.getD "descending" false }

instance : Codec AppendSource where
  encode
    | .value source => .tagged "kind" "value" [("source", encode source)]
    | .linesOf source => .tagged "kind" "lines_of" [("source", encode source)]
    | .initialLine => .tagged "kind" "initial_line" []
  decode? j := do
    match ← j.tag? "kind" with
    | "value" => some (.value (← j.get "source"))
    | "lines_of" => some (.linesOf (← j.get "source"))
    | "initial_line" => some .initialLine
    | _ => none

instance : Codec InsertData where
  encode
    | .value source => .tagged "kind" "value" [("source", encode source)]
    | .initialLine => .tagged "kind" "initial_line" []
  decode? j := do
    match ← j.tag? "kind" with
    | "value" => some (.value (← j.get "source"))
    | "initial_line" => some .initialLine
    | _ => none

instance : Codec DatabaseTable where
  encode
    | .named name => .tagged "kind" "named" [("name", encode name)]
    | .dynamic chain => .tagged "kind" "dynamic" [("chain", encode chain)]
  decode? j := do
    match ← j.tag? "kind" with
    | "named" => some (.named (← j.get "name"))
    | "dynamic" => some (.dynamic (← j.get "chain"))
    | _ => none

instance : Codec DatabaseSource where
  encode
    | .row source => .tagged "kind" "row" [("source", encode source)]
    | .table source => .tagged "kind" "table" [("source", encode source)]
  decode? j := do
    match ← j.tag? "kind" with
    | "row" => some (.row (← j.get "source"))
    | "table" => some (.table (← j.get "source"))
    | _ => none

instance : Codec Conversion where
  encode
    | .toStamp date time zone stamp =>
      .tagged "kind" "to_stamp" [("date", encode date), ("time", encodeOption time),
        ("zone", encodeOption zone), ("stamp", encode stamp)]
    | .fromStamp stamp zone date time =>
      .tagged "kind" "from_stamp" [("stamp", encode stamp), ("zone", encodeOption zone),
        ("date", encodeOption date), ("time", encodeOption time)]
  decode? j := do
    match ← j.tag? "kind" with
    | "to_stamp" =>
      some (.toStamp (← j.get "date") (← j.get? "time") (← j.get? "zone") (← j.get "stamp"))
    | "from_stamp" =>
      some (.fromStamp (← j.get "stamp") (← j.get? "zone") (← j.get? "date") (← j.get? "time"))
    | _ => none

/-! ## Statements -/

/-- The tag of a block's closing statement. -/
def Block.endTag : Block → String
  | .ifBlock => "end_if"
  | .doBlock => "end_do"
  | .whileBlock => "end_while"
  | .loopBlock => "end_loop"
  | .formBlock => "end_form"
  | .classBlock => "end_class"
  | .interfaceBlock => "end_interface"

/-- The tag of a database statement. -/
def DatabaseChange.tag : DatabaseChange → String
  | .modify => "modify_database"
  | .update => "update_database"
  | .delete => "delete_database"

namespace Statement

/-- A statement as JSON. -/
def toJson : Statement → Json
  | .data name type value =>
    .tagged "kind" "data" [("name", encode name), ("type", encode type),
      ("value", encodeOption value)]
  | .constants name type value =>
    .tagged "kind" "constants" [("name", encode name), ("type", encode type),
      ("value", encode value)]
  | .fieldSymbol name => .tagged "kind" "field_symbol" [("name", encode name)]
  | .declarative keyword => .tagged "kind" "declarative" [("keyword", encode keyword)]
  | .comment text => .tagged "kind" "comment" [("text", encode text)]
  | .move source target =>
    .tagged "kind" "move" [("source", encode source), ("target", encode target)]
  | .arithmetic verb source target =>
    .tagged "kind" "arithmetic" [("op", encode verb), ("source", encode source),
      ("target", encode target)]
  | .clear target => .tagged "kind" "clear" [("target", encode target)]
  | .free target => .tagged "kind" "free" [("target", encode target)]
  | .moveCorresponding source target =>
    .tagged "kind" "move_corresponding" [("source", encode source), ("target", encode target)]
  | .ifThen condition => .tagged "kind" "if" [("condition", encode condition)]
  | .elseIf condition => .tagged "kind" "else_if" [("condition", encode condition)]
  | .otherwise => .tagged "kind" "else" []
  | .doTimes times => .tagged "kind" "do" [("times", encodeOption times)]
  | .whileTrue condition => .tagged "kind" "while" [("condition", encode condition)]
  | .loopAt table output filter =>
    .tagged "kind" "loop" [("table", encode table), ("output", encode output),
      ("where", encodeOption filter)]
  | .endBlock block => .tagged "kind" block.endTag []
  | .caseOf source => .tagged "kind" "case" [("source", encode source)]
  | .whenOneOf values => .tagged "kind" "when" [("values", encode values)]
  | .whenOthers => .tagged "kind" "when_others" []
  | .endCase => .tagged "kind" "end_case" []
  | .tryBody => .tagged "kind" "try" []
  | .catchClasses classes into =>
    .tagged "kind" "catch" [("classes", encode classes), ("into", encodeOption into)]
  | .endTry => .tagged "kind" "end_try" []
  | .continueLoop => .tagged "kind" "continue" []
  | .exitLoop => .tagged "kind" "exit" []
  | .returnHere => .tagged "kind" "return" []
  | .assert condition => .tagged "kind" "assert" [("condition", encode condition)]
  | .classImplementation name => .tagged "kind" "class_implementation" [("name", encode name)]
  | .interfaceHeader name => .tagged "kind" "interface" [("name", encode name)]
  | .method name => .tagged "kind" "method" [("name", encode name)]
  | .endMethod => .tagged "kind" "end_method" []
  | .form name => .tagged "kind" "form" [("name", encode name)]
  | .perform name => .tagged "kind" "perform" [("name", encode name)]
  | .call invocation => .tagged "kind" "call" [("call", encode invocation)]
  | .callFunction name destination exporting importing changing tables exceptions =>
    .tagged "kind" "call_function" [("name", encode name),
      ("destination", encodeOption destination), ("exporting", encode exporting),
      ("importing", encode importing), ("changing", encode changing), ("tables", encode tables),
      ("exceptions", encode exceptions)]
  | .callTransformation name options source result =>
    .tagged "kind" "call_transformation" [("name", encode name), ("options", encode options),
      ("source", encode source), ("result", encode result)]
  | .raiseException raise => .tagged "kind" "raise_exception" [("raise", encode raise)]
  | .message spec arguments into =>
    .tagged "kind" "message" [("message", encode spec), ("with", encode arguments),
      ("into", encodeOption into)]
  | .createObject target spec parameters =>
    .tagged "kind" "create_object" [("target", encode target), ("class", encodeOption spec),
      ("parameters", encode parameters)]
  | .createData target spec =>
    .tagged "kind" "create_data" [("target", encode target), ("spec", encode spec)]
  | .assign source target casting =>
    .tagged "kind" "assign" [("source", encode source), ("target", encode target),
      ("casting", encode casting)]
  | .getReference source target =>
    .tagged "kind" "get_reference" [("source", encode source), ("target", encode target)]
  | .concatenate sources target separatedBy lines =>
    .tagged "kind" "concatenate" [("sources", encode sources), ("target", encode target),
      ("separated_by", encodeOption separatedBy), ("lines", encode lines)]
  | .split source separator into =>
    .tagged "kind" "split" [("source", encode source), ("at", encode separator),
      ("into", encode into)]
  | .replace target all pattern replacement =>
    .tagged "kind" "replace" [("target", encode target), ("all", encode all),
      ("of", encode pattern), ("with", encode replacement)]
  | .condense target noGaps =>
    .tagged "kind" "condense" [("target", encode target), ("no_gaps", encode noGaps)]
  | .find pattern within first count offset length submatches =>
    .tagged "kind" "find" [("pattern", encode pattern), ("within", encode within),
      ("first", encode first), ("count", encodeOption count), ("offset", encodeOption offset),
      ("length", encodeOption length), ("submatches", encode submatches)]
  | .shift target direction mode circular byteMode =>
    .tagged "kind" "shift" [("target", encode target), ("direction", encode direction),
      ("mode", encode mode), ("circular", encode circular), ("byte_mode", encode byteMode)]
  | .translate target rule =>
    .tagged "kind" "translate" [("target", encode target), ("translation", encode rule)]
  | .describe field typeTarget length mode =>
    .tagged "kind" "describe" [("field", encode field), ("type", encodeOption typeTarget),
      ("length", encodeOption length), ("mode", encodeOption mode)]
  | .setBit position target value =>
    .tagged "kind" "set_bit" [("position", encode position), ("target", encode target),
      ("value", encodeOption value)]
  | .getBit position source target =>
    .tagged "kind" "get_bit" [("position", encode position), ("source", encode source),
      ("target", encode target)]
  | .write source newLine =>
    .tagged "kind" "write" [("source", encode source), ("new_line", encode newLine)]
  | .sort target descending keys =>
    .tagged "kind" "sort" [("target", encode target), ("descending", encode descending),
      ("by", encode keys)]
  | .append source target assigning =>
    .tagged "kind" "append" [("source", encode source), ("target", encode target),
      ("assigning", encodeOption assigning)]
  | .insertInternal item table index assigning =>
    .tagged "kind" "insert_internal" [("data", encode item), ("table", encode table),
      ("index", encodeOption index), ("assigning", encodeOption assigning)]
  | .modifyInternal table index row =>
    .tagged "kind" "modify_internal" [("table", encode table), ("index", encodeOption index),
      ("from", encodeOption row)]
  | .deleteInternal table filter adjacent index row =>
    .tagged "kind" "delete_internal" [("table", encode table), ("where", encodeOption filter),
      ("adjacent", encode adjacent), ("index", encodeOption index), ("from", encodeOption row)]
  | .readTable table index into referenceInto assigning withKey binarySearch =>
    .tagged "kind" "read_table" [("table", encode table), ("index", encodeOption index),
      ("into", encodeOption into), ("reference_into", encodeOption referenceInto),
      ("assigning", encodeOption assigning), ("with_key", encodeOption withKey),
      ("binary_search", encode binarySearch)]
  | .select target fields table filter single upTo =>
    .tagged "kind" "select" [("target", encode target), ("fields", encode fields),
      ("from", encode table), ("where", encodeOption filter), ("single", encode single),
      ("up_to", encodeOption upTo)]
  | .insertDatabase table values =>
    .tagged "kind" "insert_database" [("table", encode table), ("values", encode values)]
  | .changeDatabase change table rows =>
    .tagged "kind" change.tag [("table", encode table), ("from", encode rows)]
  | .commit => .tagged "kind" "commit" []
  | .rollback => .tagged "kind" "rollback" []
  | .convert conversion => .tagged "kind" "convert" [("conversion", encode conversion)]
  | .waitForPushChannels condition seconds =>
    .tagged "kind" "wait_for_push_channels" [("condition", encode condition),
      ("seconds", encodeOption seconds)]
  | .authorityCheck object => .tagged "kind" "authority_check" [("object", encode object)]
  | .unsupported name => .tagged "kind" "unsupported" [("name", encode name)]

/-- The reader of each statement, by its tag. -/
def readers : List (String × (Json → Option Statement)) := [
  ("data", fun j => do
    some (.data (← j.get "name") (← j.get "type") (← j.get? "value"))),
  ("constants", fun j => do
    some (.constants (← j.get "name") (← j.get "type") (← j.get "value"))),
  ("field_symbol", fun j => do some (.fieldSymbol (← j.get "name"))),
  ("declarative", fun j => do some (.declarative (← j.get "keyword"))),
  ("comment", fun j => do some (.comment (← j.get "text"))),
  ("move", fun j => do some (.move (← j.get "source") (← j.get "target"))),
  ("arithmetic", fun j => do
    some (.arithmetic (← j.get "op") (← j.get "source") (← j.get "target"))),
  ("clear", fun j => do some (.clear (← j.get "target"))),
  ("free", fun j => do some (.free (← j.get "target"))),
  ("move_corresponding", fun j => do
    some (.moveCorresponding (← j.get "source") (← j.get "target"))),
  ("if", fun j => do some (.ifThen (← j.get "condition"))),
  ("else_if", fun j => do some (.elseIf (← j.get "condition"))),
  ("else", fun _ => some .otherwise),
  ("end_if", fun _ => some (.endBlock .ifBlock)),
  ("do", fun j => do some (.doTimes (← j.get? "times"))),
  ("end_do", fun _ => some (.endBlock .doBlock)),
  ("while", fun j => do some (.whileTrue (← j.get "condition"))),
  ("end_while", fun _ => some (.endBlock .whileBlock)),
  ("loop", fun j => do
    some (.loopAt (← j.get "table") (← j.get "output") (← j.get? "where"))),
  ("end_loop", fun _ => some (.endBlock .loopBlock)),
  ("case", fun j => do some (.caseOf (← j.get "source"))),
  ("when", fun j => do some (.whenOneOf (← j.get "values"))),
  ("when_others", fun _ => some .whenOthers),
  ("end_case", fun _ => some .endCase),
  ("try", fun _ => some .tryBody),
  ("catch", fun j => do some (.catchClasses (← j.get "classes") (← j.get? "into"))),
  ("end_try", fun _ => some .endTry),
  ("continue", fun _ => some .continueLoop),
  ("exit", fun _ => some .exitLoop),
  ("return", fun _ => some .returnHere),
  ("assert", fun j => do some (.assert (← j.get "condition"))),
  ("class_implementation", fun j => do some (.classImplementation (← j.get "name"))),
  ("end_class", fun _ => some (.endBlock .classBlock)),
  ("interface", fun j => do some (.interfaceHeader (← j.get "name"))),
  ("end_interface", fun _ => some (.endBlock .interfaceBlock)),
  ("method", fun j => do some (.method (← j.get "name"))),
  ("end_method", fun _ => some .endMethod),
  ("form", fun j => do some (.form (← j.get "name"))),
  ("end_form", fun _ => some (.endBlock .formBlock)),
  ("perform", fun j => do some (.perform (← j.get "name"))),
  ("call", fun j => do some (.call (← j.get "call"))),
  ("call_function", fun j => do
    some (.callFunction (← j.get "name") (← j.get? "destination") (← j.getD "exporting" [])
      (← j.getD "importing" []) (← j.getD "changing" []) (← j.getD "tables" [])
      (← j.getD "exceptions" []))),
  ("call_transformation", fun j => do
    some (.callTransformation (← j.get "name") (← j.getD "options" []) (← j.get "source")
      (← j.get "result"))),
  ("raise_exception", fun j => do some (.raiseException (← j.get "raise"))),
  ("message", fun j => do
    some (.message (← j.get "message") (← j.getD "with" []) (← j.get? "into"))),
  ("create_object", fun j => do
    some (.createObject (← j.get "target") (← j.get? "class") (← j.getD "parameters" []))),
  ("create_data", fun j => do some (.createData (← j.get "target") (← j.get "spec"))),
  ("assign", fun j => do
    some (.assign (← j.get "source") (← j.get "target") (← j.getD "casting" false))),
  ("get_reference", fun j => do some (.getReference (← j.get "source") (← j.get "target"))),
  ("concatenate", fun j => do
    some (.concatenate (← j.get "sources") (← j.get "target") (← j.get? "separated_by")
      (← j.getD "lines" false))),
  ("split", fun j => do
    some (.split (← j.get "source") (← j.get "at") (← j.get "into"))),
  ("replace", fun j => do
    some (.replace (← j.get "target") (← j.getD "all" false) (← j.get "of") (← j.get "with"))),
  ("condense", fun j => do some (.condense (← j.get "target") (← j.getD "no_gaps" false))),
  ("find", fun j => do
    some (.find (← j.get "pattern") (← j.get "within") (← j.getD "first" false)
      (← j.get? "count") (← j.get? "offset") (← j.get? "length") (← j.getD "submatches" []))),
  ("shift", fun j => do
    some (.shift (← j.get "target") (← j.getD "direction" .left) (← j.getD "mode" .single)
      (← j.getD "circular" false) (← j.getD "byte_mode" false))),
  ("translate", fun j => do some (.translate (← j.get "target") (← j.get "translation"))),
  ("describe", fun j => do
    some (.describe (← j.get "field") (← j.get? "type") (← j.get? "length") (← j.get? "mode"))),
  ("set_bit", fun j => do
    some (.setBit (← j.get "position") (← j.get "target") (← j.get? "value"))),
  ("get_bit", fun j => do
    some (.getBit (← j.get "position") (← j.get "source") (← j.get "target"))),
  ("write", fun j => do some (.write (← j.get "source") (← j.getD "new_line" false))),
  ("sort", fun j => do
    some (.sort (← j.get "target") (← j.getD "descending" false) (← j.getD "by" []))),
  ("append", fun j => do
    some (.append (← j.get "source") (← j.get "target") (← j.get? "assigning"))),
  ("insert_internal", fun j => do
    some (.insertInternal (← j.get "data") (← j.get "table") (← j.get? "index")
      (← j.get? "assigning"))),
  ("modify_internal", fun j => do
    some (.modifyInternal (← j.get "table") (← j.get? "index") (← j.get? "from"))),
  ("delete_internal", fun j => do
    some (.deleteInternal (← j.get "table") (← j.get? "where") (← j.getD "adjacent" false)
      (← j.get? "index") (← j.get? "from"))),
  ("read_table", fun j => do
    some (.readTable (← j.get "table") (← j.get? "index") (← j.get? "into")
      (← j.get? "reference_into") (← j.get? "assigning") (← j.get? "with_key")
      (← j.getD "binary_search" false))),
  ("select", fun j => do
    some (.select (← j.get "target") (← j.get "fields") (← j.get "from") (← j.get? "where")
      (← j.getD "single" false) (← j.get? "up_to"))),
  ("insert_database", fun j => do some (.insertDatabase (← j.get "table") (← j.get "values"))),
  ("modify_database", fun j => do
    some (.changeDatabase .modify (← j.get "table") (← j.get "from"))),
  ("update_database", fun j => do
    some (.changeDatabase .update (← j.get "table") (← j.get "from"))),
  ("delete_database", fun j => do
    some (.changeDatabase .delete (← j.get "table") (← j.get "from"))),
  ("commit", fun _ => some .commit),
  ("rollback", fun _ => some .rollback),
  ("convert", fun j => do some (.convert (← j.get "conversion"))),
  ("wait_for_push_channels", fun j => do
    some (.waitForPushChannels (← j.get "condition") (← j.get? "seconds"))),
  ("authority_check", fun j => do some (.authorityCheck (← j.get "object"))),
  ("unsupported", fun j => do some (.unsupported (← j.get "name")))]

/-- The statement that a JSON value stands for. -/
def ofJson? (j : Json) : Option Statement := do
  let reader ← readers.lookup (← j.tag? "kind")
  reader j

end Statement

instance : Codec Statement := ⟨Statement.toJson, Statement.ofJson?⟩

end AbapLowering
