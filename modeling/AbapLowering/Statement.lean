import AbapLowering.DataType
import AbapLowering.Expression

/-!
# Statements

Every statement that semantic analysis can deliver, with its operands, and the name under which a
statement appears in messages.
-/

namespace AbapLowering

/-- The statements ADD, SUBTRACT, MULTIPLY and DIVIDE. -/
inductive ArithmeticVerb where
  | add
  | subtract
  | multiply
  | divide
  deriving DecidableEq

/-- Blocks that end with a closing statement of their own. -/
inductive Block where
  | ifBlock
  | doBlock
  | whileBlock
  | loopBlock
  | formBlock
  | classBlock
  | interfaceBlock
  deriving DecidableEq

/-- What LOOP does with the current row. -/
inductive LoopOutput where
  | into (target : FieldChain)
  | assigning (target : FieldChain)
  | referenceInto (target : FieldChain)
  /-- TRANSPORTING NO FIELDS. -/
  | nothing

/-- Source or result of a transformation. -/
inductive TransformationOperand where
  | xml (value : Source)
  | bindings (bindings : List Binding)
  | dynamic (value : Source)

/-- What RAISE EXCEPTION raises. -/
inductive Raise where
  | type (className : Token) (exporting : List Binding)
  | object (source : Source)

/-- Which message MESSAGE issues. -/
inductive MessageSpec where
  /-- Written in one word, such as `e058(00)`. -/
  | short (messageType number id : String)
  | parts (id messageType number : Source)

/-- The class CREATE OBJECT names. -/
inductive ClassSpec where
  | static (name : Token)
  | dynamic (name : DynamicName)

/-- The type CREATE DATA names. -/
inductive CreateDataSpec where
  | type (type : DataType)
  | dynamic (name : DynamicName) (table : Bool)
  | likeLineOf (source : Source)
  | like (source : Source)

/-- Where SPLIT puts the pieces. -/
inductive SplitInto where
  | table (target : FieldChain)
  | targets (targets : List FieldChain)

/-- What FIND looks for. -/
inductive FindPattern where
  | substring (source : Source)
  | regex (source : Source)

/-- Directions of SHIFT. -/
inductive ShiftDirection where
  | left
  | right
  deriving DecidableEq

/-- How far SHIFT shifts. -/
inductive ShiftMode where
  | single
  | places (source : Source)
  | upTo (source : Source)
  | deletingLeading (source : Source)
  | deletingTrailing (source : Source)

/-- What TRANSLATE does. -/
inductive TranslateRule where
  | upper
  | lower
  | using (mask : Source)

/-- Units of the length that DESCRIBE FIELD finds. -/
inductive DescribeMode where
  | character
  | byte
  deriving DecidableEq

/-- A component to sort by. -/
structure SortKey where
  component : String
  descending : Bool
  deriving DecidableEq

/-- What APPEND appends. -/
inductive AppendSource where
  | value (source : Source)
  | linesOf (source : Source)
  | initialLine

/-- What INSERT inserts into an internal table. -/
inductive InsertData where
  | value (source : Source)
  | initialLine

/-- A database table, by its name or by a name read at run time. -/
inductive DatabaseTable where
  | named (name : String)
  | dynamic (chain : FieldChain)

/-- The rows written to a database table. -/
inductive DatabaseSource where
  | row (source : Source)
  | table (source : Source)

/-- The database statements of one shape. -/
inductive DatabaseChange where
  | modify
  | update
  | delete
  deriving DecidableEq

/-- The directions of CONVERT. -/
inductive Conversion where
  | toStamp (date : Source) (time zone : Option Source) (stamp : FieldChain)
  | fromStamp (stamp : Source) (zone : Option Source) (date time : Option FieldChain)

/-- A statement with its operands. -/
inductive Statement where
  -- declarations
  | data (name : Token) (type : DataType) (value : Option Constant)
  | constants (name : Token) (type : DataType) (value : Constant)
  | fieldSymbol (name : Token)
  /-- TYPES, INCLUDE and other statements without effect at run time. -/
  | declarative (keyword : String)
  | comment (text : String)
  -- assignment and arithmetic
  | move (source : Source) (target : FieldChain)
  | arithmetic (verb : ArithmeticVerb) (source : Source) (target : FieldChain)
  | clear (target : FieldChain)
  | free (target : FieldChain)
  | moveCorresponding (source : Source) (target : FieldChain)
  -- control flow
  | ifThen (condition : Condition)
  | elseIf (condition : Condition)
  | otherwise
  | doTimes (times : Option Source)
  | whileTrue (condition : Condition)
  | loopAt (table : Source) (output : LoopOutput) (filter : Option Condition)
  | endBlock (block : Block)
  | caseOf (source : Source)
  | whenOneOf (values : List Source)
  | whenOthers
  | endCase
  | tryBody
  | catchClasses (classes : List Token) (into : Option FieldChain)
  | endTry
  | continueLoop
  | exitLoop
  | returnHere
  | assert (condition : Condition)
  -- modularization
  | classImplementation (name : Token)
  | interfaceHeader (name : Token)
  | method (name : Token)
  | endMethod
  | form (name : Token)
  | perform (name : Token)
  | call (call : MethodCall)
  | callFunction (name : DynamicName) (destination : Option DynamicName)
      (exporting : List Binding) (importing changing tables : List TargetBinding)
      (exceptions : List String)
  | callTransformation (name : String) (options : List Binding)
      (source result : TransformationOperand)
  | raiseException (raise : Raise)
  | message (message : MessageSpec) (arguments : List Source) (into : Option FieldChain)
  -- objects and references
  | createObject (target : FieldChain) (spec : Option ClassSpec) (parameters : List Binding)
  | createData (target : FieldChain) (spec : CreateDataSpec)
  | assign (source : Source) (target : FieldChain) (casting : Bool)
  | getReference (source : Source) (target : FieldChain)
  -- character processing
  | concatenate (sources : List Source) (target : FieldChain) (separatedBy : Option Source)
      (lines : Bool)
  | split (source separator : Source) (into : SplitInto)
  | replace (target : FieldChain) (all : Bool) (pattern replacement : Source)
  | condense (target : FieldChain) (noGaps : Bool)
  | find (pattern : FindPattern) (within : Source) (first : Bool)
      (count offset length : Option FieldChain) (submatches : List FieldChain)
  | shift (target : FieldChain) (direction : ShiftDirection) (mode : ShiftMode)
      (circular byteMode : Bool)
  | translate (target : FieldChain) (rule : TranslateRule)
  | describe (field : Source) (typeTarget length : Option FieldChain)
      (mode : Option DescribeMode)
  | setBit (position : Source) (target : FieldChain) (value : Option Source)
  | getBit (position source : Source) (target : FieldChain)
  | write (source : Source) (newLine : Bool)
  -- internal tables
  | sort (target : FieldChain) (descending : Bool) (keys : List SortKey)
  | append (source : AppendSource) (target : FieldChain) (assigning : Option FieldChain)
  | insertInternal (data : InsertData) (table : FieldChain) (index : Option Source)
      (assigning : Option FieldChain)
  | modifyInternal (table : FieldChain) (index row : Option Source)
  | deleteInternal (table : FieldChain) (filter : Option Condition) (adjacent : Bool)
      (index row : Option Source)
  | readTable (table : Source) (index : Option Source)
      (into referenceInto assigning : Option FieldChain) (withKey : Option Condition)
      (binarySearch : Bool)
  -- database
  | select (target : FieldChain) (fields : String) (table : DatabaseTable)
      (filter : Option String) (single : Bool) (upTo : Option UInt32)
  | insertDatabase (table : DatabaseTable) (values : Source)
  | changeDatabase (change : DatabaseChange) (table : DatabaseTable) (rows : DatabaseSource)
  | commit
  | rollback
  -- services of the kernel
  | convert (conversion : Conversion)
  | waitForPushChannels (condition : Condition) (seconds : Option Source)
  | authorityCheck (object : String)
  /-- Recognised, but there is nothing it could be lowered to. -/
  | unsupported (name : String)

instance : Inhabited Statement := ⟨.commit⟩

/-- The name of a block's closing statement. -/
def Block.endName : Block → String
  | .ifBlock => "EndIf"
  | .doBlock => "EndDo"
  | .whileBlock => "EndWhile"
  | .loopBlock => "EndLoop"
  | .formBlock => "EndForm"
  | .classBlock => "EndClass"
  | .interfaceBlock => "EndInterface"

/-- The name of a statement in messages. -/
def Statement.name : Statement → String
  | .data .. => "Data"
  | .constants .. => "Constants"
  | .fieldSymbol _ => "FieldSymbol"
  | .declarative keyword => keyword
  | .comment _ => "Comment"
  | .move .. => "Move"
  | .arithmetic .. => "Arithmetic"
  | .clear _ => "Clear"
  | .free _ => "Free"
  | .moveCorresponding .. => "MoveCorresponding"
  | .ifThen _ => "If"
  | .elseIf _ => "ElseIf"
  | .otherwise => "Else"
  | .doTimes _ => "Do"
  | .whileTrue _ => "While"
  | .loopAt .. => "Loop"
  | .endBlock block => block.endName
  | .caseOf _ => "Case"
  | .whenOneOf _ => "When"
  | .whenOthers => "WhenOthers"
  | .endCase => "EndCase"
  | .tryBody => "Try"
  | .catchClasses .. => "Catch"
  | .endTry => "EndTry"
  | .continueLoop => "Continue"
  | .exitLoop => "Exit"
  | .returnHere => "Return"
  | .assert _ => "Assert"
  | .classImplementation _ => "ClassImplementation"
  | .interfaceHeader _ => "Interface"
  | .method _ => "Method"
  | .endMethod => "EndMethod"
  | .form _ => "Form"
  | .perform _ => "Perform"
  | .call _ => "Call"
  | .callFunction .. => "CallFunction"
  | .callTransformation .. => "CallTransformation"
  | .raiseException _ => "RaiseException"
  | .message .. => "Message"
  | .createObject .. => "CreateObject"
  | .createData .. => "CreateData"
  | .assign .. => "Assign"
  | .getReference .. => "GetReference"
  | .concatenate .. => "Concatenate"
  | .split .. => "Split"
  | .replace .. => "Replace"
  | .condense .. => "Condense"
  | .find .. => "Find"
  | .shift .. => "Shift"
  | .translate .. => "Translate"
  | .describe .. => "Describe"
  | .setBit .. => "SetBit"
  | .getBit .. => "GetBit"
  | .write .. => "Write"
  | .sort .. => "Sort"
  | .append .. => "Append"
  | .insertInternal .. => "InsertInternal"
  | .modifyInternal .. => "ModifyInternal"
  | .deleteInternal .. => "DeleteInternal"
  | .readTable .. => "ReadTable"
  | .select .. => "Select"
  | .insertDatabase .. => "InsertDatabase"
  | .changeDatabase .modify _ _ => "ModifyDatabase"
  | .changeDatabase .update _ _ => "UpdateDatabase"
  | .changeDatabase .delete _ _ => "DeleteDatabase"
  | .commit => "Commit"
  | .rollback => "Rollback"
  | .convert _ => "Convert"
  | .waitForPushChannels .. => "WaitForPushChannels"
  | .authorityCheck _ => "AuthorityCheck"
  | .unsupported name => name

end AbapLowering
