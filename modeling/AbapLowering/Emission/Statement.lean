import AbapLowering.Emission.CharacterProcessing
import AbapLowering.Emission.DataObject
import AbapLowering.Emission.Flow
import AbapLowering.Emission.Invocation
import AbapLowering.Emission.Row
import AbapLowering.Tree

/-!
# Statements

The code of each statement, without a line feed at its end. Statements without effect at run time
have no code. The statements of CASE and TRY have none of their own either, since these structures
are emitted as a whole; anywhere else they are refused.
-/

namespace AbapLowering

namespace StatementNode

/-- There is nothing a statement could be lowered to where it stands. -/
def refuse (node : StatementNode) : LoweringError :=
  .unsupported node.statement.name node.text node.span

/-- The code of a statement. -/
def emit (node : StatementNode) : Emit String :=
  match node.statement with
  | .data name type value => DataObject.declare name type value
  | .constants name type value => DataObject.declare name type (some value)
  | .fieldSymbol name => return DataObject.declareFieldSymbol name
  | .declarative _ | .comment _ => return ""
  | .move source target => DataObject.move source target
  | .arithmetic verb source target => DataObject.arithmetic verb source target
  | .clear target | .free target => DataObject.clear target
  | .moveCorresponding source target => DataObject.moveCorresponding source target
  | .ifThen condition => Flow.ifThen condition
  | .elseIf condition => Flow.elseIf condition
  | .otherwise => return "\x7d else \x7b"
  | .doTimes times => Flow.doTimes times
  | .whileTrue condition => Flow.whileTrue condition
  | .loopAt table output filter => Flow.loopAt table output filter
  | .endBlock _ => return "\x7d"
  | .caseOf _ | .whenOneOf _ | .whenOthers | .endCase => Emit.fail node.refuse
  | .tryBody | .catchClasses _ _ | .endTry => Emit.fail node.refuse
  | .continueLoop => return "continue;"
  | .exitLoop => return "break;"
  | .returnHere => Flow.returnAt node.span.start
  | .assert condition => Flow.assert condition
  | .classImplementation name => Flow.classHeader name
  | .interfaceHeader name => return "class " ++ name.lower ++ " \x7b"
  | .method name => Flow.methodAt node.span.start name
  | .endMethod => Flow.endMethodAt node.span.start
  | .form name => return "async function " ++ name.lower ++ "() \x7b"
  | .perform name => return "await " ++ name.lower ++ "();"
  | .call call => call.emitStatement
  | .callFunction name destination exporting importing changing tables _ =>
    Invocation.callFunction name destination exporting importing changing tables
  | .callTransformation name options source result =>
    Invocation.callTransformation name options source result
  | .raiseException raise => Invocation.raise raise
  | .message message arguments into => Invocation.message message arguments into
  | .createObject target spec parameters => Invocation.createObject target spec parameters
  | .createData target spec => DataObject.create target spec
  | .assign source target casting => DataObject.assign source target casting
  | .getReference source target => DataObject.getReference source target
  | .concatenate sources target separatedBy lines =>
    CharacterProcessing.concatenate sources target separatedBy lines
  | .split source separator into => CharacterProcessing.split source separator into
  | .replace target all pattern replacement =>
    CharacterProcessing.replace target all pattern replacement
  | .condense target noGaps => CharacterProcessing.condense target noGaps
  | .find pattern within first count offset length submatches =>
    CharacterProcessing.find pattern within first count offset length submatches
  | .shift target direction mode circular byteMode =>
    CharacterProcessing.shift target direction mode circular byteMode
  | .translate target rule => CharacterProcessing.translate target rule
  | .describe field typeTarget length mode =>
    CharacterProcessing.describe field typeTarget length mode
  | .setBit position target value => CharacterProcessing.setBit position target value
  | .getBit position source target => CharacterProcessing.getBit position source target
  | .write source newLine => CharacterProcessing.write source newLine
  | .sort target descending keys => Row.sort target descending keys
  | .append source target assigning => Row.append source target assigning
  | .insertInternal data table index assigning => Row.insert data table index assigning
  | .modifyInternal table index row => Row.modify table index row
  | .deleteInternal table filter adjacent index row => Row.delete table filter adjacent index row
  | .readTable table index into referenceInto assigning withKey binarySearch =>
    Row.read table index into referenceInto assigning withKey binarySearch
  | .select target fields table filter single upTo =>
    Row.select target fields table filter single upTo
  | .insertDatabase table values => Row.insertDatabase table values
  | .changeDatabase change table rows => Row.changeDatabase change table rows
  | .commit => return runtimeCall "commit" ""
  | .rollback => return runtimeCall "rollback" ""
  | .convert conversion => Invocation.convert conversion
  | .waitForPushChannels condition seconds => Invocation.waitForPushChannels condition seconds
  | .authorityCheck _ => return Invocation.authorityCheck
  | .unsupported _ => Emit.fail node.refuse

/-- The code of a statement as a line of its own, after the lines that have to run before it. -/
def emitLine (node : StatementNode) : Emit Code := do
  Emit.countStatement
  let code ← node.emit
  let hoisted ← Emit.takeHoisted
  return .tagged node.span.start hoisted ++ .tagged node.span.start code ++ .plain "\n"

end StatementNode

end AbapLowering
