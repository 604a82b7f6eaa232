import AbapLowering.Emission.Condition
import AbapLowering.Statement

/-!
# Calls outside of expressions

Function modules, objects that are created, exceptions, messages, and the services of the kernel. A
service of the kernel is called only after a check that its class is there.
-/

namespace AbapLowering

namespace Invocation

/-! ## Function modules -/

/-- Named operands between braces. -/
def bindings (bindings : List Binding) : Emit String :=
  return braced ", " (← emitBindings bindings)

/-- Named operands between braces, or nothing if there are none. -/
def bindingsIfAny (given : List Binding) : Emit String :=
  if given.isEmpty then return "" else bindings given

/-- Named operands that are written, as a named part if there are any. -/
def targetGroup (key : String) (targets : List TargetBinding) : Emit (List String) := do
  if targets.isEmpty then return []
  return [key ++ ": " ++ braced ", " (← emitTargetBindings targets)]

/-- The parameters of a function module, grouped by how they are passed. -/
def functionGroups (exporting : List Binding) (importing changing tables : List TargetBinding) :
    Emit (List String) := do
  let given ← if exporting.isEmpty then pure [] else do
    pure ["exporting: " ++ (← bindings exporting)]
  let taken ← targetGroup "importing" importing
  let changed ← targetGroup "changing" changing
  let tables ← targetGroup "tables" tables
  return given ++ taken ++ changed ++ tables

/-- The address of a function module. -/
def functionAddress : DynamicName → Emit String
  | .literal value => return "abap.FunctionModules['" ++ Text.toUpper (Text.trim value) ++ "']"
  | .field chain =>
    return "abap.FunctionModules[" ++ (← chain.emit .read) ++ ".get().trimEnd()]"

/-- CALL FUNCTION; with a destination the name is left to the runtime. -/
def callFunction (name : DynamicName) (destination : Option DynamicName) (exporting : List Binding)
    (importing changing tables : List TargetBinding) : Emit String := do
  let groups ← functionGroups exporting importing changing tables
  match destination with
  | some destination =>
    let name ← name.emitText
    let destination ← destination.emitText
    return "await " ++ runtimeCall "callFunction"
      (braced "," (["name:" ++ name, "destination:" ++ destination] ++ groups))
  | none =>
    let address ← functionAddress name
    return "await " ++ address ++ "(" ++ (if groups.isEmpty then "" else braced ", " groups) ++ ");"

/-! ## Objects, exceptions and messages -/

/-- RAISE EXCEPTION. -/
def raise : Raise → Emit String
  | .type className exporting => do
    let address ← Emit.classAddress className.text className.start
    let parameters ← bindingsIfAny exporting
    return "throw await (new " ++ address ++ "()).constructor_(" ++ parameters ++ ");"
  | .object source => return "throw " ++ (← source.emit) ++ ".get();"

/-- The class that a chain refers to by the type of its first name. -/
def classOfTarget (target : FieldChain) : Emit String := do
  match target.firstToken with
  | none => Emit.fail (.unresolved .classLike "CREATE OBJECT target")
  | some token =>
    match ← Emit.ask fun v => v.variableNamed token with
    | some ⟨_, .objectReference (some name), _, _, _⟩ => Emit.classAddress name token.start
    | _ => Emit.fail (.unresolved .classLike token.text)

/-- The class of an object that is created. -/
def createdClass (target : FieldChain) : Option ClassSpec → Emit String
  | some (.static name) => Emit.classAddress name.text name.start
  | some (.dynamic name) => do
    let address ← name.emitClass
    Emit.requireTarget .classToCreate address
    return address
  | none => classOfTarget target

/-- CREATE OBJECT. -/
def createObject (target : FieldChain) (spec : Option ClassSpec) (parameters : List Binding) :
    Emit String := do
  let address ← createdClass target spec
  let parameters ← bindingsIfAny parameters
  let target ← target.emitTarget
  return target ++ ".set(await (new " ++ address ++ "()).constructor_(" ++ parameters ++ "));"

/-- Which message is issued. -/
def messageParts : MessageSpec → Emit (List String)
  | .short messageType number id =>
    return ["id: \"" ++ Text.toUpper id ++ "\"", "number: \"" ++ number ++ "\"",
      "type: \"" ++ Text.toUpper messageType ++ "\""]
  | .parts id messageType number => do
    let id ← Emit.named "id" id.emit
    let messageType ← Emit.named "type" messageType.emit
    let number ← Emit.named "number" number.emit
    return [id, messageType, number]

/-- MESSAGE. -/
def message (spec : MessageSpec) (arguments : List Source) (into : Option FieldChain) :
    Emit String := do
  let into ← Emit.namedIfGiven "into" into FieldChain.emitTarget
  let parts ← messageParts spec
  let arguments ← Emit.namedListIfAny "with" "," arguments Source.emit
  return runtimeCall "message" (braced ", " (into ++ parts ++ arguments))

/-! ## Services of the kernel -/

/-- Stops if a class of the kernel is missing. -/
def kernelCheck (className statement : String) : String :=
  "if (" ++ ClassKey.lookup className ++ " === undefined) throw new Error(\"" ++ statement
    ++ ", kernel class missing\");"

/-- A call of a kernel class, after the check that it is there. -/
def kernelCall (className statement method : String) (parts : List String) : String :=
  kernelCheck className statement ++ "\nawait " ++ ClassKey.lookup className ++ "." ++ method ++ "("
    ++ braced "," parts ++ ");"

/-- Named operands between braces, without blanks. -/
def tightBindings (bindings : List Binding) : Emit String := do
  let parts ← bindings.mapM fun b => do return b.name.lower ++ ":" ++ (← b.value.emit)
  return braced "," parts

/-- Source or result of a transformation. -/
def transformationOperand : TransformationOperand → Emit String
  | .xml value => value.emit
  | .bindings bindings => tightBindings bindings
  | .dynamic value => return "(" ++ (← value.emit) ++ ")"

/-- Whether an operand of a transformation is XML. -/
def isXml : TransformationOperand → Bool
  | .xml _ => true
  | _ => false

/-- An operand of a transformation under its key, if asked for. -/
def transformationPart (wanted : Bool) (key : String) (operand : TransformationOperand) :
    Emit (List String) := do
  if wanted then return [key ++ ": " ++ (← transformationOperand operand)] else return []

/-- CALL TRANSFORMATION: XML comes before the options, anything else after them. -/
def callTransformation (name : String) (options : List Binding)
    (source result : TransformationOperand) : Emit String := do
  let sourceXml ← transformationPart (isXml source) "sourceXML" source
  let resultXml ← transformationPart (isXml result) "resultXML" result
  let options ← if options.isEmpty then pure [] else do
    pure ["options: " ++ (← tightBindings options)]
  let source ← transformationPart (!isXml source) "source" source
  let result ← transformationPart (!isXml result) "result" result
  return kernelCall "KERNEL_CALL_TRANSFORMATION" "CallTransformation" "call"
    (["name: \"" ++ Text.toLower name ++ "\""] ++ sourceXml ++ resultXml ++ options ++ source
      ++ result)

/-- What CONVERT converts, and what it finds. -/
def conversionParts : Conversion → Emit (List String × List String)
  | .toStamp date time zone stamp => do
    let date ← Emit.named "date" date.emit
    let time ← Emit.namedIfGiven "time" time Source.emit
    let zone ← Emit.namedIfGiven "zone" zone Source.emit
    let stamp ← Emit.named "stamp" stamp.emitTarget
    return ([date] ++ time ++ zone, [stamp])
  | .fromStamp stamp zone date time => do
    let stamp ← Emit.named "stamp" stamp.emit
    let zone ← Emit.namedIfGiven "zone" zone Source.emit
    let date ← Emit.namedIfGiven "date" date FieldChain.emitTarget
    let time ← Emit.namedIfGiven "time" time FieldChain.emitTarget
    return ([stamp] ++ zone, date ++ time)

/-- CONVERT. -/
def convert (conversion : Conversion) : Emit String := do
  let (inputs, outputs) ← conversionParts conversion
  return runtimeCall "convert" (braced "," inputs ++ ", " ++ braced "," outputs)

/-- WAIT FOR PUSH CHANNELS. -/
def waitForPushChannels (condition : Condition) (seconds : Option Source) : Emit String := do
  let condition ← Emit.named "cond" condition.emit
  let seconds ← Emit.namedIfGiven "seconds" seconds Source.emit
  return kernelCall "KERNEL_PUSH_CHANNELS" "Wait" "wait" ([condition] ++ seconds)

/-- AUTHORITY-CHECK; which authorization is checked is left to the kernel. -/
def authorityCheck : String :=
  kernelCall "KERNEL_AUTHORITY_CHECK" "AuthorityCheck" "call" []

end Invocation

end AbapLowering
