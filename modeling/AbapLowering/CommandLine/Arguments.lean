import AbapLowering.Dict

/-!
# Arguments

A line of arguments is read on two levels: what stands before the name of the command, and what
stands behind it. On both levels switches and settings may come in any order, written long or short;
short ones may share one dash, and the value of a setting is attached to it or is the argument that
follows. After two dashes everything is an input. The first fault ends the reading, and so does the
first request for help.
-/

namespace AbapLowering.CommandLine

/-- An option without a value. -/
inductive Switch where
  | verbose
  | sourceMaps
  | help
  | version
  deriving DecidableEq

/-- An option with a value. -/
inductive Setting where
  | config
  | output
  | format
  deriving DecidableEq

/-- The long form of a switch, without its dashes. -/
def Switch.long : Switch → String
  | .verbose => "verbose"
  | .sourceMaps => "source-maps"
  | .help => "help"
  | .version => "version"

/-- The short form of a switch, if it has one. -/
def Switch.short? : Switch → Option Char
  | .verbose => some 'v'
  | .sourceMaps => none
  | .help => some 'h'
  | .version => some 'V'

/-- The long form of a setting, without its dashes. -/
def Setting.long : Setting → String
  | .config => "config"
  | .output => "output"
  | .format => "format"

/-- The short form of a setting. -/
def Setting.short : Setting → Char
  | .config => 'c'
  | .output => 'o'
  | .format => 'f'

/-- Whether a value may be empty; a path may not. -/
def Setting.allowsEmpty : Setting → Bool
  | .format => true
  | .config | .output => false

/-- Why no command is run. -/
inductive Stop where
  | misuse
  | help
  | version
  deriving DecidableEq

/-- What may stand on a level. -/
structure Level where
  switches : List Switch
  settings : List Setting
  takesInputs : Bool

namespace Level

/-- Before the name of the command. -/
def top : Level := ⟨[.verbose, .help, .version], [.config], false⟩

/-- Behind the name of a command, with options of its own. -/
def below (switches : List Switch) (settings : List Setting) (takesInputs : Bool) : Level :=
  ⟨[.verbose, .help] ++ switches, .config :: settings, takesInputs⟩

end Level

/-- What was given on a level. -/
structure Given where
  switches : List Switch
  settings : List (Setting × String)
  inputs : List String

/-- What was read on a level. A setting whose value is an argument of its own is entered only when
the next option or input comes; until its value comes there is none. -/
structure Reading where
  given : Given
  pending : Option (Setting × Option String)
  onlyInputs : Bool

namespace Reading

/-- Nothing was read. -/
def initial : Reading := ⟨⟨[], [], []⟩, none, false⟩

/-- Whether the next argument is the value of a setting. -/
def awaitsValue (r : Reading) : Bool := r.pending.any fun setting => setting.2.isNone

/-- Enter the value of a setting, which may be given only once. -/
def enter (r : Reading) (setting : Setting) (value : String) : Except Stop Reading :=
  if (value.isEmpty && !setting.allowsEmpty) || r.given.settings.any (·.1 = setting) then
    .error .misuse
  else
    .ok { r with given.settings := r.given.settings ++ [(setting, value)] }

/-- Enter the setting that waits. -/
def settle (r : Reading) : Except Stop Reading :=
  match r.pending with
  | none => .ok r
  | some (_, none) => .error .misuse
  | some (setting, some value) => { r with pending := none }.enter setting value

/-- Turn a switch on, which may be done only once. -/
def turnOn (r : Reading) (switch : Switch) : Except Stop Reading := do
  let r ← r.settle
  match switch with
  | .help => .error .help
  | .version => .error .version
  | switch =>
    if switch ∈ r.given.switches then .error .misuse
    else .ok { r with given.switches := r.given.switches ++ [switch] }

/-- Read a setting and the value that is attached to it, if one is. -/
def set (r : Reading) (setting : Setting) (attached : Option String) : Except Stop Reading := do
  let r ← r.settle
  match attached with
  | some value => r.enter setting value
  | none => .ok { r with pending := some (setting, none) }

/-- Read an input. -/
def takeInput (level : Level) (r : Reading) (arg : String) : Except Stop Reading := do
  let r ← r.settle
  if level.takesInputs && !arg.isEmpty then
    .ok { r with given.inputs := r.given.inputs ++ [arg] }
  else .error .misuse

/-- Read what follows two dashes: a name, and a value behind an equals sign. -/
def takeLong (level : Level) (r : Reading) (cs : List Char) : Except Stop Reading :=
  let (name, tail) := cs.span (· != '=')
  let name := String.ofList name
  let attached := match tail with
    | [] => none
    | _ :: value => some (String.ofList value)
  match level.switches.find? (·.long == name), attached with
  | some switch, none => r.turnOn switch
  | some _, some _ => .error .misuse
  | none, attached =>
    match level.settings.find? (·.long == name) with
    | some setting => r.set setting attached
    | none => .error .misuse

/-- The value attached to a short setting, which may stand behind an equals sign. -/
def attachedShort? : List Char → Option String
  | [] => none
  | '=' :: value => some (String.ofList value)
  | value => some (String.ofList value)

/-- Read what follows one dash: switches, and at the end perhaps a setting. -/
def takeShorts (level : Level) (r : Reading) : List Char → Except Stop Reading
  | [] => .ok r
  | c :: rest =>
    match level.switches.find? (·.short? == some c) with
    | some switch => (r.turnOn switch).bind fun r => takeShorts level r rest
    | none =>
      match level.settings.find? (·.short == c) with
      | some setting => r.set setting (attachedShort? rest)
      | none => .error .misuse

/-- Read one argument. A single dash is no option. -/
def take (level : Level) (r : Reading) (arg : String) : Except Stop Reading :=
  if r.onlyInputs then r.takeInput level arg
  else match arg.toList with
    | ['-', '-'] => .ok { r with onlyInputs := true }
    | '-' :: '-' :: name => r.takeLong level name
    | '-' :: c :: rest => r.takeShorts level (c :: rest)
    | _ =>
      match r.pending with
      | some (setting, none) => .ok { r with pending := some (setting, some arg) }
      | _ => r.takeInput level arg

end Reading

/-- Read the arguments behind the name of a command. -/
def Level.read (level : Level) (args : List String) : Except Stop Given := do
  let r ← args.foldlM (Reading.take level) .initial
  return (← r.settle).given

/-- A command with its own arguments. -/
inductive Command where
  /-- Lower projects and write the code. -/
  | compile (inputs : List String) (output : Option String) (sourceMaps : Bool)
  /-- Lower projects without writing anything. -/
  | check (inputs : List String) (format : String)
  /-- Write the standard configuration. -/
  | config (output : Option String)

/-- What the arguments ask for. -/
structure Arguments where
  /-- The configuration file that is named. -/
  config : Option String
  command : Command

/-- The names of the commands. -/
inductive CommandName where
  | compile
  | check
  | config
  deriving DecidableEq

namespace CommandName

/-- The name as it is written. -/
def text : CommandName → String
  | .compile => "compile"
  | .check => "check"
  | .config => "config"

/-- The command of a name. -/
def ofText? (s : String) : Option CommandName :=
  [compile, check, config].find? fun name => name.text == s

/-- What may stand behind the name. -/
def level : CommandName → Level
  | .compile => .below [.sourceMaps] [.output] true
  | .check => .below [] [.format] true
  | .config => .below [] [.output] false

/-- The command with what was given behind its name. Without an input there is nothing to lower. -/
def command? (name : CommandName) (given : Given) : Option Command :=
  match name with
  | .compile =>
    if given.inputs.isEmpty then none
    else some (.compile given.inputs (given.settings.lookup .output)
      (given.switches.contains .sourceMaps))
  | .check =>
    if given.inputs.isEmpty then none
    else some (.check given.inputs ((given.settings.lookup .format).getD "text"))
  | .config => some (.config (given.settings.lookup .output))

end CommandName

/-- What asking for help about names of commands comes to. -/
def helpAbout : List String → Stop
  | [] => .help
  | [name] => if name = "help" || (CommandName.ofText? name).isSome then .help else .misuse
  | _ => .misuse

/-- Read arguments up to the name of the command and then those behind it. What was given behind
the name counts before what was given in front of it. -/
def Reading.arguments (r : Reading) : List String → Except Stop Arguments
  | [] => .error .misuse
  | arg :: rest =>
    let isName := !r.awaitsValue && !r.onlyInputs
    if isName && arg == "help" then .error (helpAbout rest)
    else match if isName then CommandName.ofText? arg else none with
      | some name => do
        let inner ← name.level.read rest
        match name.command? inner with
        | none => .error .misuse
        | some command =>
          let outer := (← r.settle).given
          return ⟨(inner.settings.lookup .config).or (outer.settings.lookup .config), command⟩
      | none => (r.take Level.top arg).bind fun r => r.arguments rest

/-- What arguments ask for. -/
def Arguments.read (args : List String) : Except Stop Arguments :=
  Reading.initial.arguments args

end AbapLowering.CommandLine
