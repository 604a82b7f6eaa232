import AbapLowering.CommandLine.Arguments
import AbapLowering.CommandLine.Host
import AbapLowering.Config.Toml
import AbapLowering.Json.Reader
import AbapLowering.Json.Writer
import AbapLowering.Lowering

/-!
# Running commands

`compile` and `check` take the same way up to lowered units: the configuration and all projects are
read, the projects are put together, and their units are lowered. A fault on this way ends the
command before anything is written or printed. Only then do they part: `compile` writes the code,
`check` reports the counts. How a project is read from a text is left to the caller; the program uses
`parseProject?`.
-/

namespace AbapLowering.CommandLine

/-- Why a command fails. -/
inductive Failure where
  | unreadableConfig (path : String)
  | invalidConfig (path complaint : String)
  | unreadableProject (path : String)
  | malformedProject (path : String)
  /-- A unit cannot be lowered. -/
  | refused (activity : String) (why : Abort)
  | noDirectory (path : String)
  | unwritable (path : String)
  | unwritableConfig (path : String)
  | unknownFormat (format : String)

/-- The wording of why a unit cannot be lowered. A fault is followed by its cause, where it has one:
what is wrong with a scope graph is told once as part of the fault and once more as its cause. -/
def abortMessage : Abort → String
  | .error (.invalidGraph cause) =>
    (LoweringError.invalidGraph cause).message ++ ": " ++ cause.message
  | .error error => error.message
  | .fault _ => "scope out of range"

/-- The wording of a failure. -/
def Failure.message : Failure → String
  | .unreadableConfig path => "Failed to load config file: " ++ path
  | .invalidConfig path complaint => "Invalid config file: " ++ path ++ ": " ++ complaint
  | .unreadableProject path => "Failed to read project file: " ++ path
  | .malformedProject path => "Failed to parse project file: " ++ path
  | .refused activity why => activity ++ " failed: " ++ abortMessage why
  | .noDirectory path => "Failed to create output directory: " ++ path
  | .unwritable path => "Failed to write " ++ path
  | .unwritableConfig path => "Failed to write config file: " ++ path
  | .unknownFormat format => "Unknown report format: " ++ format

variable {m : Type → Type} [Monad m] [Host m]

/-- Something a host does for a command that can fail. -/
abbrev Job (m : Type → Type) := ExceptT Failure m

namespace Job

/-- A step of the host. -/
def step {α : Type} (action : m α) : Job m α := ExceptT.lift action

/-- A step of the host that must have worked. -/
def need (action : m Bool) (otherwise : Failure) : Job m Unit := do
  if ← step action then return
  throw otherwise

/-- Print a line. -/
def printLine (line : String) : Job m Unit := step (Host.print (line ++ "\n"))

/-- Print the line that tells of success. -/
def printSuccess (message : String) : Job m Unit := printLine ("Success: " ++ message)

end Job

open Job

/-! ## Reading -/

/-- The configuration file that is used where none is named. -/
def configFile : String := "abapjs.toml"

/-- The configuration in a file. -/
def readConfig (path : String) : Job m Config := do
  let some text ← step (Host.read? path) | throw (.unreadableConfig path)
  let some config := Config.parse? text | throw (.unreadableConfig path)
  match config.complaint? with
  | none => return config
  | some complaint => throw (.invalidConfig path complaint)

/-- The configuration in the file that is named, else in the file used then, else the standard. -/
def findConfig (named : Option String) : Job m Config := do
  match named with
  | some path => readConfig path
  | none =>
    if ← step (Host.isPresent configFile) then readConfig configFile
    else return .standard

/-- The project in a text. -/
def parseProject? (text : String) : Option Project := (Json.parse? text).bind decode?

section

-- how a project is read from a text
variable (parse? : String → Option Project)

/-- The project in a file. -/
def readProject (path : String) : Job m Project := do
  let some text ← step (Host.read? path) | throw (.unreadableProject path)
  let some project := parse? text | throw (.malformedProject path)
  return project

/-- The projects in all files, put together in the order of the files. -/
def readProjects (paths : List String) : Job m Project :=
  paths.foldlM (fun project path => return project.merge (← readProject parse? path)) .empty

/-- The lowered units of the projects in all files. -/
def lowerFiles (activity : String) (paths : List String) (config : Config) :
    Job m (List LoweredUnit) := do
  let project ← readProjects parse? paths
  match ((Session.fresh config).run project).1 with
  | .ok units => return units
  | .error why => throw (.refused activity why)

end

/-! ## Printing -/

/-- The word before a finding. -/
def severityWord : Severity → String
  | .warning => "Warning: "
  | .info => "Info: "

/-- The line that tells of a finding in a file. -/
def diagnosticLine (file : String) (d : Diagnostic) : String :=
  let place := match d.position with
    | none => file
    | some position => file ++ ":" ++ position.text
  severityWord d.severity ++ place ++ ": " ++ d.message

/-- Print the findings of all units. -/
def printDiagnostics (units : List LoweredUnit) : Job m Unit :=
  units.forM fun u => u.diagnostics.forM fun d => printLine (diagnosticLine u.sourceFile d)

/-- What a check tells of a unit. -/
structure UnitReport where
  file : String
  statements : Nat
  constants : Nat
  warnings : Nat
  deriving DecidableEq

/-- The report on a lowered unit. -/
def UnitReport.of (u : LoweredUnit) : UnitReport :=
  ⟨u.sourceFile, u.statements, u.constants, u.diagnostics.length⟩

/-- A report on a line. -/
def UnitReport.line (r : UnitReport) : String :=
  "  " ++ r.file ++ " " ++ toString r.statements ++ " statements, " ++ toString r.warnings
    ++ " warnings"

/-- A report as an object. -/
def UnitReport.object (r : UnitReport) : Json :=
  .obj [("file", .str r.file), ("statements", .int r.statements), ("constants", .int r.constants),
    ("warnings", .int r.warnings)]

/-- Print the reports on all units. -/
def printReports (format : String) (reports : List UnitReport) : Job m Unit := do
  match format with
  | "json" => printLine ((Json.arr (reports.map UnitReport.object)).pretty 0)
  | "text" =>
    reports.forM fun r => printLine r.line
    printSuccess (toString reports.length ++ " units transpile")
  | format => throw (.unknownFormat format)

/-! ## Commands -/

/-- The files of a unit below a directory. -/
def outputs (dir : String) (u : LoweredUnit) : List (String × String) :=
  (u.codePath dir, u.code) :: (u.positionMap.map fun map => (u.mapPath dir, map)).toList

/-- Write files one after the other. -/
def writeAll (files : List (String × String)) : Job m Unit :=
  files.forM fun (path, text) => need (Host.write path text) (.unwritable path)

/-- Write the code of all units into a directory; answers the paths that were written. -/
def writeOutputs (dir : String) (units : List LoweredUnit) : Job m (List String) := do
  need (Host.makeDirectory dir) (.noDirectory dir)
  let files := units.flatMap (outputs dir)
  writeAll files
  return files.map Prod.fst

section

variable (parse? : String → Option Project)

/-- Lower projects, then write the code of all units into a directory. -/
def compileInto (inputs : List String) (dir : String) (config : Config) : Job m (List String) := do
  let units ← lowerFiles parse? "Transpilation" inputs config
  printDiagnostics units
  writeOutputs dir units

/-- Lower projects into the directory that is named, else into the configured one. -/
def compile (inputs : List String) (output : Option String) (sourceMaps : Bool)
    (config : Config) : Job m Unit := do
  let config := { config with sourceMaps := config.sourceMaps || sourceMaps }
  let dir := (output.or config.outputDir).getD "dist"
  let written ← compileInto parse? inputs dir config
  printSuccess ("Wrote " ++ toString written.length ++ " files to " ++ dir)

/-- Lower projects and report on all units. -/
def survey (inputs : List String) (config : Config) : Job m (List UnitReport) := do
  let units ← lowerFiles parse? "Check" inputs config
  printDiagnostics units
  return units.map .of

/-- Lower projects and print the reports on all units. -/
def check (inputs : List String) (format : String) (config : Config) : Job m Unit := do
  printReports format (← survey parse? inputs config)

end

/-- Write the standard configuration to a file, or print it. -/
def writeConfig (output : Option String) : Job m Unit := do
  match output with
  | none => step (Host.print Config.standard.text)
  | some path =>
    let parent := FileSystem.parent path
    unless parent.isEmpty do
      need (Host.makeDirectory parent) (.unwritableConfig path)
    need (Host.write path Config.standard.text) (.unwritableConfig path)
    printSuccess ("Wrote default configuration to " ++ path)

/-- Do what the arguments ask for. -/
def perform (parse? : String → Option Project) (args : Arguments) : Job m Unit := do
  match args.command with
  | .compile inputs output sourceMaps =>
    compile parse? inputs output sourceMaps (← findConfig args.config)
  | .check inputs format => check parse? inputs format (← findConfig args.config)
  | .config output => writeConfig output

/-! ## Outcomes -/

/-- How a call ends. -/
inductive Outcome where
  | success
  | failure (why : Failure)
  /-- The arguments make no command. -/
  | misuse
  /-- The arguments ask how to use the program. -/
  | help

/-- The exit status. -/
def Outcome.status : Outcome → UInt32
  | .success | .help => 0
  | .failure _ => 1
  | .misuse => 2

/-- The line that tells which version this is. -/
def versionLine : String := "abapjs 0.1.0\n"

/-- Run the program with the given arguments. -/
def run (parse? : String → Option Project) (args : List String) : m Outcome :=
  match Arguments.read args with
  | .error .misuse => return .misuse
  | .error .help => return .help
  | .error .version => do
    Host.print versionLine
    return .success
  | .ok arguments => do
    match ← (perform parse? arguments).run with
    | .ok () => return .success
    | .error why => return .failure why

end AbapLowering.CommandLine
