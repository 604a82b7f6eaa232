import AbapLowering.CommandLine.Run

/-!
# The program

Reads the arguments, runs the command on the real file system, and tells of a failure.
-/

open AbapLowering.CommandLine

/-- Whether an action ends without an error. -/
def AbapLowering.CommandLine.succeeds (action : IO Unit) : IO Bool := do
  try
    action
    return true
  catch _ => return false

instance : Host IO where
  read? path := do
    try
      return some (← IO.FS.readFile path)
    catch _ => return none
  isPresent path := do
    try
      (← IO.FS.realPath path).pathExists
    catch _ => return false
  makeDirectory path := succeeds (IO.FS.createDirAll path)
  write path text := succeeds (IO.FS.writeFile path text)
  print text := IO.print text

/-- How the program is used. -/
def AbapLowering.CommandLine.usage : String :=
  "Usage: abapjs [-v] [-c CONFIG] compile INPUTS... [-o OUTPUT] [--source-maps]\n"
    ++ "       abapjs [-v] [-c CONFIG] check INPUTS... [-f FORMAT]\n"
    ++ "       abapjs [-v] config [-o OUTPUT]\n"

/-- Run the program and give its exit status. -/
def main (args : List String) : IO UInt32 := do
  let outcome : Outcome ← run parseProject? args
  match outcome with
  | .success => pure ()
  | .failure why => IO.eprintln ("Error: " ++ why.message)
  | .misuse => IO.eprint usage
  | .help => IO.print usage
  return outcome.status
