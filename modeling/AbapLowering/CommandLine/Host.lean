import AbapLowering.FileSystem

/-!
# Hosts

A command looks at files, writes them and prints text; a host does this for it. Commands are written
for any host. `PureHost` is the host whose files and printed text are plain values, so that what a
command does there can be stated.
-/

namespace AbapLowering.CommandLine

/-- What a command can have done for it. Where something can fail the answer says so. -/
class Host (m : Type → Type) where
  /-- The text of a file. -/
  read? : String → m (Option String)
  isPresent : String → m Bool
  /-- Make a directory and those around it. -/
  makeDirectory : String → m Bool
  /-- Write a text to a file. -/
  write : String → String → m Bool
  print : String → m Unit

/-- A file system and the text printed so far. -/
structure PureHost where
  files : FileSystem
  printed : String

namespace PureHost

/-- Change the file system if that works. -/
def change (step : FileSystem → Option FileSystem) : StateM PureHost Bool := fun s =>
  match step s.files with
  | some files => (true, { s with files })
  | none => (false, s)

instance : Host (StateM PureHost) where
  read? path := fun s => (s.files.read? path, s)
  isPresent path := fun s => (s.files.isPresent path, s)
  makeDirectory path := change (·.makeDirectory? path)
  write path text := change (·.write? path text)
  print text := fun s => ((), { s with printed := s.printed ++ text })

end PureHost

end AbapLowering.CommandLine
