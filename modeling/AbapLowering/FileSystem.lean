import AbapLowering.Dict

/-!
# Files and directories

Texts of files, the directories around them, and the directory that paths start from unless they
start with a slash. A path is followed part by part, and every part but the last has to lead to a
directory. Main facts: writing changes what is stored at one place (`files_of_write?`), and making a
directory changes no file (`files_of_makeDirectory?`).
-/

namespace AbapLowering

/-- The way to a file or directory from the root of all directories; no names for the root itself. -/
abbrev Route := List String

namespace Route

/-- The names of a route with slashes between them. -/
def text (route : Route) : String := "/".intercalate route

/-- No name of the route holds a slash. -/
def IsPlain (route : Route) : Prop := ∀ name ∈ route, '/' ∉ name.toList

instance (route : Route) : Decidable route.IsPlain :=
  inferInstanceAs (Decidable (∀ name ∈ route, '/' ∉ name.toList))

end Route

/-- Files by the text of their routes, and directories besides the current one and those around it and
around files. -/
structure FileSystem where
  /-- The current directory. -/
  current : Route
  plain : current.IsPlain
  files : Dict String
  directories : List Route

namespace FileSystem

/-- The texts between the slashes of a path. -/
def parts (path : String) : List String :=
  pieces path.toList []
where
  /-- Pieces between slashes; `read` is the piece at hand, last character first. -/
  pieces : List Char → List Char → List String
    | [], read => [String.ofList read.reverse]
    | c :: rest, read =>
      if c = '/' then String.ofList read.reverse :: pieces rest [] else pieces rest (c :: read)

/-- Whether a route leads to a directory. -/
def isDirectory (fs : FileSystem) (route : Route) : Bool :=
  route.isPrefixOf fs.current || fs.directories.contains route ||
    fs.files.entries.any fun entry => (route.text ++ "/").toList.isPrefixOf entry.1.toList

/-- Whether a route leads to a file. -/
def isFile (fs : FileSystem) (route : Route) : Bool := fs.files.contains route.text

/-- Follow the parts of a path on from a route. An empty part or a dot stays, two dots go up, though
not above the root. -/
def follow? (fs : FileSystem) (route : Route) : List String → Option Route
  | [] => some route
  | part :: rest =>
    if !fs.isDirectory route then none
    else if part = "" ∨ part = "." then fs.follow? route rest
    else if part = ".." then fs.follow? route.dropLast rest
    else fs.follow? (route ++ [part]) rest

/-- Where a path starts: with a slash in front at the root, else in the current directory. -/
def origin (fs : FileSystem) (path : String) : Route :=
  if path.toList.head? = some '/' then [] else fs.current

/-- Where a path leads. It may not be empty or hold a null character. -/
def route? (fs : FileSystem) (path : String) : Option Route :=
  if path.isEmpty ∨ path.toList.contains '\x00' then none
  else fs.follow? (fs.origin path) (parts path)

/-- The text of a file. -/
def read? (fs : FileSystem) (path : String) : Option String :=
  (fs.route? path).bind fun route => fs.files.find? route.text

/-- Whether there is a file or a directory at a path. -/
def isPresent (fs : FileSystem) (path : String) : Bool :=
  (fs.route? path).any fun route => fs.isFile route || fs.isDirectory route

/-- Where a file can be written: not over a directory. -/
def target? (fs : FileSystem) (path : String) : Option Route :=
  (fs.route? path).filter fun route => !fs.isDirectory route

/-- Write a file, over the one that is there; its directory must be there. -/
def write? (fs : FileSystem) (path text : String) : Option FileSystem :=
  (fs.target? path).map fun route => { fs with files := fs.files.insert route.text text }

/-- Make the directories of a route that are missing, following the parts of a path. -/
def makeAlong? (fs : FileSystem) (route : Route) : List String → Option FileSystem
  | [] => some fs
  | part :: rest =>
    if part = "" ∨ part = "." then fs.makeAlong? route rest
    else if part = ".." then fs.makeAlong? route.dropLast rest
    else if fs.isFile (route ++ [part]) then none
    else
      { fs with directories := (route ++ [part]) :: fs.directories }.makeAlong?
        (route ++ [part]) rest

/-- Make the directory of a path, and those around it. -/
def makeDirectory? (fs : FileSystem) (path : String) : Option FileSystem :=
  if path.toList.contains '\x00' then none
  else fs.makeAlong? (fs.origin path) (parts path)

/-- The path of the directory that the last name of a path stands in. -/
def parent (path : String) : String :=
  "/".intercalate
    (((parts path).reverse.dropWhile fun part => part == "" || part == ".").drop 1).reverse

/-- The file system that holds files, by the texts of their routes. -/
def ofFiles (current : Route) (plain : current.IsPlain) (files : List (String × String)) :
    FileSystem :=
  ⟨current, plain, Dict.ofList files, []⟩

/-- A file is written at its place. -/
theorem files_of_write? {fs after : FileSystem} {path text : String}
    (h : fs.write? path text = some after) :
    ∃ route, fs.target? path = some route ∧ after.files = fs.files.insert route.text text := by
  obtain ⟨route, hroute, rfl⟩ := Option.map_eq_some_iff.mp h
  exact ⟨route, hroute, rfl⟩

/-- To make directories changes no file. -/
theorem files_makeAlong? {after : FileSystem} :
    ∀ {parts : List String} {fs : FileSystem} {route : Route},
      fs.makeAlong? route parts = some after → after.files = fs.files
  | [], fs, route, h => by
    obtain rfl := Option.some.inj h
    rfl
  | part :: rest, fs, route, h => by
    unfold makeAlong? at h
    split at h
    · exact files_makeAlong? h
    · split at h
      · exact files_makeAlong? h
      · split at h
        · cases h
        · exact (files_makeAlong? h :)

/-- Making a directory changes no file. -/
theorem files_of_makeDirectory? {fs after : FileSystem} {path : String}
    (h : fs.makeDirectory? path = some after) : after.files = fs.files := by
  unfold makeDirectory? at h
  split at h
  · cases h
  · exact files_makeAlong? h

end FileSystem

end AbapLowering
