import GlslMaterial.CommandLine.Host

/-!
Disks in memory: files and directories as a value, with the reasons that a real disk gives for a
failure. They let a run of the command line be looked at as a function.
-/

set_option autoImplicit false

namespace GlslMaterial.CommandLine

/-- Names from the root down to a file or directory. -/
abbrev Location := List String

/-- What stands at a location. -/
inductive Entry where
  | file (text : String)
  | directory
deriving DecidableEq, Repr

structure Disk where
  /-- The working directory. -/
  home : Location
  files : List (Location × String)
  directories : List Location

namespace Disk

/-- The most bytes that a name has, and the bytes at which a path is too long. -/
def maxName : Nat := 255
def maxPath : Nat := 4096

/-- A directory is there if it was created or has something in it. -/
def hasDirectory (disk : Disk) (here : Location) : Bool :=
  disk.directories.any (here.isPrefixOf ·) ||
    disk.files.any fun (file, _) => here.isPrefixOf file && here ≠ file

def entry? (disk : Disk) (here : Location) : Option Entry :=
  match disk.files.lookup here with
  | some text => some (.file text)
  | none => if disk.hasDirectory here then some .directory else none

/-- Whether there is a directory to go on from. -/
def enter (disk : Disk) (here : Location) : Except Reason Unit :=
  match disk.entry? here with
  | some .directory => .ok ()
  | some (.file _) => .error .notDirectory
  | none => .error .missing

/-- The location one step away. The root is above itself. -/
def next (here : Location) (step : String) : Location :=
  if Path.isIdle step then here
  else if step = ".." then here.dropLast
  else here ++ [step]

/-- The location at the end of some steps. Every step starts from a directory, whereas at the end
there may be anything or nothing. -/
def follow (disk : Disk) : Location → List String → Except Reason Location
  | here, [] => .ok here
  | here, step :: rest => do
    disk.enter here
    if maxName < step.utf8ByteSize then throw .nameTooLong
    disk.follow (next here step) rest

def start (disk : Disk) (path : String) : Location :=
  if Path.isAbsolute path then [] else disk.home

/-- Refuses the empty path and paths that are too long. -/
def checkPath (path : String) : Except Reason Unit :=
  if path.isEmpty then .error .missing
  else if maxPath ≤ path.utf8ByteSize then .error .nameTooLong
  else .ok ()

def locate (disk : Disk) (path : String) : Except Reason Location := do
  checkPath path
  disk.follow (disk.start path) (Path.steps path)

def read (disk : Disk) (path : String) : Except Reason String := do
  match disk.entry? (← disk.locate path) with
  | some (.file text) => return text
  | some .directory => throw .isDirectory
  | none => throw .missing

def isDirectory (disk : Disk) (path : String) : Bool :=
  match disk.locate path with
  | .ok here => disk.entry? here = some .directory
  | .error _ => false

def write (disk : Disk) (path text : String) : Except Reason Disk := do
  let here ← disk.locate path
  if disk.entry? here = some .directory then throw .isDirectory
  return { disk with files := disk.files.filter (fun file => file.1 ≠ here) ++ [(here, text)] }

/-- Creates a directory. Dots name a directory that is there already. -/
def createDirectory (disk : Disk) (path : String) : Except Reason Disk := do
  checkPath path
  let steps := Path.stepsToDirectory path
  let parent ← disk.follow (disk.start path) steps.dropLast
  let here ← disk.follow parent (steps.getLast?.toList)
  if (disk.entry? here).isSome then throw .alreadyThere
  return { disk with directories := disk.directories ++ [here] }

/-- Names and texts of the files directly in a directory. -/
def filesIn (disk : Disk) (directory : String) : List (String × String) :=
  match disk.locate directory with
  | .error _ => []
  | .ok here => disk.files.filterMap fun (file, text) =>
    match file.getLast? with
    | some name => if file.dropLast = here then some (name, text) else none
    | none => none

end Disk

/-- A run in progress: the disk, and what has been printed. -/
structure Session where
  disk : Disk
  out : String
  errors : String

namespace Session

/-- A run in a directory that has nothing but some files. -/
def ofFiles (files : List (String × String)) : Session :=
  let home := ["home"]
  let placed := files.map fun (path, text) => ((Path.steps path).foldl Disk.next home, text)
  ⟨⟨home, placed, [home]⟩, "", ""⟩

/-- Runs an operation that changes the disk only where it succeeds. -/
def onDisk (operation : Disk → Except Reason Disk) : StateM Session (Except Reason Unit) := do
  match operation (← get).disk with
  | .ok disk => do
    modify ({ · with disk })
    return .ok ()
  | .error reason => return .error reason

/-- The host whose files are on the disk in memory. -/
def host : Host (StateM Session) where
  read path := return (← get).disk.read path
  write path text := onDisk (·.write path text)
  createDirectory path := onDisk (·.createDirectory path)
  isDirectory path := return (← get).disk.isDirectory path
  printOut text := modify fun s => { s with out := s.out ++ text }
  printError text := modify fun s => { s with errors := s.errors ++ text }

end Session

end GlslMaterial.CommandLine
