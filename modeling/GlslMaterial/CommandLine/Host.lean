import GlslMaterial.CommandLine.Path

/-! Hosts: what a run of the command line needs from its surroundings. -/

set_option autoImplicit false

namespace GlslMaterial.CommandLine

/-- Why a file operation fails. -/
inductive Reason where
  | missing
  | alreadyThere
  | notDirectory
  | isDirectory
  | nameTooLong
  | other (text : String)
deriving DecidableEq, Repr

def Reason.message : Reason → String
  | missing => "No such file or directory (os error 2)"
  | alreadyThere => "File exists (os error 17)"
  | notDirectory => "Not a directory (os error 20)"
  | isDirectory => "Is a directory (os error 21)"
  | nameTooLong => "File name too long (os error 36)"
  | other text => text

/-- Files and text streams. A file operation that fails gives the reason. -/
structure Host (m : Type → Type) where
  read : String → m (Except Reason String)
  write : String → String → m (Except Reason Unit)
  /-- Creates one directory in a directory that is there. -/
  createDirectory : String → m (Except Reason Unit)
  isDirectory : String → m Bool
  printOut : String → m Unit
  printError : String → m Unit

namespace Host

variable {m : Type → Type} [Monad m]

/-- Creates a directory, unless it is there. -/
def ensureDirectory (host : Host m) (path : String) : m (Except Reason Unit) := do
  match (← host.createDirectory path) with
  | .error .alreadyThere =>
    return if (← host.isDirectory path) then .ok () else .error .alreadyThere
  | result => return result

/-- Creates the first of some directories, of which each stands in the next. The next one is
created where it is missing. -/
def ensureDirectories (host : Host m) : List String → m (Except Reason Unit)
  | [] => return .ok ()
  | path :: above => do
    match (← host.ensureDirectory path) with
    | .error .missing =>
      match (← host.ensureDirectories above) with
      | .ok _ => host.ensureDirectory path
      | .error reason => return .error reason
    | result => return result

/-- Creates a directory with all that are above it. The empty path is the working directory. -/
def createDirectories (host : Host m) (path : String) : m (Except Reason Unit) :=
  if path.isEmpty then return .ok () else host.ensureDirectories (path :: Path.above path)

end Host

end GlslMaterial.CommandLine
