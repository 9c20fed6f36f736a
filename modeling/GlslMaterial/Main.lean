import GlslMaterial.CommandLine.Run

/-! The command line on real files. -/

set_option autoImplicit false

namespace GlslMaterial.CommandLine

/-- Code and text of a failure of the operating system. -/
def systemCode? : IO.Error → Option (UInt32 × String)
  | .alreadyExists _ code text | .invalidArgument _ code text | .permissionDenied _ code text
  | .resourceExhausted _ code text | .inappropriateType _ code text | .noSuchThing _ code text
  | .interrupted _ code text | .noFileOrDirectory _ code text
  | .otherError code text | .resourceBusy code text | .resourceVanished code text
  | .unsupportedOperation code text | .hardwareFault code text
  | .unsatisfiedConstraints code text | .illegalOperation code text
  | .protocolError code text | .timeExpired code text => some (code, text)
  | .unexpectedEof | .userError _ => none

def reasonOf (error : IO.Error) : Reason :=
  match systemCode? error with
  | some (2, _) => .missing
  | some (17, _) => .alreadyThere
  | some (20, _) => .notDirectory
  | some (21, _) => .isDirectory
  | some (36, _) => .nameTooLong
  | some (code, text) => .other s!"{text} (os error {code})"
  | none => .other (toString error)

/-- Runs a file operation and gives the reason of its failure. -/
def guarded {α : Type} (operation : IO α) : IO (Except Reason α) := do
  try
    return .ok (← operation)
  catch error => return .error (reasonOf error)

/-- Whether a path leads to a directory: only there does a dot name something that cannot be created
because it is there already. -/
def leadsToDirectory (path : String) : IO Bool := do
  match (← guarded (IO.FS.createDir (path ++ "/."))) with
  | .error .alreadyThere => return true
  | _ => return false

def systemHost : Host IO where
  read path := guarded (IO.FS.readFile path)
  write path text := guarded (IO.FS.writeFile path text)
  createDirectory path := guarded (IO.FS.createDir path)
  isDirectory := leadsToDirectory
  printOut := IO.print
  printError := IO.eprint

end GlslMaterial.CommandLine

def main (arguments : List String) : IO UInt32 :=
  GlslMaterial.CommandLine.run GlslMaterial.CommandLine.systemHost arguments
