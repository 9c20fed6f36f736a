import GlslMaterial.Text.Blank
import GlslMaterial.Text.Pieces

/-!
Paths as text: names with slashes between them. A path that starts with a slash leads from the root,
any other from the working directory. Empty names and single dots lead nowhere else, two dots lead
to the directory above.
-/

set_option autoImplicit false

namespace GlslMaterial.CommandLine.Path

def isAbsolute (path : String) : Bool :=
  path.toList.head? == some '/'

/-- All that stands between the slashes of a path. -/
def steps (path : String) : List String :=
  (Text.pieces '/' path.toList).map String.ofList

/-- Whether a step leads from a directory to the same directory. -/
def isIdle (step : String) : Bool :=
  step == "" || step == "."

/-- The steps of a path that is to become a directory; slashes at its end do not count. -/
def stepsToDirectory (path : String) : List String :=
  steps (String.ofList (Text.dropWhileRight (· == '/') path.toList))

def join (directory file : String) : String :=
  if directory.isEmpty || directory.toList.getLast? == some '/' then directory ++ file
  else directory ++ "/" ++ file

/-- The path that consists of some steps. -/
def ofSteps (absolute : Bool) (steps : List String) : String :=
  (if absolute then "/" else "") ++ "/".intercalate steps

/-- The paths above a path, the nearest first. -/
def above (path : String) : List String :=
  let names := (steps path).filter (!isIdle ·)
  ((List.range' 1 (names.length - 1)).map fun n =>
    ofSteps (isAbsolute path) (names.take n)).reverse

end GlslMaterial.CommandLine.Path
