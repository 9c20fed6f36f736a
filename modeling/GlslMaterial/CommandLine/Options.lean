import GlslMaterial.Failure

/-! Options: what the arguments of the command line ask for. -/

set_option autoImplicit false

namespace GlslMaterial.CommandLine

/-- Where the material comes from. -/
inductive Input where
  | descriptor (path : String)
  | snippet (path : String)
deriving DecidableEq, Repr

structure Options where
  input : Input
  outputDir : Option String
  pretty : Bool
  validate : Bool
deriving DecidableEq, Repr

/-- Arguments as they have been read so far; of a repeated one the last counts. -/
structure Given where
  descriptor : Option String
  snippet : Option String
  outputDir : Option String
  pretty : Bool
  validate : Bool

def Given.none : Given :=
  ⟨.none, .none, .none, false, false⟩

def readArguments (given : Given) : List String → Except Failure Given
  | [] => .ok given
  | "--descriptor" :: path :: rest => readArguments { given with descriptor := path } rest
  | "--shadertoy" :: path :: rest => readArguments { given with snippet := path } rest
  | "--output-dir" :: path :: rest => readArguments { given with outputDir := path } rest
  | "--outputdir" :: path :: rest => readArguments { given with outputDir := path } rest
  | "--pretty" :: rest => readArguments { given with pretty := true } rest
  | "--validate" :: rest => readArguments { given with validate := true } rest
  | ["--descriptor"] => .error (.command (.missingValue "--descriptor"))
  | ["--shadertoy"] => .error (.command (.missingValue "--shadertoy"))
  | ["--output-dir"] | ["--outputdir"] => .error (.command (.missingValue "--output-dir"))
  | other :: _ => .error (.command (.unknownArgument other))

/-- The options of a command line, which names exactly one input. -/
def Options.parse (arguments : List String) : Except Failure Options := do
  let given ← readArguments .none arguments
  let input ← match given.descriptor, given.snippet with
    | some path, none => .ok (Input.descriptor path)
    | none, some path => .ok (Input.snippet path)
    | _, _ => .error (.command .notOneInput)
  return ⟨input, given.outputDir, given.pretty, given.validate⟩

end GlslMaterial.CommandLine
