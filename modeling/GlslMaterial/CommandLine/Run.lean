import GlslMaterial.CommandLine.Host
import GlslMaterial.CommandLine.Options
import GlslMaterial.CommandLine.Report
import GlslMaterial.Material.Build
import GlslMaterial.Material.Completion
import GlslMaterial.Material.Snippet
import GlslMaterial.Source.Numbered
import GlslMaterial.Validation

/-! A run of the command line: read a material, write its stages, and report what went wrong. -/

set_option autoImplicit false

namespace GlslMaterial

/-- The finished text of a stage with its lines numbered. -/
def Material.pretty (m : Material) (stage : Stage) : String :=
  String.ofList (Source.numbered (m.stageCode stage).toList)

/-- A material with all its stages written. -/
def Material.generated? (m : Material) : Except Failure Material :=
  match Material.generate m with
  | .ok _ m => .ok m
  | .error failure _ => .error failure

namespace CommandLine

variable {m : Type → Type} [Monad m]

/-- The material of a descriptor file with the given text. -/
def materialOfDescriptor (path text : String) : Except Failure Material := do
  let c ← withContext (.descriptorIn path) (parseDescriptor text)
  withContext (.buildingFrom path) (Material.ofConstruct c)

def readDescriptor (host : Host m) (path : String) : ExceptT Failure m Material := do
  match (← host.read path) with
  | .ok text => liftM (materialOfDescriptor path text)
  | .error reason =>
    throw ((Failure.command (.system reason.message)).within (.readingDescriptor path))

def readSnippet (host : Host m) (path : String) : ExceptT Failure m Material := do
  match (← host.read path) with
  | .ok code => liftM (Material.ofSnippet code)
  | .error reason => throw (.command (.unreadableSnippet path reason.message))

def readMaterial (host : Host m) : Input → ExceptT Failure m Material
  | .descriptor path => readDescriptor host path
  | .snippet path => readSnippet host path

/-- Passes the failure of a file operation on, in its context. -/
def checked (context : Context) (result : m (Except Reason Unit)) : ExceptT Failure m Unit := do
  match (← result) with
  | .ok _ => return ()
  | .error reason => throw ((Failure.command (.system reason.message)).within context)

/-- Saves each stage in a file of its own. -/
def saveStages (host : Host m) (material : Material) (directory : String) :
    ExceptT Failure m Unit := do
  checked (.creatingDirectory directory) (host.createDirectories directory)
  material.stages.forM fun (stage, code) => do
    let path := Path.join directory s!"{stage.name}.glsl"
    checked (.writingFile path) (host.write path code)
    host.printOut s!"[shadergen] saved: {path}\n"

/-- Prints each stage under a heading. -/
def printStages (host : Host m) (material : Material) (pretty : Bool) :
    ExceptT Failure m Unit :=
  material.stages.forM fun (stage, code) => do
    host.printOut s!"// ---- {stage.name} ----\n"
    host.printOut (if pretty then material.pretty stage ++ "\n" else code)

def runOptions (host : Host m) (options : Options) : ExceptT Failure m Unit := do
  let material ← readMaterial host options.input
  let material ← liftM material.generated?
  material.warnings.forM fun warning =>
    host.printError s!"[shadergen] warning: {warning.message}\n"
  if options.validate then
    liftM material.validate
    host.printOut "[shadergen] all stages validated\n"
  match options.outputDir with
  | some directory => saveStages host material directory
  | none => printStages host material options.pretty

/-- Runs the command line and gives its exit code. -/
def run (host : Host m) (arguments : List String) : m UInt32 := do
  let outcome ← ExceptT.run do runOptions host (← liftM (Options.parse arguments))
  match outcome with
  | .ok _ => return 0
  | .error failure => do
    host.printError (report failure)
    return 1

end CommandLine

end GlslMaterial
