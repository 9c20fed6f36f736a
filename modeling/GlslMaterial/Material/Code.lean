import GlslMaterial.Material.Basic

/-! The code of a material's stages. -/

set_option autoImplicit false

namespace GlslMaterial.Material

def setSource (m : Material) (stage : Stage) (source : Source) : Material :=
  { m with sources := m.sources.set stage source }

/-- Starts the source of a stage on first use. -/
def started (m : Material) (stage : Stage) : Material :=
  if (m.source stage).isEmpty then m.setSource stage (.ofTemplate stage) else m

def written (m : Material) (stage : Stage) (marker : Marker) (code : String) : Material :=
  m.setSource stage ((m.source stage).insert marker code)

/-- Adds a definition to a stage once. -/
def define (m : Material) (stage : Stage) (text : String) : Material :=
  let m := m.started stage
  m.setSource stage ((m.source stage).define text)

/-- The statement that gives an output its value. -/
def assignment (output value : String) : String :=
  s!"{output} = {value};"

def hasFunction (m : Material) (stage : Stage) (name : String) : Bool :=
  m.functions.contains (stage, name)

/-- Notes that a helper of a stage has been asked for. -/
def remembered (m : Material) (stage : Stage) (name : String) : Material :=
  if m.hasFunction stage name then m else { m with functions := m.functions ++ [(stage, name)] }

/-- Puts the version into every stage that is used. -/
def stamped (m : Material) : Material :=
  let stamp := fun (sources : PerStage Source) stage =>
    sources.set stage ((sources.get stage).setVersion m.version)
  { m with sources := m.usedStages.foldl stamp m.sources }

end GlslMaterial.Material
