import GlslMaterial.Material.Basic

/-! Validation: which stages can be handed to a checker of GLSL. -/

set_option autoImplicit false

namespace GlslMaterial

/-- Only vertex, pixel and compute shaders can be checked. What a checker finds in them is not part
of this library. -/
def Stage.isCheckable : Stage → Bool
  | .vertex | .pixel | .compute => true
  | .geometry | .tessControl | .tessEvaluation => false

/-- Refuses a stage that cannot be checked. -/
def validateStage (stage : Stage) : Except Failure Unit :=
  if stage.isCheckable then .ok () else .error (.unsupported (.validation stage))

/-- Refuses a material with a stage that cannot be checked. -/
def Material.validate (m : Material) : Except Failure Unit :=
  m.usedStages.forM fun stage => withContext (.generatedStage stage) (validateStage stage)

end GlslMaterial
