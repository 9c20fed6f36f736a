import GlslMaterial.Emission.Scene

/-! What a transform writes: a matrix, and the position that it moves. -/

set_option autoImplicit false

namespace GlslMaterial.Emission

open GlslMaterial.Action (perform fail ofExcept)
open Material

/-- The matrix of a transform and the code that applies it to `point`. -/
def transformCode (n : NodeId) (point : String) (rate : Rate) :
    TransformPlan → Action (String × String)
  | .identity =>
    return ("mat4(1.0)", s!"vec4 transformPosition{n} = Transform{n}({point});")
  | .constant matrix =>
    return (Glsl.mat4 matrix, s!"vec4 transformPosition{n} = Model{n} * {point};")
  | .animated _ => do
    let time ← valueOrInput n .time rate .float
    return (s!"transformModel{n}", Text.block
      [s!"mat4 transformModel{n} = Animate{n}({time});",
       s!"vec4 transformPosition{n} = transformModel{n} * {point};"])

/-- A matrix that does not change is a literal, which every stage can use. -/
def modelRate (rate : Rate) : TransformPlan → Rate
  | .animated _ => rate
  | _ => .uniform .tick

def emitTransform (n : NodeId) (transform : Transform) : Action Unit := do
  let stage ← ofExcept ((← read).stageOf n)
  let rate := Rate.stage stage
  ensureFunctions stage (transform.functions n)
  let point ← valueOrInput n .position rate .vec4
  let (model, code) ← transformCode n point rate transform.plan
  commit stage (.mainBody stage) code
  expose n .model .mat4 model (modelRate rate transform.plan)
  expose n .position .vec4 s!"transformPosition{n}" rate

end GlslMaterial.Emission
