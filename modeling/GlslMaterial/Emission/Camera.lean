import GlslMaterial.Emission.Scene

/-! What a camera writes: a ray for each pixel, or a position for each vertex. -/

set_option autoImplicit false

namespace GlslMaterial.Emission

open GlslMaterial.Action (perform fail ofExcept)
open Material

def flatRay (n : NodeId) (resolution : String) : String :=
  Text.block
    [s!"vec2 cameraUv{n} = (2.0 * gl_FragCoord.xy - {resolution}) / {resolution}.y;",
     s!"vec3 cameraRay{n} = vec3(0.0, 0.0, -1.0);",
     s!"vec3 cameraOrigin{n} = vec3(cameraUv{n}, 1.0);"]

def perspectiveRay (n : NodeId) (resolution view projection : String) : String :=
  Text.block
    [s!"mat4 cameraInverseView{n} = inverse({view});",
     s!"vec2 cameraUv{n} = (gl_FragCoord.xy / {resolution}) * 2.0 - 1.0;",
     s!"vec4 cameraTarget{n} = inverse({projection}) * vec4(cameraUv{n}, 1.0, 1.0);",
     s!"vec3 cameraRay{n} = normalize((cameraInverseView{n} * " ++
       s!"vec4(cameraTarget{n}.xyz / cameraTarget{n}.w, 0.0)).xyz);",
     s!"vec3 cameraOrigin{n} = cameraInverseView{n}[3].xyz;"]

def panoramicRay (n : NodeId) (resolution view fieldOfView : String) : String :=
  Text.block
    [s!"mat4 cameraInverseView{n} = inverse({view});",
     s!"vec2 cameraUv{n} = gl_FragCoord.xy / {resolution} - 0.5;",
     s!"float cameraYaw{n} = cameraUv{n}.x * radians({fieldOfView});",
     s!"float cameraPitch{n} = cameraUv{n}.y * radians({fieldOfView}) * " ++
       s!"{resolution}.y / {resolution}.x;",
     s!"vec3 cameraLocal{n} = vec3(cos(cameraPitch{n}) * sin(cameraYaw{n}), " ++
       s!"sin(cameraPitch{n}), -cos(cameraPitch{n}) * cos(cameraYaw{n}));",
     s!"vec3 cameraRay{n} = normalize((cameraInverseView{n} * vec4(cameraLocal{n}, 0.0)).xyz);",
     s!"vec3 cameraOrigin{n} = cameraInverseView{n}[3].xyz;"]

/-- The code for the ray of a pixel. -/
def rayCode (n : NodeId) (camera : Camera) : Action String := do
  let rate := Rate.stage .pixel
  let resolution ← exprOrInput n .resolution rate
  if camera.hasView then
    let view ← exprOrInput n .view rate
    match camera.projection with
    | .perspective => return perspectiveRay n resolution view (← exprOrInput n .projection rate)
    | .panoramic => return panoramicRay n resolution view (← exprOrInput n .fieldOfView rate)
  else
    warn (.flatCamera n)
    return flatRay n resolution

def cameraRays (n : NodeId) (camera : Camera) : Action Unit := do
  commit .pixel .texturize (← rayCode n camera)
  expose n .aim .vec3 s!"cameraRay{n}" (.stage .pixel)
  expose n .origin .vec3 s!"cameraOrigin{n}" (.stage .pixel)

/-- What takes a point to the screen; a camera without a view leaves it where it is. -/
def viewTransform (n : NodeId) (camera : Camera) : Action String := do
  let rate := Rate.stage .vertex
  if camera.hasView then
    let view ← exprOrInput n .view rate
    let projection ← exprOrInput n .projection rate
    return s!"{projection} * {view} * "
  else
    warn (.screenCamera n)
    return ""

def cameraPosition (n : NodeId) (camera : Camera) : Action Unit := do
  let rate := Rate.stage .vertex
  let point ← valueOrInput n .position rate .vec4
  let transform ← viewTransform n camera
  commit .vertex .transform s!"vec4 cameraPosition{n} = {transform}{point};"
  expose n .position .vec4 s!"cameraPosition{n}" rate

def emitCamera (n : NodeId) (camera : Camera) : Action Unit := do
  match (← ofExcept ((← read).stageOf n)) with
  | .pixel => cameraRays n camera
  | .vertex => cameraPosition n camera
  | other => fail (.misuse (.cameraStage other))

end GlslMaterial.Emission
