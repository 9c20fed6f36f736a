import GlslMaterial.Emission.Scene

/-! What a raymarch writes: a ray followed to the surface of its scene. -/

set_option autoImplicit false

namespace GlslMaterial.Emission

open GlslMaterial.Action (perform fail ofExcept)
open Material

def onlyScene (n : NodeId) : List NodeId → Except Failure NodeId
  | [] => .error (.missingGeometry (.raymarchScene n))
  | [scene] => .ok scene
  | scenes => .error (.unsupported (.sceneUnion n scenes.length))

/-- The code that follows the ray. Pixels whose ray meets nothing are left out. -/
def raymarchCode (n : NodeId) (stage : Stage) (origin aim : String) : String :=
  Text.block <|
    [s!"vec3 raymarchOrigin{n} = {origin};",
     s!"vec3 raymarchAim{n} = normalize({aim});",
     s!"float raymarchDepth{n} = Raymarch{n}(raymarchOrigin{n}, raymarchAim{n});"] ++
    (if stage = .pixel then [s!"if (raymarchDepth{n} < 0.0) discard;"] else []) ++
    [s!"vec3 raymarchPosition{n} = raymarchOrigin{n} + raymarchAim{n} * " ++
       s!"max(raymarchDepth{n}, 0.0);",
     s!"vec3 raymarchNormal{n} = RaymarchNormal{n}(raymarchPosition{n});"]

def emitRaymarch (n : NodeId) (raymarch : Raymarch) : Action Unit := do
  let stage ← ofExcept ((← read).stageOf n)
  let rate := Rate.stage stage
  let scene ← ofExcept (onlyScene n ((← read).sceneChildren n))
  let some distance ← sceneDistance scene stage
    | fail (.missingGeometry (.distance scene n))
  let origin ← valueOr "vec3(0.0, 0.0, 5.0)" n .origin rate .vec3
  let aim ← valueOr "vec3(0.0, 0.0, -1.0)" n .aim rate .vec3
  let march := s!"Raymarch{n}"
  let normal := s!"RaymarchNormal{n}"
  ensureFunction stage march (raymarch.marchFunction march distance)
  ensureFunction stage normal (raymarch.normalFunction normal distance)
  commit stage (.mainBody stage) (raymarchCode n stage origin aim)
  expose n .position .vec3 s!"raymarchPosition{n}" rate
  expose n .aim .vec3 s!"raymarchNormal{n}" rate
  expose n .depth .float s!"raymarchDepth{n}" rate

end GlslMaterial.Emission
