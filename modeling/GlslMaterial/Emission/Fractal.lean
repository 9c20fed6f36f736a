import GlslMaterial.Emission.Value

/-! What a fractal node writes: the sum of its octaves at a point of the plane. -/

set_option autoImplicit false

namespace GlslMaterial.Emission

open GlslMaterial.Action (perform fail ofExcept)
open Material

/-- Where the fractal is taken in the pixel stage: texture coordinates that can be seen, or else
the place on the screen. -/
def pixelDomain (n : NodeId) : Action String := do
  let rate := Rate.stage .pixel
  let uv ← if ((← read).find? n (.ofId .sampler) rate).isSome then
      lookupAs n (.ofId .sampler) rate .vec2 .soft
    else pure none
  match uv with
  | some uv => return uv
  | none =>
    let resolution ← exprOrInput n .resolution (.uniform .camera)
    return s!"gl_FragCoord.xy / {resolution}"

/-- Where the fractal is taken. -/
def domain (n : NodeId) (stage : Stage) : Action String :=
  if stage = .pixel then pixelDomain n else valueOrInput n .sampler (.stage stage) .vec2

/-- The sum in the type of the trait that it is given as. -/
def spread (n : NodeId) (id : TraitId) : String × DataType :=
  match id.defaultType? with
  | some .vec4 => (s!"vec4(vec3(fbm{n}), 1.0)", .vec4)
  | some .vec3 => (s!"vec3(fbm{n})", .vec3)
  | some .vec2 => (s!"vec2(fbm{n})", .vec2)
  | _ => (s!"fbm{n}", .float)

/-- Writes the noise functions that an octave calls. -/
def ensureNoise (stage : Stage) (code : String) : Action Unit := do
  if Text.contains "SimplexNoise2D".toList code.toList then discard <| ensureSimplex stage 2
  if Text.contains "SimplexNoise3D".toList code.toList then discard <| ensureSimplex stage 3

def emitFractal (n : NodeId) (fractal : Fractal) : Action Unit := do
  let stage ← ofExcept ((← read).stageOf n)
  let point ← domain n stage
  ensureNoise stage fractal.code
  let function := s!"FBM{n}"
  ensureFunction stage function (fractal.function function)
  let (value, type) := spread n fractal.output
  commit stage (.mainBody stage) s!"float fbm{n} = {function}({point});"
  expose n fractal.output type value (.stage stage)

end GlslMaterial.Emission
