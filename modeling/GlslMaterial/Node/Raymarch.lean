import GlslMaterial.Decimal.Whole
import GlslMaterial.Failure
import GlslMaterial.Glsl.Literal
import GlslMaterial.Text.Lines

/-! Raymarch nodes: how a ray is followed along the distance to a scene. -/

set_option autoImplicit false

namespace GlslMaterial

structure Raymarch where
  /-- Distance below which a sample is a hit. -/
  precision : Float
  maxDistance : Float
  stride : Float
  /-- Stride beyond half of the greatest distance. -/
  farStride : Float
  minStep : Float
  iterations : Nat
deriving DecidableEq, Inhabited

namespace Raymarch

/-- A positive, finite trait, or `absent` where there is none. -/
def positive (c : Construct) (id : TraitId) (absent : Float) : Except Failure Float :=
  match c.traitFloat? id with
  | none => .ok absent
  | some x => if x > 0 && x.isFinite then .ok x else .error (.misuse (.notPositive id x))

/-- A whole number of iterations that has at most 32 bits. -/
def iterationsOf (x : Float) : Except Failure Nat :=
  match Decimal.natural? x with
  | some n => if n < UInt32.size then .ok n else .error (.misuse (.fractionalIterations x))
  | none => .error (.misuse (.fractionalIterations x))

def ofConstruct (c : Construct) : Except Failure Raymarch := do
  let iterations ← iterationsOf (← positive c .count 128)
  return {
    precision := ← positive c .precision 0.001
    maxDistance := ← positive c .distance 100
    stride := ← positive c .stride 0.9
    farStride := ← positive c .farStride 1
    minStep := ← positive c .minStep 0.0001
    iterations }

/-- The function that follows a ray to the first hit, and is negative where there is none. -/
def marchFunction (r : Raymarch) (name distance : String) : String :=
  let precision := Glsl.float64 r.precision
  let farthest := Glsl.float64 r.maxDistance
  let stride := Glsl.float64 r.stride
  let farStride := Glsl.float64 r.farStride
  let minStep := Glsl.float64 r.minStep
  Text.block
    [s!"float {name}(in vec3 origin, in vec3 direction) \x7b",
     "    float travelled = 0.0;",
     s!"    for (int i = 0; i < {r.iterations}; i++) \x7b",
     s!"        float nearest = {distance}(origin + direction * travelled);",
     s!"        if (nearest < {precision}) return travelled;",
     s!"        float stride = travelled > {farthest} * 0.5 ? {farStride} : {stride};",
     s!"        travelled += max(nearest * stride, {minStep});",
     s!"        if (travelled > {farthest}) break;",
     "    \x7d",
     "    return -1.0;",
     "\x7d"]

/-- The function for the normal at a point of the surface. -/
def normalFunction (r : Raymarch) (name distance : String) : String :=
  Text.block
    [s!"vec3 {name}(in vec3 point) \x7b",
     s!"    vec2 e = vec2({Glsl.float64 r.precision}, 0.0);",
     "    return normalize(vec3(",
     s!"        {distance}(point + e.xyy) - {distance}(point - e.xyy),",
     s!"        {distance}(point + e.yxy) - {distance}(point - e.yxy),",
     s!"        {distance}(point + e.yyx) - {distance}(point - e.yyx)));",
     "\x7d"]

end Raymarch

end GlslMaterial
