import GlslMaterial.Descriptor.Vector
import GlslMaterial.Glsl.Literal
import GlslMaterial.Text.Lines

/-!
Primitives: the shapes that a scene is made of, as triangles, as lines and, for solid shapes, as a
signed distance.
-/

set_option autoImplicit false

namespace GlslMaterial

structure Vertex where
  position : Vec3
  normal : Vec3
  uv : Vec2
deriving DecidableEq, Inhabited

structure Triangle where
  a : Vertex
  b : Vertex
  c : Vertex
deriving DecidableEq, Inhabited

structure Line where
  a : Vertex
  b : Vertex
deriving DecidableEq, Inhabited

inductive Shape where
  | box
  | sphere (radius : Float32)
  | rect
  | triangle
  | line
deriving DecidableEq, Inhabited

/-- A shape at a place. The name is the word by which it was asked for. -/
structure Primitive where
  name : String
  shape : Shape
  center : Vec3
  scale : Vec3
deriving DecidableEq, Inhabited

/-- A distance to a primitive, and the function that its expression calls. -/
structure Distance where
  expr : String
  helper : String
  body : String
deriving DecidableEq, Repr

namespace Vec3

def unitX : Vec3 := ⟨1, 0, 0⟩
def unitY : Vec3 := ⟨0, 1, 0⟩
def unitZ : Vec3 := ⟨0, 0, 1⟩
def negativeX : Vec3 := ⟨-1, 0, 0⟩
def negativeY : Vec3 := ⟨0, -1, 0⟩
def negativeZ : Vec3 := ⟨0, 0, -1⟩

end Vec3

namespace Primitive

/-- The corners of a square in the order of its outline. -/
def corners : List (Float32 × Float32) :=
  [(-1, -1), (1, -1), (1, 1), (-1, 1)]

/-- A square corner in texture coordinates. -/
def cornerUv (corner : Float32 × Float32) : Vec2 :=
  ⟨(corner.1 + 1) * 0.5, (corner.2 + 1) * 0.5⟩

/-- Normal and two edge directions of the faces of a box. The cross product of the edges is the
normal, so that corners run counter-clockwise when seen from outside. -/
def boxFaces : List (Vec3 × Vec3 × Vec3) :=
  [(.unitX, .unitY, .unitZ), (.negativeX, .unitZ, .unitY), (.unitY, .unitZ, .unitX),
    (.negativeY, .unitX, .unitZ), (.unitZ, .unitX, .unitY), (.negativeZ, .unitY, .unitX)]

/-- The two triangles of an outline with four corners. -/
def fan : List Vertex → List Triangle
  | [a, b, c, d] => [⟨a, b, c⟩, ⟨a, c, d⟩]
  | _ => []

def boxTriangles (p : Primitive) : List Triangle :=
  let half := p.scale.scaled 0.5
  boxFaces.flatMap fun (n, u, v) =>
    fan <| corners.map fun corner =>
      ⟨p.center + (n + u.scaled corner.1 + v.scaled corner.2) * half, n, cornerUv corner⟩

/-- A line between two points, with texture coordinates along it. -/
def edge (a b normal : Vec3) : Line :=
  ⟨⟨a, normal, ⟨0, 0⟩⟩, ⟨b, normal, ⟨1, 0⟩⟩⟩

def boxLines (p : Primitive) : List Line :=
  let half := p.scale.scaled 0.5
  let point := fun (corner : Float32 × Float32) (z : Float32) =>
    p.center + (⟨corner.1, corner.2, z⟩ : Vec3) * half
  (corners.zip (corners.drop 1 ++ corners.take 1)).flatMap fun (corner, next) =>
    ([-1, 1] : List Float32).map (fun z =>
      edge (point corner z) (point next z) (Vec3.unitZ.scaled z)) ++
    [edge (point corner (-1)) (point corner 1) (Vec3.unitX.scaled corner.1)]

def sphereRings : Nat := 6
def sphereSegments : Nat := 12

def spherePoint (center : Vec3) (radius : Float32) (ring segment : Nat) : Vertex :=
  let ratio := fun (turn : Float32) (part whole : Nat) =>
    turn * Float32.ofNat part / Float32.ofNat whole
  let theta := ratio 3.14159265358979323846 ring sphereRings
  let phi := ratio 6.28318530717958647692 segment sphereSegments
  let n : Vec3 := ⟨theta.sin * phi.cos, theta.cos, -theta.sin * phi.sin⟩
  ⟨center + n.scaled radius, n,
    ⟨Float32.ofNat segment / Float32.ofNat sphereSegments,
      Float32.ofNat ring / Float32.ofNat sphereRings⟩⟩

/-- Each patch of a sphere is two triangles, and one at the poles. -/
def sphereTriangles (center : Vec3) (radius : Float32) : List Triangle :=
  let point := spherePoint center radius
  (List.range sphereRings).flatMap fun ring =>
    (List.range sphereSegments).flatMap fun segment =>
      let a := point ring segment
      let b := point (ring + 1) segment
      let c := point (ring + 1) (segment + 1)
      let d := point ring (segment + 1)
      (if ring = 0 then [] else [⟨a, b, d⟩]) ++
        (if ring + 1 = sphereRings then [] else [⟨d, b, c⟩])

def rectCorners (p : Primitive) : List Vertex :=
  let half := p.scale.scaled 0.5
  corners.map fun corner =>
    ⟨p.center + ⟨corner.1 * half.x, corner.2 * half.y, 0⟩, .unitZ, cornerUv corner⟩

def triangleCorners (p : Primitive) : List Vertex :=
  [(⟨-0.5, -0.5, 0⟩, ⟨0, 0⟩), (⟨0.5, -0.5, 0⟩, ⟨1, 0⟩), (⟨0, 0.5, 0⟩, ⟨0.5, 1⟩)].map
    fun (corner, uv) => ⟨p.center + corner * p.scale, .unitZ, uv⟩

/-- The closed line through some corners. -/
def outline (vertices : List Vertex) : List Line :=
  (vertices.zip (vertices.drop 1 ++ vertices.take 1)).map fun (a, b) => ⟨a, b⟩

def triangles (p : Primitive) : List Triangle :=
  match p.shape with
  | .box => p.boxTriangles
  | .sphere radius => sphereTriangles p.center radius
  | .rect => fan p.rectCorners
  | .triangle =>
    match p.triangleCorners with
    | [a, b, c] => [⟨a, b, c⟩]
    | _ => []
  | .line => []

def lines (p : Primitive) : List Line :=
  match p.shape with
  | .box => p.boxLines
  | .sphere _ => []
  | .rect => outline p.rectCorners
  | .triangle => outline p.triangleCorners
  | .line =>
    [edge (p.center + (⟨-0.5, 0, 0⟩ : Vec3) * p.scale) (p.center + (⟨0.5, 0, 0⟩ : Vec3) * p.scale)
      .unitZ]

def triangleCount (p : Primitive) : Nat :=
  p.triangles.length

def lineCount (p : Primitive) : Nat :=
  p.lines.length

def triangle? (p : Primitive) (index : Nat) : Option Triangle :=
  p.triangles[index]?

def line? (p : Primitive) (index : Nat) : Option Line :=
  p.lines[index]?

def boxHelper : String :=
  Text.block
    ["float SDFBox(in vec3 point, in vec3 extents) \x7b",
     "    vec3 q = abs(point) - extents;",
     "    return length(max(q, 0.0)) + min(max(q.x, max(q.y, q.z)), 0.0);",
     "\x7d"]

def sphereHelper : String :=
  Text.block
    ["float SDFSphere(in vec3 point, in float radius) \x7b",
     "    return length(point) - radius;",
     "\x7d"]

/-- The variable `point` as seen from the centre of the primitive. -/
def fromCenter (p : Primitive) (point : String) : String :=
  if p.center.x == 0 && p.center.y == 0 && p.center.z == 0 then point
  else s!"{point} - {Glsl.vec3 p.center}"

def distance? (p : Primitive) (point : String) : Option Distance :=
  match p.shape with
  | .box =>
    some ⟨Glsl.call "SDFBox" [p.fromCenter point, Glsl.vec3 (p.scale.scaled 0.5)], "SDFBox",
      boxHelper⟩
  | .sphere radius =>
    some ⟨Glsl.call "SDFSphere" [p.fromCenter point, Glsl.float32 radius], "SDFSphere",
      sphereHelper⟩
  | .rect | .triangle | .line => none

/-- The radius of a sphere: its mass, or half its width. -/
def sphereRadius (c : Construct) (scale : Vec3) : Except Failure Float32 :=
  let radius := match c.traitFloat? .mass with
    | some mass => Decimal.single mass
    | none => scale.x * 0.5
  if radius ≤ 0 then .error (.badData (.sphereRadius radius)) else .ok radius

def shapeNamed (c : Construct) (name : String) (scale : Vec3) : Except Failure Shape :=
  match name with
  | "box" | "cube" => .ok .box
  | "sphere" => (sphereRadius c scale).map .sphere
  | "rect" | "square" => .ok .rect
  | "triangle" => .ok .triangle
  | "line" => .ok .line
  | other => .error (.badData (.unknownPrimitive other))

/-- The primitive that a geometry construct asks for. Its name is read without regard to case. -/
def ofConstruct (c : Construct) : Except Failure Primitive := do
  if c.kind ≠ .geometry then throw (.badData (.notGeometry c.kind))
  let some name := c.name | throw (.badData .unnamedGeometry)
  let name := name.map Char.toLower
  let scale ← c.traitVec3 .scale (.splat 1)
  let center ← c.traitVec3 .position .zero
  return ⟨name, ← shapeNamed c name scale, center, scale⟩

end Primitive

end GlslMaterial
