import GlslMaterial.Failure
import GlslMaterial.Text.Lines

/-! Raster nodes: what a rasteriser draws, and the functions that find a hit. -/

set_option autoImplicit false

namespace GlslMaterial

/-- Which side of a triangle is left out: none, the one wound clockwise on the screen, or the one
wound counter-clockwise. -/
inductive Cull where
  | twoSided
  | normal
  | flipped
deriving DecidableEq, Repr, Inhabited

def Cull.label : Cull → String
  | twoSided => "TwoSided"
  | normal => "Normal"
  | flipped => "Flipped"

structure Raster where
  topology : Topology
  cull : Cull
deriving DecidableEq, Repr, Inhabited

namespace Raster

def topologyOf (c : Construct) : Except Failure Topology :=
  match c.traitString? .topology with
  | none | some "Triangle" => .ok .triangle
  | some "Line" => .ok .line
  | some other => .error (.misuse (.unknownTopology other))

/-- The cull mode by name, or else by whether both sides are asked for. -/
def cullOf (c : Construct) : Except Failure Cull :=
  match c.traitString? .cull, c.traitBool? .bilateral with
  | some "TwoSided", _ => .ok .twoSided
  | some "Normal", _ => .ok .normal
  | some "Flipped", _ => .ok .flipped
  | some other, _ => .error (.misuse (.unknownCull other))
  | none, some true => .ok .twoSided
  | none, _ => .ok .normal

def ofConstruct (c : Construct) : Except Failure Raster := do
  return ⟨← topologyOf c, ← cullOf c⟩

def resultStruct : String :=
  Text.block
    ["struct RasterizeResult \x7b",
     "    bool hit;",
     "    float depth;",
     "    vec2 uv;",
     "    vec3 normal;",
     "\x7d;"]

def edgeHelper : String :=
  Text.block
    ["float RasterEdge(in vec2 a, in vec2 b, in vec2 p) \x7b",
     "    return (b.x - a.x) * (p.y - a.y) - (b.y - a.y) * (p.x - a.x);",
     "\x7d"]

/-- The test that leaves a side of a triangle out. -/
def cullTest : Cull → List String
  | .twoSided => []
  | .normal => ["    if (area < 0.0) return result;"]
  | .flipped => ["    if (area > 0.0) return result;"]

def triangleFunction (name : String) (cull : Cull) : String :=
  Text.block <|
    [s!"RasterizeResult {name}(in Triangle triangle, in mat4 clip, in vec2 point) \x7b",
     "    RasterizeResult result = RasterizeResult(false, 1.0, vec2(0.0), vec3(0.0));",
     "    vec4 a = clip * vec4(triangle.a, 1.0);",
     "    vec4 b = clip * vec4(triangle.b, 1.0);",
     "    vec4 c = clip * vec4(triangle.c, 1.0);",
     "    if (a.w <= 0.0 || b.w <= 0.0 || c.w <= 0.0) return result;",
     "    vec2 sa = a.xy / a.w;",
     "    vec2 sb = b.xy / b.w;",
     "    vec2 sc = c.xy / c.w;",
     "    float area = RasterEdge(sa, sb, sc);",
     "    if (area == 0.0) return result;"] ++
    cullTest cull ++
    ["    float wa = RasterEdge(sb, sc, point) / area;",
     "    float wb = RasterEdge(sc, sa, point) / area;",
     "    float wc = RasterEdge(sa, sb, point) / area;",
     "    if (wa < 0.0 || wb < 0.0 || wc < 0.0) return result;",
     "    vec3 perspective = vec3(wa / a.w, wb / b.w, wc / c.w);",
     "    perspective /= perspective.x + perspective.y + perspective.z;",
     "    result.hit = true;",
     "    result.depth = wa * (a.z / a.w) + wb * (b.z / b.w) + wc * (c.z / c.w);",
     "    result.uv = triangle.uvA * perspective.x + triangle.uvB * perspective.y + " ++
       "triangle.uvC * perspective.z;",
     "    result.normal = normalize(cross(triangle.b - triangle.a, triangle.c - triangle.a));",
     "    return result;",
     "\x7d"]

def lineFunction (name : String) : String :=
  Text.block
    [s!"RasterizeResult {name}(in Line line, in mat4 clip, in vec2 point, in float width) \x7b",
     "    RasterizeResult result = RasterizeResult(false, 1.0, vec2(0.0), vec3(0.0));",
     "    vec4 a = clip * vec4(line.a, 1.0);",
     "    vec4 b = clip * vec4(line.b, 1.0);",
     "    if (a.w <= 0.0 || b.w <= 0.0) return result;",
     "    vec2 sa = a.xy / a.w;",
     "    vec2 sb = b.xy / b.w;",
     "    vec2 segment = sb - sa;",
     "    float lengthSquared = dot(segment, segment);",
     "    if (lengthSquared == 0.0) return result;",
     "    float t = clamp(dot(point - sa, segment) / lengthSquared, 0.0, 1.0);",
     "    if (length(point - (sa + segment * t)) > width) return result;",
     "    float w = mix(1.0 / a.w, 1.0 / b.w, t);",
     "    float corrected = (t / b.w) / w;",
     "    result.hit = true;",
     "    result.depth = mix(a.z / a.w, b.z / b.w, t);",
     "    result.uv = mix(line.uvA, line.uvB, corrected);",
     "    result.normal = normalize(vec3(-segment.y, segment.x, 0.0));",
     "    return result;",
     "\x7d"]

end Raster

end GlslMaterial
