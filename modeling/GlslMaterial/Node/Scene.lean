import GlslMaterial.Geometry.Primitive

/-!
Scene nodes: collections of primitives. A scene writes no code by itself; other nodes ask it for
its triangles, its lines or the distance to it.
-/

set_option autoImplicit false

namespace GlslMaterial

structure Scene where
  primitives : List Primitive
deriving DecidableEq, Inhabited

namespace Scene

def ofConstruct (c : Construct) : Except Failure Scene := do
  let primitives ← (c.childrenOfKind .geometry).mapM fun child =>
    withContext (.creatingGeometry child.displayName?) (Primitive.ofConstruct child)
  return ⟨primitives⟩

/-- All triangles, asked for one after the other. -/
def triangles (s : Scene) : List Triangle :=
  s.primitives.flatMap fun p => (List.range p.triangleCount).filterMap p.triangle?

def lines (s : Scene) : List Line :=
  s.primitives.flatMap fun p => (List.range p.lineCount).filterMap p.line?

/-- The distances to all solid primitives. -/
def distances (s : Scene) : List Distance :=
  s.primitives.filterMap (Primitive.distance? · "point")

/-- How many primitives of a topology the shapes say they have. -/
def count (s : Scene) : Topology → Nat
  | .triangle => (s.primitives.map Primitive.triangleCount).foldr (· + ·) 0
  | .line => (s.primitives.map Primitive.lineCount).foldr (· + ·) 0

def hasGeometry (s : Scene) (topology : Topology) : Bool :=
  0 < s.count topology

def triangleStruct : String :=
  Text.block
    ["struct Triangle \x7b",
     "    vec3 a;",
     "    vec3 b;",
     "    vec3 c;",
     "    vec2 uvA;",
     "    vec2 uvB;",
     "    vec2 uvC;",
     "\x7d;"]

def lineStruct : String :=
  Text.block
    ["struct Line \x7b",
     "    vec3 a;",
     "    vec3 b;",
     "    vec2 uvA;",
     "    vec2 uvB;",
     "\x7d;"]

def unionHelper : String :=
  Text.block
    ["float SDFUnion(in float a, in float b) \x7b",
     "    return min(a, b);",
     "\x7d"]

/-- The structure that holds a primitive of a topology. -/
def structFor : Topology → String
  | .triangle => triangleStruct
  | .line => lineStruct

def triangleLiteral (t : Triangle) : String :=
  Glsl.call "Triangle" ([t.a, t.b, t.c].map (fun v => Glsl.vec3 v.position) ++
    [t.a, t.b, t.c].map (fun v => Glsl.vec2 v.uv))

def lineLiteral (l : Line) : String :=
  Glsl.call "Line" ([l.a, l.b].map (fun v => Glsl.vec3 v.position) ++
    [l.a, l.b].map (fun v => Glsl.vec2 v.uv))

def literals (s : Scene) : Topology → List String
  | .triangle => s.triangles.map triangleLiteral
  | .line => s.lines.map lineLiteral

/-- A constant array with one item on each line. -/
def arrayDeclaration (type name : String) (items : List String) : String :=
  let count := items.length
  let listed := ",\n".intercalate (items.map ("    " ++ ·))
  s!"const {type} {name}[{count}] = {type}[{count}](\n{listed}\n);"

/-- The union of two distances. -/
def union (a b : String) : String :=
  Glsl.call "SDFUnion" [a, b]

def distanceFunction (name : String) (first : Distance) (rest : List Distance) : String :=
  let expr := (rest.map Distance.expr).foldl union first.expr
  Text.block
    [s!"float {name}(in vec3 point) \x7b",
     s!"    return {expr};",
     "\x7d"]

end Scene

end GlslMaterial
