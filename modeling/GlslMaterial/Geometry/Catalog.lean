import GlslMaterial.Geometry.Primitive

/-!
Catalogs: geometry that is built once for all constructs that ask for the same primitive. What is
built is found again by a text that shows the primitive.
-/

set_option autoImplicit false

namespace GlslMaterial

/-- A primitive with its triangles and lines. -/
structure Geometry where
  primitive : Primitive
  triangles : List Triangle
  lines : List Line
deriving DecidableEq, Inhabited

def Vec3.shown (v : Vec3) : String :=
  s!"[{Decimal.plain32 v.x}, {Decimal.plain32 v.y}, {Decimal.plain32 v.z}]"

def Shape.shown : Shape → String
  | box => "Box"
  | sphere radius => s!"Sphere \x7b radius: {Decimal.record32 radius} \x7d"
  | rect => "Rect"
  | triangle => "Triangle"
  | line => "Line"

namespace Primitive

def build (p : Primitive) : Geometry :=
  ⟨p, p.triangles, p.lines⟩

/-- The text by which a primitive is found again. -/
def key (p : Primitive) : String :=
  s!"{p.name}:{p.shape.shown}:{p.center.shown}:{p.scale.shown}"

end Primitive

/-- What has been built and the text that it is found by, in the order of the first requests. -/
structure Catalog where
  entries : Array (String × Geometry)

namespace Catalog

def empty : Catalog :=
  ⟨#[]⟩

/-- Position and geometry of the entry for a primitive, which is built on the first request. -/
def fetch (catalog : Catalog) (p : Primitive) : (Nat × Geometry) × Catalog :=
  match catalog.entries.findIdx? fun entry => entry.1 = p.key with
  | some i => ((i, (catalog.entries.getD i (p.key, p.build)).2), catalog)
  | none => ((catalog.entries.size, p.build), ⟨catalog.entries.push (p.key, p.build)⟩)

/-- The geometry of a construct. A construct that asks for no primitive leaves the catalog as it
is. -/
def request (catalog : Catalog) (c : Construct) : Except Failure (Nat × Geometry) × Catalog :=
  match Primitive.ofConstruct c with
  | .ok p => ((catalog.fetch p).map .ok id)
  | .error failure => (.error failure, catalog)

end Catalog

end GlslMaterial
