/-! Topologies: what a geometry is drawn as. -/

set_option autoImplicit false

namespace GlslMaterial

inductive Topology where
  | triangle
  | line
deriving DecidableEq, Repr, Inhabited

namespace Topology

def label : Topology → String
  | triangle => "Triangle"
  | line => "Line"

/-- The topology in running text. -/
def word : Topology → String
  | triangle => "triangle"
  | line => "line"

end Topology

end GlslMaterial
