/-! Node identities. -/

set_option autoImplicit false

namespace GlslMaterial

/-- Nodes are numbered in the order in which they are made; the root of a material is node 0. -/
abbrev NodeId := Nat

end GlslMaterial
