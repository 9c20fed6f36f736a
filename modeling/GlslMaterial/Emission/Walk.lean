import GlslMaterial.Emission.Fractal
import GlslMaterial.Emission.Raster
import GlslMaterial.Emission.Raymarch
import GlslMaterial.Emission.Texture
import GlslMaterial.Emission.Transform

/-!
The walk through the nodes of a material: every node is written once, after its children. What is
below a scene is not visited.
-/

set_option autoImplicit false

namespace GlslMaterial.Emission

open GlslMaterial.Action (perform fail ofExcept)
open Material

def markGenerated (n : NodeId) : Action Unit :=
  perform (.visit n)

/-- What a node writes after its children. -/
def emit (n : NodeId) : Config → Action Unit
  | .root | .scene _ => pure ()
  | .camera camera => emitCamera n camera
  | .raster raster => emitRaster n raster
  | .raymarch raymarch => emitRaymarch n raymarch
  | .transform transform => emitTransform n transform
  | .texture texture => emitTexture n texture
  | .value wrapped => emitValue n wrapped
  | .fractal fractal => emitFractal n fractal
  | .light => fail (.unsupported (.nodeKind .light))
  | .raycast => fail (.unsupported (.nodeKind .raycast))
  | .raytrace => fail (.unsupported (.nodeKind .raytrace))

/-- Visits a node and, down to a depth of `fuel`, what is below it; `visit` comes after the
children. A node that has been visited before is left alone. -/
def walk (visit : NodeId → Config → Action Unit) : Nat → NodeId → Action Unit
  | 0, _ => pure ()
  | fuel + 1, n => do
    let node := (← read).node n
    if node.generated then return
    markGenerated n
    unless node.config.isScene do node.children.forM (walk visit fuel)
    visit n node.config

/-- Writes a node and what is below it. On a path no node comes twice, so that no path is longer
than the number of nodes. -/
def generateNode (n : NodeId) : Action Unit := do
  walk emit (← read).nodes.size n

/-- Writes all that is below a node, and notes that the node has been visited. -/
def descend (n : NodeId) : Action Unit := do
  markGenerated n
  ((← read).node n).children.forM generateNode

end GlslMaterial.Emission
