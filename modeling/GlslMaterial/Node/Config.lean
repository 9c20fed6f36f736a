import GlslMaterial.Node.Camera
import GlslMaterial.Node.Fractal
import GlslMaterial.Node.Raster
import GlslMaterial.Node.Raymarch
import GlslMaterial.Node.Scene
import GlslMaterial.Node.Texture
import GlslMaterial.Node.Transform
import GlslMaterial.Node.Value

/-!
Node configurations: what the construct of a node says, checked before any code is written.
-/

set_option autoImplicit false

namespace GlslMaterial

inductive Config where
  | root
  | camera (camera : Camera)
  | scene (scene : Scene)
  | raster (raster : Raster)
  | raymarch (raymarch : Raymarch)
  | transform (transform : Transform)
  | texture (texture : Texture)
  | value (wrapped : Wrapped)
  | fractal (fractal : Fractal)
  | light
  | raycast
  | raytrace
deriving Inhabited

namespace Config

def kind : Config → Kind
  | root => .material
  | camera _ => .camera
  | scene _ => .scene
  | raster _ => .raster
  | raymarch _ => .raymarch
  | transform _ => .transform
  | texture _ => .texture
  | value _ => .value
  | fractal _ => .fbm
  | light => .light
  | raycast => .raycast
  | raytrace => .raytrace

def isScene (config : Config) : Bool :=
  config.kind == .scene

/-- The configuration of a node construct. Data that the node makes no use of is refused. -/
def ofConstruct (c : Construct) : Except Failure Config := do
  if let some child := c.dataChildren.find? fun child => !c.kind.accepts child.kind then
    throw (.misuse (.notUnderKind child.kind c.kind))
  match c.kind with
  | .camera => return .camera (← Camera.ofConstruct c)
  | .scene => return .scene (← Scene.ofConstruct c)
  | .raster => return .raster (← Raster.ofConstruct c)
  | .raymarch => return .raymarch (← Raymarch.ofConstruct c)
  | .transform => return .transform (← Transform.ofConstruct c)
  | .texture => return .texture (← Texture.ofConstruct c)
  | .value => return .value (← Wrapped.ofConstruct c)
  | .fbm => return .fractal (← Fractal.ofConstruct c)
  | .light => return .light
  | .raycast => return .raycast
  | .raytrace => return .raytrace
  | other => throw (.misuse (.notANode other))

end Config

end GlslMaterial
