import GlslMaterial.Failure

/-! Camera nodes: how a camera is set up. -/

set_option autoImplicit false

namespace GlslMaterial

/-- A panoramic camera maps its whole field of view onto the screen. -/
inductive Projection where
  | perspective
  | panoramic
deriving DecidableEq, Repr, Inhabited

def Projection.label : Projection → String
  | perspective => "Perspective"
  | panoramic => "Panoramic"

/-- A camera without a view is flat. -/
structure Camera where
  projection : Projection
  hasView : Bool
deriving DecidableEq, Repr, Inhabited

namespace Camera

def projectionOf (c : Construct) : Except Failure Projection :=
  match c.traitString? .projection with
  | none | some "Perspective" => .ok .perspective
  | some "Panoramic" => .ok .panoramic
  | some other => .error (.misuse (.unknownProjection other))

def ofConstruct (c : Construct) : Except Failure Camera := do
  return ⟨← projectionOf c, (c.findTrait? .view).isSome⟩

end Camera

end GlslMaterial
