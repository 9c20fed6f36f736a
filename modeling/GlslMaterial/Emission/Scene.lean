import GlslMaterial.Material.Lookup

/-! What a scene writes when another node asks for it: an array of primitives or a distance. -/

set_option autoImplicit false

namespace GlslMaterial.Emission

open GlslMaterial.Action (perform fail ofExcept)
open Material

/-- Gives the nodes that can see this one an expression for a trait. -/
def expose (id : NodeId) (key : TraitId) (type : DataType) (expr : String) (rate : Rate) :
    Action Unit :=
  perform (.expose id (.typed key type) ⟨expr, type, rate⟩)

def sceneOf (m : Material) (id : NodeId) : Except Failure Scene :=
  match (m.node id).config with
  | .scene scene => .ok scene
  | other => .error (.misuse (.notAScene id other.kind))

/-- A constant array of primitives in GLSL. -/
structure PrimitiveArray where
  name : String
  count : Nat
deriving DecidableEq, Repr

def arrayName (topology : Topology) (id : NodeId) : String :=
  s!"Scene{topology.label}s{id}"

def sceneArray (topology : Topology) (id : NodeId) (stage : Stage) :
    Action (Option PrimitiveArray) := do
  let scene ← ofExcept (sceneOf (← read) id)
  let items := scene.literals topology
  if items.isEmpty then return none
  let name := arrayName topology id
  ensureFunction stage topology.label (Scene.structFor topology)
  ensureFunction stage name (Scene.arrayDeclaration topology.label name items)
  return some ⟨name, items.length⟩

/-- Writes the function for the distance to a scene and gives its name, if the scene has any solid
primitive. -/
def sceneDistance (id : NodeId) (stage : Stage) : Action (Option String) := do
  let scene ← ofExcept (sceneOf (← read) id)
  match scene.distances with
  | [] => return none
  | first :: rest =>
    ensureFunctions stage ((first :: rest).map fun term => (term.helper, term.body))
    unless rest.isEmpty do ensureFunction stage "SDFUnion" Scene.unionHelper
    let name := s!"SceneSDF{id}"
    ensureFunction stage name (Scene.distanceFunction name first rest)
    return some name

end GlslMaterial.Emission
