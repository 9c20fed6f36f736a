/-! Shader stages: the programmable phases of the pipeline, in pipeline order. -/

set_option autoImplicit false

namespace GlslMaterial

inductive Stage where
  | vertex
  | geometry
  | tessControl
  | tessEvaluation
  | pixel
  | compute
deriving DecidableEq, Repr, Inhabited

namespace Stage

def all : List Stage :=
  [vertex, geometry, tessControl, tessEvaluation, pixel, compute]

theorem mem_all (stage : Stage) : stage ∈ all := by
  cases stage <;> decide

/-- The name under which a stage is reported and saved. -/
def name : Stage → String
  | vertex => "vertex"
  | geometry => "geometry"
  | tessControl => "tess_ctrl"
  | tessEvaluation => "tess_eval"
  | pixel => "pixel"
  | compute => "compute"

end Stage

/-- One value for each stage. -/
structure PerStage (α : Type) where
  vertex : α
  geometry : α
  tessControl : α
  tessEvaluation : α
  pixel : α
  compute : α

namespace PerStage

variable {α : Type}

def constant (a : α) : PerStage α :=
  ⟨a, a, a, a, a, a⟩

def get (table : PerStage α) : Stage → α
  | .vertex => table.vertex
  | .geometry => table.geometry
  | .tessControl => table.tessControl
  | .tessEvaluation => table.tessEvaluation
  | .pixel => table.pixel
  | .compute => table.compute

def set (table : PerStage α) (stage : Stage) (a : α) : PerStage α :=
  match stage with
  | .vertex => { table with vertex := a }
  | .geometry => { table with geometry := a }
  | .tessControl => { table with tessControl := a }
  | .tessEvaluation => { table with tessEvaluation := a }
  | .pixel => { table with pixel := a }
  | .compute => { table with compute := a }

@[simp] theorem get_set_self (table : PerStage α) (stage : Stage) (a : α) :
    (table.set stage a).get stage = a := by
  cases stage <;> rfl

theorem get_set_of_ne (table : PerStage α) {stage other : Stage} (a : α)
    (different : other ≠ stage) : (table.set stage a).get other = table.get other := by
  cases stage <;> cases other <;> simp_all [get, set]

end PerStage

end GlslMaterial
