import GlslMaterial.Stage

/-!
Refresh rates: how often a value changes. Uniform rates are set from outside the shader; a stage
rate is once per invocation of that stage. Rates are ordered from coarse to fine.
-/

set_option autoImplicit false

namespace GlslMaterial

/-- Rates of values that stay constant while a stage runs. -/
inductive UniformRate where
  | tick
  | pass
  | camera
  | level
  | renderable
  | drawInstance
deriving DecidableEq, Repr, Inhabited

namespace UniformRate

def all : List UniformRate :=
  [tick, pass, camera, level, renderable, drawInstance]

theorem mem_all (rate : UniformRate) : rate ∈ all := by
  cases rate <;> decide

/-- Static rates are owned by the engine and bound once per frame. -/
def isStatic : UniformRate → Bool
  | tick | pass | camera | level => true
  | renderable | drawInstance => false

/-- Set and binding of the block that holds the values of a rate. Static rates share set 0, the
others set 1. -/
def binding : UniformRate → Nat × Nat
  | tick => (0, 0)
  | pass => (0, 1)
  | camera => (0, 2)
  | level => (0, 3)
  | renderable => (1, 0)
  | drawInstance => (1, 1)

end UniformRate

/-- The rate `auto` is taken from the context of use. -/
inductive Rate where
  | auto
  | uniform (rate : UniformRate)
  | stage (stage : Stage)
deriving DecidableEq, Repr, Inhabited

namespace Rate

/-- Position in the order from coarse to fine. -/
def rank : Rate → Nat
  | auto => 0
  | uniform .tick => 1
  | uniform .pass => 2
  | uniform .camera => 3
  | uniform .level => 4
  | uniform .renderable => 5
  | uniform .drawInstance => 6
  | stage .vertex => 7
  | stage .tessControl => 8
  | stage .tessEvaluation => 9
  | stage .geometry => 10
  | stage .pixel => 11
  | stage .compute => 12

instance : LE Rate := ⟨fun a b => a.rank ≤ b.rank⟩
instance : LT Rate := ⟨fun a b => a.rank < b.rank⟩
instance (a b : Rate) : Decidable (a ≤ b) := inferInstanceAs (Decidable (a.rank ≤ b.rank))
instance (a b : Rate) : Decidable (a < b) := inferInstanceAs (Decidable (a.rank < b.rank))

/-- All rates from coarse to fine. -/
def all : List Rate :=
  [auto, uniform .tick, uniform .pass, uniform .camera, uniform .level, uniform .renderable,
    uniform .drawInstance, stage .vertex, stage .tessControl, stage .tessEvaluation,
    stage .geometry, stage .pixel, stage .compute]

theorem mem_all (rate : Rate) : rate ∈ all := by
  rcases rate with _ | rate | stage
  · decide
  · cases rate <;> decide
  · cases stage <;> decide

def name : Rate → String
  | auto => "Auto"
  | uniform .tick => "Tick"
  | uniform .pass => "Pass"
  | uniform .camera => "Camera"
  | uniform .level => "Level"
  | uniform .renderable => "Renderable"
  | uniform .drawInstance => "Instance"
  | stage .vertex => "Vertex"
  | stage .tessControl => "TessCtrl"
  | stage .tessEvaluation => "TessEval"
  | stage .geometry => "Primitive"
  | stage .pixel => "Pixel"
  | stage .compute => "Compute"

def ofName? (text : String) : Option Rate :=
  all.find? fun rate => rate.name == text

@[simp] theorem ofName?_name (rate : Rate) : ofName? rate.name = some rate := by
  rcases rate with _ | rate | stage
  · decide
  · cases rate <;> decide
  · cases stage <;> decide

def stage? : Rate → Option Stage
  | stage s => some s
  | _ => none

def uniform? : Rate → Option UniformRate
  | uniform u => some u
  | _ => none

def isUniform (rate : Rate) : Bool :=
  rate.uniform?.isSome

/-- Place among the concrete rates; `auto` has none. -/
def index? (rate : Rate) : Option Nat :=
  if rate = auto then none else some (rate.rank - 1)

end Rate

end GlslMaterial
