import GlslMaterial.Node.Config
import GlslMaterial.Source

/-!
Materials: a tree of nodes, the sources of the stages, and the tables of inputs and outputs through
which the stages are connected.
-/

set_option autoImplicit false

namespace GlslMaterial

structure Node where
  config : Config
  name : Option String
  rate : Rate
  parent : Option NodeId
  children : List NodeId
  /-- Symbols that the node gives to others, at most one for a trait. -/
  outputs : List (Trait × Symbol)
  generated : Bool
  /-- Traits, verbs and data that the node was made from. -/
  descriptor : Construct
deriving Inhabited

/-- An input of the material or an output of a stage. -/
structure Binding where
  rate : Rate
  key : Trait
  name : String
  /-- The slot of a texture input. -/
  sampler : Option Nat
  /-- Whether the code that assigns an output has been written. -/
  wired : Bool
  /-- The interface location that both ends of a bridge share. -/
  location : Option Nat
deriving Inhabited

structure Material where
  nodes : Array Node
  defaultRate : Rate
  version : Nat
  sources : PerStage Source
  /-- Inputs of all rates, those of one rate in the order of their declaration. -/
  inputs : List Binding
  outputs : List Binding
  /-- The next free texture slot. -/
  samplers : Nat
  /-- The next free bridge location at each consuming rate. -/
  varyings : Rate → Nat
  /-- Helpers that have been written, by stage and name. -/
  functions : List (Stage × String)
  warnings : List Warning
  generated : Bool

namespace Material

/-- The first node of a material, below which all others are built. -/
def root : NodeId := 0

def defaultVersion : Nat := 450

/-- A material with nothing but its root. -/
def ofRate (rate : Rate) : Material :=
  let rate := if rate = .auto then .stage .pixel else rate
  { nodes := #[⟨.root, none, rate, none, [], [], false, .bare .material⟩]
    defaultRate := rate
    version := defaultVersion
    sources := .constant .empty
    inputs := []
    outputs := []
    samplers := 0
    varyings := fun _ => 0
    functions := []
    warnings := []
    generated := false }

def source (m : Material) (stage : Stage) : Source :=
  m.sources.get stage

/-- The finished text of a stage, which is empty where the stage is not used. -/
def stageCode (m : Material) (stage : Stage) : String :=
  (m.source stage).compiled

/-- The stages that have code, in pipeline order. -/
def usedStages (m : Material) : List Stage :=
  Stage.all.filter fun stage => !(m.source stage).isEmpty

def stages (m : Material) : List (Stage × String) :=
  m.usedStages.map fun stage => (stage, m.stageCode stage)

end Material

end GlslMaterial
