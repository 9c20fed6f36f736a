import GlslMaterial.Material.Code
import GlslMaterial.Material.Forest
import GlslMaterial.Material.Interface

/-!
Events: what can happen to a material while its stages are written. A material is changed by events
only, so that the events since some moment tell how it has become what it is.
-/

set_option autoImplicit false

namespace GlslMaterial

/-- What happens where no symbol can be seen: the lookup fails, declares an input, or gives a
warning. -/
inductive Fallback where
  | required
  | input
  | soft
deriving DecidableEq, Repr, Inhabited

inductive Event where
  /-- The stages begin to be written. -/
  | begin
  /-- A node is entered. -/
  | visit (n : NodeId)
  /-- The symbol for a trait is looked up. -/
  | ask (viewer : NodeId) (key : Trait) (rate : Rate) (fallback : Fallback)
  | warn (warning : Warning)
  | input (rate : Rate) (key : Trait) (duplicates : Bool)
  | output (rate : Rate) (key : Trait) (duplicates : Bool)
  | wire (rate : Rate) (output : String)
  | link (outputRate : Rate) (output : String) (rate : Rate) (input : String)
  | start (stage : Stage)
  | write (stage : Stage) (marker : Marker) (code : String)
  /-- An output of a stage gets its value. -/
  | assign (stage : Stage) (output value : String)
  | define (stage : Stage) (text : String)
  /-- A helper is asked for, whether or not the stage has it. -/
  | require (stage : Stage) (name body : String)
  | expose (n : NodeId) (key : Trait) (symbol : Symbol)
  /-- The version is put into all stages. -/
  | stamp

namespace Material

/-- The material after an input has been asked for. -/
def withInput (m : Material) (rate : Rate) (key : Trait) (duplicates : Bool) : Material :=
  match m.addInput rate key duplicates with
  | .ok (_, m) => m
  | .error _ => m

/-- The material after an output has been asked for. -/
def withOutput (m : Material) (rate : Rate) (key : Trait) (duplicates : Bool) : Material :=
  match m.addOutput rate key duplicates with
  | .ok (_, m) => m
  | .error _ => m

/-- The material after an event. -/
def apply (m : Material) : Event → Material
  | .begin => { m with generated := true }
  | .visit n => m.modifyNode n fun node => { node with generated := true }
  | .ask _ _ _ _ => m
  | .warn warning => { m with warnings := m.warnings ++ [warning] }
  | .input rate key duplicates => m.withInput rate key duplicates
  | .output rate key duplicates => m.withOutput rate key duplicates
  | .wire rate output => m.markWired rate output
  | .link outputRate output rate input => m.link outputRate output rate input
  | .start stage => m.started stage
  | .write stage marker code => m.written stage marker code
  | .assign stage output value => m.written stage .colorize (assignment output value)
  | .define stage text => m.define stage text
  | .require stage name _ => m.remembered stage name
  | .expose n key symbol => m.expose n key symbol
  | .stamp => m.stamped

/-- The material after events in their order. -/
def replay (m : Material) (events : List Event) : Material :=
  events.foldl apply m

@[simp] theorem replay_nil (m : Material) : m.replay [] = m := rfl

@[simp] theorem replay_cons (m : Material) (event : Event) (events : List Event) :
    m.replay (event :: events) = (m.apply event).replay events := rfl

@[simp] theorem replay_append (m : Material) (first second : List Event) :
    m.replay (first ++ second) = (m.replay first).replay second :=
  List.foldl_append

end Material

end GlslMaterial
