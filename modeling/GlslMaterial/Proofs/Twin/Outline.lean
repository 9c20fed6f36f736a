import GlslMaterial.Material.Lookup
import GlslMaterial.Proofs.History.Replay

/-!
The outline of a material: its nodes without the code of fractals, and its tables. What a node looks
up depends on the outline only, and the outline does not depend on any code that has been written.
-/

set_option autoImplicit false

namespace GlslMaterial

/-- A configuration without the code of a fractal. -/
def Config.uncoded : Config → Config
  | .fractal f => .fractal { f with code := "" }
  | other => other

@[simp] theorem Config.kind_uncoded (config : Config) : config.uncoded.kind = config.kind := by
  cases config <;> rfl

@[simp] theorem Config.isScene_uncoded (config : Config) :
    config.uncoded.isScene = config.isScene := by
  simp [isScene]

/-- A node without the code of a fractal and the construct that it was made from. -/
def Node.outline (node : Node) : Node :=
  { node with config := node.config.uncoded, descriptor := default }

namespace Material

/-- All of a material but the code of its fractals and what has been written. -/
def outline (m : Material) : Material :=
  { m with nodes := m.nodes.map Node.outline, sources := .constant .empty, functions := [] }

variable (m : Material)

@[simp] theorem node_outline (n : NodeId) : m.outline.node n = (m.node n).outline := by
  by_cases known : n < m.nodes.size
  · simp [node, outline, known]
  · simp only [node, outline, Array.getD_eq_getD_getElem?, Array.getElem?_map,
      Array.getElem?_eq_none (Nat.le_of_not_lt known), Option.map_none, Option.getD_none]
    rfl

@[simp] theorem size_outline : m.outline.nodes.size = m.nodes.size := by
  simp [outline]

@[simp] theorem outline_outline : m.outline.outline = m.outline := by
  have twice (node : Node) : node.outline.outline = node.outline := by
    unfold Node.outline
    cases node.config <;> rfl
  simp only [outline, Array.map_map]
  congr 1
  exact congrArg (Array.map · m.nodes) (funext twice)

theorem climb_outline (fuel : Nat) (n : NodeId) : m.outline.climb fuel n = m.climb fuel n := by
  induction fuel generalizing n with
  | zero => rfl
  | succ fuel ih =>
    simp only [climb, node_outline, Node.outline]
    cases (m.node n).parent with
    | none => rfl
    | some parent => exact congrArg (n :: ·) (ih parent)

theorem preorder_outline (fuel : Nat) (n : NodeId) :
    m.outline.preorder fuel n = m.preorder fuel n := by
  induction fuel generalizing n with
  | zero => rfl
  | succ fuel ih =>
    simp only [preorder, node_outline, Node.outline]
    rw [show m.outline.preorder fuel = m.preorder fuel from funext ih]

@[simp] theorem subtree_outline (n : NodeId) : m.outline.subtree n = m.subtree n := by
  simp only [subtree, node_outline, size_outline]
  rw [show m.outline.preorder m.nodes.size = m.preorder m.nodes.size from
    funext (m.preorder_outline _)]
  rfl

theorem searchAbove_outline (fuel : Nat) (n : NodeId) :
    m.outline.searchAbove fuel n = m.searchAbove fuel n := by
  induction fuel generalizing n with
  | zero => rfl
  | succ fuel ih =>
    simp only [searchAbove, node_outline, Node.outline, preceding]
    cases (m.node n).parent with
    | none => rfl
    | some parent =>
      dsimp only
      rw [ih, show m.outline.subtree = m.subtree from funext m.subtree_outline]

@[simp] theorem find?_outline (viewer : NodeId) (key : Trait) (rate : Rate) :
    m.outline.find? viewer key rate = m.find? viewer key rate := by
  simp only [find?, searchOrder, size_outline, searchAbove_outline, node_outline]
  rfl

@[simp] theorem stage?_outline (n : NodeId) : m.outline.stage? n = m.stage? n := by
  simp only [stage?, lineage, size_outline, climb_outline, node_outline]
  rfl

@[simp] theorem stageOf_outline (n : NodeId) : m.outline.stageOf n = m.stageOf n := by
  simp [stageOf, Node.outline]

@[simp] theorem sceneChildren_outline (n : NodeId) :
    m.outline.sceneChildren n = m.sceneChildren n := by
  simp [sceneChildren, Node.outline]

@[simp] theorem concreteRate_outline (viewer : NodeId) (rate : Rate) :
    m.outline.concreteRate viewer rate = m.concreteRate viewer rate := by
  simp only [concreteRate, stage?_outline]
  rfl

theorem addInput_outline (rate : Rate) (key : Trait) (duplicates : Bool) :
    m.outline.addInput rate key duplicates =
      (m.addInput rate key duplicates).map fun added => (added.1, added.2.outline) := by
  unfold addInput
  cases key.resolved with
  | error failure => rfl
  | ok typed =>
    simp only [bind, Except.bind]
    cases inputRate rate typed with
    | error failure => rfl
    | ok kept =>
      simp only [show m.outline.inputsAt kept = m.inputsAt kept from rfl]
      split
      · rfl
      · split <;> rfl

theorem addOutput_outline (rate : Rate) (key : Trait) (duplicates : Bool) :
    m.outline.addOutput rate key duplicates =
      (m.addOutput rate key duplicates).map fun added => (added.1, added.2.outline) := by
  unfold addOutput
  split
  · rfl
  · cases key.resolved with
    | error failure => rfl
    | ok typed =>
      simp only [bind, Except.bind, show m.outline.outputsAt rate = m.outputsAt rate from rfl]
      split <;> rfl

theorem outline_modifyNode (n : NodeId) {change outlined : Node → Node}
    (same : ∀ node, (change node).outline = outlined node.outline) :
    (m.modifyNode n change).outline = m.outline.modifyNode n outlined := by
  have nodes : (m.nodes.modify n change).map Node.outline =
      (m.nodes.map Node.outline).modify n outlined := by
    apply Array.ext_getElem?
    intro i
    simp only [Array.getElem?_map, Array.getElem?_modify]
    split
    · cases m.nodes[i]? with
      | none => rfl
      | some node => exact congrArg some (same node)
    · rfl
  simp only [outline, modifyNode, nodes]

theorem outline_apply_of_isText {event : Event} (text : event.isText = true) :
    (m.apply event).outline = m.outline := by
  rw [m.apply_text text]
  rfl

theorem outline_apply (event : Event) :
    (m.apply event).outline = (m.outline.apply event).outline := by
  by_cases text : event.isText = true
  · rw [outline_apply_of_isText _ text, outline_apply_of_isText _ text, outline_outline]
  · cases event with
    | visit n =>
      have whole : (m.apply (.visit n)).outline = m.outline.apply (.visit n) :=
        m.outline_modifyNode n fun _ => rfl
      rw [← whole, outline_outline]
    | expose n key symbol =>
      have whole : (m.apply (.expose n key symbol)).outline =
          m.outline.apply (.expose n key symbol) := m.outline_modifyNode n fun _ => rfl
      rw [← whole, outline_outline]
    | input rate key duplicates =>
      simp only [apply, withInput, addInput_outline]
      cases m.addInput rate key duplicates with
      | error failure => exact m.outline_outline.symm
      | ok added => exact (outline_outline added.2).symm
    | output rate key duplicates =>
      simp only [apply, withOutput, addOutput_outline]
      cases m.addOutput rate key duplicates with
      | error failure => exact m.outline_outline.symm
      | ok added => exact (outline_outline added.2).symm
    | link outputRate output rate input =>
      have whole : (m.link outputRate output rate input).outline =
          m.outline.link outputRate output rate input := by
        unfold link
        rw [show m.outline.outputs = m.outputs from rfl, show m.outline.inputs = m.inputs from rfl]
        split
        · split <;> rfl
        · rfl
      show (m.link outputRate output rate input).outline = _
      rw [← outline_outline, whole]
      rfl
    | begin | ask | warn | wire => exact (outline_outline (m.apply _)).symm
    | _ => simp [Event.isText] at text

end Material

end GlslMaterial
