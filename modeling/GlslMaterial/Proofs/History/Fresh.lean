import GlslMaterial.Proofs.Forest.Building
import GlslMaterial.Proofs.History.Replay

/-!
A material that has been built from its descriptor has nothing but its nodes, and these have their
configurations from the descriptor.
-/

set_option autoImplicit false

namespace GlslMaterial.Material

/-- Nothing has been visited, exposed, bound or written yet. -/
structure Fresh (m : Material) : Prop where
  visited : ∀ n, (m.node n).generated = false
  shown : ∀ n, (m.node n).outputs = []
  inputs : m.inputs = []
  outputs : m.outputs = []
  samplers : m.samplers = 0
  sources : ∀ stage, m.source stage = .empty
  functions : m.functions = []
  generated : m.generated = false

theorem fresh_ofRate (rate : Rate) : (ofRate rate).Fresh where
  visited n := by
    cases n with
    | zero => rfl
    | succ n => rfl
  shown n := by
    cases n with
    | zero => rfl
    | succ n => rfl
  inputs := rfl
  outputs := rfl
  samplers := rfl
  sources stage := by cases stage <;> rfl
  functions := rfl
  generated := rfl

variable {m : Material} {c : Construct}

theorem Fresh.modifyNode (fresh : m.Fresh) (id : NodeId) {change : Node → Node}
    (keeps : ∀ node, (change node).outputs = node.outputs ∧
      (change node).generated = node.generated) : (m.modifyNode id change).Fresh where
  visited n := by
    rcases m.node_modifyNode id n change with same | ⟨-, same⟩
    · rw [same, fresh.visited]
    · rw [same, (keeps _).2, fresh.visited]
  shown n := by
    rcases m.node_modifyNode id n change with same | ⟨-, same⟩
    · rw [same, fresh.shown]
    · rw [same, (keeps _).1, fresh.shown]
  inputs := fresh.inputs
  outputs := fresh.outputs
  samplers := fresh.samplers
  sources := fresh.sources
  functions := fresh.functions
  generated := fresh.generated

theorem Fresh.addNode (fresh : m.Fresh) (config : Config) (name : Option String)
    (rate : Rate) (descriptor : Construct) : (m.addNode config name rate descriptor).2.Fresh where
  visited n := by
    have known := fresh.visited n
    simp only [node, Array.getD_eq_getD_getElem?, Material.addNode, Array.getElem?_push] at known ⊢
    split
    · rfl
    · exact known
  shown n := by
    have known := fresh.shown n
    simp only [node, Array.getD_eq_getD_getElem?, Material.addNode, Array.getElem?_push] at known ⊢
    split
    · rfl
    · exact known
  inputs := fresh.inputs
  outputs := fresh.outputs
  samplers := fresh.samplers
  sources := fresh.sources
  functions := fresh.functions
  generated := fresh.generated

theorem Fresh.detach (fresh : m.Fresh) (child : NodeId) : (m.detach child).Fresh := by
  unfold Material.detach removeChild
  split
  · exact fresh
  · split
    · refine Fresh.modifyNode (Fresh.modifyNode fresh _ ?_) _ ?_ <;> exact fun _ => ⟨rfl, rfl⟩
    · exact fresh

theorem Fresh.addChild {after : Material} (fresh : m.Fresh) {parent child : NodeId}
    (added : m.addChild parent child = .ok after) : after.Fresh := by
  unfold Material.addChild at added
  split at added
  · simp at added
  · split at added
    · simp at added
    · split at added
      · obtain rfl := Except.ok.inj added
        exact fresh
      · obtain rfl := Except.ok.inj added
        refine Fresh.modifyNode (Fresh.modifyNode (fresh.detach child) _ ?_) _ ?_ <;>
          exact fun _ => ⟨rfl, rfl⟩

theorem Fresh.plant {after : Material} (fresh : m.Fresh) {parent id : NodeId}
    (planted : m.plant parent c = .ok (id, after)) : after.Fresh := by
  obtain ⟨rate, config, target, -, added⟩ := plant_eq_ok planted
  exact (fresh.addNode config _ rate _).addChild added

theorem fresh_ofConstruct (built : ofConstruct c = .ok m) : m.Fresh := by
  refine ofConstruct_keeps built (fun rate version => ?_)
    fun _ _ _ _ _ _ fresh planted => Fresh.plant fresh planted
  have bare : ((ofRate rate).modifyNode root fun node =>
      { node with descriptor := c.withoutNodes }).Fresh := by
    apply Fresh.modifyNode (fresh_ofRate _)
    exact fun _ => ⟨rfl, rfl⟩
  exact ⟨bare.visited, bare.shown, bare.inputs, bare.outputs, bare.samplers, bare.sources,
    bare.functions, bare.generated⟩

/-- Every node has the configuration of one of some constructs, if it is not the root. -/
def Configured (given : List Construct) (m : Material) : Prop :=
  ∀ n, (m.node n).config = .root ∨ ∃ d ∈ given, Config.ofConstruct d = .ok (m.node n).config

namespace Configured

variable {given : List Construct} {m after : Material}

theorem modifyNode (configured : m.Configured given) (id : NodeId) {change : Node → Node}
    (keeps : ∀ node, (change node).config = node.config) :
    (m.modifyNode id change).Configured given := by
  intro n
  have same : ((m.modifyNode id change).node n).config = (m.node n).config := by
    rcases m.node_modifyNode id n change with same | ⟨-, same⟩
    · rw [same]
    · rw [same, keeps]
  rw [same]
  exact configured n

theorem addNode (configured : m.Configured given) {d : Construct} (member : d ∈ given)
    {config : Config} (made : Config.ofConstruct d = .ok config) (name : Option String)
    (rate : Rate) (descriptor : Construct) :
    (m.addNode config name rate descriptor).2.Configured given := by
  intro n
  have known := configured n
  simp only [node, Array.getD_eq_getD_getElem?, Material.addNode, Array.getElem?_push] at known ⊢
  split
  · exact .inr ⟨d, member, made⟩
  · exact known

theorem detach (configured : m.Configured given) (child : NodeId) :
    (m.detach child).Configured given := by
  unfold Material.detach removeChild
  split
  · exact configured
  · split
    · refine modifyNode (modifyNode configured _ ?_) _ ?_ <;> exact fun _ => rfl
    · exact configured

theorem addChild (configured : m.Configured given) {parent child : NodeId}
    (added : m.addChild parent child = .ok after) : after.Configured given := by
  unfold Material.addChild at added
  split at added
  · simp at added
  · split at added
    · simp at added
    · split at added
      · obtain rfl := Except.ok.inj added
        exact configured
      · obtain rfl := Except.ok.inj added
        refine modifyNode (modifyNode (configured.detach child) _ ?_) _ ?_ <;> exact fun _ => rfl

end Configured

theorem configured_ofConstruct (built : ofConstruct c = .ok m) : m.Configured c.tree := by
  refine ofConstruct_keeps built (fun rate version => ?_) fun d below m parent id after before
    planted => ?_
  · have bare : ((ofRate rate).modifyNode root fun node =>
        { node with descriptor := c.withoutNodes }).Configured c.tree := by
      apply Configured.modifyNode
      · intro n
        cases n <;> exact .inl rfl
      · exact fun _ => rfl
    exact bare
  · obtain ⟨rate, config, target, made, added⟩ := plant_eq_ok planted
    exact (Configured.addNode before below made _ rate _).addChild added

end GlslMaterial.Material
