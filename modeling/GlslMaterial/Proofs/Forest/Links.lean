import GlslMaterial.Material.Forest
import Mathlib.Logic.Relation

/-!
The links between nodes: whatever is added, moved, taken away or exposed, parents and children agree
and every way up ends.
-/

set_option autoImplicit false

namespace GlslMaterial.Material

def IsParent (m : Material) (parent child : NodeId) : Prop :=
  (m.node child).parent = some parent

/-- One node is above another: the parent of it or of a node above it. -/
def IsAncestor (m : Material) : NodeId → NodeId → Prop :=
  Relation.TransGen m.IsParent

/-- The nodes on the way up from a node, itself the first. The last has no parent. -/
inductive Line (m : Material) : NodeId → List NodeId → Prop
  | top {id : NodeId} : (m.node id).parent = none → Line m id [id]
  | up {id parent : NodeId} {line : List NodeId} :
    (m.node id).parent = some parent → Line m parent line → Line m id (id :: line)

/-- Parents and children are nodes and say the same about each other, every way up ends, and no node
has two symbols for a trait. -/
structure IsForest (m : Material) : Prop where
  parent_known : ∀ {id parent}, (m.node id).parent = some parent → parent < m.nodes.size
  child_known : ∀ {id child}, child ∈ (m.node id).children → child < m.nodes.size
  linked : ∀ parent child,
    child ∈ (m.node parent).children ↔ (m.node child).parent = some parent
  nodup_children : ∀ id, (m.node id).children.Nodup
  rooted : ∀ id, ∃ line, m.Line id line
  nodup_outputs : ∀ id, ((m.node id).outputs.map fun output => output.1.id).Nodup

variable {m : Material} {id other parent child : NodeId} {line : List NodeId}

theorem not_isAncestor_of_parent_eq_none (top : (m.node id).parent = none) :
    ¬ m.IsAncestor other id := by
  intro above
  cases above with
  | single step | tail _ step => simp [IsParent, top] at step

theorem isAncestor_iff_of_parent_eq_some (step : (m.node id).parent = some parent) :
    m.IsAncestor other id ↔ other = parent ∨ m.IsAncestor other parent := by
  constructor
  · intro above
    cases above with
    | single direct => exact .inl (Option.some.inj (direct.symm.trans step))
    | tail above direct =>
      obtain rfl := Option.some.inj (direct.symm.trans step)
      exact .inr above
  · rintro (rfl | above)
    · exact .single step
    · exact .tail above step

namespace Line

theorem self_mem (way : m.Line id line) : id ∈ line := by
  cases way <;> exact List.mem_cons_self

theorem unique {elsewhere : List NodeId} (way : m.Line id line) (again : m.Line id elsewhere) :
    line = elsewhere := by
  induction way generalizing elsewhere with
  | top none =>
    cases again with
    | top => rfl
    | up some => simp [none] at some
  | up step _ ih =>
    cases again with
    | top none => simp [step] at none
    | up direct later =>
      obtain rfl := Option.some.inj (step.symm.trans direct)
      rw [ih later]

theorem mem_iff (way : m.Line id line) : other ∈ line ↔ other = id ∨ m.IsAncestor other id := by
  induction way with
  | top none => simp [not_isAncestor_of_parent_eq_none none]
  | up step _ ih => rw [List.mem_cons, ih, isAncestor_iff_of_parent_eq_some step]

theorem suffix_of_mem (way : m.Line id line) (member : other ∈ line) :
    ∃ rest, m.Line other rest ∧ rest <:+ line := by
  induction way with
  | top none =>
    obtain rfl := List.mem_singleton.1 member
    exact ⟨_, .top none, List.suffix_refl _⟩
  | up step later ih =>
    rcases List.mem_cons.1 member with rfl | above
    · exact ⟨_, .up step later, List.suffix_refl _⟩
    · obtain ⟨rest, way, suffix⟩ := ih above
      exact ⟨rest, way, suffix.trans (List.suffix_cons _ _)⟩

theorem nodup (way : m.Line id line) : line.Nodup := by
  induction way with
  | top => simp
  | up step later ih =>
    refine List.nodup_cons.2 ⟨fun again => ?_, ih⟩
    -- The way from the second occurrence would be the whole way and a part of it.
    obtain ⟨rest, way, suffix⟩ := later.suffix_of_mem again
    have whole := (Line.up step later).unique way
    have shorter := suffix.length_le
    rw [← whole, List.length_cons] at shorter
    omega

theorem congr {after : Material} (way : m.Line id line)
    (same : ∀ other ∈ line, (after.node other).parent = (m.node other).parent) :
    after.Line id line := by
  induction way with
  | top none => exact .top ((same _ List.mem_cons_self).trans none)
  | up step _ ih =>
    exact .up ((same _ List.mem_cons_self).trans step)
      (ih fun other member => same other (List.mem_cons_of_mem _ member))

theorem exists_of_step {after : Material} (way : m.Line id line)
    (kept : ∀ other, (after.node other).parent = (m.node other).parent ∨
      ∃ line, after.Line other line) :
    ∃ line, after.Line id line := by
  induction way with
  | top none =>
    rcases kept _ with same | ends
    · exact ⟨_, .top (same.trans none)⟩
    · exact ends
  | up step _ ih =>
    obtain ⟨line, way⟩ := ih
    rcases kept _ with same | ends
    · exact ⟨_, .up (same.trans step) way⟩
    · exact ends

theorem climb_eq (way : m.Line id line) {fuel : Nat} (enough : line.length ≤ fuel) :
    m.climb fuel id = line := by
  induction way generalizing fuel with
  | top none =>
    obtain ⟨fuel, rfl⟩ : ∃ less, fuel = less + 1 := ⟨fuel - 1, by simp at enough; omega⟩
    simp [climb, none]
  | up step _ ih =>
    obtain ⟨fuel, rfl⟩ : ∃ less, fuel = less + 1 := ⟨fuel - 1, by simp at enough; omega⟩
    simp only [climb, step]
    rw [ih (by simpa using enough)]

end Line

namespace IsForest

theorem mem_known (forest : m.IsForest) (way : m.Line id line) (known : id < m.nodes.size) :
    ∀ other ∈ line, other < m.nodes.size := by
  induction way with
  | top => simpa using known
  | up step _ ih =>
    intro other member
    rcases List.mem_cons.1 member with rfl | above
    · exact known
    · exact ih (forest.parent_known step) other above

theorem length_le (forest : m.IsForest) (way : m.Line id line) (known : id < m.nodes.size) :
    line.length ≤ m.nodes.size := by
  have inside : line ⊆ List.range m.nodes.size := fun other member =>
    List.mem_range.2 (forest.mem_known way known other member)
  simpa using way.nodup.length_le_of_subset inside

theorem lineage_eq (forest : m.IsForest) (way : m.Line id line) (known : id < m.nodes.size) :
    m.lineage id = line :=
  way.climb_eq (forest.length_le way known)

theorem mem_lineage_iff (forest : m.IsForest) (known : id < m.nodes.size) :
    other ∈ m.lineage id ↔ other = id ∨ m.IsAncestor other id := by
  obtain ⟨line, way⟩ := forest.rooted id
  rw [forest.lineage_eq way known, way.mem_iff]

/-- A change that leaves all links alone. -/
theorem of_same_links {after : Material} (forest : m.IsForest)
    (grown : m.nodes.size ≤ after.nodes.size)
    (parents : ∀ id, (after.node id).parent = (m.node id).parent)
    (children : ∀ id, (after.node id).children = (m.node id).children)
    (outputs : ∀ id, ((after.node id).outputs.map fun output => output.1.id).Nodup) :
    after.IsForest where
  parent_known step := Nat.lt_of_lt_of_le (forest.parent_known (parents _ ▸ step)) grown
  child_known member := Nat.lt_of_lt_of_le (forest.child_known (children _ ▸ member)) grown
  linked parent child := by rw [parents, children, forest.linked]
  nodup_children id := by rw [children]; exact forest.nodup_children id
  rooted id := by
    obtain ⟨line, way⟩ := forest.rooted id
    exact ⟨line, way.congr fun other _ => parents other⟩
  nodup_outputs := outputs

end IsForest

/-- One node has gone to the end of the children of another, or to no parent. -/
structure Moved (m : Material) (child : NodeId) (target : Option NodeId) (after : Material) :
    Prop where
  size : after.nodes.size = m.nodes.size
  parent : ∀ id, (after.node id).parent = if id = child then target else (m.node id).parent
  children : ∀ id, (after.node id).children =
    (m.node id).children.erase child ++ if target = some id then [child] else []
  outputs : ∀ id, (after.node id).outputs = (m.node id).outputs

/-- A node can go below any other that is not below it. -/
theorem IsForest.moved {target : Option NodeId} {after : Material} (forest : m.IsForest)
    (moved : m.Moved child target after)
    (allowed : ∀ parent, target = some parent →
      child < m.nodes.size ∧ parent < m.nodes.size ∧ child ≠ parent ∧ ¬ m.IsAncestor child parent) :
    after.IsForest where
  parent_known {id parent} step := by
    rw [moved.parent] at step
    rw [moved.size]
    split at step
    · exact (allowed parent step).2.1
    · exact forest.parent_known step
  child_known {id other} member := by
    rw [moved.children] at member
    rw [moved.size]
    rcases List.mem_append.1 member with old | new
    · exact forest.child_known (List.mem_of_mem_erase old)
    · split at new
      · obtain rfl := List.mem_singleton.1 new
        exact (allowed id ‹_›).1
      · simp at new
  linked parent other := by
    rw [moved.parent, moved.children, List.mem_append, (forest.nodup_children parent).mem_erase_iff]
    by_cases same : other = child
    · by_cases here : target = some parent <;> simp [same, here]
    · rw [if_neg same, ← forest.linked]
      by_cases here : target = some parent <;> simp [same, here]
  nodup_children id := by
    rw [moved.children]
    have erased := (forest.nodup_children id).erase child
    have absent : child ∉ (m.node id).children.erase child :=
      (forest.nodup_children id).not_mem_erase
    split
    · refine List.nodup_append.2 ⟨erased, by simp, fun other old last new same => ?_⟩
      rw [List.mem_singleton.1 new] at same
      exact absent (same ▸ old)
    · simpa using erased
  rooted id := by
    have kept (other : NodeId) : (after.node other).parent = (m.node other).parent ∨
        ∃ line, after.Line other line := by
      by_cases same : other = child
      · refine .inr ?_
        have now : (after.node other).parent = target := by rw [moved.parent, if_pos same]
        cases goal : target with
        | none => exact ⟨_, .top (now.trans goal)⟩
        | some parent =>
          obtain ⟨-, -, different, free⟩ := allowed parent goal
          obtain ⟨line, way⟩ := forest.rooted parent
          -- The way up from the new parent does not pass the child, so it has not changed.
          have avoids : child ∉ line := by simpa [way.mem_iff, free] using different
          refine ⟨other :: line, .up (now.trans goal) (way.congr fun node member => ?_)⟩
          have other : node ≠ child := fun same => avoids (same ▸ member)
          rw [moved.parent, if_neg other]
      · exact .inl (by rw [moved.parent, if_neg same])
    obtain ⟨line, way⟩ := forest.rooted id
    exact way.exists_of_step kept
  nodup_outputs id := by
    rw [moved.outputs]
    exact forest.nodup_outputs id

theorem node_modifyNode_eq_ite (known : id < m.nodes.size) (change : Node → Node)
    (other : NodeId) :
    (m.modifyNode id change).node other =
      if other = id then change (m.node id) else m.node other := by
  by_cases same : other = id
  · rw [if_pos same, same, node_modifyNode_self m change known]
  · rw [if_neg same, node_modifyNode_of_ne m change same]

theorem IsForest.moved_removeChild (forest : m.IsForest)
    (member : child ∈ (m.node parent).children) :
    m.Moved child none (m.removeChild parent child).2 := by
  have step := (forest.linked parent child).1 member
  have known := forest.parent_known step
  have child_known := forest.child_known member
  have elsewhere : ∀ id, id ≠ parent → (m.node id).children.erase child = (m.node id).children := by
    intro id different
    refine List.erase_of_not_mem fun other => different ?_
    exact Option.some.inj (((forest.linked id child).1 other).symm.trans step)
  simp only [removeChild, List.contains_eq_mem, member, decide_true, if_true]
  refine ⟨by simp, fun id => ?_, fun id => ?_, fun id => ?_⟩ <;>
    rw [node_modifyNode_eq_ite (by simpa using child_known)] <;>
    simp only [node_modifyNode_eq_ite known]
  · split
    · rfl
    · split <;> simp [*]
  · by_cases here : id = parent
    · by_cases self : id = child <;> simp_all
    · rw [elsewhere id here]
      split <;> simp_all
  · by_cases here : id = parent <;> by_cases self : id = child <;> simp_all

theorem IsForest.moved_detach (forest : m.IsForest) (child : NodeId) :
    m.Moved child none (m.detach child) := by
  cases step : (m.node child).parent with
  | some old =>
    have result : m.detach child = (m.removeChild old child).2 := by simp [detach, step]
    rw [result]
    exact forest.moved_removeChild ((forest.linked old child).2 step)
  | none =>
    have result : m.detach child = m := by simp [detach, step]
    rw [result]
    refine ⟨rfl, fun id => ?_, fun id => ?_, fun id => rfl⟩
    · split
      · rw [‹id = child›, step]
      · rfl
    · have absent : child ∉ (m.node id).children := by simp [forest.linked, step]
      simp [List.erase_of_not_mem absent]

theorem Moved.attach {between : Material} (detached : m.Moved child none between)
    (child_known : child < m.nodes.size) (known : parent < m.nodes.size) :
    m.Moved child (some parent)
      ((between.modifyNode child fun node => { node with parent := some parent }).modifyNode parent
        fun node => { node with children := node.children ++ [child] }) := by
  have between_known : child < between.nodes.size := detached.size ▸ child_known
  refine ⟨by simp [detached.size], fun id => ?_, fun id => ?_, fun id => ?_⟩ <;>
    rw [node_modifyNode_eq_ite (by simpa [detached.size] using known)] <;>
    simp only [node_modifyNode_eq_ite between_known, Option.some.injEq, @eq_comm _ parent id]
  · by_cases here : id = parent <;> by_cases self : id = child <;> simp_all [detached.parent]
  · by_cases here : id = parent <;> by_cases self : id = child <;> simp_all [detached.children]
  · by_cases here : id = parent <;> by_cases self : id = child <;> simp_all [detached.outputs]

namespace IsForest

theorem addChild_eq_error_iff (forest : m.IsForest) (known : parent < m.nodes.size) :
    (∃ failure, m.addChild parent child = .error failure) ↔
      child = parent ∨ m.IsAncestor child parent := by
  rw [← forest.mem_lineage_iff known]
  unfold addChild
  by_cases same : parent = child
  · have self : child ∈ m.lineage parent := (forest.mem_lineage_iff known).2 (.inl same.symm)
    simp [same, same ▸ self]
  · by_cases above : child ∈ m.lineage parent
    · simp [same, above]
    · by_cases already : child ∈ (m.node parent).children <;> simp [same, above, already]

theorem addChild_eq_ok (forest : m.IsForest) (child_known : child < m.nodes.size)
    (known : parent < m.nodes.size) {after : Material}
    (added : m.addChild parent child = .ok after) :
    (after = m ∧ (m.node child).parent = some parent) ∨
      (m.Moved child (some parent) after ∧ child ≠ parent ∧ ¬ m.IsAncestor child parent) := by
  have guarded : ¬ (child = parent ∨ m.IsAncestor child parent) := by
    rw [← forest.addChild_eq_error_iff known, added]
    simp
  have different : parent ≠ child := fun same => guarded (.inl same.symm)
  have outside : child ∉ m.lineage parent := fun above =>
    guarded ((forest.mem_lineage_iff known).1 above)
  by_cases already : child ∈ (m.node parent).children
  · refine .inl ⟨?_, (forest.linked parent child).1 already⟩
    simpa [addChild, different, outside, already] using added.symm
  · refine .inr ⟨?_, not_or.1 guarded⟩
    simp only [addChild, different, outside, already, List.contains_eq_mem, decide_false, if_false,
      Bool.false_eq_true, Except.ok.injEq] at added
    exact added ▸ (forest.moved_detach child).attach child_known known

end IsForest

theorem map_id_setOutput (key : Trait) (symbol : Symbol) {shown : List (Trait × Symbol)}
    {ids : List TraitId} (same : shown.map (fun output => output.1.id) = ids) :
    (setOutput key symbol shown).map (fun output => output.1.id) =
      if key.id ∈ ids then ids else ids ++ [key.id] := by
  induction shown generalizing ids with
  | nil =>
    subst same
    rfl
  | cons output rest ih =>
    subst same
    by_cases here : output.1.id = key.id
    · simp [setOutput, here]
    · have apart : key.id ≠ output.1.id := Ne.symm here
      rw [setOutput, if_neg here, List.map_cons, ih rfl, List.map_cons]
      simp only [List.mem_cons, apart, false_or]
      split <;> rfl

/-- A change of the nodes. -/
inductive Edit where
  | addNode (config : Config) (name : Option String) (rate : Rate) (descriptor : Construct)
  | addChild (parent child : NodeId)
  | removeChild (parent child : NodeId)
  | expose (id : NodeId) (key : Trait) (symbol : Symbol)

/-- Whether all nodes that a change speaks of exist. -/
def Edit.Known (m : Material) : Edit → Prop
  | addNode .. => True
  | addChild parent child | removeChild parent child =>
    parent < m.nodes.size ∧ child < m.nodes.size
  | expose id .. => id < m.nodes.size

instance (m : Material) : (change : Edit) → Decidable (change.Known m)
  | .addNode .. => inferInstanceAs (Decidable True)
  | .addChild .. | .removeChild .. => inferInstanceAs (Decidable (_ ∧ _))
  | .expose .. => inferInstanceAs (Decidable (_ < _))

/-- The material after a change. One that fails does nothing. -/
def edited (m : Material) : Edit → Material
  | .addNode config name rate descriptor => (m.addNode config name rate descriptor).2
  | .addChild parent child =>
    match m.addChild parent child with
    | .ok after => after
    | .error _ => m
  | .removeChild parent child => (m.removeChild parent child).2
  | .expose id key symbol => m.expose id key symbol

/-- The materials that changes of existing nodes make from one without descriptor. -/
inductive Grown : Material → Prop
  | start (rate : Rate) : Grown (ofRate rate)
  | edit {m : Material} {change : Edit} : Grown m → change.Known m → Grown (m.edited change)

theorem isForest_ofRate (rate : Rate) : (ofRate rate).IsForest := by
  have alone (id : NodeId) : ((ofRate rate).node id).parent = none ∧
      ((ofRate rate).node id).children = [] ∧ ((ofRate rate).node id).outputs = [] := by
    cases id with
    | zero | succ => exact ⟨rfl, rfl, rfl⟩
  exact {
    parent_known := fun step => by simp [alone] at step
    child_known := fun member => by simp [alone] at member
    linked := fun parent child => by simp [alone]
    nodup_children := fun id => by simp [alone]
    rooted := fun id => ⟨_, .top (alone id).1⟩
    nodup_outputs := fun id => by simp [alone] }

theorem IsForest.addNode (forest : m.IsForest) (config : Config) (name : Option String)
    (rate : Rate) (descriptor : Construct) :
    (m.addNode config name rate descriptor).2.IsForest := by
  -- The new node is as the one that stands for unknown identifiers.
  have same (id : NodeId) :
      let after := (m.addNode config name rate descriptor).2.node id
      after.parent = (m.node id).parent ∧ after.children = (m.node id).children ∧
        after.outputs = (m.node id).outputs := by
    by_cases new : id = m.nodes.size
    · subst new
      simp [Material.addNode, node]
      exact ⟨rfl, rfl, rfl⟩
    · have kept : (m.addNode config name rate descriptor).2.node id = m.node id := by
        simp [Material.addNode, node, Array.getD_eq_getD_getElem?, Array.getElem?_push, new]
      simp [kept]
  refine forest.of_same_links (by simp [Material.addNode]) (fun id => (same id).1)
    (fun id => (same id).2.1) fun id => ?_
  rw [(same id).2.2]
  exact forest.nodup_outputs id

theorem IsForest.expose (forest : m.IsForest) (known : id < m.nodes.size) (key : Trait)
    (symbol : Symbol) : (m.expose id key symbol).IsForest := by
  refine forest.of_same_links (by simp [Material.expose]) (fun other => ?_) (fun other => ?_)
    fun other => ?_ <;> rw [Material.expose, node_modifyNode_eq_ite known] <;> split
  · simp [*]
  · rfl
  · simp [*]
  · rfl
  · rw [map_id_setOutput key symbol rfl]
    have before := forest.nodup_outputs id
    split
    · exact before
    · refine List.nodup_append.2 ⟨before, by simp, fun a old b new same => ?_⟩
      rw [List.mem_singleton.1 new] at same
      exact ‹key.id ∉ _› (same ▸ old)
  · exact forest.nodup_outputs other

theorem IsForest.edited (forest : m.IsForest) {change : Edit} (known : change.Known m) :
    (m.edited change).IsForest := by
  cases change with
  | addNode config name rate descriptor => exact forest.addNode config name rate descriptor
  | addChild parent child =>
    cases added : m.addChild parent child with
    | error failure => simpa [Material.edited, added] using forest
    | ok after =>
      rw [show m.edited (.addChild parent child) = after by simp [Material.edited, added]]
      rcases forest.addChild_eq_ok known.2 known.1 added with ⟨rfl, -⟩ | ⟨moved, different, free⟩
      · exact forest
      · refine forest.moved moved fun target same => ?_
        obtain rfl := Option.some.inj same
        exact ⟨known.2, known.1, different, free⟩
  | removeChild parent child =>
    by_cases member : child ∈ (m.node parent).children
    · exact forest.moved (forest.moved_removeChild member) (by simp)
    · simpa [Material.edited, Material.removeChild, member] using forest
  | expose id key symbol => exact forest.expose known key symbol

theorem Grown.isForest (grown : Grown m) : m.IsForest := by
  induction grown with
  | start rate => exact isForest_ofRate rate
  | edit _ known forest => exact forest.edited known

/-- Whatever the changes, the nodes are a forest. A node is refused as a child exactly of itself and
of the nodes below it, and a refusal changes nothing. -/
theorem Grown.isForest_and_guarded (grown : Grown m) :
    m.IsForest ∧
      (∀ parent < m.nodes.size, ∀ child < m.nodes.size,
        ((∃ failure, m.addChild parent child = .error failure) ↔
          child = parent ∨ m.IsAncestor child parent) ∧
        ∀ after, m.addChild parent child = .ok after →
          (after.node child).parent = some parent) ∧
      (∀ parent child failure, m.addChild parent child = .error failure →
        m.edited (.addChild parent child) = m) ∧
      ∀ parent child, (m.removeChild parent child).1 = false →
        m.edited (.removeChild parent child) = m := by
  have forest := grown.isForest
  refine ⟨forest, fun parent known child child_known => ⟨forest.addChild_eq_error_iff known, ?_⟩,
    ?_, ?_⟩
  · intro after added
    rcases forest.addChild_eq_ok child_known known added with ⟨rfl, already⟩ | ⟨moved, -, -⟩
    · exact already
    · rw [moved.parent, if_pos rfl]
  · intro parent child failure refused
    simp [edited, refused]
  · intro parent child absent
    by_cases member : child ∈ (m.node parent).children
    · simp [removeChild, member] at absent
    · simp [edited, removeChild, member]

/-- A grandchild that has moved up to be a sibling of its parent, and a refused cycle. -/
theorem Grown.isForest_and_guarded_moved :
    let start := ofRate (.stage .pixel)
    let first := start.edited (.addNode .root none .auto (.bare .value))
    let second := first.edited (.addNode .root none .auto (.bare .value))
    let child := second.edited (.addChild 0 1)
    let grandchild := child.edited (.addChild 1 2)
    let sibling := grandchild.edited (.addChild 0 2)
    let back := sibling.edited (.addChild 2 1)
    Grown back ∧ back.IsForest ∧ (back.node 0).children = [2] ∧ (back.node 2).children = [1] ∧
      ∃ failure, back.addChild 1 0 = .error failure := by
  intro start first second child grandchild sibling back
  have grown : Grown back := by
    refine .edit (.edit (.edit (.edit (.edit (.edit (.start _) ?_) ?_) ?_) ?_) ?_) ?_ <;>
      decide +kernel
  obtain ⟨forest, guarded, -⟩ := Grown.isForest_and_guarded grown
  have links : (back.node 0).children = [2] ∧ (back.node 2).children = [1] ∧
      back.nodes.size = 3 := by decide +kernel
  refine ⟨grown, forest, links.1, links.2.1, ?_⟩
  refine (guarded 1 (by omega) 0 (by omega)).1.2 (.inr ?_)
  have below_root := (forest.linked 0 2).1 (by simp [links])
  have below := (forest.linked 2 1).1 (by simp [links])
  exact .tail (.single below_root) below

end GlslMaterial.Material
