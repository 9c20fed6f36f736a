import GlslMaterial.Proofs.Forest.Links
import Mathlib.Data.List.Perm.Basic

/-!
The order of the nodes: in a forest the walks over the nodes end before their bounds, and a node
sees those that come before it in its tree.
-/

set_option autoImplicit false

namespace GlslMaterial.Material

/-- The nodes at and below some roots, each before all that is below it. -/
inductive Listed (m : Material) : List NodeId → List NodeId → Prop
  | nil : Listed m [] []
  | cons {id : NodeId} {rest below later : List NodeId} :
    Listed m (m.node id).children below → Listed m rest later →
      Listed m (id :: rest) (id :: below ++ later)

/-- What is visited while there is a node on the stack, whose children then take its place. -/
inductive Swept (m : Material) : List NodeId → List NodeId → Prop
  | done : Swept m [] []
  | visit {id : NodeId} {stack visited : List NodeId} :
    Swept m ((m.node id).children ++ stack) visited → Swept m (id :: stack) (id :: visited)

/-- What is met on the way up from a node until there is no parent. -/
inductive Climbed (m : Material) : NodeId → List NodeId → Prop
  | top {id : NodeId} : (m.node id).parent = none → Climbed m id []
  | up {id parent : NodeId} {later : List NodeId} :
    (m.node id).parent = some parent → Climbed m parent later →
      Climbed m id (m.preceding parent id ++ parent ::
        (m.preceding parent id).flatMap m.subtree ++ later)

variable {m : Material} {id other parent child : NodeId} {line : List NodeId}

theorem IsAncestor.trans {first second third : NodeId} (upper : m.IsAncestor first second)
    (lower : m.IsAncestor second third) : m.IsAncestor first third :=
  Relation.TransGen.trans upper lower

theorem Line.comparable {first second : NodeId} (way : m.Line id line) (one : first ∈ line)
    (two : second ∈ line) :
    first = second ∨ m.IsAncestor first second ∨ m.IsAncestor second first := by
  induction way with
  | top =>
    rw [List.mem_singleton] at one two
    exact .inl (one.trans two.symm)
  | up step later ih =>
    have above {other : NodeId} : other ∈ _ :: _ ↔ other = _ ∨ m.IsAncestor other _ :=
      (Line.up step later).mem_iff
    rcases List.mem_cons.1 one with rfl | one'
    · rcases above.1 two with rfl | upper
      · exact .inl rfl
      · exact .inr (.inr upper)
    · rcases List.mem_cons.1 two with rfl | two'
      · rcases above.1 one with rfl | upper
        · exact .inl rfl
        · exact .inr (.inl upper)
      · exact ih one' two'

namespace IsForest

theorem not_isAncestor_self (forest : m.IsForest) : ¬ m.IsAncestor id id := by
  intro cycle
  obtain ⟨line, way⟩ := forest.rooted id
  cases way with
  | top none => exact not_isAncestor_of_parent_eq_none none cycle
  | up step later =>
    have again := later.mem_iff.2 ((isAncestor_iff_of_parent_eq_some step).1 cycle)
    exact (List.nodup_cons.1 (Line.up step later).nodup).1 again

theorem isAncestor_iff_children (forest : m.IsForest) :
    m.IsAncestor id other ↔
      ∃ child ∈ (m.node id).children, other = child ∨ m.IsAncestor child other := by
  constructor
  · intro above
    induction above with
    | single step => exact ⟨_, (forest.linked _ _).2 step, .inl rfl⟩
    | tail _ step ih =>
      obtain ⟨child, member, at_or_below⟩ := ih
      refine ⟨child, member, .inr ?_⟩
      rcases at_or_below with rfl | below
      · exact .single step
      · exact .tail below step
  · rintro ⟨child, member, at_or_below⟩
    have step : m.IsAncestor id child := .single ((forest.linked id child).1 member)
    rcases at_or_below with rfl | below
    · exact step
    · exact step.trans below

theorem not_isAncestor_sibling (forest : m.IsForest) (first : child ∈ (m.node id).children)
    (second : other ∈ (m.node id).children) : ¬ m.IsAncestor child other := by
  intro above
  have step := (forest.linked id other).1 second
  have down : m.IsAncestor id child := .single ((forest.linked id child).1 first)
  rcases (isAncestor_iff_of_parent_eq_some step).1 above with rfl | up
  · exact forest.not_isAncestor_self down
  · exact forest.not_isAncestor_self (up.trans down)

end IsForest

namespace Listed

variable {roots listing : List NodeId}

theorem unique {again : List NodeId} (one : m.Listed roots listing) (two : m.Listed roots again) :
    listing = again := by
  induction one generalizing again with
  | nil => cases two; rfl
  | cons _ _ below_ih later_ih =>
    cases two with
    | cons below later => rw [below_ih below, later_ih later]

theorem append {others elsewhere : List NodeId} (one : m.Listed roots listing)
    (two : m.Listed others elsewhere) : m.Listed (roots ++ others) (listing ++ elsewhere) := by
  induction one with
  | nil => exact two
  | cons below _ _ later_ih => simpa using Listed.cons below later_ih

theorem flatMap {listing : NodeId → List NodeId}
    (each : ∀ root ∈ roots, m.Listed [root] (listing root)) :
    m.Listed roots (roots.flatMap listing) := by
  induction roots with
  | nil => exact .nil
  | cons root roots ih =>
    have first := each root List.mem_cons_self
    exact first.append (ih fun other member => each other (List.mem_cons_of_mem root member))

theorem swept {stack visited : List NodeId} (listed : m.Listed roots listing)
    (rest : m.Swept stack visited) : m.Swept (roots ++ stack) (listing ++ visited) := by
  induction listed generalizing stack visited with
  | nil => exact rest
  | cons _ _ below_ih later_ih =>
    rw [List.cons_append, List.cons_append, List.cons_append, List.append_assoc]
    exact .visit (below_ih (later_ih rest))

theorem mem_iff (forest : m.IsForest) (listed : m.Listed roots listing) :
    other ∈ listing ↔ ∃ root ∈ roots, other = root ∨ m.IsAncestor root other := by
  induction listed with
  | nil => simp
  | cons _ _ below_ih later_ih =>
    simp only [List.cons_append, List.mem_cons, List.mem_append, below_ih, later_ih,
      ← forest.isAncestor_iff_children, exists_eq_or_imp, or_assoc]

theorem nodup (forest : m.IsForest) (listed : m.Listed roots listing)
    (apart : roots.Pairwise fun first second =>
      first ≠ second ∧ ¬ m.IsAncestor first second ∧ ¬ m.IsAncestor second first) :
    listing.Nodup := by
  induction listed with
  | nil => exact List.nodup_nil
  | @cons id rest below later below_listed later_listed below_ih later_ih =>
    obtain ⟨here, apart⟩ := List.pairwise_cons.1 apart
    have siblings := (forest.nodup_children id).imp_of_mem fun {first second} one two different =>
      (⟨different, forest.not_isAncestor_sibling one two, forest.not_isAncestor_sibling two one⟩ :
        first ≠ second ∧ ¬ m.IsAncestor first second ∧ ¬ m.IsAncestor second first)
    have below_iff {other : NodeId} : other ∈ below ↔ m.IsAncestor id other := by
      rw [below_listed.mem_iff forest, forest.isAncestor_iff_children]
    have self : id ∉ below := fun member => forest.not_isAncestor_self (below_iff.1 member)
    refine List.nodup_append.2 ⟨List.nodup_cons.2 ⟨self, below_ih siblings⟩, later_ih apart, ?_⟩
    rintro one own two listed rfl
    obtain ⟨root, member, at_or_below⟩ := (later_listed.mem_iff forest).1 listed
    obtain ⟨different, not_above, not_below⟩ := here root member
    -- Both roots would be on the way up from the node that is listed twice.
    obtain ⟨line, way⟩ := forest.rooted one
    have first : id ∈ line := by
      rw [way.mem_iff]
      rcases List.mem_cons.1 own with rfl | under
      · exact .inl rfl
      · exact .inr (below_iff.1 under)
    have second : root ∈ line := by
      rw [way.mem_iff]
      exact at_or_below.imp_left Eq.symm
    rcases way.comparable first second with same | above | above
    · exact different same
    · exact not_above above
    · exact not_below above

end Listed

namespace IsForest

/-- The bound of a walk down is never met: it is used up more slowly than the way up grows. -/
theorem listed_preorder (forest : m.IsForest) {fuel : Nat} (known : id < m.nodes.size)
    (way : m.Line id line) (enough : m.nodes.size < fuel + line.length) :
    m.Listed [id] (m.preorder fuel id) := by
  induction fuel generalizing id line with
  | zero =>
    have bound := forest.length_le way known
    omega
  | succ fuel ih =>
    have below : m.Listed (m.node id).children
        ((m.node id).children.flatMap (m.preorder fuel)) := by
      refine Listed.flatMap fun child member => ?_
      have step := (forest.linked id child).1 member
      refine ih (forest.child_known member) (.up step way) ?_
      rw [List.length_cons]
      omega
    simpa [preorder] using Listed.cons below .nil

theorem listed_subtree (forest : m.IsForest) (id : NodeId) :
    m.Listed (m.node id).children (m.subtree id) := by
  refine Listed.flatMap fun child member => ?_
  obtain ⟨line, way⟩ := forest.rooted child
  have here := List.length_pos_of_mem way.self_mem
  exact forest.listed_preorder (forest.child_known member) way (by omega)

theorem subtree_eq (forest : m.IsForest) (id : NodeId) :
    m.subtree id = (m.node id).children.flatMap fun child => child :: m.subtree child := by
  refine (forest.listed_subtree id).unique (Listed.flatMap fun child _ => ?_)
  simpa using Listed.cons (forest.listed_subtree child) .nil

theorem mem_subtree_iff (forest : m.IsForest) : other ∈ m.subtree id ↔ m.IsAncestor id other := by
  rw [(forest.listed_subtree id).mem_iff forest, forest.isAncestor_iff_children]

theorem nodup_tree (forest : m.IsForest) (id : NodeId) : (id :: m.subtree id).Nodup := by
  have listed : m.Listed [id] (id :: m.subtree id ++ []) := .cons (forest.listed_subtree id) .nil
  simpa using listed.nodup forest (List.pairwise_singleton _ _)

/-- The bound of a walk up is never met either. -/
theorem climbed_searchAbove (way : m.Line id line) {fuel : Nat} (enough : line.length ≤ fuel) :
    m.Climbed id (m.searchAbove fuel id) := by
  induction way generalizing fuel with
  | top none =>
    cases fuel with
    | zero => simp at enough
    | succ fuel => simpa [searchAbove, none] using Climbed.top none
  | up step _ ih =>
    cases fuel with
    | zero => simp at enough
    | succ fuel =>
      simp only [searchAbove, step]
      exact .up step (ih (by simpa using enough))

end IsForest

theorem IsForest.children_split (forest : m.IsForest) (step : (m.node child).parent = some parent) :
    ∃ after, (m.node parent).children = (m.preceding parent child).reverse ++ child :: after := by
  have member := (forest.linked parent child).2 step
  rw [preceding, List.reverse_reverse]
  obtain ⟨before, after, cut, first⟩ := List.eq_append_cons_of_mem member
  refine ⟨after, ?_⟩
  have others : ∀ other ∈ before, (other != child) = true := by
    intro other earlier
    have different : other ≠ child := fun same => first (same ▸ earlier)
    simpa using different
  rw [cut, List.takeWhile_append_of_pos others]
  simp

theorem Climbed.perm_before (forest : m.IsForest) {above : List NodeId}
    (climbed : m.Climbed id above) :
    ∃ top before after, (m.node top).parent = none ∧ (top = id ∨ m.IsAncestor top id) ∧
      top :: m.subtree top = before ++ id :: (m.subtree id ++ after) ∧ above.Perm before := by
  induction climbed with
  | @top id none => exact ⟨id, [], [], none, .inl rfl, by simp, .rfl⟩
  | @up id parent later step _ ih =>
    obtain ⟨top, before, after, none, at_or_above, split, perm⟩ := ih
    obtain ⟨younger, children⟩ := forest.children_split step
    let tree (id : NodeId) := id :: m.subtree id
    let elder := (m.preceding parent id).reverse
    refine ⟨top, before ++ parent :: elder.flatMap tree, younger.flatMap tree ++ after, none,
      .inr ?_, ?_, ?_⟩
    · rcases at_or_above with rfl | upper
      · exact .single step
      · exact .tail upper step
    · have whole : m.subtree parent =
          elder.flatMap tree ++ id :: (m.subtree id ++ younger.flatMap tree) := by
        rw [forest.subtree_eq, children]
        simp [elder, tree]
      rw [split, whole]
      simp
    · -- Each level adds the elder siblings and what is below them, in another order.
      have level : (m.preceding parent id ++ (m.preceding parent id).flatMap m.subtree).Perm
          (elder.flatMap tree) := by
        have reversed : (m.preceding parent id).Perm elder := (List.reverse_perm _).symm
        have gathered := List.map_append_flatMap_perm elder (fun id => id) m.subtree
        rw [List.map_id'] at gathered
        exact (reversed.append (reversed.flatMap_right m.subtree)).trans gathered
      have moved :
          (m.preceding parent id ++ parent :: (m.preceding parent id).flatMap m.subtree).Perm
            (parent :: elder.flatMap tree) := List.perm_middle.trans (level.cons parent)
      have both := (moved.append perm).trans List.perm_append_comm
      simpa using both

/-- From a node the stack visits what is below it, each node once and before its children, and a
node sees itself and exactly the nodes that come before it in the listing of its tree, each of them
once. -/
theorem Grown.sees_what_precedes (grown : Grown m) (known : id < m.nodes.size) :
    (m.Listed (m.node id).children (m.subtree id) ∧
      m.Swept (m.node id).children (m.subtree id) ∧ (m.subtree id).Nodup ∧
      ∀ other, other ∈ m.subtree id ↔ m.IsAncestor id other) ∧
    (∃ above, m.searchOrder id = id :: above ∧ m.Climbed id above) ∧
    (m.searchOrder id).Nodup ∧
    ∃ top before after, (m.node top).parent = none ∧ (top = id ∨ m.IsAncestor top id) ∧
      (top :: m.subtree top).Nodup ∧ top :: m.subtree top = before ++ id :: after ∧
      ∀ other, other ∈ m.searchOrder id ↔ other ∈ before ∨ other = id := by
  have forest := grown.isForest
  have listed := forest.listed_subtree id
  obtain ⟨line, way⟩ := forest.rooted id
  have climbed := IsForest.climbed_searchAbove way (forest.length_le way known)
  obtain ⟨top, before, after, none, at_or_above, split, perm⟩ := climbed.perm_before forest
  have once := forest.nodup_tree top
  have order : (m.searchOrder id).Perm (before ++ [id]) :=
    (perm.cons id).trans (List.perm_append_singleton id before).symm
  refine ⟨⟨listed, ?_, (List.nodup_cons.1 (forest.nodup_tree id)).2,
    fun other => forest.mem_subtree_iff⟩, ⟨_, rfl, climbed⟩, ?_,
    top, before, m.subtree id ++ after, none, at_or_above, once, split, fun other => ?_⟩
  · simpa using listed.swept .done
  · rw [order.nodup_iff]
    have start : before ++ [id] <+: top :: m.subtree top :=
      ⟨m.subtree id ++ after, by rw [split, List.append_assoc, List.singleton_append]⟩
    exact start.sublist.nodup once
  · rw [order.mem_iff, List.mem_append, List.mem_singleton]

/-- The last node sees its elder sibling, their parent and the child of the sibling. -/
theorem Grown.sees_what_precedes_last :
    let start := ofRate (.stage .pixel)
    let one := start.edited (.addNode .root none .auto (.bare .value))
    let two := one.edited (.addNode .root none .auto (.bare .value))
    let three := two.edited (.addNode .root none .auto (.bare .value))
    let elder := three.edited (.addChild 0 1)
    let younger := elder.edited (.addChild 0 3)
    let m := younger.edited (.addChild 1 2)
    Grown m ∧ 3 < m.nodes.size ∧ m.searchOrder 3 = [3, 1, 0, 2] ∧ (m.searchOrder 3).Nodup ∧
      ∃ top before after, (m.node top).parent = none ∧ top :: m.subtree top = before ++ 3 :: after ∧
        ∀ other, other ∈ m.searchOrder 3 ↔ other ∈ before ∨ other = 3 := by
  intro start one two three elder younger m
  have grown : Grown m := by
    refine .edit (.edit (.edit (.edit (.edit (.edit (.start _) ?_) ?_) ?_) ?_) ?_) ?_ <;>
      decide +kernel
  have known : 3 < m.nodes.size := by decide +kernel
  obtain ⟨-, -, once, top, before, after, none, -, -, split, seen⟩ :=
    Grown.sees_what_precedes grown known
  exact ⟨grown, known, by decide +kernel, once, top, before, after, none, split, seen⟩

end GlslMaterial.Material
