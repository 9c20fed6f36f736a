import GlslMaterial.Proofs.Forest.Planting
import GlslMaterial.Proofs.Emission.Shown
import GlslMaterial.Proofs.Generation.Complete

/-!
The schedule of generation: every node that has no scene above it is entered once before its
children and written once after them, and nothing else happens in between. A walk that fails has
done a part of the schedule, up to the node that failed.
-/

set_option autoImplicit false

namespace GlslMaterial

/-- A step of the walk: a node is entered before its children and left after them, which is when it
is written. -/
inductive Turn
  | enter (n : NodeId)
  | leave (n : NodeId)
deriving DecidableEq, Repr

namespace Turn

def entered? : Turn → Option NodeId
  | .enter n => some n
  | .leave _ => none

def left? : Turn → Option NodeId
  | .enter _ => none
  | .leave n => some n

/-- What the generator does in a turn. -/
def action (m : Material) : Turn → Action Unit
  | .enter n => Emission.markGenerated n
  | .leave n => Emission.emit n (m.node n).config

end Turn

def entered (turns : List Turn) : List NodeId :=
  turns.filterMap Turn.entered?

def left (turns : List Turn) : List NodeId :=
  turns.filterMap Turn.left?

@[simp] theorem entered_append (first second : List Turn) :
    entered (first ++ second) = entered first ++ entered second :=
  List.filterMap_append ..

@[simp] theorem entered_enter (n : NodeId) (turns : List Turn) :
    entered (.enter n :: turns) = n :: entered turns := rfl

@[simp] theorem entered_leave (n : NodeId) (turns : List Turn) :
    entered (.leave n :: turns) = entered turns := rfl

@[simp] theorem left_append (first second : List Turn) :
    left (first ++ second) = left first ++ left second :=
  List.filterMap_append ..

@[simp] theorem left_enter (n : NodeId) (turns : List Turn) :
    left (.enter n :: turns) = left turns := rfl

@[simp] theorem left_leave (n : NodeId) (turns : List Turn) :
    left (.leave n :: turns) = n :: left turns := rfl

theorem mem_entered {n : NodeId} {turns : List Turn} :
    n ∈ entered turns ↔ Turn.enter n ∈ turns := by
  rw [entered, List.mem_filterMap]
  constructor
  · rintro ⟨turn, member, same⟩
    cases turn with
    | enter k => exact Option.some.inj same ▸ member
    | leave k => cases same
  · exact fun member => ⟨_, member, rfl⟩

namespace Material

open GlslMaterial.Action (Keeps perform)
open Emission

/-- The nodes that are visited directly below one: the children, but none of a scene. -/
def below (m : Material) (n : NodeId) : List NodeId :=
  if (m.node n).config.isScene then [] else (m.node n).children

/-- The turns of a walk through some nodes and what is visited below them. -/
inductive Toured (m : Material) : List NodeId → List Turn → Prop
  | nil : Toured m [] []
  | cons {n : NodeId} {rest : List NodeId} {inner later : List Turn} :
    Toured m (m.below n) inner → Toured m rest later →
      Toured m (n :: rest) (.enter n :: inner ++ .leave n :: later)

/-- The nodes of some trees, in which scenes are leaves, each after all that is below it. -/
inductive Postordered (m : Material) : List NodeId → List NodeId → Prop
  | nil : Postordered m [] []
  | cons {n : NodeId} {rest inner later : List NodeId} :
    Postordered m (m.below n) inner → Postordered m rest later →
      Postordered m (n :: rest) (inner ++ n :: later)

/-- No scene is above the node. -/
def IsLive (m : Material) (n : NodeId) : Prop :=
  n < m.nodes.size ∧ ∀ above, m.IsAncestor above n → (m.node above).config.isScene = false

/-- No scene is between a node and one below it; the lower one may be a scene. -/
def Reaches (m : Material) (n lower : NodeId) : Prop :=
  (lower = n ∨ m.IsAncestor n lower) ∧
    ∀ above, above = n ∨ m.IsAncestor n above → m.IsAncestor above lower →
      (m.node above).config.isScene = false

variable {m base : Material} {n : NodeId} {roots : List NodeId} {turns : List Turn}

theorem IsForest.at_or_below_child (forest : m.IsForest) {child above lower : NodeId}
    (member : child ∈ (m.node n).children) (under : m.IsAncestor n above)
    (between : m.IsAncestor above lower) (at_or_below : lower = child ∨ m.IsAncestor child lower) :
    above = child ∨ m.IsAncestor child above := by
  have step := (forest.linked n child).1 member
  have impossible (upper : m.IsAncestor above child) : False := by
    rcases (isAncestor_iff_of_parent_eq_some step).1 upper with rfl | higher
    · exact forest.not_isAncestor_self under
    · exact forest.not_isAncestor_self (higher.trans under)
  rcases at_or_below with rfl | lowest
  · exact (impossible between).elim
  · obtain ⟨line, way⟩ := forest.rooted lower
    rcases way.comparable (way.mem_iff.2 (.inr between)) (way.mem_iff.2 (.inr lowest)) with
      same | upper | under
    · exact .inl same
    · exact (impossible upper).elim
    · exact .inr under

theorem IsForest.reaches_iff (forest : m.IsForest) {lower : NodeId} :
    m.Reaches n lower ↔ lower = n ∨ ∃ child ∈ m.below n, m.Reaches child lower := by
  constructor
  · rintro ⟨rfl | under, clear⟩
    · exact .inl rfl
    · have visited : m.below n = (m.node n).children := by
        rw [below, clear n (.inl rfl) under, if_neg Bool.false_ne_true]
      obtain ⟨child, member, at_or_below⟩ := forest.isAncestor_iff_children.1 under
      have step : m.IsAncestor n child := .single ((forest.linked n child).1 member)
      refine .inr ⟨child, visited ▸ member, at_or_below, fun above inside between => ?_⟩
      refine clear above (.inr ?_) between
      rcases inside with rfl | under
      · exact step
      · exact step.trans under
  · rintro (rfl | ⟨child, visited, at_or_below, clear⟩)
    · refine ⟨.inl rfl, fun above inside between => absurd between ?_⟩
      rcases inside with rfl | under
      · exact forest.not_isAncestor_self
      · exact fun cycle => forest.not_isAncestor_self (under.trans cycle)
    · unfold below at visited
      split at visited
      · simp at visited
      · rename_i plain
        have step : m.IsAncestor n child := .single ((forest.linked n child).1 visited)
        refine ⟨.inr ?_, fun above inside between => ?_⟩
        · rcases at_or_below with rfl | under
          · exact step
          · exact step.trans under
        · rcases inside with rfl | under
          · simpa using plain
          · exact clear above (forest.at_or_below_child visited under between at_or_below) between

namespace Toured

theorem postordered (toured : m.Toured roots turns) : m.Postordered roots (left turns) := by
  induction toured with
  | nil => exact .nil
  | cons _ _ inner_ih later_ih => simpa using Postordered.cons inner_ih later_ih

theorem perm (toured : m.Toured roots turns) : (entered turns).Perm (left turns) := by
  induction toured with
  | nil => exact .rfl
  | cons _ _ inner_ih later_ih =>
    simp only [List.cons_append, entered_enter, entered_append, entered_leave, left_enter,
      left_append, left_leave]
    exact ((inner_ih.append later_ih).cons _).trans List.perm_middle.symm

theorem mem_entered_iff (forest : m.IsForest) (toured : m.Toured roots turns) :
    n ∈ entered turns ↔ ∃ root ∈ roots, m.Reaches root n := by
  induction toured with
  | nil => simp [entered]
  | cons _ _ inner_ih later_ih =>
    simp only [List.cons_append, entered_enter, entered_append, entered_leave, List.mem_cons,
      List.mem_append, inner_ih, later_ih, exists_eq_or_imp]
    rw [forest.reaches_iff, or_assoc]

end Toured

/-- The walk leaves out a part of the listing. -/
theorem Listed.exists_toured {listing : List NodeId} (listed : m.Listed roots listing) :
    ∃ turns, m.Toured roots turns ∧ (entered turns).Sublist listing := by
  induction listed with
  | nil => exact ⟨[], .nil, .refl _⟩
  | @cons n rest below later _ _ below_ih later_ih =>
    obtain ⟨inner, under, fewer⟩ := below_ih
    obtain ⟨outer, beside, less⟩ := later_ih
    by_cases scene : (m.node n).config.isScene = true
    · have leaf : m.Toured (m.below n) [] := by
        rw [Material.below, if_pos scene]
        exact .nil
      refine ⟨_, .cons leaf beside, ?_⟩
      simpa using less.trans (List.sublist_append_right below later)
    · have all : m.Toured (m.below n) inner := by
        rw [Material.below, if_neg scene]
        exact under
      refine ⟨_, .cons all beside, ?_⟩
      simpa using fewer.append less

/-- The law that only some nodes are entered. -/
def EntersOnly (nodes : List NodeId) (event : Event) : Prop :=
  ∀ n, event = .visit n → n ∈ nodes

theorem lenient_entersOnly (nodes : List NodeId) (m : Material) :
    Lenient (fun _ _ => EntersOnly nodes) m := by
  rintro _ _ quiet n rfl
  cases quiet

theorem mem_entered_of_visit
    (visited : .visit n ∈ (turns.forM (Turn.action base)).events m) : n ∈ entered turns := by
  have each : ∀ turn ∈ turns, Heeds (fun _ _ => EntersOnly (entered turns)) m (turn.action base)
      fun _ => True := by
    intro turn member
    cases turn with
    | enter k =>
      refine Keeps.perform (fun _ _ n same => ?_) fun _ _ => trivial
      exact Event.visit.inj same ▸ mem_entered.2 member
    | leave k =>
      exact heeds_emit (lenient_entersOnly _ m) ⟨fun _ _ _ _ _ => nofun, fun _ _ _ _ _ => nofun⟩
  exact Heeds.of_mem (Keeps.forM each) visited n rfl

theorem below_replay (past : List Event) (n : NodeId) :
    (base.replay past).below n = base.below n := by
  rw [below, config_replay, children_replay, below]

variable {fuel : Nat} {after : Material} {c : Construct}

theorem run_walk_succ {visit : NodeId → Config → Action Unit}
    (unvisited : (m.node n).generated = false) :
    (walk visit (fuel + 1) n).run m =
      (do
        markGenerated n
        (m.below n).forM (walk visit fuel)
        visit n (m.node n).config).run m := by
  have opened : (walk visit (fuel + 1) n).run m = (if (m.node n).generated then pure () else do
      markGenerated n
      unless (m.node n).config.isScene do (m.node n).children.forM (walk visit fuel)
      visit n (m.node n).config : Action Unit).run m := rfl
  rw [opened, unvisited, if_neg Bool.false_ne_true, below]
  cases (m.node n).config.isScene <;> rfl

/-- The depth that is left is enough for the ways down from some nodes. -/
def Deep (m : Material) (fuel : Nat) (roots : List NodeId) : Prop :=
  ∀ n ∈ roots, n < m.nodes.size ∧ ∀ line, m.Line n line → m.nodes.size < fuel + line.length

theorem IsForest.deep_below (forest : m.IsForest) {rest : List NodeId}
    (deep : m.Deep (fuel + 1) (n :: rest)) : m.Deep fuel (m.below n) := by
  intro child member
  have listed : child ∈ (m.node n).children := by
    unfold below at member
    split at member
    · simp at member
    · exact member
  have step := (forest.linked n child).1 listed
  refine ⟨forest.child_known listed, fun line way => ?_⟩
  cases way with
  | top none => simp [step] at none
  | @up _ parent line up way =>
    obtain rfl := Option.some.inj (step.symm.trans up)
    have enough := (deep n List.mem_cons_self).2 line way
    rw [List.length_cons]
    omega

theorem IsForest.exists_fuel (forest : m.IsForest) {rest : List NodeId}
    (deep : m.Deep fuel (n :: rest)) : ∃ less, fuel = less + 1 := by
  obtain ⟨known, enough⟩ := deep n List.mem_cons_self
  obtain ⟨line, way⟩ := forest.rooted n
  have bound := forest.length_le way known
  have depth := enough line way
  exact ⟨fuel - 1, by omega⟩

theorem Toured.run_walk (fresh : base.Fresh) (forest : base.IsForest)
    (toured : base.Toured roots turns) (deep : base.Deep fuel roots)
    (once : (entered turns).Nodup) {past : List Event}
    (unvisited : ∀ n ∈ entered turns, .visit n ∉ past) :
    (roots.forM (walk emit fuel)).run (base.replay past) =
      (turns.forM (Turn.action base)).run (base.replay past) := by
  induction toured generalizing fuel past with
  | nil => rfl
  | @cons n rest inner later _ _ inner_ih later_ih =>
    obtain ⟨less, rfl⟩ := forest.exists_fuel deep
    simp only [List.cons_append, entered_enter, entered_append, entered_leave] at once unvisited
    obtain ⟨outside, apart⟩ := List.nodup_cons.1 once
    have parts := List.nodup_append.1 apart
    -- The turns of the first node alone come before those of the others.
    let own : List Turn := .enter n :: inner ++ [.leave n]
    have split : (Turn.enter n :: inner ++ .leave n :: later).forM (Turn.action base) =
        own.forM (Turn.action base) >>= fun _ => later.forM (Turn.action base) := by
      rw [← Action.forM_append]
      simp [own]
    have shape : own.forM (Turn.action base) = (do
        markGenerated n
        inner.forM (Turn.action base)
        emit n (base.node n).config) := by
      have last : [Turn.leave n].forM (Turn.action base) = emit n (base.node n).config :=
        bind_pure_unit
      rw [← last]
      exact congrArg _ (funext fun _ => Action.forM_append _ inner [.leave n])
    have visits : entered own = n :: entered inner := by
      show n :: entered (inner ++ [.leave n]) = _
      rw [entered_append]
      exact congrArg _ (List.append_nil _)
    rw [split]
    refine Action.run_bind_congr ?_ fun _ middle ended => ?_
    · have new : ((base.replay past).node n).generated = false := by
        refine Bool.eq_false_iff.2 fun marked => ?_
        rcases visit_of_generated_replay marked with early | entered
        · simp [fresh.visited] at early
        · exact unvisited n List.mem_cons_self entered
      rw [run_walk_succ new, below_replay, config_replay, shape]
      refine Action.run_bind_congr rfl fun _ _ marked => ?_
      obtain rfl := Action.material_of_ok marked
      refine Action.run_bind_congr ?_ fun _ _ _ => rfl
      rw [← replay_append]
      refine inner_ih (forest.deep_below deep) parts.1 fun k member visited => ?_
      rcases List.mem_append.1 visited with early | now
      · exact unvisited k (List.mem_cons_of_mem _ (List.mem_append_left _ member)) early
      · obtain rfl := Event.visit.inj (List.mem_singleton.1 now)
        exact outside (List.mem_append_left _ member)
    · obtain rfl := Action.material_of_ok ended
      rw [← replay_append]
      have rest_deep : base.Deep (less + 1) rest :=
        fun k member => deep k (List.mem_cons_of_mem _ member)
      refine later_ih rest_deep parts.2.1 fun k member visited => ?_
      rcases List.mem_append.1 visited with early | now
      · exact unvisited k (List.mem_cons_of_mem _ (List.mem_append_right _ member)) early
      · rcases List.mem_cons.1 (visits ▸ mem_entered_of_visit now) with rfl | within
        · exact outside (List.mem_append_right _ member)
        · exact parts.2.2 k within k member rfl

theorem visit_of_mem_entered
    (ended : turns.forM (Turn.action base) m = .ok () after) (member : n ∈ entered turns) :
    .visit n ∈ (turns.forM (Turn.action base)).events m := by
  induction turns generalizing m with
  | nil => cases member
  | cons turn turns ih =>
    obtain ⟨middle, begun, rest, happened⟩ := Action.ok_of_forM_cons ended
    rw [happened, List.mem_append]
    rcases List.mem_cons.1 (mem_entered.1 member) with rfl | later
    · exact .inl (List.mem_singleton.2 rfl)
    · exact .inr (ih rest (mem_entered.2 later))

theorem visit_notMem_complete : .visit n ∉ complete.events m := by
  intro visited
  have none := Heeds.of_mem (heeds_complete (lenient_entersOnly [] m) fun _ => nofun) visited n rfl
  cases none

theorem IsForest.exists_toured_root (forest : m.IsForest) :
    ∃ turns, m.Toured [root] turns ∧ (entered turns).Nodup := by
  have listed : m.Listed [root] (root :: m.subtree root ++ []) :=
    .cons (forest.listed_subtree root) .nil
  obtain ⟨turns, toured, fewer⟩ := listed.exists_toured
  refine ⟨turns, toured, fewer.nodup ?_⟩
  rw [List.append_nil]
  exact forest.nodup_tree root

theorem Planted.reaches_root_iff {constructs : List Construct} (planted : m.Planted constructs)
    (nonempty : root < m.nodes.size) : m.Reaches root n ↔ m.IsLive n := by
  have forest := planted.forest
  have under_of {lower : NodeId} (known : lower < m.nodes.size) :
      lower = root ∨ m.IsAncestor root lower := by
    by_cases top : lower = root
    · exact .inl top
    · exact .inr (planted.isAncestor_root top known)
  constructor
  · rintro ⟨under, clear⟩
    have known : n < m.nodes.size := by
      rcases under with rfl | under
      · exact nonempty
      · exact (planted.mem_subtree_root_iff.1 (forest.mem_subtree_iff.2 under)).2
    refine ⟨known, fun above higher => ?_⟩
    obtain ⟨line, way⟩ := forest.rooted n
    have inside := forest.mem_known way known above (way.mem_iff.2 (.inr higher))
    exact clear above (under_of inside) higher
  · rintro ⟨known, clear⟩
    exact ⟨under_of known, fun above _ higher => clear above higher⟩

/-- The walk of a whole tree enters the nodes without a scene above them. -/
theorem Toured.mem_entered_root_iff (built : ofConstruct c = .ok m)
    (toured : m.Toured [root] turns) : n ∈ entered turns ↔ m.IsLive n := by
  have planted := planted_ofConstruct built
  have nonempty : root < m.nodes.size := by
    rw [planted.size, Construct.nodes_eq]
    exact Nat.succ_pos _
  rw [toured.mem_entered_iff planted.forest, ← planted.reaches_root_iff nonempty]
  simp

/-- Generation up to some turns of its walk. -/
def taking (m : Material) (turns : List Turn) : Action Unit := do
  perform .begin
  turns.forM (Turn.action m)

theorem Toured.run_walkAll (fresh : base.Fresh) (forest : base.IsForest)
    (nonempty : root < base.nodes.size) (toured : base.Toured [root] turns)
    (once : (entered turns).Nodup) :
    walkAll.run base = (base.taking turns).run base := by
  refine Action.run_bind_congr rfl fun _ middle begun => ?_
  obtain rfl := Action.material_of_ok begun
  have deep : base.Deep base.nodes.size [root] := by
    refine List.forall_mem_singleton.2 ⟨nonempty, fun line way => ?_⟩
    have here := List.length_pos_of_mem way.self_mem
    omega
  have walked : ([root].forM (walk emit base.nodes.size)).run (base.replay [.begin]) =
      (turns.forM (Turn.action base)).run (base.replay [.begin]) :=
    toured.run_walk fresh forest deep once (by simp)
  have single : [root].forM (walk emit base.nodes.size) = walk emit base.nodes.size root :=
    bind_pure_unit
  have start : (generateNode root).run (base.replay [.begin]) =
      (walk emit (base.replay [.begin]).nodes.size root).run (base.replay [.begin]) := rfl
  rw [single] at walked
  rw [base.size_replay] at start
  exact start.trans walked

theorem exists_schedule (built : ofConstruct c = .ok m) :
    ∃ turns, m.Toured [root] turns ∧ (entered turns).Nodup ∧
      walkAll.run m = (m.taking turns).run m ∧
      generate.run m = (m.taking turns >>= fun _ => complete).run m := by
  have planted := planted_ofConstruct built
  have nonempty : root < m.nodes.size := by
    rw [planted.size, Construct.nodes_eq]
    exact Nat.succ_pos _
  obtain ⟨turns, toured, once⟩ := planted.forest.exists_toured_root
  have walked := toured.run_walkAll (fresh_ofConstruct built) planted.forest nonempty once
  refine ⟨turns, toured, once, walked, ?_⟩
  rw [run_generate (fresh_ofConstruct built)]
  exact Action.run_bind_congr walked fun _ _ _ => rfl

theorem visit_mem_iff
    (ended : (base.taking turns >>= fun _ => complete) base = .ok () after) :
    .visit n ∈ (base.taking turns >>= fun _ => complete).events base ↔ n ∈ entered turns := by
  obtain ⟨_, middle, walked, completed, events⟩ := Action.ok_of_bind ended
  obtain ⟨_, started, begun, rest, happened⟩ := Action.ok_of_bind walked
  obtain rfl := Action.material_of_ok walked
  obtain rfl := Action.material_of_ok begun
  have first : (.visit n : Event) ∉ (perform .begin).events base := by
    intro impossible
    cases List.mem_singleton.1 impossible
  rw [events, List.mem_append, or_iff_left visit_notMem_complete, taking, happened, List.mem_append,
    or_iff_right first]
  exact ⟨mem_entered_of_visit, visit_of_mem_entered rest⟩

theorem generated_iff_isLive (built : ofConstruct c = .ok m)
    (ended : generate m = .ok () after) (n : NodeId) :
    (after.node n).generated = true ↔ m.IsLive n := by
  have fresh := fresh_ofConstruct built
  obtain ⟨turns, toured, -, -, whole⟩ := exists_schedule built
  have visits : .visit n ∈ generate.events m ↔ m.IsLive n := by
    unfold Action.result Action.events at *
    rw [whole] at ended ⊢
    exact (visit_mem_iff ended).trans (toured.mem_entered_root_iff built)
  rw [Action.material_of_ok ended]
  constructor
  · intro marked
    rcases visit_of_generated_replay marked with early | entered
    · simp [fresh.visited] at early
    · exact visits.1 entered
  · exact fun known => generated_of_visit known.1 (visits.2 known)

theorem exists_failing_turn {failure : Failure}
    (ended : base.taking turns base = .error failure after) :
    ∃ early n late middle, turns = early ++ .leave n :: late ∧
      base.taking early base = .ok () middle ∧
      emit n (base.node n).config middle = .error failure after ∧
      (base.taking turns).events base =
        (base.taking early).events base ++ (emit n (base.node n).config).events middle := by
  rcases Action.error_of_bind ended with ⟨impossible, -⟩ | ⟨_, started, begun, rest, events⟩
  · cases impossible
  · obtain ⟨early, turn, late, middle, cut, succeeded, failed, happened⟩ :=
      Action.exists_of_forM_error rest
    let next (_ : Unit) : Action Unit := early.forM (Turn.action base)
    obtain ⟨reached, sooner⟩ :=
      Action.bind_of_ok begun (show next () started = .ok () middle from succeeded)
    cases turn with
    | enter n => cases failed
    | leave n =>
      refine ⟨early, n, late, middle, cut, reached, failed, ?_⟩
      rw [taking, events, happened, ← List.append_assoc]
      exact congrArg (· ++ _) sooner.symm

/-- Generation of a material that has been built enters each node that has no scene above it once,
writes it once after all that is visited below it, and then completes the material. Where it
succeeds the nodes that are marked are those. Where the walk fails it has taken the first turns and
then failed to write a node, and nothing has happened after that. -/
theorem generate_writes_live_nodes_in_postorder {c : Construct} (built : ofConstruct c = .ok m) :
    ∃ turns, m.Toured [root] turns ∧
      (m.Postordered [root] (left turns) ∧ (left turns).Nodup ∧
        (entered turns).Perm (left turns) ∧ ∀ n, n ∈ left turns ↔ m.IsLive n) ∧
      generate.run m = (m.taking turns >>= fun _ => complete).run m ∧
      (∀ after, generate m = .ok () after →
        ∀ n, (after.node n).generated = true ↔ m.IsLive n) ∧
      ∀ failure after, walkAll m = .error failure after →
        ∃ early n late middle, turns = early ++ .leave n :: late ∧
          m.taking early m = .ok () middle ∧
          emit n (m.node n).config middle = .error failure after ∧
          generate m = .error failure after ∧
          generate.events m =
            (m.taking early).events m ++ (emit n (m.node n).config).events middle := by
  obtain ⟨turns, toured, once, walked, whole⟩ := exists_schedule built
  refine ⟨turns, toured, ⟨toured.postordered, toured.perm.nodup_iff.1 once, toured.perm,
    fun n => toured.perm.mem_iff.symm.trans (toured.mem_entered_root_iff built)⟩, whole,
    fun after ended => generated_iff_isLive built ended, fun failure after ended => ?_⟩
  · have failed : m.taking turns m = .error failure after := by
      rw [Action.result, ← walked]
      exact ended
    obtain ⟨early, n, late, middle, cut, reached, last, events⟩ := exists_failing_turn failed
    obtain ⟨stopped, happened⟩ := Action.bind_of_error failed fun _ => complete
    refine ⟨early, n, late, middle, cut, reached, last, ?_, ?_⟩
    · rw [Action.result, whole]
      exact stopped
    · rw [← events, Action.events, whole]
      exact happened

/-- The light below the scene is not visited and so does no harm. The light beside the scene cannot
be written, which ends the walk. -/
theorem generate_writes_live_nodes_in_postorder_of_light :
    (∃ m after, ofConstruct ⟨.material, none, [], [],
        [⟨.scene, some "stage", [], [], []⟩,
          ⟨.light, none, [⟨.parent, none, some (.string "stage")⟩], [], []⟩]⟩ = .ok m ∧
      generate m = .ok () after ∧ (after.node 0).generated = true ∧
      (after.node 2).generated = false) ∧
    ∃ m failure after early n middle, ofConstruct ⟨.material, none, [], [],
        [⟨.scene, some "stage", [], [], []⟩, ⟨.light, none, [], [], []⟩]⟩ = .ok m ∧
      m.taking early m = .ok () middle ∧ emit n (m.node n).config middle = .error failure after ∧
      generate m = .error failure after ∧
      generate.events m =
        (m.taking early).events m ++ (emit n (m.node n).config).events middle := by
  constructor
  · have evaluated : (ofConstruct ⟨.material, none, [], [],
        [⟨.scene, some "stage", [], [], []⟩,
          ⟨.light, none, [⟨.parent, none, some (.string "stage")⟩], [], []⟩]⟩).toOption.any
        (fun m => (generate.ended? m).any (fun _ => true) && (m.node 2).parent == some 1 &&
          (m.node 1).config.isScene && (m.node 0).parent == none && m.nodes.size == 3) = true := by
      decide +kernel
    obtain ⟨m, built, computed⟩ := exists_ok_of_any evaluated
    simp only [Bool.and_eq_true, beq_iff_eq] at computed
    obtain ⟨⟨⟨⟨succeeds, step⟩, scene⟩, top⟩, size⟩ := computed
    obtain ⟨⟨⟩, after, ended, -⟩ := Action.exists_ok_of_any succeeds
    obtain ⟨-, -, -, -, marks, -⟩ := generate_writes_live_nodes_in_postorder built
    have first : m.IsLive 0 :=
      ⟨size ▸ Nat.succ_pos 2, fun above higher =>
        (not_isAncestor_of_parent_eq_none top higher).elim⟩
    have lower : ¬ m.IsLive 2 := fun live => by
      simpa [scene] using live.2 1 (.single step)
    exact ⟨m, after, built, ended, (marks after ended 0).2 first,
      Bool.eq_false_iff.2 fun marked => lower ((marks after ended 2).1 marked)⟩
  · have evaluated : (ofConstruct ⟨.material, none, [], [],
        [⟨.scene, some "stage", [], [], []⟩, ⟨.light, none, [], [], []⟩]⟩).toOption.any
        (fun m => (walkAll.ended? m).isNone) = true := by
      decide +kernel
    obtain ⟨m, built, computed⟩ := exists_ok_of_any evaluated
    obtain ⟨turns, -, -, -, -, fails⟩ := generate_writes_live_nodes_in_postorder built
    cases ended : walkAll m with
    | ok _ after => simp [Action.ended?, ended] at computed
    | error failure after =>
      obtain ⟨early, n, -, middle, -, reached, failed, stopped, events⟩ := fails failure after ended
      exact ⟨m, failure, after, early, n, middle, built, reached, failed, stopped, events⟩

end Material

end GlslMaterial
