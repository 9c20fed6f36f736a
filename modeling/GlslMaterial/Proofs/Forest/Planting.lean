import GlslMaterial.Proofs.Forest.Building
import GlslMaterial.Proofs.Forest.Order

/-!
Building a material makes one tree of its nodes. Nodes are numbered in the order of their
constructs, every node goes below an earlier one, and nothing but the nodes is touched. Where no
construct names its parent, the tree of the nodes is that of the constructs.
-/

set_option autoImplicit false

namespace GlslMaterial

namespace Construct

/-- The children that become nodes of their own. -/
def nodeChildren (c : Construct) : List Construct :=
  c.children.filter fun child => child.kind.isNode

mutual

/-- A construct and those below it that become nodes, each before all that are below it. -/
def nodes : Construct → List Construct
  | ⟨kind, name, traits, verbs, children⟩ =>
    ⟨kind, name, traits, verbs, children⟩ :: nodesOf children
termination_by structural c => c

/-- The constructs of a list, and those below them, that become nodes. -/
def nodesOf : List Construct → List Construct
  | [] => []
  | c :: rest => (if c.kind.isNode then c.nodes else []) ++ nodesOf rest
termination_by structural constructs => constructs

end

theorem nodes_eq (c : Construct) : c.nodes = c :: nodesOf c.children := by
  cases c
  rw [nodes]

/-- A construct that does not say below which node it goes. -/
def IsUnplaced (c : Construct) : Prop :=
  ∀ t ∈ c.traits, t.id ≠ .parent

theorem IsUnplaced.traitString? {c : Construct} (unplaced : c.IsUnplaced) :
    c.traitString? .parent = none := by
  have absent : c.findTrait? .parent = none :=
    List.find?_eq_none.2 fun t member => by simpa using unplaced t member
  simp [Construct.traitString?, traitValue?, absent]

end Construct

namespace Material

/-- The same nodes with the same data, but perhaps other parents and children. -/
structure Relinked (m after : Material) : Prop where
  rest : after = { m with nodes := after.nodes }
  size : after.nodes.size = m.nodes.size
  node : ∀ id, ∃ parent children, after.node id = { m.node id with parent, children }

namespace Relinked

variable {m middle after : Material}

theorem refl (m : Material) : m.Relinked m :=
  ⟨rfl, rfl, fun id => ⟨(m.node id).parent, (m.node id).children, rfl⟩⟩

theorem trans (first : m.Relinked middle) (second : middle.Relinked after) : m.Relinked after where
  rest := by
    rw [second.rest, first.rest]
  size := second.size.trans first.size
  node id := by
    obtain ⟨_, _, one⟩ := first.node id
    obtain ⟨parent, children, two⟩ := second.node id
    exact ⟨parent, children, by rw [two, one]⟩

theorem modifyNode (m : Material) (id : NodeId) {change : Node → Node}
    (links : ∀ node, ∃ parent children, change node = { node with parent, children }) :
    m.Relinked (m.modifyNode id change) where
  rest := rfl
  size := m.size_modifyNode id change
  node other := by
    by_cases known : id < m.nodes.size
    · rw [node_modifyNode_eq_ite known]
      split
      · rename_i same
        rw [same]
        exact links (m.node id)
      · exact ⟨_, _, rfl⟩
    · have same : m.modifyNode id change = m := by
        simp [Material.modifyNode, Array.modify, Array.modifyM, known]
      rw [same]
      exact ⟨_, _, rfl⟩

theorem removeChild (m : Material) (parent child : NodeId) :
    m.Relinked (m.removeChild parent child).2 := by
  unfold Material.removeChild
  split
  · exact (modifyNode m parent fun node => ⟨_, _, rfl⟩).trans
      (modifyNode _ child fun node => ⟨_, _, rfl⟩)
  · exact refl m

theorem addChild {parent child : NodeId} (added : m.addChild parent child = .ok after) :
    m.Relinked after := by
  have detached : m.Relinked (m.detach child) := by
    unfold Material.detach
    split
    · exact refl m
    · exact removeChild m _ child
  unfold Material.addChild at added
  split at added
  · cases added
  · split at added
    · cases added
    · split at added
      · exact Except.ok.inj added ▸ refl m
      · rw [← Except.ok.inj added]
        exact (detached.trans (modifyNode _ child fun node => ⟨_, _, rfl⟩)).trans
          (modifyNode _ parent fun node => ⟨_, _, rfl⟩)

end Relinked

/-- A node is as its construct says: it has the kind and the data of the construct, and its rate or
else the one that is the default. -/
structure IsOf (m : Material) (n : NodeId) (c : Construct) : Prop where
  kind : (m.node n).config.kind = c.kind
  descriptor : (m.node n).descriptor = c.withoutNodes
  rate : ∃ own, rateOf? c = .ok own ∧
    (m.node n).rate = (own.filter (· ≠ .auto)).getD m.defaultRate
  generated : (m.node n).generated = false

/-- There is one more node, for a construct and below `target`. -/
structure Sprouted (m : Material) (target : NodeId) (c : Construct) (after : Material) : Prop where
  rest : after = { m with nodes := after.nodes }
  size : after.nodes.size = m.nodes.size + 1
  forest : after.IsForest
  known : target < m.nodes.size
  parent : (after.node m.nodes.size).parent = some target
  children : (after.node m.nodes.size).children = []
  data : after.IsOf m.nodes.size c
  old : ∀ other, other ≠ m.nodes.size → after.node other = { m.node other with
    children := (m.node other).children ++ if target = other then [m.nodes.size] else [] }

variable {m middle after : Material} {parent id : NodeId} {c : Construct}

theorem node_addNode (m : Material) (config : Config) (name : Option String) (rate : Rate)
    (descriptor : Construct) (other : NodeId) :
    (m.addNode config name rate descriptor).2.node other =
      if other = m.nodes.size then ⟨config, name, rate, none, [], [], false, descriptor⟩
      else m.node other := by
  by_cases new : other = m.nodes.size
  · simp [addNode, node, new]
  · simp [addNode, node, Array.getD_eq_getD_getElem?, Array.getElem?_push, new]

theorem parentOf_known {target : NodeId} (known : parent < m.nodes.size)
    (found : m.parentOf c parent = .ok target) : target < m.nodes.size := by
  unfold parentOf at found
  split at found
  · exact Except.ok.inj found ▸ known
  · split at found
    · rename_i id named
      exact Except.ok.inj found ▸ (Array.findIdx?_eq_some_iff_findIdx_eq.1 named).1
    · cases found

theorem IsForest.sprouted (forest : m.IsForest) (known : parent < m.nodes.size)
    (planted : m.plant parent c = .ok (id, after)) :
    ∃ target, id = m.nodes.size ∧ c.kind.isNode = true ∧ (c.IsUnplaced → target = parent) ∧
      m.Sprouted target c after := by
  obtain ⟨own, config, target, node, read, made, rfl, found, added⟩ := exists_of_plant planted
  let rate := (own.filter (· ≠ .auto)).getD m.defaultRate
  let grown := (m.addNode config c.displayName? rate c.withoutNodes).2
  change grown.parentOf c parent = .ok target at found
  change grown.addChild target m.nodes.size = .ok after at added
  have size : grown.nodes.size = m.nodes.size + 1 := by
    simp [grown, Material.addNode]
  have grown_node (other : NodeId) : grown.node other = if other = m.nodes.size then
      ⟨config, c.displayName?, rate, none, [], [], false, c.withoutNodes⟩ else m.node other :=
    m.node_addNode config c.displayName? rate c.withoutNodes other
  have own_node : (grown.node m.nodes.size) =
      ⟨config, c.displayName?, rate, none, [], [], false, c.withoutNodes⟩ := by
    rw [grown_node, if_pos rfl]
  have grown_forest : grown.IsForest := forest.addNode config c.displayName? rate c.withoutNodes
  have new_known : m.nodes.size < grown.nodes.size := by omega
  have target_known : target < grown.nodes.size :=
    parentOf_known (size ▸ Nat.lt_succ_of_lt known) found
  have relinked := Relinked.addChild added
  have result : grown.edited (.addChild target m.nodes.size) = after := by
    simp [Material.edited, added]
  rcases grown_forest.addChild_eq_ok new_known target_known added with
    ⟨-, already⟩ | ⟨moved, different, -⟩
  · rw [own_node] at already
    cases already
  · -- The new node is nobody's child before, so that nothing is taken away.
    have absent (other : NodeId) : m.nodes.size ∉ (grown.node other).children := by
      rw [grown_forest.linked, own_node]
      simp
    have children (other : NodeId) : (after.node other).children = (grown.node other).children ++
        if target = other then [m.nodes.size] else [] := by
      rw [moved.children, List.erase_of_not_mem (absent other)]
      simp only [Option.some.injEq]
    have data : ∃ parent children, after.node m.nodes.size =
        ⟨config, c.displayName?, rate, parent, children, [], false, c.withoutNodes⟩ := by
      obtain ⟨parent, children, same⟩ := relinked.node m.nodes.size
      exact ⟨parent, children, by rw [same, own_node]⟩
    obtain ⟨_, _, data⟩ := data
    have rates : after.defaultRate = m.defaultRate := by
      rw [relinked.rest]
      rfl
    refine ⟨target, rfl, node, fun unplaced => ?_, ?_⟩
    · simpa [parentOf, unplaced.traitString?] using found.symm
    exact {
      rest := by
        rw [relinked.rest]
        rfl
      size := relinked.size.trans size
      forest := result ▸ grown_forest.edited ⟨target_known, new_known⟩
      known := by
        rw [size] at target_known
        exact Nat.lt_of_le_of_ne (Nat.le_of_lt_succ target_known) different.symm
      parent := by rw [moved.parent, if_pos rfl]
      children := by
        rw [children, own_node, if_neg (Ne.symm different)]
        rfl
      data := ⟨by rw [data]; exact (Config.of_ofConstruct made).1, by rw [data],
        ⟨own, read, by rw [data, rates]⟩, by rw [data]⟩
      old := fun other old => by
        obtain ⟨up, down, same⟩ := relinked.node other
        have kept : grown.node other = m.node other := by rw [grown_node, if_neg old]
        have up_same : up = (m.node other).parent := by
          have step := moved.parent other
          rw [same, if_neg old, kept] at step
          exact step
        have down_same := children other
        rw [same, kept] at down_same
        rw [same, kept, up_same, ← down_same] }

/-- The nodes are those of some constructs, in their order. They are one tree, in which every node
is below an earlier one, and there is nothing else. -/
structure Planted (m : Material) (constructs : List Construct) : Prop where
  untouched : ∃ rate, m = { ofRate rate with nodes := m.nodes, version := m.version }
  forest : m.IsForest
  size : m.nodes.size = constructs.length
  top : (m.node root).parent = none
  below : ∀ n, n ≠ root → n < m.nodes.size → ∃ parent < n, (m.node n).parent = some parent
  data : ∀ n d, constructs[n]? = some d → m.IsOf n d

namespace Planted

variable {constructs : List Construct}

theorem sprouted {target : NodeId} (planted : m.Planted constructs)
    (sprouted : m.Sprouted target c after) : after.Planted (constructs ++ [c]) := by
  have rates : after.defaultRate = m.defaultRate := by rw [sprouted.rest]
  have old_parent {n : NodeId} (old : n ≠ m.nodes.size) :
      (after.node n).parent = (m.node n).parent := by rw [sprouted.old n old]
  have nonempty : root ≠ m.nodes.size := by
    intro same
    have known := sprouted.known
    rw [← same] at known
    exact Nat.not_lt_zero _ known
  exact {
    untouched := by
      obtain ⟨rate, same⟩ := planted.untouched
      have version : after.version = m.version := by rw [sprouted.rest]
      refine ⟨rate, ?_⟩
      rw [version]
      exact sprouted.rest.trans (congrArg (fun m => { m with nodes := after.nodes }) same)
    forest := sprouted.forest
    size := by rw [sprouted.size, planted.size, List.length_append, List.length_singleton]
    top := by rw [old_parent nonempty, planted.top]
    below := fun n other known => by
      by_cases new : n = m.nodes.size
      · exact ⟨target, new ▸ sprouted.known, new ▸ sprouted.parent⟩
      · rw [old_parent new]
        rw [sprouted.size] at known
        exact planted.below n other (Nat.lt_of_le_of_ne (Nat.le_of_lt_succ known) new)
    data := fun n d listed => by
      rcases Nat.lt_or_ge n constructs.length with early | late
      · rw [List.getElem?_append_left early] at listed
        have old : n ≠ m.nodes.size := Nat.ne_of_lt (planted.size ▸ early)
        obtain ⟨kind, descriptor, rate, generated⟩ := planted.data n d listed
        rw [← rates] at rate
        constructor <;> rw [sprouted.old n old] <;> assumption
      · rw [List.getElem?_append_right late] at listed
        obtain ⟨here, rfl⟩ : n - constructs.length = 0 ∧ c = d := by
          simpa [List.getElem?_singleton] using listed
        have new : n = m.nodes.size := by
          rw [planted.size]
          exact Nat.le_antisymm (Nat.le_of_sub_eq_zero here) late
        exact new ▸ sprouted.data }

end Planted

mutual

theorem Planted.instantiate : (c : Construct) → {constructs : List Construct} →
    {m after : Material} → {parent : NodeId} → m.Planted constructs → parent < m.nodes.size →
    instantiate parent c m = .ok after →
    after.Planted (constructs ++ c.nodes) ∧ m.nodes.size ≤ after.nodes.size
  | ⟨kind, name, traits, verbs, children⟩, constructs, m, after, parent, planted, known, built => by
    rw [Material.instantiate] at built
    obtain ⟨⟨id, middle⟩, planting, built⟩ := eq_ok_of_bind built
    obtain ⟨target, rfl, -, -, sprouted⟩ := planted.forest.sprouted known planting
    have size := sprouted.size
    have next : m.nodes.size < middle.nodes.size := size ▸ Nat.lt_succ_self _
    obtain ⟨whole, more⟩ := (planted.sprouted sprouted).instantiateNodes children next built
    refine ⟨?_, Nat.le_trans (Nat.le_of_lt next) more⟩
    rw [Construct.nodes]
    simpa using whole
termination_by structural c => c

theorem Planted.instantiateNodes : (children : List Construct) → {constructs : List Construct} →
    {m after : Material} → {parent : NodeId} → m.Planted constructs → parent < m.nodes.size →
    instantiateNodes parent children m = .ok after →
    after.Planted (constructs ++ Construct.nodesOf children) ∧ m.nodes.size ≤ after.nodes.size
  | [], constructs, m, after, parent, planted, known, built => by
    rw [Material.instantiateNodes] at built
    obtain rfl := Except.ok.inj built
    exact ⟨by simpa [Construct.nodesOf] using planted, Nat.le_refl _⟩
  | child :: rest, constructs, m, after, parent, planted, known, built => by
    rw [Material.instantiateNodes] at built
    rw [Construct.nodesOf]
    split at built
    · rename_i node
      obtain ⟨middle, first, built⟩ := eq_ok_of_bind built
      obtain ⟨here, more⟩ := planted.instantiate child known first
      obtain ⟨whole, most⟩ := here.instantiateNodes rest (Nat.lt_of_lt_of_le known more) built
      exact ⟨by simpa [node] using whole, Nat.le_trans more most⟩
    · rename_i data
      obtain ⟨whole, more⟩ := planted.instantiateNodes rest known built
      exact ⟨by simpa [data] using whole, more⟩
termination_by structural children => children

end

theorem planted_start {own : Option Rate} (material : c.kind = .material)
    (read : rateOf? c = .ok own) (version : Nat) :
    Planted { (ofRate (own.getD (.stage .pixel))).modifyNode root fun node =>
      { node with descriptor := c.withoutNodes } with version } [c] := by
  have same := isForest_ofRate (own.getD (.stage .pixel))
  exact {
    untouched := ⟨own.getD (.stage .pixel), rfl⟩
    forest := same.of_same_links (Nat.le_refl 1) (fun id => by cases id <;> rfl)
      (fun id => by cases id <;> rfl) fun id => by cases id <;> exact List.nodup_nil
    size := rfl
    top := rfl
    below := fun n other known => absurd (Nat.lt_one_iff.1 known) other
    data := fun n d listed => by
      obtain ⟨rfl, rfl⟩ : n = 0 ∧ c = d := by simpa [List.getElem?_singleton] using listed
      refine ⟨material.symm, rfl, ⟨own, read, ?_⟩, rfl⟩
      show (if own.getD (.stage .pixel) = .auto then .stage .pixel else own.getD (.stage .pixel)) =
        (own.filter (· ≠ .auto)).getD
          (if own.getD (.stage .pixel) = .auto then .stage .pixel else own.getD (.stage .pixel))
      cases own with
      | none => rfl
      | some rate => by_cases unset : rate = .auto <;> simp [Option.filter_some, unset] }

theorem instantiateNodes_of_foldlM {children : List Construct}
    (built : children.foldlM (fun m child => instantiate parent child m) m = .ok after) :
    instantiateNodes parent children m = .ok after := by
  induction children generalizing m with
  | nil => exact built
  | cons child children ih =>
    rw [List.foldlM_cons] at built
    obtain ⟨middle, added, built⟩ := eq_ok_of_bind built
    have node : child.kind.isNode = true := by
      obtain ⟨kind, name, traits, verbs, below⟩ := child
      rw [instantiate] at added
      obtain ⟨_, planted, -⟩ := eq_ok_of_bind added
      obtain ⟨_, _, _, node, -⟩ := exists_of_plant planted
      exact node
    rw [instantiateNodes, if_pos node, added]
    exact ih built

theorem exists_start_of_ofConstruct (built : ofConstruct c = .ok m) :
    ∃ start, start.Planted [c] ∧ (start.node root).children = [] ∧
      instantiateNodes root c.children start = .ok m := by
  unfold ofConstruct at built
  dsimp only at built
  split at built
  · obtain ⟨_, impossible, -⟩ := eq_ok_of_bind built
    cases impossible
  · rename_i material
    obtain ⟨own, read, built⟩ := eq_ok_of_bind built
    obtain ⟨version, -, built⟩ := eq_ok_of_bind built
    exact ⟨_, planted_start (by simpa using material) read version, rfl,
      instantiateNodes_of_foldlM built⟩

theorem planted_ofConstruct (built : ofConstruct c = .ok m) : m.Planted c.nodes := by
  obtain ⟨start, planted, -, rest⟩ := exists_start_of_ofConstruct built
  have known : root < start.nodes.size := planted.size ▸ Nat.zero_lt_one
  rw [Construct.nodes_eq]
  exact (planted.instantiateNodes c.children known rest).1

namespace Planted

variable {constructs : List Construct}

theorem isAncestor_root (planted : m.Planted constructs) {n : NodeId} (other : n ≠ root)
    (known : n < m.nodes.size) : m.IsAncestor root n := by
  induction n using Nat.strongRecOn with
  | ind n ih =>
    obtain ⟨parent, earlier, step⟩ := planted.below n other known
    by_cases top : parent = root
    · exact .single (top ▸ step)
    · exact .tail (ih parent earlier top (Nat.lt_trans earlier known)) step

theorem mem_subtree_root_iff (planted : m.Planted constructs) {n : NodeId} :
    n ∈ m.subtree root ↔ n ≠ root ∧ n < m.nodes.size := by
  rw [planted.forest.mem_subtree_iff]
  constructor
  · intro above
    refine ⟨fun same => planted.forest.not_isAncestor_self (same ▸ above), ?_⟩
    cases above with
    | single step | tail _ step =>
      exact planted.forest.child_known ((planted.forest.linked _ n).2 step)
  · rintro ⟨other, known⟩
    exact planted.isAncestor_root other known

theorem generated (planted : m.Planted constructs) (n : NodeId) : (m.node n).generated = false := by
  cases listed : constructs[n]? with
  | some d => exact (planted.data n d listed).generated
  | none =>
    have unknown : m.nodes.size ≤ n := planted.size ▸ List.getElem?_eq_none_iff.1 listed
    simp [node, Array.getD_eq_getD_getElem?, Array.getElem?_eq_none unknown]
    rfl

end Planted

/-- The tree of kinds below some nodes is that of some constructs, without those that are data. -/
inductive Mirrors (m : Material) : List NodeId → List Construct → Prop
  | nil : Mirrors m [] []
  | cons {id : NodeId} {ids : List NodeId} {c : Construct} {constructs : List Construct} :
    (m.node id).config.kind = c.kind → Mirrors m (m.node id).children c.nodeChildren →
      Mirrors m ids constructs → Mirrors m (id :: ids) (c :: constructs)

/-- Nodes for some constructs, numbered from the first free one, have been put below `parent`. -/
structure Grafted (parent : NodeId) (constructs : List Construct) (m : Material)
    (ids : List NodeId) (after : Material) : Prop where
  forest : after.IsForest
  size : after.nodes.size = m.nodes.size + (Construct.nodesOf constructs).length
  config : ∀ id < m.nodes.size, (after.node id).config = (m.node id).config
  old : ∀ id < m.nodes.size, id ≠ parent → (after.node id).children = (m.node id).children
  grown : (after.node parent).children = (m.node parent).children ++ ids
  listed : after.Listed ids (List.range' m.nodes.size (Construct.nodesOf constructs).length)
  mirrors : after.Mirrors ids (constructs.filter fun c => c.kind.isNode)

theorem Listed.congr {ids listing : List NodeId} (listed : m.Listed ids listing)
    (same : ∀ id ∈ listing, (after.node id).children = (m.node id).children) :
    after.Listed ids listing := by
  induction listed with
  | nil => exact .nil
  | @cons id rest below later _ _ below_ih later_ih =>
    have here := same id (by simp)
    have inside := below_ih fun other member => same other (by simp [member])
    exact .cons (here ▸ inside) (later_ih fun other member => same other (by simp [member]))

theorem Mirrors.congr {ids listing : List NodeId} {constructs : List Construct}
    (mirrors : m.Mirrors ids constructs) (listed : m.Listed ids listing)
    (same : ∀ id ∈ listing, (after.node id).children = (m.node id).children ∧
      (after.node id).config = (m.node id).config) :
    after.Mirrors ids constructs := by
  induction mirrors generalizing listing with
  | nil => exact .nil
  | @cons id _ _ _ kind _ _ below_ih later_ih =>
    cases listed with
    | cons below_listed later_listed =>
      have here := same id (by simp)
      have inside := below_ih below_listed fun other member => same other (by simp [member])
      refine .cons (by rw [here.2, kind]) (here.1 ▸ inside) ?_
      exact later_ih later_listed fun other member => same other (by simp [member])

theorem Mirrors.append {ids more : List NodeId} {constructs others : List Construct}
    (one : m.Mirrors ids constructs) (two : m.Mirrors more others) :
    m.Mirrors (ids ++ more) (constructs ++ others) := by
  induction one with
  | nil => exact two
  | cons kind below _ _ later_ih => exact .cons kind below later_ih

theorem nodesOf_cons (child : Construct) (rest : List Construct) :
    Construct.nodesOf (child :: rest) =
      Construct.nodesOf [child] ++ Construct.nodesOf rest := by
  simp [Construct.nodesOf]

namespace Grafted

variable {constructs rest : List Construct} {ids more : List NodeId}

theorem nil (forest : m.IsForest) (parent : NodeId) : Grafted parent [] m [] m where
  forest := forest
  size := by simp [Construct.nodesOf]
  config _ _ := rfl
  old _ _ _ := rfl
  grown := (List.append_nil _).symm
  listed := by simpa [Construct.nodesOf] using Listed.nil
  mirrors := .nil

theorem skip {child : Construct} (data : child.kind.isNode = false)
    (grafted : Grafted parent rest m ids after) :
    Grafted parent (child :: rest) m ids after := by
  have same : Construct.nodesOf (child :: rest) = Construct.nodesOf rest := by
    simp [Construct.nodesOf, data]
  exact ⟨grafted.forest, same ▸ grafted.size, grafted.config, grafted.old, grafted.grown,
    same ▸ grafted.listed, by simpa [data] using grafted.mirrors⟩

/-- What is grafted later is numbered behind what is there, and leaves it as it is. -/
theorem append {child : Construct} (known : parent < m.nodes.size)
    (one : Grafted parent [child] m ids middle) (two : Grafted parent rest middle more after) :
    Grafted parent (child :: rest) m (ids ++ more) after := by
  have larger : m.nodes.size ≤ middle.nodes.size := one.size ▸ Nat.le_add_right _ _
  have same : ∀ id ∈ List.range' m.nodes.size (Construct.nodesOf [child]).length,
      (after.node id).children = (middle.node id).children ∧
        (after.node id).config = (middle.node id).config := by
    intro id listed
    obtain ⟨new, inside⟩ := List.mem_range'_1.1 listed
    have earlier : id < middle.nodes.size := one.size ▸ inside
    have other : id ≠ parent := Nat.ne_of_gt (Nat.lt_of_lt_of_le known new)
    exact ⟨two.old id earlier other, two.config id earlier⟩
  exact {
    forest := two.forest
    size := by
      rw [two.size, one.size, nodesOf_cons child rest, List.length_append, Nat.add_assoc]
    config := fun id earlier => by
      rw [two.config id (Nat.lt_of_lt_of_le earlier larger), one.config id earlier]
    old := fun id earlier other => by
      rw [two.old id (Nat.lt_of_lt_of_le earlier larger) other, one.old id earlier other]
    grown := by rw [two.grown, one.grown, List.append_assoc]
    listed := by
      have first := one.listed.congr fun id member => (same id member).1
      rw [nodesOf_cons child rest, List.length_append, ← List.range'_append_1, ← one.size]
      exact first.append two.listed
    mirrors := by
      have first := one.mirrors.congr one.listed same
      rw [← List.singleton_append, List.filter_append]
      exact first.append two.mirrors }

theorem sprout (node : c.kind.isNode = true) (sprouted : m.Sprouted parent c middle)
    (below : Grafted m.nodes.size c.children middle ids after) :
    Grafted parent [c] m [m.nodes.size] after := by
  have all : Construct.nodesOf [c] = c :: Construct.nodesOf c.children := by
    simp [Construct.nodesOf, node, Construct.nodes_eq]
  have next : m.nodes.size < middle.nodes.size := sprouted.size ▸ Nat.lt_succ_self _
  have own : (after.node m.nodes.size).children = ids := by
    rw [below.grown, sprouted.children, List.nil_append]
  have kept (id : NodeId) (earlier : id < m.nodes.size) :
      (after.node id).children = (middle.node id).children :=
    below.old id (Nat.lt_trans earlier next) (Nat.ne_of_lt earlier)
  have old (id : NodeId) (earlier : id < m.nodes.size) := sprouted.old id (Nat.ne_of_lt earlier)
  exact {
    forest := below.forest
    size := by rw [below.size, sprouted.size, all, List.length_cons, Nat.add_assoc, Nat.add_comm 1]
    config := fun id earlier => by
      rw [below.config id (Nat.lt_trans earlier next), old id earlier]
    old := fun id earlier other => by
      rw [kept id earlier, old id earlier, if_neg (Ne.symm other), List.append_nil]
    grown := by rw [kept parent sprouted.known, old parent sprouted.known, if_pos rfl]
    listed := by
      rw [all, List.length_cons, List.range'_succ, ← sprouted.size]
      simpa using Listed.cons (own ▸ below.listed) .nil
    mirrors := by
      have kind : (after.node m.nodes.size).config.kind = c.kind := by
        rw [below.config _ next, sprouted.data.kind]
      simpa [node] using Mirrors.cons kind (own ▸ below.mirrors) .nil }

end Grafted

mutual

theorem IsForest.grafted_instantiate : (c : Construct) → {m after : Material} →
    {parent : NodeId} → m.IsForest → (∀ d ∈ c.nodes, d.IsUnplaced) → parent < m.nodes.size →
    instantiate parent c m = .ok after → Grafted parent [c] m [m.nodes.size] after
  | ⟨kind, name, traits, verbs, children⟩, m, after, parent, forest, unplaced, known, built => by
    rw [instantiate] at built
    rw [Construct.nodes] at unplaced
    obtain ⟨⟨id, middle⟩, planting, nodes⟩ := eq_ok_of_bind built
    obtain ⟨target, rfl, node, here, sprouted⟩ := forest.sprouted known planting
    obtain rfl := here (unplaced _ List.mem_cons_self)
    have next : m.nodes.size < middle.nodes.size := sprouted.size ▸ Nat.lt_succ_self _
    obtain ⟨ids, below⟩ := sprouted.forest.grafted_instantiateNodes children
      (fun d member => unplaced d (List.mem_cons_of_mem _ member)) next nodes
    exact below.sprout node sprouted
termination_by structural c => c

theorem IsForest.grafted_instantiateNodes : (children : List Construct) →
    {m after : Material} → {parent : NodeId} → m.IsForest →
    (∀ d ∈ Construct.nodesOf children, d.IsUnplaced) → parent < m.nodes.size →
    instantiateNodes parent children m = .ok after → ∃ ids, Grafted parent children m ids after
  | [], m, after, parent, forest, unplaced, known, built => by
    rw [instantiateNodes] at built
    exact Except.ok.inj built ▸ ⟨[], .nil forest parent⟩
  | child :: rest, m, after, parent, forest, unplaced, known, built => by
    rw [instantiateNodes] at built
    rw [Construct.nodesOf] at unplaced
    have later := fun d member => unplaced d (List.mem_append_right _ member)
    split at built
    · rename_i node
      rw [if_pos node] at unplaced
      obtain ⟨middle, first, built⟩ := eq_ok_of_bind built
      have one := forest.grafted_instantiate child
        (fun d member => unplaced d (List.mem_append_left _ member)) known first
      have still : parent < middle.nodes.size := Nat.lt_of_lt_of_le known
        (one.size ▸ Nat.le_add_right _ _)
      obtain ⟨ids, two⟩ := one.forest.grafted_instantiateNodes rest later still built
      exact ⟨_, one.append known two⟩
    · rename_i data
      obtain ⟨ids, whole⟩ := forest.grafted_instantiateNodes rest later known built
      exact ⟨ids, whole.skip (by simpa using data)⟩
termination_by structural children => children

end

/-- Where no construct names its parent, the nodes are listed in the order of their numbers, and the
tree of their kinds is that of the constructs. -/
theorem mirrors_ofConstruct (built : ofConstruct c = .ok m)
    (unplaced : ∀ d ∈ c.nodes, d.IsUnplaced) :
    m.subtree root = List.range' 1 (m.nodes.size - 1) ∧ m.Mirrors [root] [c] := by
  obtain ⟨start, planted, childless, rest⟩ := exists_start_of_ofConstruct built
  have one : start.nodes.size = 1 := planted.size
  have known : root < start.nodes.size := one ▸ Nat.zero_lt_one
  rw [Construct.nodes_eq] at unplaced
  obtain ⟨ids, grafted⟩ := planted.forest.grafted_instantiateNodes c.children
    (fun d member => unplaced d (List.mem_cons_of_mem _ member)) known rest
  have children : (m.node root).children = ids := by
    rw [grafted.grown, childless, List.nil_append]
  have size : m.nodes.size - 1 = (Construct.nodesOf c.children).length := by
    rw [grafted.size, one, Nat.add_sub_cancel_left]
  have kind : (m.node root).config.kind = c.kind :=
    ((planted_ofConstruct built).data root c (by rw [Construct.nodes_eq]; rfl)).kind
  constructor
  · have listed := grafted.listed
    rw [one, ← children] at listed
    rw [size]
    exact (grafted.forest.listed_subtree root).unique listed
  · exact .cons kind (children ▸ grafted.mirrors) .nil

/-- A material that is built from a construct has one tree of all its nodes, in which each node is
as its construct says and below an earlier one, and nothing else. -/
theorem ofConstruct_builds_one_tree (built : ofConstruct c = .ok m) :
    (∀ n, n ≠ root → n < m.nodes.size → ∃ parent < n, (m.node n).parent = some parent) ∧
      (m.subtree root).Nodup ∧
      (∀ n, n ∈ m.subtree root ↔ n ≠ root ∧ n < m.nodes.size) ∧
      m.nodes.size = c.nodes.length ∧
      (∀ n d, c.nodes[n]? = some d →
        (m.node n).config.kind = d.kind ∧
          (m.node n).descriptor =
            { d with children := d.children.filter fun child => !child.kind.isNode } ∧
          ∃ own, rateOf? d = .ok own ∧
            (m.node n).rate = (own.filter (· ≠ .auto)).getD m.defaultRate) ∧
      ((∀ d ∈ c.nodes, ∀ t ∈ d.traits, t.id ≠ .parent) →
        m.subtree root = List.range' 1 (m.nodes.size - 1) ∧ m.Mirrors [root] [c]) ∧
      (∀ stage, m.source stage = .empty) ∧
      m.inputs = [] ∧ m.outputs = [] ∧ m.functions = [] ∧ m.warnings = [] ∧
      m.generated = false ∧ ∀ n, (m.node n).generated = false := by
  have planted := planted_ofConstruct built
  obtain ⟨rate, untouched⟩ := planted.untouched
  have once := (List.nodup_cons.1 (planted.forest.nodup_tree root)).2
  refine ⟨planted.below, once, fun n => planted.mem_subtree_root_iff, planted.size,
    fun n d listed => ?_, mirrors_ofConstruct built, fun stage => ?_, ?_, ?_, ?_, ?_, ?_,
    planted.generated⟩
  · have data := planted.data n d listed
    exact ⟨data.kind, data.descriptor, data.rate⟩
  · rw [untouched]
    cases stage <;> rfl
  all_goals
    rw [untouched]
    rfl

/-- The light that names the scene as its parent goes below it; the light that names none stays
where its construct stands, below the texture, which keeps its file. -/
theorem ofConstruct_builds_one_tree_of_light :
    ∃ placed unplaced,
      ofConstruct ⟨.material, none, [], [],
        [⟨.scene, some "stage", [], [], []⟩,
          ⟨.texture, none, [⟨.rate, none, some (.string "Vertex")⟩], [],
            [⟨.file, some "a.png", [], [], []⟩,
              ⟨.light, none, [⟨.parent, none, some (.string "stage")⟩], [], []⟩]⟩]⟩ = .ok placed ∧
      placed.subtree root = [1, 3, 2] ∧ (placed.subtree root).Nodup ∧
      (placed.node 2).descriptor.children = [⟨.file, some "a.png", [], [], []⟩] ∧
      (placed.node 2).rate = .stage .vertex ∧
      ofConstruct ⟨.material, none, [], [],
        [⟨.scene, some "stage", [], [], []⟩,
          ⟨.texture, none, [⟨.rate, none, some (.string "Vertex")⟩], [],
            [⟨.file, some "a.png", [], [], []⟩, ⟨.light, none, [], [], []⟩]⟩]⟩ = .ok unplaced ∧
      unplaced.subtree root = [1, 2, 3] := by
  have evaluated : (ofConstruct ⟨.material, none, [], [],
        [⟨.scene, some "stage", [], [], []⟩,
          ⟨.texture, none, [⟨.rate, none, some (.string "Vertex")⟩], [],
            [⟨.file, some "a.png", [], [], []⟩,
              ⟨.light, none, [⟨.parent, none, some (.string "stage")⟩], [], []⟩]⟩]⟩).toOption.any
      (fun placed => placed.subtree root = [1, 3, 2]) = true := by
    decide +kernel
  obtain ⟨placed, built, order⟩ := exists_ok_of_any evaluated
  have evaluated : (ofConstruct ⟨.material, none, [], [],
        [⟨.scene, some "stage", [], [], []⟩,
          ⟨.texture, none, [⟨.rate, none, some (.string "Vertex")⟩], [],
            [⟨.file, some "a.png", [], [], []⟩, ⟨.light, none, [], [], []⟩]⟩]⟩).toOption.any
      (fun _ => true) = true := by
    decide +kernel
  obtain ⟨unplaced, again, -⟩ := exists_ok_of_any evaluated
  obtain ⟨-, once, -, -, data, -⟩ := ofConstruct_builds_one_tree built
  obtain ⟨-, -, -, size, -, mirrors, -⟩ := ofConstruct_builds_one_tree again
  obtain ⟨-, texture, own, read, rate⟩ := data 2 _ rfl
  obtain rfl : own = some (.stage .vertex) := Except.ok.inj (read.symm.trans rfl)
  exact ⟨placed, unplaced, built, of_decide_eq_true order, once,
    congrArg Construct.children texture, rate, again, by
      rw [(mirrors (by decide)).1, size]
      rfl⟩

end Material

end GlslMaterial
