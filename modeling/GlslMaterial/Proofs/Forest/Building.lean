import GlslMaterial.Material.Build

/-!
Building a material plants one node after the other, so that what planting a node keeps is kept by
the whole. Every node but the root has its configuration from a construct of the descriptor.
-/

set_option autoImplicit false

namespace GlslMaterial

namespace Construct

mutual

def tree : Construct → List Construct
  | ⟨kind, name, traits, verbs, children⟩ =>
    ⟨kind, name, traits, verbs, children⟩ :: trees children
termination_by structural c => c

def trees : List Construct → List Construct
  | [] => []
  | c :: rest => c.tree ++ trees rest
termination_by structural constructs => constructs

end

theorem self_mem_tree (c : Construct) : c ∈ c.tree := by
  cases c
  simp [tree]

theorem trees_children_subset (c : Construct) : trees c.children ⊆ c.tree := by
  cases c
  simp [tree]

/-- The code that a construct gives to a fractal. -/
def codes (c : Construct) : List String :=
  c.traits.filterMap fun t => if t.id = .code then t.value >>= Json.toString? else none

/-- All code that the fractals of a descriptor are given. -/
def fractalCodes (c : Construct) : List String :=
  (c.tree.filter fun d => d.kind = .fbm).flatMap codes

theorem mem_codes {c : Construct} {code : String} (given : c.traitString? .code = some code) :
    code ∈ c.codes := by
  obtain ⟨value, valued, text⟩ := Option.bind_eq_some_iff.1 given
  obtain ⟨t, found, has⟩ := Option.bind_eq_some_iff.1 valued
  have named : t.id = .code := by simpa using List.find?_some found
  refine List.mem_filterMap.2 ⟨t, List.mem_of_find?_eq_some found, ?_⟩
  rw [if_pos named, has]
  exact text

end Construct

/-- What a configuration was read from. -/
def Config.IsReadFrom (c : Construct) : Config → Prop
  | .transform t => Transform.ofConstruct c = .ok t
  | .texture t => Texture.ofConstruct c = .ok t
  | .fractal f => Fractal.ofConstruct c = .ok f
  | _ => True

theorem Config.of_ofConstruct {c : Construct} {config : Config}
    (made : Config.ofConstruct c = .ok config) : config.kind = c.kind ∧ config.IsReadFrom c := by
  unfold Config.ofConstruct at made
  dsimp only at made
  split at made
  · obtain ⟨_, impossible, -⟩ := eq_ok_of_bind made
    cases impossible
  · split at made
    case h_1 kind | h_2 kind | h_3 kind | h_4 kind | h_5 kind | h_6 kind | h_7 kind | h_8 kind =>
      obtain ⟨_, read, made⟩ := eq_ok_of_bind made
      rw [← Except.ok.inj made, kind]
      exact ⟨rfl, by first | exact read | trivial⟩
    case h_9 kind | h_10 kind | h_11 kind =>
      rw [← Except.ok.inj made, kind]
      exact ⟨rfl, trivial⟩
    · cases made

namespace Material

variable {holds : Material → Prop}

variable {m after : Material} {c : Construct}

/-- A planted node is the next one. It has the data of its construct, and is put below the parent
that the construct names, or else below `parent`. -/
theorem exists_of_plant {parent id : NodeId} (planted : m.plant parent c = .ok (id, after)) :
    ∃ own config target, c.kind.isNode = true ∧ rateOf? c = .ok own ∧
      Config.ofConstruct c = .ok config ∧ id = m.nodes.size ∧
      (m.addNode config c.displayName? ((own.filter (· ≠ .auto)).getD m.defaultRate)
        c.withoutNodes).2.parentOf c parent = .ok target ∧
      (m.addNode config c.displayName? ((own.filter (· ≠ .auto)).getD m.defaultRate)
        c.withoutNodes).2.addChild target id = .ok after := by
  unfold plant at planted
  dsimp only at planted
  split at planted
  · obtain ⟨_, impossible, -⟩ := eq_ok_of_bind planted
    cases impossible
  · rename_i node
    obtain ⟨rate, given, planted⟩ := eq_ok_of_bind planted
    obtain ⟨config, configured, planted⟩ := eq_ok_of_bind planted
    obtain ⟨target, found, planted⟩ := eq_ok_of_bind planted
    obtain ⟨grown, added, planted⟩ := eq_ok_of_bind planted
    obtain ⟨rfl, rfl⟩ := Prod.mk.inj (Except.ok.inj planted)
    obtain ⟨own, read, given⟩ := eq_ok_of_bind given
    obtain rfl : (own.filter (· ≠ .auto)).getD m.defaultRate = rate := by
      split at given
      · exact Except.ok.inj given
      · exact Except.ok.inj given
      · rename_i stated definite
        obtain rfl : stated = rate := Except.ok.inj given
        have kept : (some stated).filter (· ≠ .auto) = some stated := by
          rw [Option.filter_some, if_pos]
          simpa using definite
        rw [kept, Option.getD_some]
    exact ⟨own, config, target, by simpa using node, read, eq_ok_of_withContext configured, rfl,
      found, added⟩

theorem plant_eq_ok {parent id : NodeId} (planted : m.plant parent c = .ok (id, after)) :
    ∃ rate config target, Config.ofConstruct c = .ok config ∧
      (m.addNode config c.displayName? rate c.withoutNodes).2.addChild target id = .ok after := by
  obtain ⟨_, config, target, -, -, configured, -, -, added⟩ := exists_of_plant planted
  exact ⟨_, config, target, configured, added⟩

mutual

theorem instantiate_keeps : (c : Construct) →
    (∀ d ∈ c.tree, ∀ m parent id after, holds m → m.plant parent d = .ok (id, after) →
      holds after) →
    {m after : Material} → {parent : NodeId} → holds m → instantiate parent c m = .ok after →
    holds after
  | ⟨kind, name, traits, verbs, children⟩, plants, m, after, parent, start, built => by
    rw [instantiate] at built
    obtain ⟨⟨id, planted⟩, planting, built⟩ := eq_ok_of_bind built
    have first := plants _ (Construct.self_mem_tree _) m parent id planted start planting
    refine instantiateNodes_keeps children (fun d below => plants d ?_) first built
    exact Construct.trees_children_subset ⟨kind, name, traits, verbs, children⟩ below
termination_by structural c => c

theorem instantiateNodes_keeps : (children : List Construct) →
    (∀ d ∈ Construct.trees children, ∀ m parent id after, holds m →
      m.plant parent d = .ok (id, after) → holds after) →
    {m after : Material} → {parent : NodeId} → holds m →
    instantiateNodes parent children m = .ok after → holds after
  | [], _, m, after, parent, start, built => by
    rw [instantiateNodes] at built
    exact Except.ok.inj built ▸ start
  | child :: rest, plants, m, after, parent, start, built => by
    rw [instantiateNodes] at built
    have others := fun d below => plants d (List.mem_append_right child.tree below)
    split at built
    · obtain ⟨middle, first, built⟩ := eq_ok_of_bind built
      have kept := instantiate_keeps child
        (fun d below => plants d (List.mem_append_left _ below)) start first
      exact instantiateNodes_keeps rest others kept built
    · exact instantiateNodes_keeps rest others start built
termination_by structural children => children

end

theorem foldlM_instantiate_keeps {children : List Construct}
    (plants : ∀ d ∈ Construct.trees children, ∀ m parent id after, holds m →
      m.plant parent d = .ok (id, after) → holds after)
    (start : holds m)
    (built : children.foldlM (fun m child => instantiate root child m) m = .ok after) :
    holds after := by
  induction children generalizing m with
  | nil => exact Except.ok.inj built ▸ start
  | cons child children ih =>
    rw [List.foldlM_cons] at built
    obtain ⟨middle, added, built⟩ := eq_ok_of_bind built
    have kept := instantiate_keeps child
      (fun d below => plants d (List.mem_append_left _ below)) start added
    exact ih (fun d below => plants d (List.mem_append_right _ below)) kept built

/-- What holds of a material with nothing but its root, and is kept by every planted node, holds of
the material that a construct describes. -/
theorem ofConstruct_keeps (built : ofConstruct c = .ok m)
    (start : ∀ rate version, holds { (ofRate rate).modifyNode root fun node =>
      { node with descriptor := c.withoutNodes } with version })
    (plants : ∀ d ∈ c.tree, ∀ m parent id after, holds m → m.plant parent d = .ok (id, after) →
      holds after) : holds m := by
  unfold ofConstruct at built
  dsimp only at built
  split at built
  · obtain ⟨_, impossible, -⟩ := eq_ok_of_bind built
    cases impossible
  · obtain ⟨rate, -, built⟩ := eq_ok_of_bind built
    obtain ⟨version, -, built⟩ := eq_ok_of_bind built
    exact foldlM_instantiate_keeps
      (fun d below => plants d (Construct.trees_children_subset c below)) (start _ version) built

theorem exists_ok_of_any {ε α : Type} {result : Except ε α} {holds : α → Bool}
    (computed : result.toOption.any holds = true) : ∃ a, result = .ok a ∧ holds a = true := by
  cases result with
  | error failure => simp [Except.toOption] at computed
  | ok a => exact ⟨a, rfl, by simpa [Except.toOption] using computed⟩

end Material

end GlslMaterial
