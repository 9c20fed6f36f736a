import GlslMaterial.Proofs.Interface.Bindings

/-!
What events leave as it is: entries of the interface are only added, the nodes keep their
configuration, and what a node shows to others was exposed before.
-/

set_option autoImplicit false

namespace GlslMaterial

/-- Whether an event is about the tables of inputs and outputs. -/
def Event.isInterface : Event → Bool
  | .input _ _ _ | .output _ _ _ | .wire _ _ | .link _ _ _ _ => true
  | _ => false

/-- Whether an event is about helpers and code only. -/
def Event.isText : Event → Bool
  | .start _ | .write _ _ _ | .assign _ _ _ | .define _ _ | .require _ _ _ | .stamp => true
  | _ => false

namespace Material

variable {event : Event} {m : Material} {n : NodeId} {events : List Event} {pair : Trait × Symbol}

/-- Events about code leave all else alone. -/
theorem apply_text (m : Material) (text : event.isText = true) : m.apply event =
    { m with sources := (m.apply event).sources, functions := (m.apply event).functions } := by
  cases event with
  | start | define =>
    simp only [apply, define, started]
    split <;> rfl
  | require =>
    simp only [apply, remembered]
    split <;> rfl
  | write | assign | stamp => rfl
  | _ => cases text

/-- What every event keeps, a history keeps. -/
@[elab_as_elim]
theorem replay_induction {motive : Material → Prop} (m : Material) (events : List Event)
    (start : motive m) (step : ∀ m event, motive m → motive (m.apply event)) :
    motive (m.replay events) := by
  induction events generalizing m with
  | nil => exact start
  | cons event events ih => exact ih _ (step m event start)

/-- All other events leave the tables alone. -/
theorem apply_interface (m : Material) (other : event.isInterface = false) :
    (m.apply event).inputs = m.inputs ∧ (m.apply event).outputs = m.outputs ∧
      (m.apply event).varyings = m.varyings ∧ (m.apply event).samplers = m.samplers := by
  by_cases text : event.isText = true
  · rw [m.apply_text text]
    exact ⟨rfl, rfl, rfl, rfl⟩
  · cases event with
    | input | output | wire | link => cases other
    | start | define | require => exact absurd rfl text
    | _ => exact ⟨rfl, rfl, rfl, rfl⟩

theorem withInput_spec (m : Material) (rate : Rate) (key : Trait) (duplicates : Bool) :
    (∃ typed kept name, key.resolved = .ok typed ∧ inputRate rate typed = .ok kept ∧
      Asked m.inputs kept typed duplicates name (m.withInput rate key duplicates).inputs ∧
      m.withInput rate key duplicates =
        { m with
          inputs := (m.withInput rate key duplicates).inputs
          samplers := (m.withInput rate key duplicates).samplers }) ∨
      m.withInput rate key duplicates = m := by
  unfold withInput
  cases added : m.addInput rate key duplicates with
  | error failure => exact .inr rfl
  | ok result =>
    obtain ⟨⟨name, kept⟩, after⟩ := result
    obtain ⟨typed, resolved, stored, asked, same⟩ := addInput_eq_ok added
    exact .inl ⟨typed, kept, name, resolved, stored, asked, same⟩

theorem withOutput_spec (m : Material) (rate : Rate) (key : Trait) (duplicates : Bool) :
    (∃ typed name, key.resolved = .ok typed ∧ rate.stage?.isSome = true ∧
      Asked m.outputs rate typed duplicates name (m.withOutput rate key duplicates).outputs ∧
      m.withOutput rate key duplicates =
        { m with outputs := (m.withOutput rate key duplicates).outputs }) ∨
      m.withOutput rate key duplicates = m := by
  unfold withOutput
  cases added : m.addOutput rate key duplicates with
  | error failure => exact .inr rfl
  | ok result =>
    obtain ⟨⟨name, created⟩, after⟩ := result
    obtain ⟨typed, resolved, staged, asked, -, -, same⟩ := addOutput_eq_ok added
    exact .inl ⟨typed, name, resolved, staged, asked, same⟩

/-- Events about the tables leave all else alone. -/
theorem apply_tables (m : Material) (about : event.isInterface = true) : m.apply event =
    { m with
      inputs := (m.apply event).inputs
      outputs := (m.apply event).outputs
      varyings := (m.apply event).varyings
      samplers := (m.apply event).samplers } := by
  cases event with
  | input rate key duplicates =>
    rcases m.withInput_spec rate key duplicates with ⟨_, _, _, -, -, -, same⟩ | same <;>
      rw [apply, same]
  | output rate key duplicates =>
    rcases m.withOutput_spec rate key duplicates with ⟨_, _, -, -, -, same⟩ | same <;>
      rw [apply, same]
  | link outputRate output rate input =>
    simp only [apply, link]
    split
    · split <;> rfl
    · rfl
  | wire => rfl
  | _ => cases about

theorem withInput_frame (m : Material) (rate : Rate) (key : Trait) (duplicates : Bool) :
    (m.withInput rate key duplicates).outputs = m.outputs ∧
      (m.withInput rate key duplicates).varyings = m.varyings := by
  rcases m.withInput_spec rate key duplicates with ⟨_, _, _, -, -, -, same⟩ | same <;>
    exact ⟨(congrArg outputs same).trans rfl, (congrArg varyings same).trans rfl⟩

theorem withOutput_frame (m : Material) (rate : Rate) (key : Trait) (duplicates : Bool) :
    (m.withOutput rate key duplicates).inputs = m.inputs ∧
      (m.withOutput rate key duplicates).varyings = m.varyings := by
  rcases m.withOutput_spec rate key duplicates with ⟨_, _, -, -, -, same⟩ | same <;>
    exact ⟨(congrArg inputs same).trans rfl, (congrArg varyings same).trans rfl⟩

/-- Entries of both tables are only ever added. -/
theorem entries_apply (m : Material) (event : Event) :
    m.inputs.map Binding.entry <+: (m.apply event).inputs.map Binding.entry ∧
      m.outputs.map Binding.entry <+: (m.apply event).outputs.map Binding.entry := by
  by_cases about : event.isInterface = false
  · obtain ⟨inputs, outputs, -⟩ := m.apply_interface about
    rw [inputs, outputs]
    exact ⟨List.prefix_refl _, List.prefix_refl _⟩
  · cases event with
    | input rate key duplicates =>
      have kept : m.outputs.map Binding.entry <+:
          (m.withInput rate key duplicates).outputs.map Binding.entry := by
        simp [(m.withInput_frame rate key duplicates).1]
      rcases m.withInput_spec rate key duplicates with ⟨_, _, _, _, _, asked, -⟩ | same
      · exact ⟨asked.entries, kept⟩
      · simp [apply, same]
    | output rate key duplicates =>
      have kept : m.inputs.map Binding.entry <+:
          (m.withOutput rate key duplicates).inputs.map Binding.entry := by
        simp [(m.withOutput_frame rate key duplicates).1]
      rcases m.withOutput_spec rate key duplicates with ⟨_, _, _, _, asked, -⟩ | same
      · exact ⟨kept, asked.entries⟩
      · simp [apply, same]
    | wire rate output =>
      have entries := map_entry_markWired m rate output
      exact ⟨List.prefix_refl _, entries ▸ List.prefix_refl _⟩
    | link outputRate output rate input =>
      obtain ⟨inputs, outputs⟩ := m.map_entry_link outputRate output rate input
      show _ <+: (m.link outputRate output rate input).inputs.map Binding.entry ∧
        _ <+: (m.link outputRate output rate input).outputs.map Binding.entry
      rw [inputs, outputs]
      exact ⟨List.prefix_refl _, List.prefix_refl _⟩
    | _ => simp [Event.isInterface] at about

theorem entries_replay (m : Material) (events : List Event) :
    m.inputs.map Binding.entry <+: (m.replay events).inputs.map Binding.entry ∧
      m.outputs.map Binding.entry <+: (m.replay events).outputs.map Binding.entry := by
  refine replay_induction m events ⟨List.prefix_refl _, List.prefix_refl _⟩ ?_
  intro after event earlier
  have later := after.entries_apply event
  exact ⟨earlier.1.trans later.1, earlier.2.trans later.2⟩

theorem node_modifyNode (m : Material) (id other : NodeId) (change : Node → Node) :
    (m.modifyNode id change).node other = m.node other ∨
      id = other ∧ (m.modifyNode id change).node other = change (m.node other) := by
  by_cases same : other = id
  · subst same
    by_cases known : other < m.nodes.size
    · exact .inr ⟨rfl, m.node_modifyNode_self change known⟩
    · left
      have absent : m.nodes.size ≤ other := Nat.le_of_not_lt known
      simp [node, modifyNode, Array.getD_eq_getD_getElem?, absent]
  · exact .inl (m.node_modifyNode_of_ne change same)

theorem nodes_apply (m : Material) (event : Event) :
    (∃ n, event = .visit n) ∨ (∃ n key symbol, event = .expose n key symbol) ∨
      (m.apply event).nodes = m.nodes := by
  by_cases text : event.isText = true
  · rw [m.apply_text text]
    exact .inr (.inr rfl)
  by_cases about : event.isInterface = true
  · rw [m.apply_tables about]
    exact .inr (.inr rfl)
  cases event with
  | visit n => exact .inl ⟨n, rfl⟩
  | expose n key symbol => exact .inr (.inl ⟨n, key, symbol, rfl⟩)
  | begin | ask | warn => exact .inr (.inr rfl)
  | _ => simp [Event.isText, Event.isInterface] at text about

/-- A node is marked when it is entered, and gets the symbols that it shows. -/
theorem node_apply (m : Material) (event : Event) (n : NodeId) :
    (m.apply event).node n = m.node n ∨
      event = .visit n ∧ (m.apply event).node n = { m.node n with generated := true } ∨
      ∃ key symbol, event = .expose n key symbol ∧ (m.apply event).node n =
        { m.node n with outputs := setOutput key symbol (m.node n).outputs } := by
  rcases m.nodes_apply event with ⟨id, rfl⟩ | ⟨id, key, symbol, rfl⟩ | same
  · rcases m.node_modifyNode id n _ with same | ⟨rfl, same⟩
    · exact .inl same
    · exact .inr (.inl ⟨rfl, same⟩)
  · rcases m.node_modifyNode id n _ with same | ⟨rfl, same⟩
    · exact .inl same
    · exact .inr (.inr ⟨key, symbol, rfl, same⟩)
  · exact .inl (by rw [node, node, same])

theorem config_apply (m : Material) (event : Event) (n : NodeId) :
    ((m.apply event).node n).config = (m.node n).config := by
  rcases m.node_apply event n with same | ⟨-, same⟩ | ⟨_, _, -, same⟩ <;> rw [same]

theorem config_replay (m : Material) (events : List Event) (n : NodeId) :
    ((m.replay events).node n).config = (m.node n).config :=
  replay_induction m events rfl fun after event same => (after.config_apply event n).trans same

theorem children_apply (m : Material) (event : Event) (n : NodeId) :
    ((m.apply event).node n).children = (m.node n).children := by
  rcases m.node_apply event n with same | ⟨-, same⟩ | ⟨_, _, -, same⟩ <;> rw [same]

theorem children_replay (m : Material) (events : List Event) (n : NodeId) :
    ((m.replay events).node n).children = (m.node n).children :=
  replay_induction m events rfl fun after event same => (after.children_apply event n).trans same

theorem size_apply (m : Material) (event : Event) :
    (m.apply event).nodes.size = m.nodes.size := by
  rcases m.nodes_apply event with ⟨id, rfl⟩ | ⟨id, key, symbol, rfl⟩ | same
  · exact m.size_modifyNode id _
  · exact m.size_modifyNode id _
  · rw [same]

theorem size_replay (m : Material) (events : List Event) :
    (m.replay events).nodes.size = m.nodes.size :=
  replay_induction m events rfl fun after event same => (after.size_apply event).trans same

theorem visit_of_generated_apply (marked : ((m.apply event).node n).generated = true) :
    (m.node n).generated = true ∨ event = .visit n := by
  rcases m.node_apply event n with same | ⟨rfl, -⟩ | ⟨_, _, -, same⟩
  · exact .inl (same ▸ marked)
  · exact .inr rfl
  · rw [same] at marked
    exact .inl marked

theorem generated_apply (marked : (m.node n).generated = true)
    (event : Event) : ((m.apply event).node n).generated = true := by
  rcases m.node_apply event n with same | ⟨-, same⟩ | ⟨_, _, -, same⟩ <;> rw [same]
  · exact marked
  · exact marked

theorem generated_replay (marked : (m.node n).generated = true)
    (events : List Event) : ((m.replay events).node n).generated = true :=
  replay_induction m events marked fun _ event marked => generated_apply marked event

theorem visit_of_generated_replay (marked : ((m.replay events).node n).generated = true) :
    (m.node n).generated = true ∨ .visit n ∈ events := by
  induction events generalizing m with
  | nil => exact .inl marked
  | cons event events ih =>
    rcases ih marked with early | later
    · rcases visit_of_generated_apply early with marked | rfl
      · exact .inl marked
      · exact .inr List.mem_cons_self
    · exact .inr (List.mem_cons_of_mem _ later)

theorem generated_of_visit (known : n < m.nodes.size) (entered : .visit n ∈ events) :
    ((m.replay events).node n).generated = true := by
  obtain ⟨early, late, rfl⟩ := List.append_of_mem entered
  rw [replay_append, replay_cons]
  refine generated_replay ?_ late
  exact congrArg Node.generated (node_modifyNode_self _ _ (m.size_replay early ▸ known))

theorem mem_setOutput {key : Trait} {symbol : Symbol} {shown : List (Trait × Symbol)}
    (member : pair ∈ setOutput key symbol shown) : pair = (key, symbol) ∨ pair ∈ shown := by
  fun_induction setOutput key symbol shown with
  | case1 => exact .inl (List.mem_singleton.1 member)
  | case2 other old rest =>
    rcases List.mem_cons.1 member with first | later
    · exact .inl first
    · exact .inr (List.mem_cons_of_mem _ later)
  | case3 other old rest _ ih =>
    rcases List.mem_cons.1 member with first | later
    · exact .inr (first ▸ List.mem_cons_self)
    · exact (ih later).imp id (List.mem_cons_of_mem _)

theorem outputs_apply (member : pair ∈ ((m.apply event).node n).outputs) :
    pair ∈ (m.node n).outputs ∨ event = .expose n pair.1 pair.2 := by
  rcases m.node_apply event n with same | ⟨-, same⟩ | ⟨key, symbol, rfl, same⟩ <;>
    rw [same] at member
  · exact .inl member
  · exact .inl member
  · rcases mem_setOutput member with rfl | old
    · exact .inr rfl
    · exact .inl old

theorem outputs_replay (member : pair ∈ ((m.replay events).node n).outputs) :
    pair ∈ (m.node n).outputs ∨ .expose n pair.1 pair.2 ∈ events := by
  induction events generalizing m with
  | nil => exact .inl member
  | cons event events ih =>
    rcases ih member with early | later
    · rcases outputs_apply early with old | rfl
      · exact .inl old
      · exact .inr List.mem_cons_self
    · exact .inr (List.mem_cons_of_mem _ later)

/-- The helpers that a stage has are those that have been asked for. -/
theorem hasFunction_apply_iff {stage : Stage} {name : String} :
    (m.apply event).hasFunction stage name = true ↔
      m.hasFunction stage name = true ∨ ∃ body, event = .require stage name body := by
  have same {after : Material} (kept : after.functions = m.functions)
      (other : ∀ body, event ≠ .require stage name body) : after.hasFunction stage name = true ↔
        m.hasFunction stage name = true ∨ ∃ body, event = .require stage name body := by
    rw [hasFunction, kept, hasFunction, or_iff_left fun ⟨body, asked⟩ => other body asked]
  cases event with
  | require other text body =>
    have asked : (∃ given, Event.require other text body = .require stage name given) ↔
        stage = other ∧ name = text := by
      simp [eq_comm]
    rw [apply, remembered, asked]
    split
    · rename_i known
      exact (or_iff_left_of_imp fun ⟨here, named⟩ => here ▸ named ▸ known).symm
    · simp [hasFunction]
  | input | output | wire | link =>
    rw [m.apply_tables rfl]
    exact same rfl nofun
  | start other | define other text =>
    refine same ?_ nofun
    simp only [apply, define, started]
    split <;> rfl
  | _ => exact same rfl nofun

theorem hasFunction_replay_iff {stage : Stage} {name : String} :
    (m.replay events).hasFunction stage name = true ↔
      m.hasFunction stage name = true ∨ ∃ body, .require stage name body ∈ events := by
  induction events generalizing m with
  | nil => simp
  | cons event events ih =>
    rw [replay_cons, ih, hasFunction_apply_iff, or_assoc, ← exists_or]
    simp only [List.mem_cons, eq_comm]

end Material

end GlslMaterial
