import GlslMaterial.Proofs.Glsl.Scope
import GlslMaterial.Proofs.History.Meets
import GlslMaterial.Proofs.History.Replay

/-!
The law of writing a material: said once, what each event may be at the time at which it happens.
-/

set_option autoImplicit false

namespace GlslMaterial

/-- A symbol that a node may give to others: a literal, or an expression over a variable that has
been declared in the main function of its stage. -/
inductive Scoped (past : List Event) (symbol : Symbol) : Prop
  | literal (coarse : symbol.rate = .uniform .tick) (closed : Glsl.IsClosedLiteral symbol.expr)
  | declared (stage : Stage) (name code : String) (at_stage : symbol.rate = .stage stage)
      (written : .write stage (.mainBody stage) code ∈ past)
      (declares : Glsl.Declares code name) (uses : Glsl.Over name symbol.expr)

theorem Scoped.mono {past later : List Event} {symbol : Symbol} (known : Scoped past symbol)
    (early : past <+: later) : Scoped later symbol := by
  cases known with
  | literal coarse closed => exact .literal coarse closed
  | declared stage name code at_stage written declares uses =>
    exact .declared stage name code at_stage (early.subset written) declares uses

/-- A value whose trait is a texture, by its type or by default. -/
def Config.wrapsTexture : Config → Bool
  | .value wrapped => wrapped.key.type.or wrapped.key.id.defaultType? == some .sampler2D
  | _ => false

/-- A value node gives out a texture. -/
def Material.WrapsTexture (m : Material) : Prop :=
  ∃ n, (m.node n).config.wrapsTexture = true

theorem Material.any_wrapsTexture_iff (m : Material) :
    (m.nodes.any fun node => node.config.wrapsTexture) = true ↔ m.WrapsTexture := by
  rw [Array.any_eq_true]
  constructor
  · rintro ⟨n, known, wraps⟩
    exact ⟨n, by simpa [Material.node, known] using wraps⟩
  · rintro ⟨n, wraps⟩
    by_cases known : n < m.nodes.size
    · exact ⟨n, known, by simpa [Material.node, known] using wraps⟩
    · have absent : m.node n = default := by simp [Material.node, known]
      rw [absent] at wraps
      exact absurd wraps (by decide)

instance (m : Material) : Decidable m.WrapsTexture :=
  decidable_of_iff _ m.any_wrapsTexture_iff

/-- A table has a binding of a name at a rate for a trait. -/
def Bound (bindings : List Binding) (rate : Rate) (key : Trait) (name : String) : Prop :=
  ∃ b ∈ bindings, b.rate = rate ∧ b.name = name ∧ b.key.agrees key = true

theorem Bound.mono {old new : List Binding} {rate : Rate} {key : Trait} {name : String}
    (bound : Bound old rate key name)
    (grown : old.map Binding.entry <+: new.map Binding.entry) : Bound new rate key name := by
  obtain ⟨a, member, here, named, agrees⟩ := bound
  obtain ⟨b, inside, entry⟩ := List.mem_map.1 (grown.subset (List.mem_map_of_mem member))
  obtain ⟨rates, keys, names⟩ := Binding.entry_eq_iff.1 entry
  exact ⟨b, inside, rates.trans here, names.trans named, keys ▸ agrees⟩

/-- The values that an output of a stage has been given. -/
def assigned (events : List Event) (stage : Stage) (output : String) : List String :=
  events.filterMap fun
    | .assign written name value => if written = stage ∧ name = output then some value else none
    | _ => none

@[simp] theorem assigned_append (first second : List Event) (stage : Stage) (output : String) :
    assigned (first ++ second) stage output =
      assigned first stage output ++ assigned second stage output :=
  List.filterMap_append

theorem mem_assigned_iff {events : List Event} {stage : Stage} {output value : String} :
    value ∈ assigned events stage output ↔ .assign stage output value ∈ events := by
  constructor
  · intro given
    obtain ⟨event, member, same⟩ := List.mem_filterMap.1 given
    cases event with
    | assign other name text =>
      obtain ⟨⟨rfl, rfl⟩, rfl⟩ : (other = stage ∧ name = output) ∧ text = value := by
        simpa using same
      exact member
    | _ => cases same
  · intro member
    exact List.mem_filterMap.2 ⟨_, member, by simp⟩

/-- Where only outputs of the table are assigned, nothing has been given to an output that is not
there yet. -/
theorem Lawful.assigned_eq_nil {law : Law} {base : Material}
    (known : ∀ past stage output value, law base past (.assign stage output value) →
      ∃ key, Bound (base.replay past).outputs (.stage stage) key output)
    {past : List Event} (lawful : Lawful law base past) {stage : Stage} {output : String}
    (free : ∀ o ∈ (base.replay past).outputs, o.rate = .stage stage → o.name ≠ output) :
    assigned past stage output = [] := by
  apply List.filterMap_eq_nil_iff.2
  intro event member
  obtain ⟨before, after, rfl⟩ := List.append_of_mem member
  cases event with
  | assign other name value =>
    obtain ⟨key, bound⟩ := known _ _ _ _ lawful.allowed
    have different : ¬ (other = stage ∧ name = output) := by
      rintro ⟨rfl, rfl⟩
      rw [Material.replay_append] at free
      obtain ⟨o, inside, here, named, -⟩ := bound.mono (Material.entries_replay _ _).2
      exact free o inside here named
    simp [different]
  | _ => rfl

/-- Whether a marker is for declarations of inputs and outputs. -/
def Marker.isInterface : Marker → Bool
  | .input | .output => true
  | _ => false

/-- What may happen to a material while it is written. Interface lines are written only while
declaring. -/
def Legal (declaring : Bool) : Law
  | base, past, .expose _ _ symbol =>
    symbol.type.decay?.isSome = true ∧
      (symbol.type.isTexture = true → base.WrapsTexture) ∧ Scoped past symbol
  | base, past, .assign stage output _ =>
    ∃ key, Bound (base.replay past).outputs (.stage stage) key output
  | _, _, .input _ key duplicates => duplicates = true → key.isTexture = true
  | _, _, .output _ _ duplicates => duplicates = false
  | base, past, .link outputRate output rate input =>
    ∃ key, key.type.isSome = true ∧ key.isTexture = false ∧
      Bound (base.replay past).outputs outputRate key output ∧
      Bound (base.replay past).inputs rate key input
  | _, _, .write _ marker _ => declaring = true ∨ marker.isInterface = false
  | _, _, _ => True

theorem Legal.declares {declaring : Bool} {base : Material} {past : List Event} {event : Event}
    (allowed : Legal declaring base past event) : Legal true base past event := by
  cases event with
  | write stage marker code => exact .inl rfl
  | _ => exact allowed

/-- A history of writing a material. -/
abbrev Written (declaring : Bool) (base : Material) (past : List Event) : Prop :=
  Lawful (Legal declaring) base past

namespace Written

variable {declaring : Bool} {base : Material} {past : List Event}

theorem of_expose (written : Written declaring base past) {n : NodeId} {key : Trait}
    {symbol : Symbol} (exposed : .expose n key symbol ∈ past) :
    symbol.type.decay?.isSome = true ∧ (symbol.type.isTexture = true → base.WrapsTexture) ∧
      Scoped past symbol := by
  obtain ⟨before, after, rfl⟩ := List.append_of_mem exposed
  obtain ⟨decays, texture, known⟩ := written.allowed
  exact ⟨decays, texture, known.mono (List.prefix_append before _)⟩

theorem assigned_eq_nil (written : Written declaring base past) {stage : Stage} {output : String}
    (free : ∀ o ∈ (base.replay past).outputs, o.rate = .stage stage → o.name ≠ output) :
    assigned past stage output = [] :=
  Lawful.assigned_eq_nil (fun _ _ _ _ allowed => allowed) written free

end Written

end GlslMaterial
