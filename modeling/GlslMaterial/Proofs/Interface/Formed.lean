import GlslMaterial.Material.Lookup
import GlslMaterial.Proofs.Forest.Links
import GlslMaterial.Proofs.History.Fresh

/-!
The tables of inputs and outputs stay in order: every event keeps the names that a stage can see
apart, and textures get one slot after the other.
-/

set_option autoImplicit false

namespace GlslMaterial

def textureName (slot : Nat) : String :=
  s!"Texture{slot}"

theorem toList_textureName (slot : Nat) :
    (textureName slot).toList = "Texture".toList ++ slot.repr.toList := by
  show ("Texture" ++ slot.repr).toList = _
  simp

theorem dot_notMem_textureName (slot : Nat) : '.' ∉ (textureName slot).toList := by
  rw [toList_textureName, List.mem_append]
  rintro (letter | digit)
  · exact absurd letter (by decide)
  · exact absurd (isDigit_of_mem_repr digit) (by decide)

theorem textureName_injective {a b : Nat} (same : textureName a = textureName b) : a = b :=
  repr_injective ((String.append_right_inj "Texture").1 same)

theorem takeWhile_inputName (rate : UniformRate) (id : TraitId) (rest : List Char) :
    ((Material.inputName (.uniform rate) id).toList ++ rest).takeWhile (· != '.') =
      (Rate.uniform rate).name.toList := by
  have split : (Material.inputName (.uniform rate) id).toList =
      (Rate.uniform rate).name.toList ++ '.' :: id.label.toList := by
    show ((Rate.uniform rate).name ++ "." ++ id.label).toList = _
    simp
  have plain : (Rate.uniform rate).name.toList.all (· != '.') = true := by
    cases rate <;> decide
  rw [split, List.append_assoc, List.takeWhile_append_of_pos (List.all_eq_true.1 plain)]
  simp

theorem Rate.name_injective {a b : Rate} (same : a.name = b.name) : a = b := by
  have found := Rate.ofName?_name a
  rw [same, Rate.ofName?_name b] at found
  exact (Option.some.inj found).symm

theorem Rate.isUniform_iff {rate : Rate} : rate.isUniform = true ↔ ∃ u, rate = .uniform u := by
  cases rate <;> simp [Rate.isUniform, Rate.uniform?]

/-- What no event changes about a binding. -/
def Binding.KeptBy (change : Binding → Binding) : Prop :=
  ∀ b, (change b).rate = b.rate ∧ (change b).key = b.key ∧ (change b).name = b.name ∧
    (change b).sampler = b.sampler

theorem Binding.KeptBy.updateNamed {change : Binding → Binding} (kept : Binding.KeptBy change)
    (rate : Rate) (name : String) :
    Binding.KeptBy fun b => if b.isNamed rate name then change b else b := by
  intro b
  by_cases named : b.isNamed rate name = true
  · simpa [named] using kept b
  · simp [named]

/-- Two bindings of a rate do not have the same name. -/
def Binding.NameApart (a b : Binding) : Prop :=
  a.rate = b.rate → a.name ≠ b.name

theorem Binding.KeptBy.pairwise {change : Binding → Binding} (kept : Binding.KeptBy change)
    {bindings : List Binding} (apart : bindings.Pairwise Binding.NameApart) :
    (bindings.map change).Pairwise Binding.NameApart := by
  refine List.pairwise_map.2 (apart.imp fun {a b} different same => ?_)
  rw [(kept a).1, (kept b).1] at same
  rw [(kept a).2.2.1, (kept b).2.2.1]
  exact different same

namespace Material

/-- The texture inputs, in the order in which they came. -/
def textures (m : Material) : List Binding :=
  m.inputs.filter fun b => b.key.isTexture

/-- The tables are in order. Names begin as the kind of their bindings wants it, and differ where
they are of the same rate; the textures have the slots from the first on. -/
structure Formed (m : Material) : Prop where
  typed_inputs : ∀ b ∈ m.inputs, b.key.type.isSome = true
  typed_outputs : ∀ b ∈ m.outputs, b.key.type.isSome = true
  staged : ∀ b ∈ m.outputs, b.rate.stage?.isSome = true
  sampled : ∀ b ∈ m.inputs, b.sampler.isSome = b.key.isTexture
  renderable : ∀ b ∈ m.inputs, b.key.isTexture = true → b.rate = .uniform .renderable
  slots : m.textures.map (fun b => (b.sampler, b.name)) =
    (List.range m.samplers).map fun slot => (some slot, textureName slot)
  named_inputs : ∀ b ∈ m.inputs, b.key.isTexture = false →
    (inputName b.rate b.key.id).toList <+: b.name.toList
  named_outputs : ∀ b ∈ m.outputs, "out".toList <+: b.name.toList
  apart_inputs : m.inputs.Pairwise Binding.NameApart
  apart_outputs : m.outputs.Pairwise Binding.NameApart

theorem formed_ofRate (rate : Rate) : (ofRate rate).Formed := by
  constructor <;> simp [ofRate, textures]

theorem Fresh.formed {m : Material} (fresh : m.Fresh) : m.Formed := by
  constructor <;> simp [fresh.inputs, fresh.outputs, fresh.samplers, textures]

variable {m after : Material}

/-- A change of bindings in their places that keeps what they are. -/
theorem Formed.map (formed : m.Formed) {inward outward : Binding → Binding}
    (kept_in : Binding.KeptBy inward) (kept_out : Binding.KeptBy outward)
    (inputs : after.inputs = m.inputs.map inward) (outputs : after.outputs = m.outputs.map outward)
    (samplers : after.samplers = m.samplers) : after.Formed where
  typed_inputs := by
    simpa [inputs, (kept_in _).2.1] using formed.typed_inputs
  typed_outputs := by
    simpa [outputs, (kept_out _).2.1] using formed.typed_outputs
  staged := by
    simpa [outputs, (kept_out _).1] using formed.staged
  sampled := by
    simpa [inputs, (kept_in _).2.1, (kept_in _).2.2.2] using formed.sampled
  renderable := by
    simpa [inputs, (kept_in _).1, (kept_in _).2.1] using formed.renderable
  slots := by
    have same : after.textures = m.textures.map inward := by
      simp [textures, inputs, List.filter_map, Function.comp_def, (kept_in _).2.1]
    simpa [same, samplers, Function.comp_def, (kept_in _).2.2] using formed.slots
  named_inputs := by
    simpa [inputs, (kept_in _).1, (kept_in _).2.1, (kept_in _).2.2.1] using formed.named_inputs
  named_outputs := by
    simpa [outputs, (kept_out _).2.2.1] using formed.named_outputs
  apart_inputs := by
    rw [inputs]
    exact kept_in.pairwise formed.apart_inputs
  apart_outputs := by
    rw [outputs]
    exact kept_out.pairwise formed.apart_outputs

theorem Formed.of_same (formed : m.Formed) (inputs : after.inputs = m.inputs)
    (outputs : after.outputs = m.outputs) (samplers : after.samplers = m.samplers) :
    after.Formed := by
  have kept : Binding.KeptBy id := fun _ => ⟨rfl, rfl, rfl, rfl⟩
  exact formed.map kept kept (by simpa using inputs) (by simpa using outputs) samplers

theorem Formed.exists_slot (formed : m.Formed) {b : Binding} (member : b ∈ m.inputs)
    (texture : b.key.isTexture = true) :
    ∃ slot < m.samplers, b.sampler = some slot ∧ b.name = textureName slot := by
  have listed : b ∈ m.textures := List.mem_filter.2 ⟨member, texture⟩
  have pair := List.mem_map_of_mem (f := fun b : Binding => (b.sampler, b.name)) listed
  rw [formed.slots] at pair
  obtain ⟨slot, used, same⟩ := List.mem_map.1 pair
  exact ⟨slot, List.mem_range.1 used, (congrArg Prod.fst same).symm, (congrArg Prod.snd same).symm⟩

theorem Formed.name_of_isTexture (formed : m.Formed) {b : Binding} (member : b ∈ m.inputs)
    (texture : b.key.isTexture = true) : ∃ slot < m.samplers, b.name = textureName slot := by
  obtain ⟨slot, used, -, named⟩ := formed.exists_slot member texture
  exact ⟨slot, used, named⟩

/-- Asking for an input finds one, fails, or adds one at the end. -/
theorem withInput_cases (m : Material) (rate : Rate) (key : Trait) (duplicates : Bool) :
    m.withInput rate key duplicates = m ∨ ∃ typed kept, typed.type.isSome = true ∧
      ((typed.isTexture = true ∧ kept = .uniform .renderable ∧
          m.withInput rate key duplicates = (m.pushTexture kept typed).2) ∨
        (typed.isTexture = false ∧
          m.withInput rate key duplicates = (m.pushInput kept typed).2)) := by
  unfold withInput
  cases added : m.addInput rate key duplicates with
  | error failure => exact .inl rfl
  | ok result =>
    unfold addInput at added
    cases resolved : key.resolved with
    | error failure => simp [resolved, bind, Except.bind] at added
    | ok typed =>
      cases given : inputRate rate typed with
      | error failure => simp [resolved, given, bind, Except.bind] at added
      | ok kept =>
        simp only [resolved, given, bind, Except.bind, pure, Except.pure] at added
        split at added <;> obtain rfl := Except.ok.inj added
        · exact .inl rfl
        · refine .inr ⟨typed, kept, (Trait.resolved_eq_ok resolved).2.1, ?_⟩
          by_cases texture : typed.isTexture = true
          · exact .inl ⟨texture, inputRate_texture texture given, by simp only [texture, if_true]⟩
          · rw [if_neg texture]
            exact .inr ⟨Bool.eq_false_iff.2 texture, rfl⟩

/-- Asking for an output finds one, fails, or adds one at the end. -/
theorem withOutput_cases (m : Material) (rate : Rate) (key : Trait) (duplicates : Bool) :
    m.withOutput rate key duplicates = m ∨ ∃ typed, typed.type.isSome = true ∧
      rate.stage?.isSome = true ∧
      m.withOutput rate key duplicates = { m with
        outputs := m.outputs ++ [⟨rate, typed,
          freshName ((m.outputsAt rate).map Binding.name) s!"out{typed.id.label}", none, false,
          none⟩] } := by
  unfold withOutput
  cases added : m.addOutput rate key duplicates with
  | error failure => exact .inl rfl
  | ok result =>
    unfold addOutput at added
    cases staged : rate.stage? with
    | none => simp [staged, bind, Except.bind, throw, throwThe, MonadExceptOf.throw] at added
    | some stage =>
      cases resolved : key.resolved with
      | error failure => simp [staged, resolved, bind, Except.bind] at added
      | ok typed =>
        simp only [staged, resolved, bind, Except.bind, pure, Except.pure, Option.isNone_some,
          Bool.false_eq_true, if_false] at added
        split at added <;> obtain rfl := Except.ok.inj added
        · exact .inl rfl
        · exact .inr ⟨typed, (Trait.resolved_eq_ok resolved).2.1, rfl, rfl⟩

theorem prefix_freshName (taken : List String) (base : String) :
    base.toList <+: (freshName taken base).toList := by
  rcases freshName_eq taken base with same | ⟨n, same⟩ <;> simp [same]

theorem dot_mem_of_prefix {rate : UniformRate} {id : TraitId} {name : String}
    (named : (inputName (.uniform rate) id).toList <+: name.toList) : '.' ∈ name.toList := by
  refine named.subset ?_
  show '.' ∈ ((Rate.uniform rate).name ++ "." ++ id.label).toList
  simp

theorem Formed.pushTexture (formed : m.Formed) {key : Trait} (typed : key.type.isSome = true)
    (texture : key.isTexture = true) : (m.pushTexture (.uniform .renderable) key).2.Formed := by
  -- The name of the new slot is not yet in use, and no other input is named like a texture.
  have fresh : ∀ a ∈ m.inputs, a.rate = .uniform .renderable → a.name ≠ textureName m.samplers := by
    intro a member here same
    cases kind : a.key.isTexture with
    | true =>
      obtain ⟨slot, used, named⟩ := formed.name_of_isTexture member kind
      have equal := textureName_injective (named.symm.trans same)
      omega
    | false =>
      have named := formed.named_inputs a member kind
      rw [here] at named
      exact dot_notMem_textureName m.samplers (same ▸ dot_mem_of_prefix named)
  exact {
    typed_inputs := List.forall_mem_append.2 ⟨formed.typed_inputs, by simpa using typed⟩
    typed_outputs := formed.typed_outputs
    staged := formed.staged
    sampled := List.forall_mem_append.2 ⟨formed.sampled, by simp [texture]⟩
    renderable := List.forall_mem_append.2 ⟨formed.renderable, by simp⟩
    slots := by
      have old := formed.slots
      simp only [textures] at old
      simp only [textures, Material.pushTexture, List.filter_append, List.map_append, old,
        List.range_succ]
      simp [texture, textureName]
    named_inputs := List.forall_mem_append.2 ⟨formed.named_inputs, by simp [texture]⟩
    named_outputs := formed.named_outputs
    apart_inputs := by
      refine List.pairwise_append.2 ⟨formed.apart_inputs, List.pairwise_singleton _ _, ?_⟩
      intro a member b last here
      rw [List.mem_singleton.1 last] at here ⊢
      exact fresh a member here
    apart_outputs := formed.apart_outputs }

theorem Formed.pushInput (formed : m.Formed) (rate : Rate) {key : Trait}
    (typed : key.type.isSome = true) (plain : key.isTexture = false) :
    (m.pushInput rate key).2.Formed := by
  exact {
    typed_inputs := List.forall_mem_append.2 ⟨formed.typed_inputs, by simpa using typed⟩
    typed_outputs := formed.typed_outputs
    staged := formed.staged
    sampled := List.forall_mem_append.2 ⟨formed.sampled, by simp [plain]⟩
    renderable := List.forall_mem_append.2 ⟨formed.renderable, by simp [plain]⟩
    slots := by
      have same : (m.pushInput rate key).2.textures = m.textures := by
        simp [textures, Material.pushInput, plain]
      rw [same]
      exact formed.slots
    named_inputs := List.forall_mem_append.2
      ⟨formed.named_inputs, by simpa [plain] using prefix_freshName _ _⟩
    named_outputs := formed.named_outputs
    apart_inputs := by
      refine List.pairwise_append.2 ⟨formed.apart_inputs, List.pairwise_singleton _ _, ?_⟩
      intro a member b last here
      rw [List.mem_singleton.1 last] at here ⊢
      exact freshName_ne member here
    apart_outputs := formed.apart_outputs }

theorem Formed.withInput (formed : m.Formed) (rate : Rate) (key : Trait) (duplicates : Bool) :
    (m.withInput rate key duplicates).Formed := by
  rcases m.withInput_cases rate key duplicates with
    same | ⟨typed, kept, type, ⟨texture, rfl, same⟩ | ⟨plain, same⟩⟩
  · rw [same]
    exact formed
  · rw [same]
    exact formed.pushTexture type texture
  · rw [same]
    exact formed.pushInput kept type plain

theorem Formed.withOutput (formed : m.Formed) (rate : Rate) (key : Trait) (duplicates : Bool) :
    (m.withOutput rate key duplicates).Formed := by
  rcases m.withOutput_cases rate key duplicates with same | ⟨typed, type, staged, same⟩
  · rw [same]
    exact formed
  · rw [same]
    have named : "out".toList <+: (freshName ((m.outputsAt rate).map Binding.name)
        s!"out{typed.id.label}").toList := by
      refine List.IsPrefix.trans ?_ (prefix_freshName _ _)
      show "out".toList <+: ("out" ++ typed.id.label).toList
      rw [String.toList_append]
      exact List.prefix_append _ _
    exact {
      typed_inputs := formed.typed_inputs
      typed_outputs := List.forall_mem_append.2 ⟨formed.typed_outputs, by simpa using type⟩
      staged := List.forall_mem_append.2 ⟨formed.staged, by simpa using staged⟩
      sampled := formed.sampled
      renderable := formed.renderable
      slots := formed.slots
      named_inputs := formed.named_inputs
      named_outputs := List.forall_mem_append.2 ⟨formed.named_outputs, by simpa using named⟩
      apart_inputs := formed.apart_inputs
      apart_outputs := by
        refine List.pairwise_append.2 ⟨formed.apart_outputs, List.pairwise_singleton _ _, ?_⟩
        intro a member b last here
        rw [List.mem_singleton.1 last] at here ⊢
        exact freshName_ne member here }

theorem Formed.markWired (formed : m.Formed) (rate : Rate) (name : String) :
    (m.markWired rate name).Formed := by
  have same : Binding.KeptBy id := fun _ => ⟨rfl, rfl, rfl, rfl⟩
  have wired : Binding.KeptBy fun b => { b with wired := true } := fun _ => ⟨rfl, rfl, rfl, rfl⟩
  exact formed.map same (wired.updateNamed rate name) (List.map_id _).symm rfl rfl

theorem exists_kept_link (m : Material) (outputRate : Rate) (output : String) (rate : Rate)
    (input : String) :
    ∃ inward outward, Binding.KeptBy inward ∧ Binding.KeptBy outward ∧
      (m.link outputRate output rate input).inputs = m.inputs.map inward ∧
      (m.link outputRate output rate input).outputs = m.outputs.map outward ∧
      (m.link outputRate output rate input).samplers = m.samplers := by
  have same : Binding.KeptBy id := fun _ => ⟨rfl, rfl, rfl, rfl⟩
  have placed (location : Nat) : Binding.KeptBy fun b => { b with location := some location } :=
    fun _ => ⟨rfl, rfl, rfl, rfl⟩
  unfold Material.link
  split
  · split
    · exact ⟨id, id, same, same, (List.map_id _).symm, (List.map_id _).symm, rfl⟩
    · exact ⟨_, id, (placed _).updateNamed rate input, same, rfl, (List.map_id _).symm, rfl⟩
    · exact ⟨_, _, (placed _).updateNamed rate input, (placed _).updateNamed outputRate output,
        rfl, rfl, rfl⟩
  · exact ⟨id, id, same, same, (List.map_id _).symm, (List.map_id _).symm, rfl⟩

theorem Formed.link (formed : m.Formed) (outputRate : Rate) (output : String) (rate : Rate)
    (input : String) : (m.link outputRate output rate input).Formed := by
  obtain ⟨_, _, kept_in, kept_out, inputs, outputs, samplers⟩ :=
    m.exists_kept_link outputRate output rate input
  exact formed.map kept_in kept_out inputs outputs samplers

/-- Every event keeps the tables in order. -/
theorem Formed.apply (formed : m.Formed) (event : Event) : (m.apply event).Formed := by
  by_cases about : event.isInterface = false
  · obtain ⟨inputs, outputs, -, samplers⟩ := m.apply_interface about
    exact formed.of_same inputs outputs samplers
  · cases event with
    | input rate key duplicates => exact formed.withInput rate key duplicates
    | output rate key duplicates => exact formed.withOutput rate key duplicates
    | wire rate output => exact formed.markWired rate output
    | link outputRate output rate input => exact formed.link outputRate output rate input
    | _ => simp [Event.isInterface] at about

theorem Formed.replay (formed : m.Formed) (events : List Event) : (m.replay events).Formed :=
  replay_induction m events formed fun _ event formed => formed.apply event

/-- The bindings whose names a stage can see. -/
def visible (m : Material) (stage : Stage) : List Binding :=
  m.inputsAt (.stage stage) ++ m.outputsAt (.stage stage) ++
    m.inputs.filter fun b => b.rate.isUniform

theorem head?_of_prefix {start : List Char} {name : List Char} {c : Char} (begins : start <+: name)
    (first : start.head? = some c) : name.head? = some c := by
  obtain ⟨rest, rfl⟩ := begins
  rw [List.head?_append, first]
  rfl

namespace Formed

variable {b : Binding} {stage : Stage}

theorem head?_input (formed : m.Formed) (member : b ∈ m.inputs) (here : b.rate = .stage stage) :
    b.name.toList.head? = some 'i' := by
  have plain : b.key.isTexture = false := by
    refine Bool.eq_false_iff.2 fun texture => ?_
    simp [formed.renderable b member texture] at here
  have named := formed.named_inputs b member plain
  rw [here] at named
  refine head?_of_prefix named ?_
  show ("in" ++ b.key.id.label).toList.head? = some 'i'
  simp

theorem head?_output (formed : m.Formed) (member : b ∈ m.outputs) :
    b.name.toList.head? = some 'o' :=
  head?_of_prefix (formed.named_outputs b member) (by decide)

theorem head?_uniform (formed : m.Formed) {rate : UniformRate} (member : b ∈ m.inputs)
    (here : b.rate = .uniform rate) :
    b.name.toList.head? ≠ some 'i' ∧ b.name.toList.head? ≠ some 'o' := by
  cases kind : b.key.isTexture with
  | true =>
    obtain ⟨slot, -, named⟩ := formed.name_of_isTexture member kind
    have first : b.name.toList.head? = some 'T' := by
      rw [named]
      show ("Texture" ++ slot.repr).toList.head? = some 'T'
      simp
    simp [first]
  | false =>
    have named := formed.named_inputs b member kind
    rw [here] at named
    obtain ⟨c, first, other⟩ : ∃ c, (Rate.uniform rate).name.toList.head? = some c ∧
        c ≠ 'i' ∧ c ≠ 'o' := by
      cases rate <;> exact ⟨_, rfl, by decide⟩
    have whole : b.name.toList.head? = some c := by
      refine head?_of_prefix named ?_
      show ((Rate.uniform rate).name ++ "." ++ b.key.id.label).toList.head? = some c
      simp [List.head?_append, first]
    simpa [whole] using other

theorem name_ne_of_uniform (formed : m.Formed) {a : Binding} {first second : UniformRate}
    (a_member : a ∈ m.inputs) (b_member : b ∈ m.inputs) (a_rate : a.rate = .uniform first)
    (b_rate : b.rate = .uniform second) (different : first ≠ second) : a.name ≠ b.name := by
  intro same
  have dotted {c : Binding} {rate : UniformRate} (member : c ∈ m.inputs)
      (here : c.rate = .uniform rate) (name : c.name = b.name) :
      c.key.isTexture = false ↔ '.' ∈ b.name.toList := by
    constructor
    · intro plain
      exact name ▸ dot_mem_of_prefix (here ▸ formed.named_inputs c member plain)
    · intro dot
      refine Bool.eq_false_iff.2 fun texture => ?_
      obtain ⟨slot, -, named⟩ := formed.name_of_isTexture member texture
      exact dot_notMem_textureName slot (named ▸ name ▸ dot)
  cases kind : b.key.isTexture with
  | true =>
    -- Both would be textures, which are of one rate.
    have texture : a.key.isTexture = true := by
      have alike := (dotted a_member a_rate same).trans (dotted b_member b_rate rfl).symm
      simpa [kind] using alike
    have rates := (formed.renderable a a_member texture).trans
      (formed.renderable b b_member kind).symm
    rw [a_rate, b_rate] at rates
    exact different (Rate.uniform.inj rates)
  | false =>
    have plain := (dotted a_member a_rate same).2 ((dotted b_member b_rate rfl).1 kind)
    obtain ⟨a_rest, a_name⟩ := a_rate ▸ formed.named_inputs a a_member plain
    obtain ⟨b_rest, b_name⟩ := b_rate ▸ formed.named_inputs b b_member kind
    have stems : (Rate.uniform first).name.toList = (Rate.uniform second).name.toList := by
      rw [← takeWhile_inputName first a.key.id a_rest, a_name, same, ← b_name,
        takeWhile_inputName second b.key.id b_rest]
    exact different (Rate.uniform.inj (Rate.name_injective (String.toList_injective stems)))

theorem nodup_visible (formed : m.Formed) (stage : Stage) :
    ((m.visible stage).map Binding.name).Nodup := by
  have within {bindings : List Binding} (apart : bindings.Pairwise Binding.NameApart) :
      (bindings.filter fun b => b.rate = .stage stage).Pairwise fun a b => a.name ≠ b.name := by
    refine (apart.filter _).imp_of_mem fun {a b} first second different => different ?_
    exact (mem_filter_rate.1 first).2.trans (mem_filter_rate.1 second).2.symm
  have uniforms : (m.inputs.filter fun b => b.rate.isUniform).Pairwise
      fun a b => a.name ≠ b.name := by
    refine (formed.apart_inputs.filter _).imp_of_mem fun {a b} first second different => ?_
    obtain ⟨a_member, a_uniform⟩ := List.mem_filter.1 first
    obtain ⟨b_member, b_uniform⟩ := List.mem_filter.1 second
    obtain ⟨one, a_rate⟩ := Rate.isUniform_iff.1 a_uniform
    obtain ⟨two, b_rate⟩ := Rate.isUniform_iff.1 b_uniform
    by_cases same : one = two
    · exact different (by rw [a_rate, b_rate, same])
    · exact formed.name_ne_of_uniform a_member b_member a_rate b_rate same
  refine List.pairwise_map.2 (List.pairwise_append.2
    ⟨List.pairwise_append.2 ⟨within formed.apart_inputs, within formed.apart_outputs, ?_⟩,
      uniforms, ?_⟩)
  · intro a first b second same
    obtain ⟨a_member, a_rate⟩ := mem_filter_rate.1 first
    have input := formed.head?_input a_member a_rate
    have output := formed.head?_output (mem_filter_rate.1 second).1
    simp [same, output] at input
  · intro a first b second same
    obtain ⟨b_member, b_uniform⟩ := List.mem_filter.1 second
    obtain ⟨rate, b_rate⟩ := Rate.isUniform_iff.1 b_uniform
    obtain ⟨not_input, not_output⟩ := formed.head?_uniform b_member b_rate
    rcases List.mem_append.1 first with input | output
    · obtain ⟨a_member, a_rate⟩ := mem_filter_rate.1 input
      exact not_input (same ▸ formed.head?_input a_member a_rate)
    · exact not_output (same ▸ formed.head?_output (mem_filter_rate.1 output).1)

theorem filter_inputsAt_renderable (formed : m.Formed) :
    (m.inputsAt (.uniform .renderable)).filter (fun b => b.key.isTexture) = m.textures := by
  rw [inputsAt, List.filter_filter, textures]
  refine List.filter_congr fun b member => ?_
  cases kind : b.key.isTexture with
  | true => simp [formed.renderable b member kind]
  | false => simp

theorem getElem?_textures (formed : m.Formed) {slot : Nat}
    (found : ((m.inputsAt (.uniform .renderable)).filter fun b => b.key.isTexture)[slot]? =
      some b) :
    b.sampler = some slot ∧ b.name = s!"Texture{slot}" := by
  rw [formed.filter_inputsAt_renderable] at found
  have pair : (m.textures.map fun b => (b.sampler, b.name))[slot]? = some (b.sampler, b.name) := by
    simp [found]
  rw [formed.slots, List.getElem?_map] at pair
  obtain ⟨counted, used, same⟩ := Option.map_eq_some_iff.1 pair
  obtain rfl : slot = counted := by
    simpa using (List.getElem?_eq_some_iff.1 used).2
  exact ⟨(congrArg Prod.fst same).symm, (congrArg Prod.snd same).symm⟩

end Formed

/-- What can be asked of a material before its stages are written: a binding, that an output is
assigned, a value, or a change of the nodes that the values come from. -/
inductive Request where
  | addInput (rate : Rate) (key : Trait) (duplicates : Bool)
  | addOutput (rate : Rate) (key : Trait) (duplicates : Bool)
  | markWired (rate : Rate) (name : String)
  | getValue (viewer : NodeId) (key : Trait) (rate : Rate) (fallback : Fallback)
  | edit (change : Edit)

/-- The material after a request, whether or not it fails. -/
def requested (m : Material) : Request → Material
  | .addInput rate key duplicates => m.withInput rate key duplicates
  | .addOutput rate key duplicates => m.withOutput rate key duplicates
  | .markWired rate name => m.markWired rate name
  | .getValue viewer key rate fallback => ((lookup viewer key rate fallback).run m).material
  | .edit change => m.edited change

theorem exists_edited_eq (m : Material) (change : Edit) :
    ∃ nodes, m.edited change = { m with nodes } := by
  have removed (m : Material) (parent child : NodeId) :
      ∃ nodes, (m.removeChild parent child).2 = { m with nodes } := by
    unfold removeChild
    split <;> exact ⟨_, rfl⟩
  cases change with
  | addNode | expose => exact ⟨_, rfl⟩
  | removeChild parent child => exact removed m parent child
  | addChild parent child =>
    obtain ⟨nodes, detached⟩ : ∃ nodes, m.detach child = { m with nodes } := by
      unfold detach
      split
      · exact ⟨_, rfl⟩
      · exact removed m _ child
    simp only [edited, addChild, detached]
    split
    · rename_i after added
      split at added
      · simp at added
      · split at added
        · simp at added
        · split at added <;> obtain rfl := Except.ok.inj added <;> exact ⟨_, rfl⟩
    · exact ⟨_, rfl⟩

theorem Formed.requested (formed : m.Formed) (request : Request) :
    (m.requested request).Formed := by
  cases request with
  | addInput rate key duplicates => exact formed.withInput rate key duplicates
  | addOutput rate key duplicates => exact formed.withOutput rate key duplicates
  | markWired rate name => exact formed.markWired rate name
  | getValue viewer key rate fallback =>
    show ((lookup viewer key rate fallback).run m).material.Formed
    rw [(lookup viewer key rate fallback).replays]
    exact formed.replay _
  | edit change =>
    show (m.edited change).Formed
    obtain ⟨nodes, same⟩ := m.exists_edited_eq change
    rw [same]
    exact formed.of_same rfl rfl rfl

theorem Formed.foldl_requested (formed : m.Formed) (requests : List Request) :
    (requests.foldl Material.requested m).Formed := by
  induction requests generalizing m with
  | nil => exact formed
  | cons request requests ih => exact ih (formed.requested request)

/-- After any requests every binding has a type, a stage sees no name twice, only stages have
outputs, and the textures are the inputs with a slot: all of the renderable, the first in slot 0 and
each in the slot behind the one before. -/
theorem tables_wellformed (rate : Rate) (requests : List Request) :
    let m := requests.foldl requested (ofRate rate)
    (∀ b ∈ m.inputs ++ m.outputs, b.key.type.isSome = true) ∧
      (∀ stage, ((m.inputsAt (.stage stage) ++ m.outputsAt (.stage stage) ++
        m.inputs.filter fun b => b.rate.isUniform).map Binding.name).Nodup) ∧
      (∀ b ∈ m.outputs, b.rate.stage?.isSome = true) ∧
      (∀ b ∈ m.inputs, (b.sampler.isSome = true ↔ b.key.isTexture = true) ∧
        (b.key.isTexture = true → b.rate = .uniform .renderable)) ∧
      ∀ (slot : Nat) (b : Binding), ((m.inputsAt (.uniform .renderable)).filter
          fun b => b.key.isTexture)[slot]? = some b →
        b.sampler = some slot ∧ b.name = s!"Texture{slot}" := by
  intro m
  have formed : m.Formed := (formed_ofRate rate).foldl_requested requests
  refine ⟨List.forall_mem_append.2 ⟨formed.typed_inputs, formed.typed_outputs⟩,
    formed.nodup_visible, formed.staged, fun b member => ⟨?_, formed.renderable b member⟩,
    fun slot b => formed.getElem?_textures⟩
  rw [formed.sampled b member]

/-- Two textures at other rates, two inputs of one trait and a value that crosses from one stage to
the next. -/
example :
    let color := Trait.ofId .color
    let m := [Request.addInput (.stage .pixel) (.ofId .texture) false,
      .addInput (.uniform .tick) (.ofId .texture) true, .addInput (.stage .pixel) color true,
      .addInput (.stage .pixel) color true,
      .edit (.expose 0 color ⟨"red", .vec4, .stage .vertex⟩),
      .getValue 0 color (.stage .pixel) .required].foldl requested (ofRate .auto)
    m.inputs.map Binding.name = ["Texture0", "Texture1", "inColor", "inColor1"] ∧
      m.outputs.map Binding.name = ["outColor"] := by
  decide +kernel

end Material

end GlslMaterial
