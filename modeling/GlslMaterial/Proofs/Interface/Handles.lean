import GlslMaterial.Proofs.Interface.Formed

/-!
Names as handles: the binding that a request without duplicates gives is the first of its rate that
agrees with the trait. Bindings are only added behind it, so that it is given again ever after.
-/

set_option autoImplicit false

namespace GlslMaterial

theorem Trait.agrees_congr {a b : Trait} (id : a.id = b.id) (type : a.type = b.type) (c : Trait) :
    c.agrees a = c.agrees b := by
  simp [Trait.agrees, id, type]

theorem Trait.isTexture_congr {a b : Trait} (type : a.type = b.type) :
    a.isTexture = b.isTexture := by
  simp [Trait.isTexture, type]

theorem Trait.exists_resolved {key other typed : Trait} (resolved : key.resolved = .ok typed)
    (id : other.id = key.id)
    (type : other.resolved.map Trait.type = key.resolved.map Trait.type) :
    ∃ again, other.resolved = .ok again ∧ again.id = typed.id ∧ again.type = typed.type := by
  rw [resolved] at type
  cases given : other.resolved with
  | error failure => simp [given, Except.map] at type
  | ok again =>
    have same : again.type = typed.type := by simpa [given, Except.map] using type
    refine ⟨again, rfl, ?_, same⟩
    rw [(Trait.resolved_eq_ok given).1, (Trait.resolved_eq_ok resolved).1, id]

theorem Material.inputRate_congr {a b : Trait} (id : a.id = b.id) (type : a.type = b.type)
    (rate : Rate) : inputRate rate a = inputRate rate b := by
  simp [inputRate, id, Trait.isTexture_congr type]

/-- What a binding holds from its declaration on, with the slot of a texture. -/
def Binding.held (b : Binding) : Entry × Option Nat :=
  (b.entry, b.sampler)

theorem Binding.KeptBy.map_held {change : Binding → Binding} (kept : Binding.KeptBy change)
    (bindings : List Binding) : (bindings.map change).map Binding.held = bindings.map held := by
  rw [List.map_map]
  refine List.map_congr_left fun b _ => ?_
  obtain ⟨rate, key, name, sampler⟩ := kept b
  simp [held, entry, rate, key, name, sampler]

def Binding.first? (bindings : List Binding) (rate : Rate) (key : Trait) : Option Binding :=
  (bindings.filter fun b => b.rate = rate).find? fun b => b.key.agrees key

namespace Binding

variable {old new bindings : List Binding} {rate : Rate} {key : Trait} {b : Binding}

theorem first?_congr {other : Trait} (id : other.id = key.id) (type : other.type = key.type) :
    first? bindings rate other = first? bindings rate key := by
  simp only [first?, Trait.agrees_congr id type]

theorem mem_of_first? (found : first? bindings rate key = some b) :
    b ∈ bindings ∧ b.rate = rate ∧ b.key.agrees key = true := by
  have member := Material.mem_filter_rate.1 (List.mem_of_find?_eq_some found)
  have agrees := List.find?_some (p := fun b : Binding => b.key.agrees key) found
  exact ⟨member.1, member.2, agrees⟩

theorem first?_held (bindings : List Binding) (rate : Rate) (key : Trait) :
    (first? bindings rate key).map held =
      (bindings.map held).find? fun h => h.1.rate = rate && h.1.key.agrees key := by
  rw [first?, List.find?_filter, List.find?_map]
  congr 2
  funext b
  by_cases here : b.rate = rate <;> simp [held, entry, here]

/-- Bindings that come later do not come first. -/
theorem first?_of_prefix (kept : old.map held <+: new.map held)
    (found : first? old rate key = some b) :
    ∃ now, first? new rate key = some now ∧ now.held = b.held := by
  have early := first?_held old rate key
  rw [found, Option.map_some] at early
  have late := (first?_held new rate key).trans (kept.find?_eq_some early.symm)
  exact Option.map_eq_some_iff.1 late

theorem first?_append_of_none (missing : first? old b.rate b.key = none) :
    first? (old ++ [b]) b.rate b.key = some b := by
  simp only [first?] at missing ⊢
  simp [List.filter_append, List.find?_append, missing]

theorem filter_isNamed (apart : bindings.Pairwise NameApart) (member : b ∈ bindings) :
    bindings.filter (isNamed b.rate b.name) = [b] := by
  induction bindings with
  | nil => simp at member
  | cons a rest ih =>
    obtain ⟨different, later⟩ := List.pairwise_cons.1 apart
    rcases List.mem_cons.1 member with rfl | behind
    · have none : rest.filter (isNamed b.rate b.name) = [] := by
        refine List.filter_eq_nil_iff.2 fun c known => ?_
        have unlike := different c known
        simp only [isNamed, Bool.and_eq_true, decide_eq_true_eq, beq_iff_eq]
        exact fun same => unlike same.1.symm same.2.symm
      simp [none, isNamed]
    · have unlike : isNamed b.rate b.name a = false := by
        have apart := different b behind
        simp only [isNamed, Bool.and_eq_false_imp, decide_eq_true_eq, beq_eq_false_iff_ne]
        exact apart
      rw [List.filter_cons_of_neg (by simp [unlike]), ih later behind]

theorem named_of_first? (kept : old.map held <+: new.map held)
    (apart : old.Pairwise NameApart) (later : new.Pairwise NameApart)
    (found : first? old rate key = some b) :
    old.filter (isNamed rate b.name) = [b] ∧ ∃ now, first? new rate key = some now ∧
      now.name = b.name ∧ new.filter (isNamed rate b.name) = [now] ∧
      now.key = b.key ∧ now.sampler = b.sampler := by
  obtain ⟨now, again, same⟩ := first?_of_prefix kept found
  obtain ⟨member, rfl, -⟩ := mem_of_first? found
  obtain ⟨-, known, name⟩ := entry_eq_iff.1 (congrArg Prod.fst same)
  have one := filter_isNamed later (mem_of_first? again).1
  rw [(mem_of_first? again).2.1, name] at one
  exact ⟨filter_isNamed apart member, now, again, name, one, known, congrArg Prod.snd same⟩

end Binding

namespace Material

open Binding (first?)

variable {m middle after : Material} {rate kept : Rate} {key typed : Trait} {name : String}
  {b : Binding}

theorem addInput_of_first? (resolved : key.resolved = .ok typed)
    (stored : inputRate rate typed = .ok kept) (found : first? m.inputs kept typed = some b) :
    m.addInput rate key false = .ok ((b.name, kept), m) := by
  have search : (m.inputsAt kept).find? (fun b => !false && b.key.agrees typed) = some b := by
    simpa [inputsAt, first?] using found
  simp only [addInput, resolved, stored, bind, Except.bind, search]
  rfl

theorem addOutput_of_first? (staged : rate.stage?.isSome = true)
    (resolved : key.resolved = .ok typed) (found : first? m.outputs rate typed = some b) :
    m.addOutput rate key false = .ok ((b.name, false), m) := by
  have search : (m.outputsAt rate).find? (fun b => !false && b.key.agrees typed) = some b := by
    simpa [outputsAt, first?] using found
  have here : ¬ rate.stage?.isNone = true := by simpa [Option.isSome_iff_ne_none] using staged
  simp only [addOutput, if_neg here, resolved, bind, Except.bind, search, pure, Except.pure]

theorem exists_first_of_addInput (added : m.addInput rate key false = .ok ((name, kept), after)) :
    ∃ typed b, key.resolved = .ok typed ∧ inputRate rate typed = .ok kept ∧
      first? after.inputs kept typed = some b ∧ b.name = name := by
  obtain ⟨typed, resolved, stored, -⟩ := addInput_eq_ok added
  cases found : first? m.inputs kept typed with
  | some b =>
    rw [addInput_of_first? resolved stored found] at added
    obtain ⟨⟨rfl, -⟩, rfl⟩ : (b.name = name ∧ kept = kept) ∧ m = after := by simpa using added
    exact ⟨typed, b, resolved, stored, found, rfl⟩
  | none =>
    have search : (m.inputsAt kept).find? (fun b => !false && b.key.agrees typed) = none := by
      simpa [inputsAt, first?] using found
    simp only [addInput, resolved, stored, bind, Except.bind, search, pure, Except.pure,
      Except.ok.injEq, Prod.mk.injEq] at added
    obtain ⟨⟨rfl, -⟩, rfl⟩ := added
    split <;> exact ⟨typed, _, resolved, stored, Binding.first?_append_of_none found, rfl⟩

theorem exists_first_of_addOutput {created : Bool}
    (added : m.addOutput rate key false = .ok ((name, created), after)) :
    ∃ typed b, key.resolved = .ok typed ∧ rate.stage?.isSome = true ∧
      first? after.outputs rate typed = some b ∧ b.name = name := by
  obtain ⟨typed, resolved, staged, -⟩ := addOutput_eq_ok added
  cases found : first? m.outputs rate typed with
  | some b =>
    rw [addOutput_of_first? staged resolved found] at added
    obtain ⟨⟨rfl, -⟩, rfl⟩ : (b.name = name ∧ false = created) ∧ m = after := by simpa using added
    exact ⟨typed, b, resolved, staged, found, rfl⟩
  | none =>
    have search : (m.outputsAt rate).find? (fun b => !false && b.key.agrees typed) = none := by
      simpa [outputsAt, first?] using found
    have here : ¬ rate.stage?.isNone = true := by simpa [Option.isSome_iff_ne_none] using staged
    simp only [addOutput, if_neg here, resolved, bind, Except.bind, search, pure, Except.pure,
      Except.ok.injEq, Prod.mk.injEq] at added
    obtain ⟨⟨rfl, -⟩, rfl⟩ := added
    exact ⟨typed, _, resolved, staged, Binding.first?_append_of_none found, rfl⟩

/-- What the bindings of a material hold is held later too. -/
structure Extends (after m : Material) : Prop where
  inputs : m.inputs.map Binding.held <+: after.inputs.map Binding.held
  outputs : m.outputs.map Binding.held <+: after.outputs.map Binding.held

namespace Extends

theorem refl (m : Material) : m.Extends m :=
  ⟨List.prefix_refl _, List.prefix_refl _⟩

theorem of_same (inputs : after.inputs = m.inputs) (outputs : after.outputs = m.outputs) :
    after.Extends m :=
  ⟨inputs ▸ List.prefix_refl _, outputs ▸ List.prefix_refl _⟩

theorem trans (second : after.Extends middle) (first : middle.Extends m) : after.Extends m :=
  ⟨first.inputs.trans second.inputs, first.outputs.trans second.outputs⟩

theorem map {inward outward : Binding → Binding} (kept_in : Binding.KeptBy inward)
    (kept_out : Binding.KeptBy outward) (inputs : after.inputs = m.inputs.map inward)
    (outputs : after.outputs = m.outputs.map outward) : after.Extends m where
  inputs := inputs ▸ (kept_in.map_held m.inputs).symm ▸ List.prefix_refl _
  outputs := outputs ▸ (kept_out.map_held m.outputs).symm ▸ List.prefix_refl _

theorem withInput (m : Material) (rate : Rate) (key : Trait) (duplicates : Bool) :
    (m.withInput rate key duplicates).Extends m := by
  rcases m.withInput_cases rate key duplicates with
    same | ⟨typed, kept, -, ⟨-, -, same⟩ | ⟨-, same⟩⟩
  · rw [same]
    exact refl m
  all_goals
    rw [same]
    exact ⟨by simp [pushTexture, pushInput], List.prefix_refl _⟩

theorem withOutput (m : Material) (rate : Rate) (key : Trait) (duplicates : Bool) :
    (m.withOutput rate key duplicates).Extends m := by
  rcases m.withOutput_cases rate key duplicates with same | ⟨typed, -, -, same⟩
  · rw [same]
    exact refl m
  · rw [same]
    exact ⟨List.prefix_refl _, by simp⟩

/-- Every event keeps what bindings hold. -/
theorem apply (m : Material) (event : Event) : (m.apply event).Extends m := by
  have same : Binding.KeptBy id := fun _ => ⟨rfl, rfl, rfl, rfl⟩
  by_cases about : event.isInterface = false
  · obtain ⟨inputs, outputs, -⟩ := m.apply_interface about
    exact of_same inputs outputs
  · cases event with
    | input rate key duplicates => exact withInput m rate key duplicates
    | output rate key duplicates => exact withOutput m rate key duplicates
    | wire rate output =>
      have wired : Binding.KeptBy fun b => { b with wired := true } := fun _ => ⟨rfl, rfl, rfl, rfl⟩
      exact map same (wired.updateNamed rate output) (List.map_id _).symm rfl
    | link outputRate output rate input =>
      obtain ⟨_, _, kept_in, kept_out, inputs, outputs, -⟩ :=
        m.exists_kept_link outputRate output rate input
      exact map kept_in kept_out inputs outputs
    | _ => simp [Event.isInterface] at about

theorem replay (m : Material) (events : List Event) : (m.replay events).Extends m :=
  replay_induction m events (refl m) fun after event earlier => (apply after event).trans earlier

theorem requested (m : Material) (request : Request) : (m.requested request).Extends m := by
  cases request with
  | addInput rate key duplicates => exact withInput m rate key duplicates
  | addOutput rate key duplicates => exact withOutput m rate key duplicates
  | markWired rate name => exact apply m (.wire rate name)
  | getValue viewer key rate fallback =>
    simp only [Material.requested, (lookup viewer key rate fallback).replays]
    exact replay m _
  | edit change =>
    obtain ⟨nodes, same⟩ := m.exists_edited_eq change
    simp only [Material.requested, same]
    exact of_same rfl rfl

theorem foldl_requested (m : Material) (requests : List Request) :
    (requests.foldl Material.requested m).Extends m := by
  induction requests generalizing m with
  | nil => exact refl m
  | cons request requests ih => exact (ih (m.requested request)).trans (requested m request)

end Extends

/-- A material that has been begun or built, and since then been changed at its nodes and by allowed
events. Whatever is asked of a material, and writing it, comes down to such changes. -/
inductive Reachable (allowed : Event → Prop) : Material → Prop
  | begun (rate : Rate) : Reachable allowed (ofRate rate)
  | built {c : Construct} {m : Material} : ofConstruct c = .ok m → Reachable allowed m
  | edited {m : Material} (change : Edit) : Reachable allowed m →
      Reachable allowed (m.edited change)
  | happened {m : Material} {event : Event} : allowed event → Reachable allowed m →
      Reachable allowed (m.apply event)

variable {allowed : Event → Prop}

theorem Reachable.formed (reachable : Reachable allowed m) : m.Formed := by
  induction reachable with
  | begun rate => exact formed_ofRate rate
  | built made => exact (fresh_ofConstruct made).formed
  | edited change _ ih => exact ih.requested (.edit change)
  | happened _ _ ih => exact ih.apply _

/-- Names are handles. Asking again for an input or an output, with any trait of the same identity
and type, gives the same name and changes nothing, whatever else has been asked in between. The name
stands for one binding all the time, with the same trait and the same texture slot. -/
theorem handles_stable (reachable : Reachable allowed m) (rate : Rate) (key : Trait)
    (requests : List Request) :
    (∀ name kept middle, m.addInput rate key false = .ok ((name, kept), middle) →
      let later := requests.foldl requested middle
      (∀ other : Trait, other.id = key.id →
        other.resolved.map Trait.type = key.resolved.map Trait.type →
        later.addInput rate other false = .ok ((name, kept), later)) ∧
      ∃ b, middle.inputs.filter (·.isNamed kept name) = [b] ∧
        ∃ now, later.inputs.filter (·.isNamed kept name) = [now] ∧
          now.key = b.key ∧ now.sampler = b.sampler) ∧
    (∀ name created middle, m.addOutput rate key false = .ok ((name, created), middle) →
      let later := requests.foldl requested middle
      (∀ other : Trait, other.id = key.id →
        other.resolved.map Trait.type = key.resolved.map Trait.type →
        later.addOutput rate other false = .ok ((name, false), later)) ∧
      ∃ b, middle.outputs.filter (·.isNamed rate name) = [b] ∧
        ∃ now, later.outputs.filter (·.isNamed rate name) = [now] ∧
          now.key = b.key ∧ now.sampler = b.sampler) := by
  constructor
  · intro name kept middle added later
    have formed : middle.Formed := by
      simpa [withInput, added] using reachable.formed.withInput rate key false
    have formed_later : later.Formed := formed.foldl_requested requests
    obtain ⟨typed, b, resolved, stored, found, rfl⟩ := exists_first_of_addInput added
    obtain ⟨one, now, again, name, now_one, same⟩ := Binding.named_of_first?
      (Extends.foldl_requested middle requests).inputs formed.apart_inputs
      formed_later.apart_inputs found
    refine ⟨fun other id type => ?_, b, one, now, now_one, same⟩
    obtain ⟨alike, resolved_again, alike_id, alike_type⟩ := Trait.exists_resolved resolved id type
    rw [← name]
    exact addInput_of_first? resolved_again (inputRate_congr alike_id alike_type rate ▸ stored)
      (Binding.first?_congr alike_id alike_type ▸ again)
  · intro name created middle added later
    have formed : middle.Formed := by
      simpa [withOutput, added] using reachable.formed.withOutput rate key false
    have formed_later : later.Formed := formed.foldl_requested requests
    obtain ⟨typed, b, resolved, staged, found, rfl⟩ := exists_first_of_addOutput added
    obtain ⟨one, now, again, name, now_one, same⟩ := Binding.named_of_first?
      (Extends.foldl_requested middle requests).outputs formed.apart_outputs
      formed_later.apart_outputs found
    refine ⟨fun other id type => ?_, b, one, now, now_one, same⟩
    obtain ⟨alike, resolved_again, alike_id, alike_type⟩ := Trait.exists_resolved resolved id type
    rw [← name]
    exact addOutput_of_first? staged resolved_again
      (Binding.first?_congr alike_id alike_type ▸ again)

/-- The first input for a color is given again to one with a type and a value of its own, after a
second input for colors and a color that comes from the vertex stage. -/
theorem handles_stable_of_color :
    let m := (ofRate .auto).edited (.expose root (.ofId .color) ⟨"red", .vec4, .stage .vertex⟩)
    let requests := [Request.addInput (.stage .pixel) (.ofId .color) true,
      .getValue root (.ofId .color) (.stage .pixel) .required]
    ∃ middle, m.addInput (.stage .pixel) (.ofId .color) false =
        .ok (("inColor", .stage .pixel), middle) ∧
      let later := requests.foldl requested middle
      later.inputs.map Binding.name = ["inColor", "inColor1"] ∧
      later.addInput (.stage .pixel) ⟨.color, some .vec4, some (.string "red")⟩ false =
        .ok (("inColor", .stage .pixel), later) := by
  intro m requests
  have added : m.addInput (.stage .pixel) (.ofId .color) false =
      .ok (("inColor", .stage .pixel), m.withInput (.stage .pixel) (.ofId .color) false) := by
    rfl
  have reachable : Reachable (fun _ => True) m := .edited _ (.begun .auto)
  refine ⟨_, added, by decide +kernel, ?_⟩
  exact ((handles_stable reachable (.stage .pixel) (.ofId .color) requests).1 _ _ _ added).1
    ⟨.color, some .vec4, some (.string "red")⟩ rfl rfl

end Material

end GlslMaterial
