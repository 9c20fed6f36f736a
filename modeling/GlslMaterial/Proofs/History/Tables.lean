import GlslMaterial.Proofs.History.Fresh
import GlslMaterial.Proofs.History.Law

/-!
The tables of a material while it is written: two bindings of a table are never mistaken for each
other, so that a link connects the output and the input that it names.
-/

set_option autoImplicit false

namespace GlslMaterial

namespace Distinct

variable {bindings : List Binding}

theorem find?_isNamed (distinct : Distinct bindings) {b : Binding} (member : b ∈ bindings)
    (single : b.entry.IsSingle) : bindings.find? (·.isNamed b.rate b.name) = some b := by
  obtain ⟨early, late, rfl⟩ := List.append_of_mem member
  rw [List.find?_append, List.find?_eq_none.2, Option.none_or, List.find?_cons_of_pos]
  · simp [Binding.isNamed]
  · intro a earlier named
    have apart : a.entry.Apart b.entry := by
      have pairs := distinct.apart
      rw [List.map_append, List.pairwise_append] at pairs
      exact pairs.2.2 _ (List.mem_map_of_mem earlier) _ (by simp)
    simp only [Binding.isNamed, Bool.and_eq_true, decide_eq_true_eq, beq_iff_eq] at named
    exact (apart named.1 single).1 named.2

theorem eq_of_entry (distinct : Distinct bindings) {a b : Binding} (first : a ∈ bindings)
    (second : b ∈ bindings) (same : a.entry = b.entry) (single : b.entry.IsSingle) : a = b := by
  rcases distinct.eq_or_apart first second with equal | apart | apart
  · exact equal
  · rw [same] at apart
    exact absurd rfl (apart rfl single).1
  · rw [same] at apart
    exact absurd rfl (apart rfl single).1

theorem entry_of_name {new : List Binding} (distinct : Distinct bindings)
    (entries : new.map Binding.entry = bindings.map Binding.entry) {a b : Binding} (first : a ∈ new)
    (second : b ∈ bindings) (here : a.rate = b.rate) (staged : b.rate.stage?.isSome = true)
    (named : a.name = b.name) : a.entry = b.entry := by
  obtain ⟨c, known, entry⟩ := exists_entry_eq entries first
  obtain ⟨rate, -, name⟩ := Binding.entry_eq_iff.1 entry
  have at_rate := rate.trans here
  obtain rfl := distinct.eq_of_name known second at_rate (at_rate ▸ staged) (name.trans named)
  exact entry.symm

end Distinct

namespace Material

/-- The tables of a material are in order: no two bindings are mistaken for each other, and outputs
belong to stages. -/
structure Tabled (m : Material) : Prop where
  inputs : Distinct m.inputs
  outputs : Distinct m.outputs
  staged : ∀ o ∈ m.outputs, o.rate.stage?.isSome = true

theorem Fresh.tabled {m : Material} (fresh : m.Fresh) : m.Tabled where
  inputs := by
    rw [fresh.inputs]
    exact ⟨by simp, .nil⟩
  outputs := by
    rw [fresh.outputs]
    exact ⟨by simp, .nil⟩
  staged := by simp [fresh.outputs]

namespace Tabled

variable {m after : Material}

theorem of_entries (tabled : m.Tabled)
    (inputs : after.inputs.map Binding.entry = m.inputs.map Binding.entry)
    (outputs : after.outputs.map Binding.entry = m.outputs.map Binding.entry) : after.Tabled where
  inputs := tabled.inputs.of_entries inputs
  outputs := tabled.outputs.of_entries outputs
  staged o member := by
    obtain ⟨a, known, entry⟩ := exists_entry_eq outputs member
    exact (Binding.entry_eq_iff.1 entry).1 ▸ tabled.staged a known

theorem withInput (tabled : m.Tabled) (rate : Rate) (key : Trait) {duplicates : Bool}
    (single : duplicates = true → key.isTexture = true) :
    (m.withInput rate key duplicates).Tabled := by
  have outputs := (m.withInput_frame rate key duplicates).1
  refine ⟨?_, outputs ▸ tabled.outputs, outputs ▸ tabled.staged⟩
  rcases m.withInput_spec rate key duplicates with
    ⟨typed, kept, _, resolved, stored, asked, -⟩ | same
  · obtain ⟨-, has_type, given⟩ := Trait.resolved_eq_ok resolved
    apply asked.distinct tabled.inputs has_type
    intro twice
    have texture := single twice
    have equal : typed = key := given (by
      unfold Trait.isTexture at texture
      split at texture
      · simp [*]
      · simp at texture)
    rw [← equal] at texture
    rw [inputRate_texture texture stored]
    exact ⟨rfl, texture⟩
  · rw [same]
    exact tabled.inputs

theorem withOutput (tabled : m.Tabled) (rate : Rate) (key : Trait) :
    (m.withOutput rate key false).Tabled := by
  have inputs := (m.withOutput_frame rate key false).1
  rcases m.withOutput_spec rate key false with ⟨typed, _, resolved, staged, asked, -⟩ | same
  · obtain ⟨-, has_type, -⟩ := Trait.resolved_eq_ok resolved
    refine ⟨inputs ▸ tabled.inputs, asked.distinct tabled.outputs has_type (by simp), ?_⟩
    intro o member
    rcases asked.mem member with earlier | ⟨at_rate, -⟩
    · exact tabled.staged o earlier
    · exact at_rate ▸ staged
  · exact same.symm ▸ tabled

theorem apply {declaring : Bool} {base : Material} {past : List Event} {event : Event}
    (tabled : (base.replay past).Tabled) (allowed : Legal declaring base past event) :
    ((base.replay past).apply event).Tabled := by
  by_cases about : event.isInterface = false
  · obtain ⟨inputs, outputs, -⟩ := (base.replay past).apply_interface about
    exact tabled.of_entries (by rw [inputs]) (by rw [outputs])
  · cases event with
    | input rate key duplicates => exact tabled.withInput rate key allowed
    | output rate key duplicates =>
      obtain rfl : duplicates = false := allowed
      exact tabled.withOutput rate key
    | wire rate output => exact tabled.of_entries rfl (map_entry_markWired _ rate output)
    | link outputRate output rate input =>
      obtain ⟨inputs, outputs⟩ := (base.replay past).map_entry_link outputRate output rate input
      exact tabled.of_entries inputs outputs
    | _ => simp [Event.isInterface] at about

end Tabled

theorem Tabled.link_eq {m : Material} (tabled : m.Tabled) {o i : Binding} (output : o ∈ m.outputs)
    (input : i ∈ m.inputs) (single : i.entry.IsSingle) :
    m.link o.rate o.name i.rate i.name =
      match i.location, o.location with
      | some _, _ => m
      | none, some location => m.placeInput i.rate i.name location
      | none, none =>
        ((m.takeLocations i.rate i.slots).placeOutput o.rate o.name (m.varyings i.rate)).placeInput
          i.rate i.name (m.varyings i.rate) := by
  have source := tabled.outputs.find?_isNamed output (.inl (tabled.staged o output))
  have target := tabled.inputs.find?_isNamed input single
  cases i_placed : i.location <;> cases o_placed : o.location <;>
    simp [link, source, target, i_placed, o_placed]

end Material

theorem Written.tabled {declaring : Bool} {base : Material} {past : List Event}
    (written : Written declaring base past) (fresh : base.Fresh) : (base.replay past).Tabled := by
  induction written with
  | nil => exact Material.Fresh.tabled fresh
  | snoc before allowed ih =>
    rw [Material.replay_append]
    exact ih.apply allowed

end GlslMaterial
