import GlslMaterial.Proofs.Glsl.Letters
import GlslMaterial.Proofs.Interface.Formed

/-!
The spelling of names: inputs and outputs are named with letters, digits and dots only, so that a
blank ends a name wherever it stands.
-/

set_option autoImplicit false

namespace GlslMaterial

open Text (madeOf madeOf_append)
open Glsl (isSymbolChar isInline isInline_of)

/-- Whether a text can be the name of a binding. -/
def isSpelled (name : String) : Bool :=
  madeOf isSymbolChar name

theorem isSpelled_append (first second : String) :
    isSpelled (first ++ second) = (isSpelled first && isSpelled second) :=
  madeOf_append isSymbolChar first second

theorem isSpelled_repr (n : Nat) : isSpelled n.repr = true := by
  apply List.all_eq_true.2
  intro c member
  simp [isSymbolChar, Char.isAlphanum, isDigit_of_mem_repr member]

theorem TraitId.isSpelled_label (id : TraitId) : isSpelled id.label = true := by
  cases id <;> decide

theorem Rate.isSpelled_name (rate : Rate) : isSpelled rate.name = true := by
  have all : ∀ rate ∈ Rate.all, isSpelled rate.name = true := by decide
  exact all rate rate.mem_all

theorem isSpelled_textureName (slot : Nat) : isSpelled (textureName slot) = true := by
  show isSpelled ("Texture" ++ slot.repr) = true
  rw [isSpelled_append, isSpelled_repr]
  rfl

theorem inline_of_isSpelled {name : String} (spelled : isSpelled name = true) :
    madeOf isInline name = true :=
  Text.madeOf_mono (fun _ => isInline_of (by decide)) spelled

theorem blank_notMem_of_isSpelled {name : String} (spelled : isSpelled name = true) :
    ' ' ∉ name.toList :=
  Text.notMem_of_madeOf spelled (by decide)

namespace Material

theorem isSpelled_freshName (taken : List String) {base : String}
    (spelled : isSpelled base = true) : isSpelled (freshName taken base) = true := by
  rcases freshName_eq taken base with same | ⟨n, same⟩
  · rw [same, spelled]
  · rw [same, isSpelled_append, spelled, isSpelled_repr]
    rfl

theorem isSpelled_inputName (rate : Rate) (id : TraitId) :
    isSpelled (inputName rate id) = true := by
  unfold inputName
  split
  · show isSpelled (rate.name ++ "." ++ id.label) = true
    rw [isSpelled_append, isSpelled_append, rate.isSpelled_name, id.isSpelled_label]
    rfl
  · show isSpelled ("in" ++ id.label) = true
    rw [isSpelled_append, id.isSpelled_label]
    rfl

/-- All names of inputs and outputs are spelled as they have to be. -/
def Spelled (m : Material) : Prop :=
  ∀ b ∈ m.inputs ++ m.outputs, isSpelled b.name = true

variable {m after : Material}

theorem Spelled.input (spelled : m.Spelled) {b : Binding} (member : b ∈ m.inputs) :
    isSpelled b.name = true :=
  spelled b (List.mem_append_left _ member)

theorem Spelled.output (spelled : m.Spelled) {b : Binding} (member : b ∈ m.outputs) :
    isSpelled b.name = true :=
  spelled b (List.mem_append_right _ member)

/-- Names belong to the entries of the tables. -/
theorem Spelled.of_entries (spelled : m.Spelled)
    (inputs : after.inputs.map Binding.entry = m.inputs.map Binding.entry)
    (outputs : after.outputs.map Binding.entry = m.outputs.map Binding.entry) : after.Spelled := by
  have entries : (after.inputs ++ after.outputs).map Binding.entry =
      (m.inputs ++ m.outputs).map Binding.entry := by
    rw [List.map_append, List.map_append, inputs, outputs]
  intro b member
  obtain ⟨a, known, same⟩ := exists_entry_eq entries member
  rw [← (Binding.entry_eq_iff.1 same).2.2]
  exact spelled a known

theorem Spelled.withInput (spelled : m.Spelled) (rate : Rate) (key : Trait) (duplicates : Bool) :
    (m.withInput rate key duplicates).Spelled := by
  have pushed {after : Material} {b : Binding} (named : isSpelled b.name = true)
      (inputs : after.inputs = m.inputs ++ [b]) (outputs : after.outputs = m.outputs) :
      after.Spelled := by
    intro other member
    simp only [inputs, outputs, List.mem_append, List.mem_singleton] at member
    rcases member with (old | rfl) | output
    · exact spelled.input old
    · exact named
    · exact spelled.output output
  rcases m.withInput_cases rate key duplicates with
    same | ⟨typed, kept, -, ⟨-, -, same⟩ | ⟨-, same⟩⟩
  · rw [same]
    exact spelled
  · rw [same]
    refine pushed ?_ rfl rfl
    exact isSpelled_textureName m.samplers
  · rw [same]
    refine pushed ?_ rfl rfl
    exact isSpelled_freshName _ (isSpelled_inputName kept typed.id)

theorem Spelled.withOutput (spelled : m.Spelled) (rate : Rate) (key : Trait) (duplicates : Bool) :
    (m.withOutput rate key duplicates).Spelled := by
  rcases m.withOutput_cases rate key duplicates with same | ⟨typed, -, -, same⟩
  · rw [same]
    exact spelled
  · rw [same]
    have base : isSpelled s!"out{typed.id.label}" = true := by
      show isSpelled ("out" ++ typed.id.label) = true
      rw [isSpelled_append, typed.id.isSpelled_label]
      rfl
    intro b member
    simp only [List.mem_append, List.mem_singleton] at member
    rcases member with input | old | rfl
    · exact spelled.input input
    · exact spelled.output old
    · exact isSpelled_freshName _ base

theorem Spelled.apply (spelled : m.Spelled) (event : Event) : (m.apply event).Spelled := by
  by_cases about : event.isInterface = false
  · obtain ⟨inputs, outputs, -⟩ := m.apply_interface about
    exact spelled.of_entries (by rw [inputs]) (by rw [outputs])
  · cases event with
    | input rate key duplicates => exact spelled.withInput rate key duplicates
    | output rate key duplicates => exact spelled.withOutput rate key duplicates
    | wire rate output => exact spelled.of_entries rfl (m.map_entry_markWired rate output)
    | link outputRate output rate input =>
      obtain ⟨inputs, outputs⟩ := m.map_entry_link outputRate output rate input
      exact spelled.of_entries inputs outputs
    | _ => simp [Event.isInterface] at about

theorem Spelled.replay (spelled : m.Spelled) (events : List Event) : (m.replay events).Spelled :=
  replay_induction m events spelled fun _ event spelled => spelled.apply event

end Material

end GlslMaterial
