import GlslMaterial.Proofs.Lookup.Legible

/-!
Types of what lookups find. In a scope in which the inputs of a material and the symbols of its
nodes have the types for which they have been recorded, so has all that is found by a lookup,
whether it is used as it is, carried over from another stage or asked for as an input.
-/

set_option autoImplicit false

namespace GlslMaterial.Material

open GlslMaterial.Glsl (Scope codeType?)

/-- In a scope of a stage, the inputs that the stage can read have the types of their
declarations. -/
def DeclaresInputs (scope : Scope) (stage : Stage) (m : Material) : Prop :=
  ∀ b ∈ m.inputs, b.rate = .stage stage ∨ b.rate.isUniform = true →
    codeType? scope b.name = (b.key.type.getD .float).declared?

/-- In a scope of a stage, a symbol that the stage can use as it is has the type that it was shown
with. -/
def Holds (scope : Scope) (stage : Stage) (symbol : Symbol) : Prop :=
  Usable (.stage stage) symbol → codeType? scope symbol.expr = symbol.type.declared?

/-- What a lookup relies on. -/
structure Ready (scope : Scope) (stage : Stage) (m : Material) : Prop where
  legible : m.Legible
  formed : m.Formed
  shown : ∀ n key symbol, (key, symbol) ∈ (m.node n).outputs → Holds scope stage symbol

/-- All that is shown has its type. -/
abbrev Holding (scope : Scope) (stage : Stage) : Law :=
  Showing fun _ symbol => Holds scope stage symbol

variable {α : Type} {scope : Scope} {stage : Stage} {m after : Material} {key typed : Trait}
  {symbol : Symbol} {viewer : NodeId}

/-- Inputs keep their names, rates and types. -/
theorem DeclaresInputs.of_replay {events : List Event}
    (declares : DeclaresInputs scope stage (m.replay events)) : DeclaresInputs scope stage m := by
  intro b member reads
  have kept := (m.entries_replay events).1.subset (List.mem_map_of_mem member)
  obtain ⟨other, later, same⟩ := List.mem_map.1 kept
  obtain ⟨rate, key, name⟩ := Binding.entry_eq_iff.1 same
  rw [← name, ← key]
  exact declares other later (rate ▸ reads)

theorem DeclaresInputs.before {action : Action α} {a : α} (ended : action m = .ok a after)
    (declares : DeclaresInputs scope stage after) : DeclaresInputs scope stage m := by
  rw [Action.material_of_ok ended] at declares
  exact declares.of_replay

theorem Ready.kept (ready : Ready scope stage m) {action : Action α} {good : α → Prop} {a : α}
    (reads : Reads action good)
    (heeds : ∀ base, Heeds (Holding scope stage) base action fun _ => True)
    (ended : action m = .ok a after) : Ready scope stage after := by
  obtain ⟨legible, -⟩ := reads m ready.legible a after ended
  have lawful : Lawful (Holding scope stage) m (action.events m) := (heeds m [] trivial .nil).1
  obtain rfl := Action.material_of_ok ended
  exact ⟨legible, ready.formed.replay _, lawful.shown ready.shown⟩

theorem codeType?_of_provides (formed : m.Formed) (declares : DeclaresInputs scope stage m)
    (provides : m.Provides (.stage stage) symbol) :
    codeType? scope symbol.expr = symbol.type.declared? := by
  obtain ⟨⟨key, given, b, member, kept, named, agrees⟩, reads⟩ := provides
  have type : b.key.type = key.type :=
    ((Trait.agrees_iff (formed.typed_inputs b member) (by simp [given])).1 agrees).2
  have declared := declares b member (kept ▸ reads nofun)
  rwa [named, type, given] at declared

theorem codeType?_of_symbolOrInput (ready : Ready scope stage m)
    (ended : symbolOrInput viewer key (.stage stage) m = .ok symbol after)
    (declares : DeclaresInputs scope stage after) :
    codeType? scope symbol.expr = symbol.type.declared? := by
  have found := symbolOrInput_found ended
  rw [concreteRate_of_ne_auto (Emission.stage_ne_auto stage)] at found
  rcases found with ⟨n, trait, shown, usable⟩ | provides
  · exact ready.shown n trait symbol shown usable
  · have formed : after.Formed := Action.material_of_ok ended ▸ ready.formed.replay _
    exact codeType?_of_provides formed declares provides

end GlslMaterial.Material
