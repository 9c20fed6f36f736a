import GlslMaterial.Proofs.Interface.Locations
import Mathlib.Algebra.Order.Ring.Nat

/-!
Layouts: bindings with one location for each. The placed ones keep what they have, and the others
follow behind them in the order of the list. Main statement: a list in which no two placed bindings
share a slot is completed to one in which no two bindings do, within the slots that the list needs.
-/

set_option autoImplicit false

namespace GlslMaterial

instance : DecidableRel GivenApart := fun a b =>
  decidable_of_iff ((a.location.all fun location => b.location.all fun elsewhere =>
    decide (SlotsApart a.key location b.key elsewhere)) = true) (by
      simp only [GivenApart, Option.all_eq_true, decide_eq_true_eq]
      exact ⟨fun apart location elsewhere here there => apart location here elsewhere there,
        fun apart location here elsewhere there => apart location elsewhere here there⟩)

namespace Material

/-- The slots of the bindings that are not placed yet. -/
def owedSlots (bindings : List Binding) : Nat :=
  ((bindings.filter fun b => b.location.isNone).map Binding.slots).sum

/-- Where the slots end that a list of bindings needs: behind all that are placed there is room for
the others. -/
def extent (bindings : List Binding) : Nat :=
  firstFree bindings + owedSlots bindings

/-- A location for each binding. The placed bindings keep theirs; the others stand behind all placed
ones, one behind the other. No slot is taken twice, and none lies behind the extent of the list. -/
structure Completes (bindings : List Binding) (locations : List Nat) : Prop where
  length : locations.length = bindings.length
  kept : ∀ declared ∈ bindings.zip locations, ∀ location,
    declared.1.location = some location → declared.2 = location
  behind : ∀ declared ∈ bindings.zip locations, declared.1.location = none →
    ∀ b ∈ bindings, ∀ location, b.location = some location → location + b.slots ≤ declared.2
  ordered : (bindings.zip locations).Pairwise fun a b =>
    a.1.location = none → b.1.location = none → a.2 + a.1.slots ≤ b.2
  apart : (bindings.zip locations).Pairwise DeclaredApart
  within : ∀ declared ∈ bindings.zip locations, declared.2 + declared.1.slots ≤ extent bindings

section Running

variable {bindings : List Binding} {next : Nat}

theorem owedSlots_cons_of_some {b : Binding} {location : Nat} (given : b.location = some location)
    (rest : List Binding) : owedSlots (b :: rest) = owedSlots rest := by
  simp [owedSlots, given]

theorem owedSlots_cons_of_none {b : Binding} (free : b.location = none) (rest : List Binding) :
    owedSlots (b :: rest) = b.slots + owedSlots rest := by
  simp [owedSlots, free]

theorem place_of_mem_zip {declared : Binding × Nat}
    (member : declared ∈ bindings.zip (locationsFrom next bindings)) :
    declared.1.location = some declared.2 ∨ declared.1.location = none ∧ next ≤ declared.2 ∧
      declared.2 + declared.1.slots ≤ next + owedSlots bindings := by
  induction bindings generalizing next with
  | nil => simp at member
  | cons b rest ih =>
    cases given : b.location with
    | some own =>
      simp only [locationsFrom, given, List.zip_cons_cons, List.mem_cons] at member
      rw [owedSlots_cons_of_some given]
      rcases member with rfl | later
      · exact .inl given
      · exact ih later
    | none =>
      simp only [locationsFrom, given, List.zip_cons_cons, List.mem_cons] at member
      rw [owedSlots_cons_of_none given]
      rcases member with rfl | later
      · exact .inr ⟨given, Nat.le_refl _, by simp only; omega⟩
      · rcases ih later with kept | ⟨free, first, last⟩
        · exact .inl kept
        · exact .inr ⟨free, by omega, by omega⟩

/-- The counter runs on, so that what comes later in the list stands later. -/
theorem ordered_zip_locationsFrom :
    (bindings.zip (locationsFrom next bindings)).Pairwise fun a b =>
      a.1.location = none → b.1.location = none → a.2 + a.1.slots ≤ b.2 := by
  induction bindings generalizing next with
  | nil => simp
  | cons b rest ih =>
    cases given : b.location with
    | some own =>
      simp only [locationsFrom, given, List.zip_cons_cons, List.pairwise_cons]
      refine ⟨fun declared _ free => ?_, ih⟩
      cases free
    | none =>
      simp only [locationsFrom, given, List.zip_cons_cons, List.pairwise_cons]
      refine ⟨fun declared later _ free => ?_, ih⟩
      rcases place_of_mem_zip later with kept | ⟨-, first, -⟩
      · rw [free] at kept
        cases kept
      · exact first

end Running

/-- The locations of a list complete it: all that is placed stays, and nothing else meets it. -/
theorem assignLocations_completes {bindings : List Binding} (valid : bindings.Pairwise GivenApart) :
    Completes bindings (assignLocations bindings) where
  length := length_assignLocations bindings
  kept := by
    intro declared member location given
    rcases place_of_mem_zip member with kept | ⟨free, -⟩
    · exact Option.some.inj (kept.symm.trans given)
    · rw [free] at given
      cases given
  behind := by
    intro declared member free b listed location given
    have ends := le_firstFree listed given
    rcases place_of_mem_zip member with kept | ⟨-, first, -⟩
    · rw [free] at kept
      cases kept
    · exact Nat.le_trans ends first
  ordered := ordered_zip_locationsFrom
  apart := (pairwise_located_iff bindings).2 valid
  within := by
    intro declared member
    rcases place_of_mem_zip member with kept | ⟨-, -, last⟩
    · have ends := le_firstFree (List.of_mem_zip member).1 kept
      exact Nat.le_add_right_of_le ends
    · exact last

/-- A placed matrix and a placed vector between two bindings that are not placed. -/
theorem assignLocations_completes_mixed :
    let binding (name : String) (type : DataType) (location : Option Nat) : Binding :=
      ⟨.stage .pixel, .typed .color type, name, none, false, location⟩
    let bindings := [binding "inColor" .vec4 none, binding "inModel" .mat4 (some 1),
      binding "inAim" .vec3 (some 0), binding "inDepth" .float none]
    bindings.Pairwise GivenApart ∧ extent bindings = 7 ∧ Completes bindings [5, 1, 0, 6] := by
  intro binding bindings
  have valid : bindings.Pairwise GivenApart := by decide
  have locations : assignLocations bindings = [5, 1, 0, 6] := by decide
  exact ⟨valid, by decide, locations ▸ assignLocations_completes valid⟩

end Material

end GlslMaterial
