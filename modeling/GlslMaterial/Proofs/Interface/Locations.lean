import GlslMaterial.Material.Interface

/-!
Locations in declarations: bindings that have none get theirs behind all that are given, so that no
slot is taken twice unless two of the given locations take it.
-/

set_option autoImplicit false

namespace GlslMaterial

/-- A slot is among those that a value of a trait takes from its location on. -/
def Takes (key : Trait) (location slot : Nat) : Prop :=
  location ≤ slot ∧ slot < location + key.slots

/-- No slot is taken by both of two values. -/
def SlotsApart (key : Trait) (location : Nat) (other : Trait) (elsewhere : Nat) : Prop :=
  ∀ slot, Takes key location slot → ¬ Takes other elsewhere slot

namespace SlotsApart

variable {key other : Trait} {location elsewhere : Nat}

theorem of_le (before : location + key.slots ≤ elsewhere) :
    SlotsApart key location other elsewhere := by
  rintro slot ⟨-, inside⟩ ⟨behind, -⟩
  omega

theorem congr {this that : Trait} (apart : SlotsApart key location other elsewhere)
    (left : key.type = this.type) (right : other.type = that.type) :
    SlotsApart this location that elsewhere := by
  have first : key.slots = this.slots := by rw [Trait.slots, Trait.slots, left]
  have second : other.slots = that.slots := by rw [Trait.slots, Trait.slots, right]
  simpa only [SlotsApart, Takes, first, second] using apart

theorem symm (apart : SlotsApart key location other elsewhere) :
    SlotsApart other elsewhere key location :=
  fun slot there here => apart slot here there

end SlotsApart

theorem slotsApart_iff {key other : Trait} {location elsewhere : Nat} :
    SlotsApart key location other elsewhere ↔
      location + key.slots ≤ elsewhere ∨ elsewhere + other.slots ≤ location ∨
        key.slots = 0 ∨ other.slots = 0 := by
  constructor
  · intro apart
    -- two intervals that meet have the later of their beginnings in common
    have shared := apart (max location elsewhere)
    simp only [Takes] at shared
    omega
  · intro order slot here there
    simp only [Takes] at here there
    omega

instance (key : Trait) (location : Nat) (other : Trait) (elsewhere : Nat) :
    Decidable (SlotsApart key location other elsewhere) :=
  decidable_of_iff _ slotsApart_iff.symm

/-- Two declarations take no slot twice. -/
def DeclaredApart (a b : Binding × Nat) : Prop :=
  SlotsApart a.1.key a.2 b.1.key b.2

instance : DecidableRel DeclaredApart :=
  fun a b => inferInstanceAs (Decidable (SlotsApart a.1.key a.2 b.1.key b.2))

/-- Two bindings take no slot twice, as far as they have locations. -/
def GivenApart (a b : Binding) : Prop :=
  ∀ location elsewhere, a.location = some location → b.location = some elsewhere →
    SlotsApart a.key location b.key elsewhere

namespace Material

variable {bindings : List Binding} {b : Binding} {location next : Nat}

theorem le_firstFree (member : b ∈ bindings) (given : b.location = some location) :
    location + b.key.slots ≤ firstFree bindings := by
  have listed : location + b.key.slots ∈
      bindings.filterMap fun b => b.location.map (· + b.slots) :=
    List.mem_filterMap.2 ⟨b, member, by simp [given, Binding.slots]⟩
  rw [firstFree, List.foldl_max]
  exact Nat.le_trans (List.le_max?_getD_of_mem listed) (Nat.le_max_right _ _)

theorem mem_zip_locationsFrom
    (declared : (b, location) ∈ bindings.zip (locationsFrom next bindings)) :
    b ∈ bindings ∧ (b.location = some location ∨ next ≤ location) := by
  induction bindings generalizing next with
  | nil => simp at declared
  | cons a rest ih =>
    cases given : a.location with
    | some own =>
      simp only [locationsFrom, given, List.zip_cons_cons, List.mem_cons, Prod.mk.injEq] at declared
      rcases declared with ⟨rfl, rfl⟩ | later
      · exact ⟨List.mem_cons_self, .inl given⟩
      · exact ⟨List.mem_cons_of_mem _ (ih later).1, (ih later).2⟩
    | none =>
      simp only [locationsFrom, given, List.zip_cons_cons, List.mem_cons, Prod.mk.injEq] at declared
      rcases declared with ⟨rfl, rfl⟩ | later
      · exact ⟨List.mem_cons_self, .inr (Nat.le_refl _)⟩
      · refine ⟨List.mem_cons_of_mem _ (ih later).1, (ih later).2.imp_right ?_⟩
        exact Nat.le_trans (Nat.le_add_right _ _)

theorem mem_zip_of_location (member : b ∈ bindings) (given : b.location = some location) :
    (b, location) ∈ bindings.zip (locationsFrom next bindings) := by
  induction bindings generalizing next with
  | nil => simp at member
  | cons a rest ih =>
    rcases List.mem_cons.1 member with rfl | later
    · simp [locationsFrom, given]
    · cases own : a.location with
      | some _ | none =>
        simp only [locationsFrom, own, List.zip_cons_cons]
        exact List.mem_cons_of_mem _ (ih later)

theorem pairwise_zip_locationsFrom_iff
    (behind : ∀ b ∈ bindings, ∀ location, b.location = some location →
      location + b.key.slots ≤ next) :
    (bindings.zip (locationsFrom next bindings)).Pairwise DeclaredApart ↔
      bindings.Pairwise GivenApart := by
  induction bindings generalizing next with
  | nil => simp
  | cons a rest ih =>
    have rest_behind := fun b member => behind b (List.mem_cons_of_mem a member)
    cases given : a.location with
    | some own =>
      simp only [locationsFrom, given, List.zip_cons_cons, List.pairwise_cons, ih rest_behind]
      refine and_congr_left fun _ => ⟨?_, ?_⟩
      · intro apart b member location elsewhere here there
        obtain rfl := Option.some.inj (given.symm.trans here)
        exact apart _ (mem_zip_of_location member there)
      · rintro apart ⟨b, elsewhere⟩ declared
        obtain ⟨member, there | later⟩ := mem_zip_locationsFrom declared
        · exact apart b member own elsewhere given there
        · exact .of_le (Nat.le_trans (behind a List.mem_cons_self own given) later)
    | none =>
      have further : ∀ b ∈ rest, ∀ location, b.location = some location →
          location + b.key.slots ≤ next + a.slots :=
        fun b member location there => Nat.le_add_right_of_le (rest_behind b member location there)
      simp only [locationsFrom, given, List.zip_cons_cons, List.pairwise_cons, ih further]
      refine and_congr_left fun _ => iff_of_true ?_ ?_
      · rintro ⟨b, elsewhere⟩ declared
        obtain ⟨member, there | later⟩ := mem_zip_locationsFrom declared
        · exact SlotsApart.symm (.of_le (rest_behind b member elsewhere there))
        · exact .of_le later
      · intro b member location elsewhere here
        simp [given] at here

theorem pairwise_located_iff (bindings : List Binding) :
    (located bindings).Pairwise DeclaredApart ↔ bindings.Pairwise GivenApart :=
  pairwise_zip_locationsFrom_iff fun _ member _ given => le_firstFree member given

end Material

end GlslMaterial
