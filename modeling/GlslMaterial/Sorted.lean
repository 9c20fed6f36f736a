/-! Lists that are sorted by a number. -/

set_option autoImplicit false

namespace GlslMaterial

variable {α : Type}

/-- Puts an item before the first one that is not below it. -/
def insertBy (key : α → Nat) (a : α) : List α → List α
  | [] => [a]
  | b :: rest => if key a ≤ key b then a :: b :: rest else b :: insertBy key a rest

/-- Sorts items by a number. Those of the same number keep their order. -/
def sortBy (key : α → Nat) (items : List α) : List α :=
  items.foldr (insertBy key) []

theorem insertBy_perm (key : α → Nat) (a : α) (items : List α) :
    (insertBy key a items).Perm (a :: items) := by
  induction items with
  | nil => exact .refl _
  | cons b items ih =>
    rw [insertBy]
    split
    · exact .refl _
    · exact (ih.cons b).trans (.swap a b items)

theorem sortBy_perm (key : α → Nat) (items : List α) : (sortBy key items).Perm items := by
  induction items with
  | nil => exact .refl _
  | cons a items ih => exact (insertBy_perm key a _).trans (ih.cons a)

end GlslMaterial
