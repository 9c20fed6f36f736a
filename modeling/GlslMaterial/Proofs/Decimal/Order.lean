import GlslMaterial.Decimal.Shortest
import GlslMaterial.Sorted
import GlslMaterial.Space
import Mathlib.Algebra.Order.Field.Rat
import Mathlib.Algebra.Order.Field.Power
import Mathlib.Tactic.Linarith

/-!
The exact values of single-precision numbers. They are in the order in which the numbers are sorted.
-/

set_option autoImplicit false

namespace GlslMaterial

theorem pairwise_insertBy {α : Type} {key : α → Nat} {items : List α} (a : α)
    (sorted : items.Pairwise (key · ≤ key ·)) :
    (insertBy key a items).Pairwise (key · ≤ key ·) := by
  induction items with
  | nil => exact List.pairwise_singleton _ _
  | cons b items ih =>
    obtain ⟨first, rest⟩ := List.pairwise_cons.1 sorted
    rw [insertBy]
    split
    · rename_i le
      exact .cons (List.forall_mem_cons.2 ⟨le, fun c later => le.trans (first c later)⟩) sorted
    · rename_i less
      refine .cons (fun c member => ?_) (ih rest)
      rcases List.mem_cons.1 ((insertBy_perm key a items).mem_iff.1 member) with rfl | later
      · omega
      · exact first c later

theorem pairwise_sortBy {α : Type} (key : α → Nat) (items : List α) :
    (sortBy key items).Pairwise (key · ≤ key ·) := by
  induction items with
  | nil => exact .nil
  | cons a items ih => exact pairwise_insertBy a ih

namespace Decimal

/-- The value of a number that is finite. -/
def Magnitude.value? : Magnitude → Option ℚ
  | .zero => some 0
  | .finite b => some (b.mantissa * 2 ^ b.exponent)
  | .infinite | .undefined => none

/-- The exact value of a single-precision number. -/
def rational? (x : Float32) : Option ℚ :=
  (decode32 x).2.value?.map fun value => if (decode32 x).1 then -value else value

/-- Multiples of the least positive number. -/
def units (bits : Nat) : Nat :=
  if bits / 2 ^ 23 = 0 then bits % 2 ^ 23 else (2 ^ 23 + bits % 2 ^ 23) * 2 ^ (bits / 2 ^ 23 - 1)

theorem monotone_units : Monotone units := by
  refine monotone_nat_of_le_succ fun bits => ?_
  -- A full significand carries over.
  by_cases full : bits % 2 ^ 23 = 2 ^ 23 - 1
  · have exponent : (bits + 1) / 2 ^ 23 = bits / 2 ^ 23 + 1 := by omega
    have field : (bits + 1) % 2 ^ 23 = 0 := by omega
    rw [units, units, exponent, field, full, if_neg (Nat.succ_ne_zero _), Nat.add_sub_cancel]
    split
    · rename_i low
      rw [low]
      decide
    · obtain ⟨e, same⟩ := Nat.exists_eq_succ_of_ne_zero ‹_›
      rw [same, Nat.succ_sub_one, Nat.pow_succ]
      omega
  · have exponent : (bits + 1) / 2 ^ 23 = bits / 2 ^ 23 := by omega
    have field : (bits + 1) % 2 ^ 23 = bits % 2 ^ 23 + 1 := by omega
    rw [units, units, exponent, field]
    split
    · exact Nat.le_succ _
    · exact Nat.mul_le_mul_right _ (by omega)

/-- The value of bits without a sign. -/
def unsigned (bits : Nat) : ℚ :=
  (units bits : ℚ) / 2 ^ 149

theorem unsigned_nonneg (bits : Nat) : 0 ≤ unsigned bits :=
  div_nonneg (Nat.cast_nonneg _) (pow_nonneg (by decide) 149)

theorem unsigned_le_unsigned {bits other : Nat} (le : bits ≤ other) :
    unsigned bits ≤ unsigned other :=
  div_le_div_of_nonneg_right (by exact_mod_cast monotone_units le) (pow_nonneg (by decide) 149)

theorem value?_decode {bits : Nat} {x : ℚ} (given : (decode 23 8 bits).2.value? = some x) :
    x = unsigned (bits % 2 ^ 31) := by
  have field : bits % 2 ^ 31 % 2 ^ 23 = bits % 2 ^ 23 := by omega
  have biased : bits % 2 ^ 31 / 2 ^ 23 = bits / 2 ^ 23 % 2 ^ 8 := by omega
  have powers : power 2 (23 : Nat) = 2 ^ 23 ∧ power 2 (8 : Nat) = 2 ^ 8 ∧
      power 2 ((8 : Nat) - 1) = 2 ^ 7 := by decide
  unfold unsigned units
  rw [field, biased]
  simp only [decode, powers] at given
  generalize bits % 2 ^ 23 = field at given
  generalize bits / 2 ^ 23 % 2 ^ 8 = biased at given
  have unit (e : Nat) : (2 : ℚ) ^ ((e : ℤ) - 149) = 2 ^ e / 2 ^ 149 := by
    rw [zpow_sub₀ two_ne_zero]
    rfl
  split at given
  · split at given <;> cases given
  · split at given
    · rename_i low
      rw [if_pos low]
      split at given
      · rename_i none
        obtain rfl := Option.some.inj given
        simp [none]
      · obtain rfl := Option.some.inj given
        have exponent : (1 : ℤ) - ((2 ^ 7 : Nat) - 1) - (23 : Nat) = (0 : Nat) - 149 := by decide
        rw [exponent, unit, pow_zero, mul_one_div]
    · rename_i high
      obtain rfl := Option.some.inj given
      rw [if_neg high]
      have exponent : (biased : ℤ) - ((2 ^ 7 : Nat) - 1) - (23 : Nat) =
          (biased - 1 : Nat) - 149 := by
        omega
      rw [exponent, unit]
      push_cast
      rw [mul_div_assoc]

theorem rational?_eq_some {x : Float32} {a : ℚ} (given : rational? x = some a) :
    a = if x.toBits.toNat < 0x80000000 then unsigned (x.toBits.toNat % 2 ^ 31)
      else -unsigned (x.toBits.toNat % 2 ^ 31) := by
  obtain ⟨value, known, signed⟩ := Option.map_eq_some_iff.1 given
  have bound := x.toBits.toNat_lt
  have sign : (decode32 x).1 = !decide (x.toBits.toNat < 0x80000000) := by
    have power : power 2 ((23 : Nat) + (8 : Nat)) = 2 ^ 31 := by decide
    simp only [decode32, decode, power]
    rw [← decide_not, decide_eq_decide]
    omega
  rw [← signed, sign, value?_decode known]
  by_cases plus : x.toBits.toNat < 0x80000000 <;> simp [plus]

/-- Numbers that are sorted are sorted by their values. -/
theorem rational?_le {x y : Float32} (le : orderKey x ≤ orderKey y) {a b : ℚ}
    (first : rational? x = some a) (second : rational? y = some b) : a ≤ b := by
  have bound := x.toBits.toNat_lt
  have other := y.toBits.toNat_lt
  rw [rational?_eq_some first, rational?_eq_some second]
  simp only [orderKey] at le
  split at le
  · split at le
    · rename_i plus positive
      rw [if_pos plus, if_pos positive]
      exact unsigned_le_unsigned (by omega)
    · omega
  · split at le
    · rename_i minus positive
      rw [if_neg minus, if_pos positive]
      exact (neg_nonpos.2 (unsigned_nonneg _)).trans (unsigned_nonneg _)
    · rename_i minus negative
      rw [if_neg minus, if_neg negative]
      exact neg_le_neg (unsigned_le_unsigned (by omega))

end Decimal

end GlslMaterial
