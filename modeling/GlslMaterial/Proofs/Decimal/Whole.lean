import GlslMaterial.Decimal.Whole
import Mathlib.Algebra.Order.Field.Rat
import Mathlib.Algebra.Order.Floor.Semifield
import Mathlib.Data.Nat.Cast.Field
import Mathlib.Data.Rat.Floor
import Mathlib.Order.WithBot
import Mathlib.Tactic.Linarith
import Mathlib.Tactic.Ring

/-!
Whole numbers and the rationals that they are taken from. A number stands for a rational, or lies
beyond all of them; a natural number stands for itself, and the integer part of a number lies in a
range exactly if the number lies less than one outside of it.
-/

set_option autoImplicit false

namespace GlslMaterial.Decimal

theorem power_pos {base : Nat} (pos : 0 < base) (exponent : Int) : 0 < power base exponent :=
  Nat.pow_pos pos

namespace Binary

/-- The rational `mantissa * 2 ^ exponent`. -/
def value (b : Binary) : ℚ :=
  b.mantissa * power 2 b.exponent / power 2 (-b.exponent)

theorem value_nonneg (b : Binary) : 0 ≤ b.value :=
  div_nonneg (mul_nonneg (Nat.cast_nonneg _) (Nat.cast_nonneg _)) (Nat.cast_nonneg _)

theorem floor_value (b : Binary) : ⌊b.value⌋ = (b.whole : Int) := by
  have floor : ⌊b.value⌋₊ = b.whole := by
    rw [value, whole, ← Nat.cast_mul, Nat.floor_div_eq_div]
  rw [← floor, Int.natCast_floor_eq_floor b.value_nonneg]

theorem value_of_isWhole {b : Binary} (whole : b.isWhole = true) : b.value = b.whole := by
  have divides : power 2 (-b.exponent) ∣ b.mantissa * power 2 b.exponent :=
    (Nat.dvd_of_mod_eq_zero (of_decide_eq_true whole)).mul_right _
  have pos : (power 2 (-b.exponent) : ℚ) ≠ 0 := by
    exact_mod_cast (power_pos (by decide) (-b.exponent)).ne'
  rw [value, Binary.whole, Nat.cast_div divides pos, Nat.cast_mul]

end Binary

/-- What a number stands for: a rational, or the end of the line. What is not a number counts as
zero. -/
def extended (x : Float) : WithBot (WithTop ℚ) :=
  match decode64 x with
  | (negative, .finite b) => ((if negative then -b.value else b.value : ℚ) : WithTop ℚ)
  | (negative, .infinite) => if negative then ⊥ else (⊤ : WithTop ℚ)
  | _ => ((0 : ℚ) : WithTop ℚ)

theorem extended_of_natural? {x : Float} {n : Nat} (found : natural? x = some n) :
    extended x = ((n : ℚ) : WithTop ℚ) := by
  unfold natural? at found
  unfold extended
  split at found
  · rename_i decoded
    obtain rfl := Option.some.inj found
    rw [decoded]
    rfl
  · rename_i b decoded
    split at found
    · rename_i whole
      obtain rfl := Option.some.inj found
      rw [decoded, ← Binary.value_of_isWhole whole]
      rfl
    · cases found
  · cases found

variable {least greatest : Int}

theorem least_le_truncate (zero : least ≤ 0) (order : least ≤ greatest) (x : Float) :
    least ≤ truncate least greatest x := by
  unfold truncate
  split
  · exact zero
  · exact le_max_left _ _
  · split
    · exact le_refl _
    · exact order
  · exact zero

theorem truncate_le_iff {high : Int} (zero : 0 ≤ high) (low : least ≤ high) (less : high < greatest)
    (x : Float) : truncate least greatest x ≤ high ↔ extended x < ((high + 1 : ℚ) : WithTop ℚ) := by
  have room : (0 : ℚ) < high + 1 := by exact_mod_cast Int.lt_add_one_of_le zero
  unfold truncate extended
  cases decode64 x with
  | mk negative magnitude =>
    cases magnitude with
    | zero | undefined =>
      exact iff_of_true zero (WithBot.coe_lt_coe.2 (WithTop.coe_lt_coe.2 room))
    | infinite =>
      cases negative with
      | false => exact iff_of_false (not_le.2 less) (not_lt.2 (WithBot.coe_le_coe.2 le_top))
      | true => exact iff_of_true low (WithBot.bot_lt_coe _)
    | finite b =>
      have small := b.value_nonneg
      simp only [WithBot.coe_lt_coe, WithTop.coe_lt_coe, max_le_iff, min_le_iff, low, true_and,
        not_le.2 less, false_or]
      cases negative with
      | false => simp [← b.floor_value, Int.floor_le_iff]
      | true =>
        refine iff_of_true ?_ ?_
        · simp only [if_true]
          omega
        · simp only [if_true]
          linarith

theorem le_truncate_iff {low : Int} (zero : low ≤ 0) (high : low ≤ greatest) (less : least < low)
    (x : Float) :
    low ≤ truncate least greatest x ↔
      (((low - 1 : ℚ) : WithTop ℚ) : WithBot (WithTop ℚ)) < extended x := by
  have room : (low - 1 : ℚ) < 0 := by exact_mod_cast Int.sub_one_lt_of_le zero
  unfold truncate extended
  cases decode64 x with
  | mk negative magnitude =>
    cases magnitude with
    | zero | undefined =>
      exact iff_of_true zero (WithBot.coe_lt_coe.2 (WithTop.coe_lt_coe.2 room))
    | infinite =>
      cases negative with
      | false => exact iff_of_true high (WithBot.coe_lt_coe.2 (WithTop.coe_lt_top _))
      | true => exact iff_of_false (not_le.2 less) not_lt_bot
    | finite b =>
      have small := b.value_nonneg
      simp only [WithBot.coe_lt_coe, WithTop.coe_lt_coe, le_max_iff, le_min_iff, high, true_and,
        not_le.2 less, false_or]
      cases negative with
      | false =>
        refine iff_of_true ?_ ?_
        · simp only [Bool.false_eq_true, if_false]
          omega
        · simp only [Bool.false_eq_true, if_false]
          linarith
      | true =>
        have upper : (b.whole : Int) ≤ -low ↔ b.value < -low + 1 := by
          rw [← b.floor_value, Int.floor_le_iff]
          push_cast
          rfl
        simp only [if_true]
        constructor
        · intro inside
          have less := upper.1 (by omega)
          linarith
        · intro inside
          have less := upper.2 (by linarith)
          omega

end GlslMaterial.Decimal
