import GlslMaterial.Decimal.Shortest

/-! Whole numbers: integer parts of 64-bit numbers. -/

set_option autoImplicit false

namespace GlslMaterial.Decimal

/-- Integer part of `mantissa * 2 ^ exponent`. -/
def Binary.whole (b : Binary) : Nat :=
  b.mantissa * power 2 b.exponent / power 2 (-b.exponent)

/-- Whether `mantissa * 2 ^ exponent` is an integer. -/
def Binary.isWhole (b : Binary) : Bool :=
  b.mantissa % power 2 (-b.exponent) = 0

/-- The value of a finite number that is whole and not below zero. -/
def natural? (x : Float) : Option Nat :=
  match decode64 x with
  | (_, .zero) => some 0
  | (false, .finite b) => if b.isWhole then some b.whole else none
  | _ => none

/-- The integer part, or the nearest integer of the range from `least` to `greatest`. What is not a
number counts as zero. -/
def truncate (least greatest : Int) (x : Float) : Int :=
  match decode64 x with
  | (_, .zero) => 0
  | (negative, .finite b) =>
    max least (min greatest (if negative then -(b.whole : Int) else b.whole))
  | (negative, .infinite) => if negative then least else greatest
  | (_, .undefined) => 0

end GlslMaterial.Decimal
