import GlslMaterial.Decimal.Shortest

/-! Single precision: 64-bit numbers rounded to the nearest 32-bit number. -/

set_option autoImplicit false

namespace GlslMaterial.Decimal

/-- Quotient rounded to the nearest integer, a half to the even one. -/
def roundDiv (n d : Nat) : Nat :=
  let q := n / d
  let twice := 2 * (n % d)
  if twice < d then q
  else if d < twice then q + 1
  else q + q % 2

/-- The 32-bit pattern nearest to `mantissa * 2 ^ exponent`, without its sign. The mantissa is cut
to 24 bits, or to fewer where the exponent would be below that of the least 32-bit number; a
carry out of the mantissa moves into the exponent, and from the greatest one into infinity. -/
def nearestBits32 (b : Binary) : Nat :=
  let width : Int := Nat.log2 b.mantissa + 1
  let target : Int := max (b.exponent + width - 24) (-149)
  let shift := target - b.exponent
  let cut := if 0 ≤ shift then roundDiv b.mantissa (power 2 shift)
    else b.mantissa * power 2 (-shift)
  let bits := (target + 149).toNat * power 2 23 + cut
  min bits 0x7F800000

def single (x : Float) : Float32 :=
  let sign := fun negative : Bool => if negative then 0x80000000 else 0
  let bits := match decode64 x with
    | (negative, .zero) => sign negative
    | (negative, .finite b) => sign negative + nearestBits32 b
    | (negative, .infinite) => sign negative + 0x7F800000
    | (_, .undefined) => 0x7FC00000
  Float32.ofBits (UInt32.ofNat bits)

end GlslMaterial.Decimal
