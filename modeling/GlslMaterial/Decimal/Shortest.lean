/-!
Shortest decimals: the fewest digits that read back as a given binary number.

A binary number stands for every real that rounds to it. Among the decimals in that interval, the
one with the fewest digits is taken; of two with equally few, the one nearer to the number.
-/

set_option autoImplicit false

namespace GlslMaterial.Decimal

/-- A positive binary number `mantissa * 2 ^ exponent`. `narrow` marks the least mantissa of its
exponent, whose lower neighbour is only half as far away as its upper one. -/
structure Binary where
  mantissa : Nat
  exponent : Int
  narrow : Bool
deriving DecidableEq, Repr

/-- The decimal number `digits * 10 ^ exponent`. -/
structure Scaled where
  digits : Nat
  exponent : Int
deriving DecidableEq, Repr

/-- Which of two equally near decimals is taken. -/
inductive Tie where
  | up
  | even
deriving DecidableEq, Repr

/-- The non-negative part of an exponent as a power. -/
def power (base : Nat) (exponent : Int) : Nat :=
  base.pow exponent.toNat

/-- Number of decimal digits; zero has one. -/
def digitCount (n : Nat) : Nat :=
  (Nat.toDigits 10 n).length

/-- The interval of reals that round to a binary number, over a common denominator: the number
itself, its lower end and its upper end are `value`, `lower` and `upper` over `unit`. -/
structure Interval where
  value : Nat
  lower : Nat
  upper : Nat
  unit : Nat
  closed : Bool
deriving DecidableEq, Repr

/-- The ends belong to the interval when the mantissa is even. -/
def Binary.interval (b : Binary) : Interval :=
  let scale := power 2 (b.exponent - 2)
  { value := 4 * b.mantissa * scale
    lower := (4 * b.mantissa - (if b.narrow then 1 else 2)) * scale
    upper := (4 * b.mantissa + 2) * scale
    unit := power 2 (2 - b.exponent)
    closed := b.mantissa % 2 = 0 }

/-- Whether `digits * 10 ^ exponent` lies in the interval. -/
def Interval.holds (i : Interval) (digits : Nat) (exponent : Int) : Bool :=
  let point := digits * power 10 exponent * i.unit
  let down := power 10 (-exponent)
  if i.closed then i.lower * down ≤ point && point ≤ i.upper * down
  else i.lower * down < point && point < i.upper * down

/-- The number of whole steps of `10 ^ exponent` in the value, and the remainder over the step. -/
def Interval.steps (i : Interval) (exponent : Int) : Nat × Nat × Nat :=
  let step := power 10 exponent * i.unit
  let value := i.value * power 10 (-exponent)
  (value / step, value % step, step)

/-- The nearer of the value's two neighbours on the grid of `10 ^ exponent` that lies in the
interval. -/
def Interval.onGrid (i : Interval) (tie : Tie) (exponent : Int) : Option Nat :=
  let (below, rest, step) := i.steps exponent
  let above := below + 1
  match i.holds below exponent, i.holds above exponent with
  | false, false => none
  | true, false => some below
  | false, true => some above
  | true, true =>
    if 2 * rest < step then some below
    else if step < 2 * rest then some above
    else match tie with
      | .up => some above
      | .even => some (if below % 2 = 0 then below else above)

/-- Tries finer and finer grids, `fuel` of them at most. -/
def Interval.search (i : Interval) (tie : Tie) : Nat → Int → Scaled
  | 0, exponent => ⟨(i.steps exponent).1, exponent⟩
  | fuel + 1, exponent =>
    match i.onGrid tie exponent with
    | some digits => ⟨digits, exponent⟩
    | none => i.search tie fuel (exponent - 1)

/-- The exponent of the value's leading digit. -/
def Interval.leadingExponent (i : Interval) (binaryExponent : Int) : Int :=
  let lift := (-binaryExponent).toNat
  (digitCount (i.value * power 10 lift / i.unit) : Int) - 1 - lift

/-- Moves trailing zeros of the digits into the exponent. -/
def stripZeros : Nat → Scaled → Scaled
  | 0, d => d
  | fuel + 1, d =>
    if d.digits % 10 = 0 && d.digits != 0 then
      stripZeros fuel ⟨d.digits / 10, d.exponent + 1⟩
    else d

/-- The shortest decimal that reads back as `b`. Seventeen digits suffice for 64-bit numbers. -/
def Binary.shortest (tie : Tie) (b : Binary) : Scaled :=
  let i := b.interval
  stripZeros 20 (i.search tie 18 (i.leadingExponent b.exponent))

/-- A number of a binary format: its sign and, unless it is zero or not finite, its magnitude. -/
inductive Magnitude where
  | zero
  | finite (value : Binary)
  | infinite
  | undefined
deriving DecidableEq, Repr

/-- Reads the fields of an IEEE binary format with `mantissaBits` stored mantissa bits and the
given exponent width. -/
def decode (mantissaBits exponentBits bits : Nat) : Bool × Magnitude :=
  let field := bits % power 2 mantissaBits
  let biased := bits / power 2 mantissaBits % power 2 exponentBits
  let negative := bits / power 2 (mantissaBits + exponentBits) % 2 = 1
  let bias : Int := power 2 (exponentBits - 1) - 1
  let magnitude :=
    if biased = power 2 exponentBits - 1 then
      if field = 0 then .infinite else .undefined
    else if biased = 0 then
      if field = 0 then .zero else .finite ⟨field, 1 - bias - mantissaBits, false⟩
    else
      .finite ⟨power 2 mantissaBits + field, biased - bias - mantissaBits, field = 0 && 1 < biased⟩
  (negative, magnitude)

def decode64 (x : Float) : Bool × Magnitude :=
  decode 52 11 x.toBits.toNat

def decode32 (x : Float32) : Bool × Magnitude :=
  decode 23 8 x.toBits.toNat

end GlslMaterial.Decimal
