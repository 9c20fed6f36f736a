import GlslMaterial.Decimal.Whole
import GlslMaterial.Descriptor.Reader
import GlslMaterial.Failure
import GlslMaterial.Glsl.Literal
import GlslMaterial.Text.Lines
import GlslMaterial.Text.Replace

/-!
Fractal nodes: an expression summed over octaves, with weights that decay geometrically.
-/

set_option autoImplicit false

namespace GlslMaterial

structure Fractal where
  octaves : Nat
  /-- Octave `i` has the weight `base ^ (i + 1)`. -/
  base : Float
  /-- The octave's expression in `point`, with placeholders for its weight and its index. -/
  code : String
  output : TraitId
deriving Inhabited

namespace Fractal

/-- Powers by repeated squaring, collected in `result`. -/
def powerFrom (result x : Float) (n : Nat) : Float :=
  let result := if n % 2 = 1 then result * x else result
  if n / 2 = 0 then result else powerFrom result (x * x) (n / 2)
termination_by n
decreasing_by omega

def power (x : Float) (n : Nat) : Float :=
  powerFrom 1 x n

def weight (f : Fractal) (octave : Nat) : Float :=
  power f.base (octave + 1)

def weights (f : Fractal) : List Float :=
  (List.range f.octaves).map f.weight

def defaultCode : String :=
  "$WEIGHT * SimplexNoise2D(point)"

/-- A whole number of octaves, at least one, that has at most 32 bits. -/
def octavesOf (c : Construct) : Except Failure Nat :=
  let count := (c.traitFloat? .count).getD 4
  match Decimal.natural? count with
  | some n => if 0 < n && n < UInt32.size then .ok n else .error (.misuse (.invalidOctaves count))
  | none => .error (.misuse (.invalidOctaves count))

def baseOf (c : Construct) : Except Failure Float :=
  let base := (c.traitFloat? .mass).getD 0.5
  if base == 0 || !base.isFinite then .error (.misuse (.zeroWeight base)) else .ok base

def outputOf (c : Construct) : Except Failure TraitId :=
  match c.traitValue? .output with
  | none => .ok .color
  | some value =>
    (Descriptor.wordOfJson (TraitId.all.map TraitId.label) TraitId.ofLabel? value).mapError
      fun reason => .misuse (.invalidOutput reason)

def ofConstruct (c : Construct) : Except Failure Fractal := do
  let octaves ← octavesOf c
  let base ← baseOf c
  let exposed ← outputOf c
  return ⟨octaves, base, (c.traitString? .code).getD defaultCode, exposed⟩

/-- Turns the plane between octaves. -/
def rotation : String :=
  "    point = mat2(1.6, 1.2, -1.2, 1.6) * point;"

/-- The expression of one octave. -/
def octaveCode (f : Fractal) (octave : Nat) : String :=
  let weighted := Text.replaceAll "$WEIGHT".toList (Glsl.float64 (f.weight octave)).toList
    f.code.toList
  String.ofList (Text.replaceAll "$INDEX".toList (Decimal.digitText octave) weighted)

/-- The statements of one octave; all but the first turn the plane first. -/
def octaveLines (f : Fractal) (octave : Nat) : List String :=
  let sum := s!"    total += {f.octaveCode octave};"
  if octave = 0 then [sum] else [rotation, sum]

/-- The function that sums all octaves. -/
def function (f : Fractal) (name : String) : String :=
  Text.block <|
    [s!"float {name}(in vec2 point) \x7b", "    float total = 0.0;"] ++
    (List.range f.octaves).flatMap f.octaveLines ++
    ["    return total;", "\x7d"]

end Fractal

end GlslMaterial
