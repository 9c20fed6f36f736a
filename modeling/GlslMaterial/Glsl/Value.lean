import GlslMaterial.Decimal.Whole
import GlslMaterial.Glsl.Literal
import GlslMaterial.Typing

/-!
Descriptor values as GLSL literals. A number is a scalar, or every component of a larger type; an
array holds the components of a vector or of a matrix. Without a type to go by, the type follows
from the number of components.
-/

set_option autoImplicit false

namespace GlslMaterial.Glsl

/-- A number as a literal of the given type. -/
def ofNumber (x : Float) (type : DataType) : Except Failure String := do
  match type with
  | .int => return toString (Decimal.truncate Int64.minValue.toInt Int64.maxValue.toInt x)
  | .uint =>
    let value := Decimal.truncate 0 (UInt64.size - 1) x
    return s!"{value}u"
  | .bool => return (if x == 0 then "false" else "true")
  | .double => return float64 x ++ "lf"
  | .float => return float64 x
  | other => return call (← (← other.decayed).spelling) [float64 x]

/-- The type of an array literal by the number of its components. -/
def typeOfWidth (count : Nat) : Except Failure DataType :=
  match count with
  | 1 => .ok .float
  | 2 => .ok .vec2
  | 3 => .ok .vec3
  | 4 => .ok .vec4
  | 9 => .ok .mat3
  | 16 => .ok .mat4
  | _ => .error (.misuse (.noTypeOfWidth count))

/-- How many components a literal of a type has. -/
def componentCount (type : DataType) : Except Failure Nat :=
  match type.vectorShape?, type.matrixShape? with
  | some (_, count), _ => .ok count
  | _, some (_, dimension) => .ok (dimension * dimension)
  | _, _ => .error (.misuse (.noLiteral type))

def component (item : Json) : Except Failure Float :=
  match item.toFloat? with
  | some x => .ok x
  | none => .error (.misuse (.nonNumericComponent item))

/-- Components as a literal of the given type. -/
def ofComponents (values : List Float) (type : DataType) : Except Failure String := do
  let expected ← componentCount type
  if values.length ≠ expected then
    throw (.misuse (.literalWidth type expected values.length))
  match values with
  | [x] => return float64 x
  | _ => return call (← type.spelling) (values.map float64)

/-- A descriptor value as a literal, of the given type where there is one. -/
def ofJson (value : Json) (type : Option DataType) : Except Failure Expression := do
  match value with
  | .bool b => return ⟨if b then "true" else "false", .bool⟩
  | .number n =>
    let type := type.getD .float
    return ⟨← ofNumber n.toFloat type, type⟩
  | .array items =>
    let values ← items.mapM component
    let type ← match type with
      | some type => type.decayed
      | none => typeOfWidth values.length
    return ⟨← ofComponents values type, type⟩
  | other => throw (.misuse (.notALiteral other))

end GlslMaterial.Glsl
