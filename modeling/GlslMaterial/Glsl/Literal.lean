import GlslMaterial.Decimal.Written
import GlslMaterial.Glsl.Expression
import GlslMaterial.Space

/-! GLSL literals: constant values as GLSL code. -/

set_option autoImplicit false

namespace GlslMaterial

namespace Glsl

/-- The text of a floating point literal always has a point. What GLSL cannot write is zero. -/
def floatText : Bool × Decimal.Magnitude → List Char
  | (_, .infinite) | (_, .undefined) => ['0', '.', '0']
  | number => Decimal.withPoint (Decimal.plainText number)

def float64 (x : Float) : String :=
  String.ofList (floatText (Decimal.decode64 x))

def float32 (x : Float32) : String :=
  String.ofList (floatText (Decimal.decode32 x))

def components (type : String) (values : List Float32) : String :=
  call type (values.map float32)

def vec2 (v : Vec2) : String :=
  components "vec2" v.toList

def vec3 (v : Vec3) : String :=
  components "vec3" v.toList

/-- Quaternions are vectors in GLSL, with the real part last. -/
def quaternion (q : Quaternion) : String :=
  components "vec4" q.toList

def mat4 (m : Mat4) : String :=
  components "mat4" m.toList

def constantArray (type name : String) (items : List String) : String :=
  let count := items.length
  let value := call s!"{type}[{count}]" items
  s!"const {type} {name}[{count}] = {value};"

end Glsl

/-- A value that can stand in GLSL code. -/
inductive Literal where
  | float (value : Float32)
  | double (value : Float)
  | int (value : Int32)
  | uint (value : UInt32)
  | bool (value : Bool)
  | code (text : String)
  | vec2 (value : Vec2)
  | vec3 (value : Vec3)
  | vec4 (value : Vec4)
  | quaternion (value : Quaternion)
  | mat2 (value : Mat2)
  | mat3 (value : Mat3)
  | mat4 (value : Mat4)

namespace Literal

/-- The GLSL type of a literal; a piece of code has none. -/
def typeName : Literal → String
  | float _ => "float"
  | double _ => "double"
  | int _ => "int"
  | uint _ => "uint"
  | bool _ => "bool"
  | code _ => ""
  | vec2 _ => "vec2"
  | vec3 _ => "vec3"
  | vec4 _ | quaternion _ => "vec4"
  | mat2 _ => "mat2"
  | mat3 _ => "mat3"
  | mat4 _ => "mat4"

def text : Literal → String
  | float value => Glsl.float32 value
  | double value => Glsl.float64 value ++ "lf"
  | int value => toString value.toInt
  | uint value => s!"{value.toNat}u"
  | bool value => if value then "true" else "false"
  | code text => text
  | vec2 value => Glsl.vec2 value
  | vec3 value => Glsl.vec3 value
  | vec4 value => Glsl.components "vec4" value.toList
  | quaternion value => Glsl.quaternion value
  | mat2 value => Glsl.components "mat2" value.toList
  | mat3 value => Glsl.components "mat3" value.toList
  | mat4 value => Glsl.mat4 value

end Literal

end GlslMaterial
