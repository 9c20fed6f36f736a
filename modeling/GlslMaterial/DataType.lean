/-! Data types of shading values, and the shapes of those that are GLSL numbers. -/

set_option autoImplicit false

namespace GlslMaterial

/-- Component family of scalars, vectors and matrices. -/
inductive Family where
  | bool
  | int
  | uint
  | float
  | double
deriving DecidableEq, Repr, Inhabited

def Family.label : Family → String
  | .bool => "Bool"
  | .int => "Int"
  | .uint => "UInt"
  | .float => "Float"
  | .double => "Double"

inductive DataType where
  | bool
  | int
  | uint
  | float
  | double
  | vec2
  | vec3
  | vec4
  | dvec2
  | dvec3
  | dvec4
  | ivec2
  | ivec3
  | ivec4
  | uvec2
  | uvec3
  | uvec4
  | mat2
  | mat3
  | mat4
  | dmat2
  | dmat3
  | dmat4
  | quat
  | rgb
  | rgba
  | sampler2D
  | text
deriving DecidableEq, Repr, Inhabited

namespace DataType

def all : List DataType :=
  [bool, int, uint, float, double, vec2, vec3, vec4, dvec2, dvec3, dvec4, ivec2, ivec3, ivec4,
    uvec2, uvec3, uvec4, mat2, mat3, mat4, dmat2, dmat3, dmat4, quat, rgb, rgba, sampler2D, text]

/-- The word for a type in descriptors. -/
def word : DataType → String
  | bool => "bool"
  | int => "int"
  | uint => "uint"
  | float => "float"
  | double => "double"
  | vec2 => "vec2"
  | vec3 => "vec3"
  | vec4 => "vec4"
  | dvec2 => "dvec2"
  | dvec3 => "dvec3"
  | dvec4 => "dvec4"
  | ivec2 => "ivec2"
  | ivec3 => "ivec3"
  | ivec4 => "ivec4"
  | uvec2 => "uvec2"
  | uvec3 => "uvec3"
  | uvec4 => "uvec4"
  | mat2 => "mat2"
  | mat3 => "mat3"
  | mat4 => "mat4"
  | dmat2 => "dmat2"
  | dmat3 => "dmat3"
  | dmat4 => "dmat4"
  | quat => "quat"
  | rgb => "rgb"
  | rgba => "rgba"
  | sampler2D => "sampler2d"
  | text => "text"

def ofWord? (word : String) : Option DataType :=
  all.find? fun type => type.word == word

/-- The name of a type in messages. -/
def label : DataType → String
  | bool => "Bool"
  | int => "Int"
  | uint => "UInt"
  | float => "Float"
  | double => "Double"
  | vec2 => "Vec2"
  | vec3 => "Vec3"
  | vec4 => "Vec4"
  | dvec2 => "DVec2"
  | dvec3 => "DVec3"
  | dvec4 => "DVec4"
  | ivec2 => "IVec2"
  | ivec3 => "IVec3"
  | ivec4 => "IVec4"
  | uvec2 => "UVec2"
  | uvec3 => "UVec3"
  | uvec4 => "UVec4"
  | mat2 => "Mat2"
  | mat3 => "Mat3"
  | mat4 => "Mat4"
  | dmat2 => "DMat2"
  | dmat3 => "DMat3"
  | dmat4 => "DMat4"
  | quat => "Quat"
  | rgb => "Rgb"
  | rgba => "Rgba"
  | sampler2D => "Sampler2D"
  | text => "Text"

def glsl? : DataType → Option String
  | quat | rgb | rgba | text => none
  | sampler2D => some "sampler2D"
  | type => some type.word

/-- Family and component count of scalars and vectors. -/
def vectorShape? : DataType → Option (Family × Nat)
  | bool => some (.bool, 1)
  | int => some (.int, 1)
  | uint => some (.uint, 1)
  | float => some (.float, 1)
  | double => some (.double, 1)
  | vec2 => some (.float, 2)
  | vec3 => some (.float, 3)
  | vec4 => some (.float, 4)
  | dvec2 => some (.double, 2)
  | dvec3 => some (.double, 3)
  | dvec4 => some (.double, 4)
  | ivec2 => some (.int, 2)
  | ivec3 => some (.int, 3)
  | ivec4 => some (.int, 4)
  | uvec2 => some (.uint, 2)
  | uvec3 => some (.uint, 3)
  | uvec4 => some (.uint, 4)
  | _ => none

/-- Family and dimension of square matrices. -/
def matrixShape? : DataType → Option (Family × Nat)
  | mat2 => some (.float, 2)
  | mat3 => some (.float, 3)
  | mat4 => some (.float, 4)
  | dmat2 => some (.double, 2)
  | dmat3 => some (.double, 3)
  | dmat4 => some (.double, 4)
  | _ => none

/-- The scalar or vector type of a shape. -/
def vector? (family : Family) (count : Nat) : Option DataType :=
  all.find? fun type => type.vectorShape? == some (family, count)

def matrix? (family : Family) (dimension : Nat) : Option DataType :=
  all.find? fun type => type.matrixShape? == some (family, dimension)

def isMatrix (type : DataType) : Bool :=
  type.matrixShape?.isSome

def isTexture (type : DataType) : Bool :=
  type == sampler2D

/-- Component count of scalars and vectors, and 0 for all else. -/
def width (type : DataType) : Nat :=
  match type.vectorShape? with
  | some (_, count) => count
  | none => 0

/-- The nearest type that may cross a stage boundary or stand in a uniform block. Booleans and
integers become floats of the same width, quaternions and colours become vectors. -/
def decay? : DataType → Option DataType
  | bool | int | uint => some float
  | ivec2 | uvec2 => some vec2
  | ivec3 | uvec3 => some vec3
  | ivec4 | uvec4 => some vec4
  | quat | rgba => some vec4
  | rgb => some vec3
  | text => none
  | type => some type

end DataType

end GlslMaterial
