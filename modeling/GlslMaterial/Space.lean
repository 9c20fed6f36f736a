/-! Space: vectors, quaternions and matrices of single precision. -/

set_option autoImplicit false

namespace GlslMaterial

structure Vec2 where
  x : Float32
  y : Float32
deriving DecidableEq, Inhabited

structure Vec3 where
  x : Float32
  y : Float32
  z : Float32
deriving DecidableEq, Inhabited

structure Vec4 where
  x : Float32
  y : Float32
  z : Float32
  w : Float32
deriving DecidableEq, Inhabited

structure Quaternion where
  x : Float32
  y : Float32
  z : Float32
  w : Float32
deriving DecidableEq, Inhabited

/-- Matrices are given by their columns. -/
structure Mat2 where
  x : Vec2
  y : Vec2
deriving DecidableEq, Inhabited

structure Mat3 where
  x : Vec3
  y : Vec3
  z : Vec3
deriving DecidableEq, Inhabited

structure Mat4 where
  x : Vec4
  y : Vec4
  z : Vec4
  w : Vec4
deriving DecidableEq, Inhabited

def Vec2.toList (v : Vec2) : List Float32 :=
  [v.x, v.y]

namespace Vec3

instance : Add Vec3 := ⟨fun a b => ⟨a.x + b.x, a.y + b.y, a.z + b.z⟩⟩

/-- Component by component. -/
instance : Mul Vec3 := ⟨fun a b => ⟨a.x * b.x, a.y * b.y, a.z * b.z⟩⟩

def scaled (v : Vec3) (factor : Float32) : Vec3 :=
  ⟨v.x * factor, v.y * factor, v.z * factor⟩

def splat (value : Float32) : Vec3 :=
  ⟨value, value, value⟩

def zero : Vec3 :=
  splat 0

def toList (v : Vec3) : List Float32 :=
  [v.x, v.y, v.z]

/-- Whether each component differs by at most `tolerance`. -/
def near (tolerance : Float32) (a b : Vec3) : Bool :=
  (a.x - b.x).abs ≤ tolerance && (a.y - b.y).abs ≤ tolerance && (a.z - b.z).abs ≤ tolerance

end Vec3

namespace Vec4

def toList (v : Vec4) : List Float32 :=
  [v.x, v.y, v.z, v.w]

def scaled (v : Vec4) (factor : Float32) : Vec4 :=
  ⟨v.x * factor, v.y * factor, v.z * factor, v.w * factor⟩

end Vec4

namespace Quaternion

def toList (q : Quaternion) : List Float32 :=
  [q.x, q.y, q.z, q.w]

def dot (a b : Quaternion) : Float32 :=
  (a.x * b.x + a.z * b.z) + (a.y * b.y + a.w * b.w)

/-- The rotation by three angles in radians, about the x axis first in the frame that the others
turn. -/
def ofEuler (angles : Vec3) : Quaternion :=
  let ti := angles.x * 0.5
  let tj := -angles.y * 0.5
  let th := angles.z * 0.5
  let (si, ci) := (ti.sin, ti.cos)
  let (sj, cj) := (tj.sin, tj.cos)
  let (sh, ch) := (th.sin, th.cos)
  let cc := ci * ch
  let cs := ci * sh
  let sc := si * ch
  let ss := si * sh
  { x := cj * sc - sj * cs
    y := (cj * ss + sj * cc) * -1
    z := cj * cs - sj * sc
    w := cj * cc + sj * ss }

end Quaternion

def Mat2.toList (m : Mat2) : List Float32 :=
  m.x.toList ++ m.y.toList

def Mat3.toList (m : Mat3) : List Float32 :=
  m.x.toList ++ m.y.toList ++ m.z.toList

namespace Mat4

def toList (m : Mat4) : List Float32 :=
  m.x.toList ++ m.y.toList ++ m.z.toList ++ m.w.toList

/-- The matrix that scales, then rotates, then moves. -/
def compose (scale : Vec3) (rotation : Quaternion) (position : Vec3) : Mat4 :=
  let x2 := rotation.x + rotation.x
  let y2 := rotation.y + rotation.y
  let z2 := rotation.z + rotation.z
  let xx := rotation.x * x2
  let xy := rotation.x * y2
  let xz := rotation.x * z2
  let yy := rotation.y * y2
  let yz := rotation.y * z2
  let zz := rotation.z * z2
  let wx := rotation.w * x2
  let wy := rotation.w * y2
  let wz := rotation.w * z2
  { x := Vec4.scaled ⟨1 - (yy + zz), xy + wz, xz - wy, 0⟩ scale.x
    y := Vec4.scaled ⟨xy - wz, 1 - (xx + zz), yz + wx, 0⟩ scale.y
    z := Vec4.scaled ⟨xz + wy, yz - wx, 1 - (xx + yy), 0⟩ scale.z
    w := ⟨position.x, position.y, position.z, 1⟩ }

end Mat4

/-- One degree in radians. -/
def degree : Float32 :=
  3.14159265358979323846 / 180

/-- Place in the order of all single-precision numbers, in which -0 comes before 0. -/
def orderKey (x : Float32) : Nat :=
  let bits := x.toBits.toNat
  if bits < 0x80000000 then 0x80000000 + bits else 0xFFFFFFFF - bits

end GlslMaterial
