import GlslMaterial.Descriptor.Vector
import GlslMaterial.Glsl.Literal
import GlslMaterial.Sorted
import GlslMaterial.Text.Lines

/-!
Transform nodes: keyframes that move, scale and rotate. What does not change between keyframes
becomes a constant; only what changes is looked up by time.
-/

set_option autoImplicit false

namespace GlslMaterial

/-- A cubic interpolator runs smoothly through the neighbouring keyframes. -/
inductive Interpolator where
  | linear
  | cubic
deriving DecidableEq, Repr, Inhabited

namespace Interpolator

def label : Interpolator → String
  | linear => "Linear"
  | cubic => "Cubic"

def code : Interpolator → String
  | linear => "0"
  | cubic => "1"

def ofConstruct (c : Construct) : Except Failure Interpolator :=
  match c.traitString? .interpolator with
  | none | some "Linear" => .ok .linear
  | some "Cubic" => .ok .cubic
  | some other => .error (.misuse (.unknownInterpolator other))

end Interpolator

structure Keyframe where
  time : Float32
  position : Vec3
  scale : Vec3
  rotation : Quaternion
  interpolator : Interpolator
deriving DecidableEq, Inhabited

namespace Keyframe

/-- Rotations are given by three angles in degrees. -/
def ofConstruct (c : Construct) : Except Failure Keyframe := do
  let angles ← c.traitVec3 .rotation .zero
  let position ← c.traitVec3 .position .zero
  let scale ← c.traitVec3 .scale (.splat 1)
  let interpolator ← Interpolator.ofConstruct c
  return {
    time := Decimal.single ((c.traitFloat? .time).getD 0)
    position
    scale
    rotation := .ofEuler (angles.scaled degree)
    interpolator }

def matrix (k : Keyframe) : Mat4 :=
  .compose k.scale k.rotation k.position

end Keyframe

/-- Which parts of the keyframes change. -/
structure Changes where
  position : Bool
  scale : Bool
  rotation : Bool
deriving DecidableEq, Repr, Inhabited

def Changes.any (c : Changes) : Bool :=
  c.position || c.scale || c.rotation

/-- What a transform comes down to. -/
inductive TransformPlan where
  | identity
  | constant (matrix : Mat4)
  | animated (changes : Changes)
deriving Inhabited

/-- The keyframes are sorted by time. -/
structure Transform where
  keyframes : List Keyframe
deriving DecidableEq, Inhabited

namespace Transform

/-- Differences up to this size do not count as a change. -/
def tolerance : Float32 :=
  1e-6

/-- Whether the node's own traits are a keyframe too. -/
def hasOwnKeyframe (c : Construct) : Bool :=
  [TraitId.position, .scale, .rotation].any fun id => (c.findTrait? id).isSome

def ownKeyframe (c : Construct) : Except Failure (List Keyframe) :=
  if hasOwnKeyframe c then (Keyframe.ofConstruct c).map ([·]) else .ok []

/-- Keyframes below a construct, numbered from `first` in messages. -/
def childKeyframes (first : Nat) : List Construct → Except Failure (List Keyframe)
  | [] => .ok []
  | child :: rest => do
    let keyframe ← withContext (.keyframe first) (Keyframe.ofConstruct child)
    return keyframe :: (← childKeyframes (first + 1) rest)

def sortKeyframes (keyframes : List Keyframe) : List Keyframe :=
  sortBy (fun keyframe => orderKey keyframe.time) keyframes

def uniformInterpolator : List Keyframe → Bool
  | [] => true
  | first :: rest => rest.all fun k => k.interpolator = first.interpolator

def ofConstruct (c : Construct) : Except Failure Transform := do
  let own ← ownKeyframe c
  let children ← childKeyframes 0 (c.childrenOfKind .keyframe)
  let keyframes := sortKeyframes (own ++ children)
  if uniformInterpolator keyframes then return ⟨keyframes⟩
  throw (.unsupported .mixedInterpolators)

def sameRotation (a b : Quaternion) : Bool :=
  !((a.dot b).abs < 1 - tolerance)

/-- What differs from the first keyframe in any other. -/
def changes (t : Transform) : Changes :=
  match t.keyframes with
  | [] => ⟨false, false, false⟩
  | first :: rest =>
    { position := rest.any fun k => !k.position.near tolerance first.position
      scale := rest.any fun k => !k.scale.near tolerance first.scale
      rotation := rest.any fun k => !sameRotation k.rotation first.rotation }

def plan (t : Transform) : TransformPlan :=
  match t.keyframes with
  | [] => .identity
  | first :: _ => if t.changes.any then .animated t.changes else .constant first.matrix

def catmullRom : String :=
  Text.block
    ["vec4 CatmullRom(in vec4 p0, in vec4 p1, in vec4 p2, in vec4 p3, in float t) \x7b",
     "    float t2 = t * t;",
     "    float t3 = t2 * t;",
     "    return 0.5 * ((2.0 * p1) + (-p0 + p2) * t + " ++
       "(2.0 * p0 - 5.0 * p1 + 4.0 * p2 - p3) * t2 + (-p0 + 3.0 * p1 - 3.0 * p2 + p3) * t3);",
     "\x7d"]

def quaternionBlend : String :=
  Text.block
    ["vec4 QuaternionBlend(in vec4 a, in vec4 b, in float t) \x7b",
     "    if (dot(a, b) < 0.0) b = -b;",
     "    return normalize(mix(a, b, t));",
     "\x7d"]

def composeModel : String :=
  Text.block
    ["mat4 ComposeModel(in vec3 position, in vec3 scale, in vec4 rotation) \x7b",
     "    vec4 q = normalize(rotation);",
     "    float xx = q.x * q.x;",
     "    float yy = q.y * q.y;",
     "    float zz = q.z * q.z;",
     "    float xy = q.x * q.y;",
     "    float xz = q.x * q.z;",
     "    float yz = q.y * q.z;",
     "    float wx = q.w * q.x;",
     "    float wy = q.w * q.y;",
     "    float wz = q.w * q.z;",
     "    return mat4(",
     "        vec4((1.0 - 2.0 * (yy + zz)) * scale.x, 2.0 * (xy + wz) * scale.x, " ++
       "2.0 * (xz - wy) * scale.x, 0.0),",
     "        vec4(2.0 * (xy - wz) * scale.y, (1.0 - 2.0 * (xx + zz)) * scale.y, " ++
       "2.0 * (yz + wx) * scale.y, 0.0),",
     "        vec4(2.0 * (xz + wy) * scale.z, 2.0 * (yz - wx) * scale.z, " ++
       "(1.0 - 2.0 * (xx + yy)) * scale.z, 0.0),",
     "        vec4(position, 1.0));",
     "\x7d"]

/-- One part of the keyframes in GLSL: its definition, and its value between two keyframes. -/
structure Channel where
  definition : String
  blend : String

/-- A channel that is the same in all keyframes. -/
def constantChannel (n : Nat) (label type : String) (values : List String) : Channel :=
  let name := s!"Keyframe{label}{n}"
  let value := values.headD ""
  ⟨s!"const {type} {name} = {value};", name⟩

/-- A position or scale that changes. -/
def vectorChannel (n : Nat) (label : String) (values : List String) : Channel :=
  let name := s!"Keyframe{label}s{n}"
  let padded := fun (index : String) => s!"vec4({name}[{index}], 0.0)"
  let cubic := Glsl.call "CatmullRom"
    [padded "previous", padded "index", padded "next", padded "after", "t"]
  ⟨Glsl.constantArray "vec3" name values,
    s!"cubic ? {cubic}.xyz : mix({name}[index], {name}[next], t)"⟩

def rotationChannel (n : Nat) (values : List String) : Channel :=
  let name := s!"KeyframeRotations{n}"
  ⟨Glsl.constantArray "vec4" name values, s!"QuaternionBlend({name}[index], {name}[next], t)"⟩

def positionOrScale (n : Nat) (label : String) (changes : Bool) (values : List String) : Channel :=
  if changes then vectorChannel n label values else constantChannel n label "vec3" values

def rotationOf (n : Nat) (changes : Bool) (values : List String) : Channel :=
  if changes then rotationChannel n values else constantChannel n "Rotation" "vec4" values

/-- The function for the matrix a fraction `t` behind keyframe `index`. -/
def interpolateFunction (n last : Nat) (position scale rotation : Channel) : String :=
  Text.block
    [s!"mat4 InterpolateKeyframes{n}(in int index, in float t) \x7b",
     "    int previous = max(index - 1, 0);",
     s!"    int next = min(index + 1, {last});",
     s!"    int after = min(index + 2, {last});",
     s!"    bool cubic = KeyframeInterpolators{n}[index] == 1;",
     s!"    vec3 position = {position.blend};",
     s!"    vec3 scale = {scale.blend};",
     s!"    vec4 rotation = {rotation.blend};",
     "    return ComposeModel(position, scale, rotation);",
     "\x7d"]

/-- The function for the matrix at a time. -/
def animateFunction (n last : Nat) (firstTime lastTime : Float32) : String :=
  let interpolate := s!"InterpolateKeyframes{n}"
  let times := s!"KeyframeTimes{n}"
  Text.block
    [s!"mat4 Animate{n}(in float time) \x7b",
     s!"    if (time <= {Glsl.float32 firstTime}) return {interpolate}(0, 0.0);",
     s!"    if (time >= {Glsl.float32 lastTime}) return {interpolate}({last}, 0.0);",
     s!"    for (int i = 0; i < {last}; i++) \x7b",
     s!"        if (time < {times}[i + 1]) \x7b",
     s!"            float t = (time - {times}[i]) / ({times}[i + 1] - {times}[i]);",
     s!"            return {interpolate}(i, t);",
     "        \x7d",
     "    \x7d",
     s!"    return {interpolate}({last}, 0.0);",
     "\x7d"]

/-- Names and bodies of what an animation declares, in order. -/
def animatedFunctions (n : Nat) (keys : List Keyframe) (changes : Changes) :
    List (String × String) :=
  let last := keys.length - 1
  let times := keys.map Keyframe.time
  let position := positionOrScale n "Position" changes.position
    (keys.map fun k => Glsl.vec3 k.position)
  let scale := positionOrScale n "Scale" changes.scale (keys.map fun k => Glsl.vec3 k.scale)
  let rotation := rotationOf n changes.rotation (keys.map fun k => Glsl.quaternion k.rotation)
  let timesName := s!"KeyframeTimes{n}"
  let interpolatorsName := s!"KeyframeInterpolators{n}"
  [(timesName, Glsl.constantArray "float" timesName (times.map Glsl.float32)),
    (interpolatorsName, Glsl.constantArray "int" interpolatorsName
      (keys.map fun k => k.interpolator.code)),
    (s!"KeyframePosition{n}", position.definition),
    (s!"KeyframeScale{n}", scale.definition),
    (s!"KeyframeRotation{n}", rotation.definition),
    ("CatmullRom", catmullRom)] ++
  (if changes.rotation then [("QuaternionBlend", quaternionBlend)] else []) ++
  [("ComposeModel", composeModel),
    (s!"InterpolateKeyframes{n}", interpolateFunction n last position scale rotation),
    (s!"Animate{n}", animateFunction n last (times.headD 0) (times.getLastD 0))]

/-- Names and bodies of what a transform declares, in order. -/
def functions (n : Nat) (t : Transform) : List (String × String) :=
  match t.plan with
  | .identity =>
    let name := s!"Transform{n}"
    [(name, Text.block [s!"vec4 {name}(in vec4 point) \x7b", "    return point;", "\x7d"])]
  | .constant matrix =>
    let name := s!"Model{n}"
    [(name, s!"const mat4 {name} = {Glsl.mat4 matrix};")]
  | .animated changes => animatedFunctions n t.keyframes changes

end Transform

end GlslMaterial
