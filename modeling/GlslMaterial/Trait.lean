import GlslMaterial.DataType
import GlslMaterial.Json.Value
import GlslMaterial.Rate

/-!
Traits: what a piece of shading data, or a setting of a descriptor, stands for. Well-known traits
have a data type and a refresh rate of their own.
-/

set_option autoImplicit false

namespace GlslMaterial

inductive TraitId where
  | time
  | mousePosition
  | mouseScroll
  | resolution
  | projection
  | fieldOfView
  | view
  | texture
  | model
  | position
  | sampler
  | aim
  | color
  | origin
  | depth
  | scale
  | rotation
  | rate
  | name
  | parent
  | count
  | mass
  | interpolator
  | code
  | file
  | topology
  | cull
  | bilateral
  | precision
  | distance
  | stride
  | farStride
  | minStep
  | output
  | version
deriving DecidableEq, Repr, Inhabited

namespace TraitId

/-- The name of a trait in descriptors, and in the GLSL names made from it. -/
def label : TraitId → String
  | time => "Time"
  | mousePosition => "MousePosition"
  | mouseScroll => "MouseScroll"
  | resolution => "Resolution"
  | projection => "Projection"
  | fieldOfView => "FieldOfView"
  | view => "View"
  | texture => "Texture"
  | model => "Model"
  | position => "Position"
  | sampler => "Sampler"
  | aim => "Aim"
  | color => "Color"
  | origin => "Origin"
  | depth => "Depth"
  | scale => "Scale"
  | rotation => "Rotation"
  | rate => "Rate"
  | name => "Name"
  | parent => "Parent"
  | count => "Count"
  | mass => "Mass"
  | interpolator => "Interpolator"
  | code => "Code"
  | file => "File"
  | topology => "Topology"
  | cull => "Cull"
  | bilateral => "Bilateral"
  | precision => "Precision"
  | distance => "Distance"
  | stride => "Stride"
  | farStride => "FarStride"
  | minStep => "MinStep"
  | output => "Output"
  | version => "Version"

def all : List TraitId :=
  [time, mousePosition, mouseScroll, resolution, projection, fieldOfView, view, texture, model,
    position, sampler, aim, color, origin, depth, scale, rotation, rate, name, parent, count,
    mass, interpolator, code, file, topology, cull, bilateral, precision, distance, stride,
    farStride, minStep, output, version]

def ofLabel? (label : String) : Option TraitId :=
  all.find? fun id => id.label == label

theorem mem_all (id : TraitId) : id ∈ all := by
  cases id <;> decide

@[simp] theorem ofLabel?_label (id : TraitId) : ofLabel? id.label = some id := by
  cases id <;> decide

/-- Data type and refresh rate of the well-known traits. -/
def default? : TraitId → Option (DataType × Rate)
  | time => some (.float, .uniform .tick)
  | mousePosition => some (.vec2, .uniform .tick)
  | mouseScroll => some (.vec2, .uniform .tick)
  | resolution => some (.vec2, .uniform .camera)
  | projection => some (.mat4, .uniform .camera)
  | fieldOfView => some (.float, .uniform .camera)
  | view => some (.mat4, .uniform .camera)
  | texture => some (.sampler2D, .uniform .renderable)
  | model => some (.mat4, .uniform .drawInstance)
  | position => some (.vec4, .stage .vertex)
  | sampler => some (.vec2, .stage .vertex)
  | aim => some (.vec3, .stage .vertex)
  | color => some (.vec4, .stage .pixel)
  | _ => none

def defaultType? (id : TraitId) : Option DataType :=
  id.default?.map Prod.fst

def defaultRate? (id : TraitId) : Option Rate :=
  id.default?.map Prod.snd

end TraitId

/-- A trait with the data type and the value it may carry. -/
structure Trait where
  id : TraitId
  type : Option DataType
  value : Option Json
deriving Inhabited

namespace Trait

def ofId (id : TraitId) : Trait :=
  ⟨id, none, none⟩

def typed (id : TraitId) (type : DataType) : Trait :=
  ⟨id, some type, none⟩

/-- Two traits agree when they have the same identity and, where both have one, the same type. The
value does not take part. -/
def agrees (a b : Trait) : Bool :=
  a.id == b.id &&
    match a.type, b.type with
    | some s, some t => s == t
    | _, _ => true

@[simp] theorem agrees_self (t : Trait) : t.agrees t := by
  unfold agrees
  cases t.type <;> simp

theorem agrees_comm (a b : Trait) : a.agrees b = b.agrees a := by
  unfold agrees
  rw [Bool.beq_comm]
  cases a.type <;> cases b.type <;> simp [Bool.beq_comm]

def isTexture (t : Trait) : Bool :=
  match t.type with
  | some type => type.isTexture
  | none => false

end Trait

/-- A GLSL expression that gives the value of a trait at some rate. -/
structure Symbol where
  expr : String
  type : DataType
  rate : Rate
deriving DecidableEq, Repr, Inhabited

end GlslMaterial
