import GlslMaterial.Decimal.Single
import GlslMaterial.Trait

/-!
Constructs: the tree that a material is described by. Some kinds of construct become nodes of the
material; geometries, files and keyframes are data of the node that contains them.
-/

set_option autoImplicit false

namespace GlslMaterial

inductive Kind where
  | material
  | camera
  | scene
  | raster
  | raymarch
  | raytrace
  | raycast
  | transform
  | texture
  | light
  | value
  | fbm
  | geometry
  | file
  | keyframe
deriving DecidableEq, Repr, Inhabited

namespace Kind

def all : List Kind :=
  [material, camera, scene, raster, raymarch, raytrace, raycast, transform, texture, light, value,
    fbm, geometry, file, keyframe]

def label : Kind → String
  | material => "Material"
  | camera => "Camera"
  | scene => "Scene"
  | raster => "Raster"
  | raymarch => "Raymarch"
  | raytrace => "Raytrace"
  | raycast => "Raycast"
  | transform => "Transform"
  | texture => "Texture"
  | light => "Light"
  | value => "Value"
  | fbm => "Fbm"
  | geometry => "Geometry"
  | file => "File"
  | keyframe => "Keyframe"

/-- The name of a kind as a node, which spells out the acronym. -/
def nodeLabel : Kind → String
  | fbm => "FBM"
  | kind => kind.label

/-- The words for kinds in descriptors; the acronym may be written in capitals. -/
def words : List String :=
  all.flatMap fun kind => if kind = fbm then [fbm.nodeLabel, fbm.label] else [kind.label]

def ofWord? (word : String) : Option Kind :=
  all.find? fun kind => kind.label == word || kind.nodeLabel == word

@[simp] theorem ofWord?_label (kind : Kind) : ofWord? kind.label = some kind := by
  cases kind <;> decide

/-- Kinds that become nodes below the root of a material. -/
def isNode : Kind → Bool
  | material | geometry | file | keyframe => false
  | _ => true

/-- Whether a node kind makes use of a data construct directly below it. -/
def accepts : Kind → Kind → Bool
  | scene, geometry => true
  | texture, file => true
  | texture, keyframe => true
  | transform, keyframe => true
  | _, _ => false

end Kind

/-- Arithmetic that a value node applies to its expression. -/
inductive Verb where
  | add
  | subtract
  | multiply
  | divide
  | modulate
  | exponent
  | randomize
  | select
  | project
deriving DecidableEq, Repr, Inhabited

namespace Verb

def all : List Verb :=
  [add, subtract, multiply, divide, modulate, exponent, randomize, select, project]

def label : Verb → String
  | add => "Add"
  | subtract => "Subtract"
  | multiply => "Multiply"
  | divide => "Divide"
  | modulate => "Modulate"
  | exponent => "Exponent"
  | randomize => "Randomize"
  | select => "Select"
  | project => "Project"

def ofLabel? (label : String) : Option Verb :=
  all.find? fun verb => verb.label == label

@[simp] theorem ofLabel?_label (verb : Verb) : ofLabel? verb.label = some verb := by
  cases verb <;> decide

end Verb

/-- A verb with its operand: a literal value, or a trait to be looked up, which comes first. -/
structure VerbEntry where
  verb : Verb
  value : Option Json
  operand : Option TraitId
deriving Inhabited

structure Construct where
  kind : Kind
  name : Option String
  traits : List Trait
  verbs : List VerbEntry
  children : List Construct
deriving Inhabited

namespace Construct

def bare (kind : Kind) : Construct :=
  ⟨kind, none, [], [], []⟩

def findTrait? (c : Construct) (id : TraitId) : Option Trait :=
  c.traits.find? fun t => t.id == id

def traitValue? (c : Construct) (id : TraitId) : Option Json :=
  c.findTrait? id >>= Trait.value

def traitFloat? (c : Construct) (id : TraitId) : Option Float :=
  c.traitValue? id >>= Json.toFloat?

def traitString? (c : Construct) (id : TraitId) : Option String :=
  c.traitValue? id >>= Json.toString?

def traitBool? (c : Construct) (id : TraitId) : Option Bool :=
  c.traitValue? id >>= Json.toBool?

/-- The trait for names wins over the name field. -/
def displayName? (c : Construct) : Option String :=
  (c.traitString? .name).or c.name

def dataChildren (c : Construct) : List Construct :=
  c.children.filter fun child => !child.kind.isNode

def childrenOfKind (c : Construct) (kind : Kind) : List Construct :=
  c.children.filter fun child => child.kind == kind

/-- The construct without the children that become nodes of their own. -/
def withoutNodes (c : Construct) : Construct :=
  { c with children := c.dataChildren }

end Construct

end GlslMaterial
