import GlslMaterial.Material.Basic
import GlslMaterial.Typing

/-!
The interface of a material: the inputs and outputs that its code refers to by name.

A binding is declared once for a rate and a trait, and keeps its name. An input is never finer than
the uniform rate that its trait belongs to, and textures are always set with the renderable.
-/

set_option autoImplicit false

namespace GlslMaterial

/-- Locations that a value of a trait takes; a matrix takes one for each column. -/
def Trait.slots (t : Trait) : Nat :=
  match (t.type >>= DataType.decay?) >>= DataType.matrixShape? with
  | some (_, dimension) => dimension
  | none => 1

namespace Binding

/-- Locations that a binding takes. -/
def slots (b : Binding) : Nat :=
  b.key.slots

def isNamed (rate : Rate) (name : String) (b : Binding) : Bool :=
  b.rate = rate && b.name == name

/-- The GLSL type of the declaration. -/
def spelling (b : Binding) : Except Failure String :=
  withContext (.declaring b.name) do
    (← (b.key.type.getD .float).decayed).spelling

/-- The declaration of an input or output of a stage. -/
def declaration (b : Binding) (direction : String) (location : Nat) : Except Failure String := do
  let spelling ← b.spelling
  return s!"layout(location = {location}) {direction} {spelling} {b.name};"

/-- The access name without the rate in front. -/
def field (b : Binding) : String :=
  String.ofList ((b.name.toList.reverse.takeWhile (· != '.')).reverse)

end Binding

namespace Material

def inputsAt (m : Material) (rate : Rate) : List Binding :=
  m.inputs.filter fun b => b.rate = rate

def outputsAt (m : Material) (rate : Rate) : List Binding :=
  m.outputs.filter fun b => b.rate = rate

def freshName (taken : List String) (base : String) : String :=
  if taken.contains base then
    let numbered := (List.range (taken.length + 1)).map fun n => s!"{base}{n + 1}"
    (numbered.find? fun name => !taken.contains name).getD base
  else base

def inputRate (rate : Rate) (key : Trait) : Except Failure Rate :=
  match rate, key.id.defaultRate? with
  | .auto, none => .error (.misuse (.noDefaultRate key.id))
  | rate, default =>
    let kept := match default with
      | some own => if rate = .auto || (own.isUniform && own < rate) then own else rate
      | none => rate
    .ok (if key.isTexture then .uniform .renderable else kept)

/-- The name of an input before it is made unique. -/
def inputName (rate : Rate) (id : TraitId) : String :=
  if rate.isUniform then s!"{rate.name}.{id.label}" else s!"in{id.label}"

/-- A new texture input in the next slot. -/
def pushTexture (m : Material) (rate : Rate) (key : Trait) : String × Material :=
  let slot := m.samplers
  let name := s!"Texture{slot}"
  (name, { m with
    samplers := slot + 1
    inputs := m.inputs ++ [⟨rate, key, name, some slot, false, none⟩] })

/-- A new input that is not a texture. -/
def pushInput (m : Material) (rate : Rate) (key : Trait) : String × Material :=
  let taken := (m.inputsAt rate).map Binding.name
  let name := freshName taken (inputName rate key.id)
  (name, { m with inputs := m.inputs ++ [⟨rate, key, name, none, false, none⟩] })

/-- Name and rate of the input for a trait. Unless duplicates are allowed, an input that agrees
with the trait is taken again. -/
def addInput (m : Material) (rate : Rate) (key : Trait) (duplicates : Bool) :
    Except Failure ((String × Rate) × Material) := do
  let key ← key.resolved
  let rate ← inputRate rate key
  match (m.inputsAt rate).find? fun b => !duplicates && b.key.agrees key with
  | some known => return ((known.name, rate), m)
  | none =>
    let (name, m) := if key.isTexture then m.pushTexture rate key else m.pushInput rate key
    return ((name, rate), m)

/-- Name of the output for a trait, and whether it is new. Only stages have outputs. -/
def addOutput (m : Material) (rate : Rate) (key : Trait) (duplicates : Bool) :
    Except Failure ((String × Bool) × Material) := do
  if rate.stage?.isNone then throw (.misuse (.outputRate key.id rate))
  let key ← key.resolved
  match (m.outputsAt rate).find? fun b => !duplicates && b.key.agrees key with
  | some known => return ((known.name, false), m)
  | none =>
    let taken := (m.outputsAt rate).map Binding.name
    let name := freshName taken s!"out{key.id.label}"
    let m := { m with outputs := m.outputs ++ [⟨rate, key, name, none, false, none⟩] }
    return ((name, true), m)

def updateNamed (rate : Rate) (name : String) (change : Binding → Binding) :
    List Binding → List Binding :=
  List.map fun b => if b.isNamed rate name then change b else b

/-- Notes that an output is assigned by code that has been written. -/
def markWired (m : Material) (rate : Rate) (name : String) : Material :=
  { m with outputs := updateNamed rate name (fun b => { b with wired := true }) m.outputs }

def placeInput (m : Material) (rate : Rate) (name : String) (location : Nat) : Material :=
  let place := fun (b : Binding) => { b with location := some location }
  { m with inputs := updateNamed rate name place m.inputs }

def placeOutput (m : Material) (rate : Rate) (name : String) (location : Nat) : Material :=
  let place := fun (b : Binding) => { b with location := some location }
  { m with outputs := updateNamed rate name place m.outputs }

def takeLocations (m : Material) (rate : Rate) (count : Nat) : Material :=
  let next := m.varyings rate + count
  { m with varyings := fun other => if other = rate then next else m.varyings other }

/-- Gives an output and the input that reads it the same location. An input that has a location
keeps it, and so does an output. -/
def link (m : Material) (outputRate : Rate) (output : String) (rate : Rate) (input : String) :
    Material :=
  match m.outputs.find? (·.isNamed outputRate output), m.inputs.find? (·.isNamed rate input) with
  | some source, some target =>
    match target.location, source.location with
    | some _, _ => m
    | none, some location => m.placeInput rate input location
    | none, none =>
      let location := m.varyings rate
      ((m.takeLocations rate target.slots).placeOutput outputRate output location).placeInput
        rate input location
  | _, _ => m

/-- The first location behind all that are given. -/
def firstFree (bindings : List Binding) : Nat :=
  (bindings.filterMap fun b => b.location.map (· + b.slots)).foldl max 0

/-- Locations from `next` on for the bindings that have none. -/
def locationsFrom : Nat → List Binding → List Nat
  | _, [] => []
  | next, b :: rest =>
    match b.location with
    | some location => location :: locationsFrom next rest
    | none => next :: locationsFrom (next + b.slots) rest

@[simp] theorem length_locationsFrom (next : Nat) (bindings : List Binding) :
    (locationsFrom next bindings).length = bindings.length := by
  induction bindings generalizing next with
  | nil => rfl
  | cons b rest ih => cases placed : b.location <;> simp [locationsFrom, placed, ih]

/-- A location for every binding. Those that have one keep it, the others follow behind. -/
def assignLocations (bindings : List Binding) : List Nat :=
  locationsFrom (firstFree bindings) bindings

@[simp] theorem length_assignLocations (bindings : List Binding) :
    (assignLocations bindings).length = bindings.length :=
  length_locationsFrom _ _

def located (bindings : List Binding) : List (Binding × Nat) :=
  bindings.zip (assignLocations bindings)

end Material

end GlslMaterial
