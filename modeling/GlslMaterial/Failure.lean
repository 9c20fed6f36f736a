import GlslMaterial.Descriptor.Construct
import GlslMaterial.Geometry.Topology
import GlslMaterial.Json.Problem
import GlslMaterial.Node.Id
import GlslMaterial.Source.Marker

/-!
Failures: what can go wrong between a descriptor and its shaders. A failure has a cause and the
contexts in which it arose, the outermost first.
-/

set_option autoImplicit false

namespace GlslMaterial

/-- An invalid parameter, or a request that cannot be met. -/
inductive Misuse where
  | noSpelling (type : DataType)
  | noDecay (type : DataType)
  | untypedTrait (id : TraitId)
  | noConversion (source target : DataType)
  | nonNumericComponent (item : Json)
  | noTypeOfWidth (count : Nat)
  | noLiteral (type : DataType)
  | literalWidth (type : DataType) (expected actual : Nat)
  | notALiteral (value : Json)
  | ownChild (node : NodeId)
  | cycle (child parent : NodeId)
  | noStage (node : NodeId) (kind : Kind)
  | notVisible (id : TraitId) (rate : Rate) (node : NodeId) (kind : Kind)
  | rootNotMaterial (kind : Kind)
  | invalidVersion (version : Float)
  | notUnderNode (data parent : Kind)
  | notUnderKind (data parent : Kind)
  | notANode (kind : Kind)
  | noParent (name : String)
  | noDefaultRate (id : TraitId)
  | outputRate (id : TraitId) (rate : Rate)
  | noMarker (stage : Stage) (marker : Marker)
  | invalidRate (value : Json) (reason : Json.Mismatch)
  | noEntryPoint
  | unknownProjection (word : String)
  | cameraStage (stage : Stage)
  | notAScene (node : NodeId) (kind : Kind)
  | unknownTopology (word : String)
  | unknownCull (word : String)
  | rasterStage (node : NodeId) (stage : Stage)
  | notPositive (id : TraitId) (value : Float)
  | fractionalIterations (value : Float)
  | unknownInterpolator (word : String)
  | noFiles
  | noChannel (channel : Float) (files : Nat)
  | nothingToWrap
  | noOperand (verb : Verb)
  | noSelection (swizzle : String) (type : DataType)
  | noVector (family : Family) (count : Nat)
  | projectNeedsMatrix (type : DataType)
  | noRandomness (type : DataType)
  | invalidOctaves (count : Float)
  | zeroWeight (weight : Float)
  | invalidOutput (reason : Json.Mismatch)
  | noNoise (dimensions : Nat)

def Misuse.message : Misuse → String
  | .noSpelling type => s!"{type.label} has no GLSL spelling (decay it first)"
  | .noDecay type => s!"{type.label} cannot decay to a GLSL type"
  | .untypedTrait id => s!"trait {id.label} has no data type and no default"
  | .noConversion source target => s!"cannot convert {source.label} to {target.label}"
  | .nonNumericComponent item => s!"non-numeric component {item.render} in vector literal"
  | .noTypeOfWidth count => s!"cannot infer a GLSL type for {count} components"
  | .noLiteral type => s!"{type.label} cannot be written as a literal"
  | .literalWidth type expected actual =>
    s!"{type.label} literal needs {expected} components, got {actual}"
  | .notALiteral value => s!"value {value.render} is not a GLSL literal"
  | .ownChild node => s!"node {node} cannot be its own child"
  | .cycle child parent => s!"attaching node {child} under node {parent} would create a cycle"
  | .noStage node kind => s!"node {node} ({kind.nodeLabel}) has no shader stage in its ancestry"
  | .notVisible id rate node kind =>
    s!"no {id.label} symbol at rate {rate.name} is visible from node {node} ({kind.nodeLabel})"
  | .rootNotMaterial kind => s!"descriptor root must be a Material, got {kind.label}"
  | .invalidVersion version => s!"invalid GLSL version {Decimal.plain64 version}"
  | .notUnderNode data parent =>
    s!"{data.label} construct cannot appear under a {parent.nodeLabel} node"
  | .notUnderKind data parent => s!"{data.label} construct cannot appear under {parent.label}"
  | .notANode kind => s!"{kind.label} is not a node construct"
  | .noParent name => s!"parent node '{name}' does not exist (yet)"
  | .noDefaultRate id => s!"trait {id.label} has no default rate; an explicit rate is required"
  | .outputRate id rate =>
    s!"output {id.label} requested at rate {rate.name}, which is not a shader stage"
  | .noMarker stage marker => s!"the {stage.name} stage has no {marker.text} insertion point"
  | .invalidRate value reason => s!"invalid Rate trait {value.render}: {reason.message}"
  | .noEntryPoint => "shadertoy code must define void mainImage(out vec4, in vec2)"
  | .unknownProjection word =>
    s!"unknown camera projection '{word}' (expected Perspective or Panoramic)"
  | .cameraStage stage =>
    s!"camera nodes run at vertex or pixel rate, not in the {stage.name} stage"
  | .notAScene node kind => s!"node {node} is a {kind.nodeLabel} node, not a Scene"
  | .unknownTopology word =>
    s!"unsupported raster topology '{word}' (expected Triangle or Line)"
  | .unknownCull word => s!"unknown cull mode '{word}' (expected TwoSided, Normal or Flipped)"
  | .rasterStage node stage =>
    s!"raster node {node} runs in the vertex or pixel stage, not {stage.name}"
  | .notPositive id value =>
    s!"raymarch {id.label} must be positive, got {Decimal.plain64 value}"
  | .fractionalIterations value =>
    s!"raymarch Count must be a whole number of iterations, got {Decimal.plain64 value}"
  | .unknownInterpolator word => s!"unknown interpolator '{word}' (expected Linear or Cubic)"
  | .noFiles => "texture node needs at least one File child"
  | .noChannel channel files =>
    s!"texture keyframe channel {Decimal.plain64 channel} is not one of the {files} files"
  | .nothingToWrap => "value node needs a trait to wrap"
  | .noOperand verb => s!"{verb.label} needs a value or a trait operand"
  | .noSelection swizzle type => s!"cannot select '{swizzle}' from a {type.label}"
  | .noVector family count => s!"no {family.label} vector of {count} components"
  | .projectNeedsMatrix type => s!"Project needs a matrix operand, got {type.label}"
  | .noRandomness type => s!"cannot randomize a {type.label}"
  | .invalidOctaves count =>
    s!"FBM needs a whole octave count of at least 1, got {Decimal.plain64 count}"
  | .zeroWeight weight => s!"FBM base weight must be non-zero, got {Decimal.plain64 weight}"
  | .invalidOutput reason => s!"FBM Output must name a trait: {reason.message}"
  | .noNoise dimensions => s!"no {dimensions}D simplex noise (only 2D and 3D)"

/-- A feature that descriptors may ask for and that no shader can be made for. -/
inductive Unsupported where
  | nodeKind (kind : Kind)
  | mixedInterpolators
  | crossFade (interpolator : String)
  | sceneUnion (node : NodeId) (scenes : Nat)
  | validation (stage : Stage)

def Unsupported.message : Unsupported → String
  | .nodeKind kind => s!"{kind.nodeLabel} node generation"
  | .mixedInterpolators => "mixing Linear and Cubic interpolators in one transform"
  | .crossFade interpolator => s!"{interpolator} cross-fades between texture channels"
  | .sceneUnion node scenes =>
    s!"raymarch node {node} has {scenes} scenes; marching a union of scenes"
  | .validation stage => s!"validating {stage.name} shaders"

/-- Nothing to draw. -/
inductive MissingGeometry where
  | raster (node : NodeId) (topology : Topology)
  | raymarchScene (node : NodeId)
  | distance (scene node : NodeId)

def MissingGeometry.message : MissingGeometry → String
  | .raster node topology => s!"raster node {node} has no {topology.word} geometry under it"
  | .raymarchScene node => s!"raymarch node {node} has no Scene child"
  | .distance scene node => s!"scene {scene} under raymarch node {node} has no distance function"

/-- Data of a descriptor that cannot be made sense of. -/
inductive BadData where
  | rootNotMaterial (kind : Kind)
  | notANumberOrArray (width : Nat) (value : Json)
  | componentCount (expected actual : Nat)
  | nonNumeric (item : Json)
  | notGeometry (kind : Kind)
  | unnamedGeometry
  | sphereRadius (radius : Float32)
  | unknownPrimitive (name : String)
  | notFile (kind : Kind)
  | unnamedFile

def BadData.message : BadData → String
  | .rootNotMaterial kind => s!"descriptor root must be a Material construct, got {kind.label}"
  | .notANumberOrArray width value =>
    s!"expected a number or an array of {width} numbers, got {value.render}"
  | .componentCount expected actual => s!"expected {expected} components, got {actual}"
  | .nonNumeric item => s!"non-numeric component {item.render}"
  | .notGeometry kind => s!"expected a Geometry construct, got {kind.label}"
  | .unnamedGeometry => "Geometry construct needs a primitive name"
  | .sphereRadius radius => s!"sphere radius must be positive, got {Decimal.plain32 radius}"
  | .unknownPrimitive name =>
    s!"unknown primitive '{name}' (supported: box, sphere, rect, triangle, line)"
  | .notFile kind => s!"expected a File construct, got {kind.label}"
  | .unnamedFile => "File construct needs a File trait or a name"

/-- What the command line accepts. -/
def usage : String :=
  "supported: --descriptor <material.json> | --shadertoy <snippet.glsl>, " ++
    "--output-dir <dir>, --pretty, --validate"

/-- A command line that cannot be run, or files that cannot be used. -/
inductive CommandFailure where
  | missingValue (option : String)
  | unknownArgument (argument : String)
  | notOneInput
  | unreadableSnippet (path reason : String)
  | system (reason : String)

def CommandFailure.message : CommandFailure → String
  | .missingValue option => s!"missing value for {option}"
  | .unknownArgument argument => s!"unknown argument: {argument} ({usage})"
  | .notOneInput => s!"exactly one input is required ({usage})"
  | .unreadableSnippet path reason => s!"failed to read --shadertoy file {path}: {reason}"
  | .system reason => reason

inductive Cause where
  | misuse (reason : Misuse)
  | unsupported (reason : Unsupported)
  | missingGeometry (reason : MissingGeometry)
  | badData (reason : BadData)
  | json (reason : Json.Located)
  | command (reason : CommandFailure)

def Cause.message : Cause → String
  | .misuse reason => s!"configuration error: {reason.message}"
  | .unsupported reason => s!"not implemented: {reason.message}"
  | .missingGeometry reason => s!"missing geometry: {reason.message}"
  | .badData reason => reason.message
  | .json reason => reason.message
  | .command reason => reason.message

/-- What was being done when a cause arose. -/
inductive Context where
  | traitOf (id : TraitId) (kind : Kind)
  | keyframe (index : Nat)
  | creatingGeometry (name : Option String)
  | loadingTexture (name : Option String)
  | construct (kind : Kind) (name : Option String)
  | declaring (name : String)
  | valueOf (id : TraitId)
  | parsingDescriptor
  | readingDescriptor (path : String)
  | descriptorIn (path : String)
  | buildingFrom (path : String)
  | creatingDirectory (path : String)
  | writingFile (path : String)
  | generatedStage (stage : Stage)

def Context.message : Context → String
  | .traitOf id kind => s!"trait {id.label} of {kind.label}"
  | .keyframe index => s!"keyframe {index}"
  | .creatingGeometry name =>
    let shown := name.getD "unnamed"
    s!"creating geometry '{shown}'"
  | .loadingTexture name =>
    let shown := name.getD "unnamed"
    s!"loading texture '{shown}'"
  | .construct kind none => s!"invalid {kind.label} construct"
  | .construct kind (some name) => s!"invalid {kind.label} construct '{name}'"
  | .declaring name => s!"declaring {name}"
  | .valueOf id => s!"value of {id.label}"
  | .parsingDescriptor => "failed to parse descriptor json"
  | .readingDescriptor path => s!"failed to read descriptor json at {path}"
  | .descriptorIn path => s!"invalid descriptor in {path}"
  | .buildingFrom path => s!"failed to build material from {path}"
  | .creatingDirectory path => s!"failed to create {path}"
  | .writingFile path => s!"failed to write {path}"
  | .generatedStage stage => s!"{stage.name} stage generated invalid GLSL"

structure Failure where
  contexts : List Context
  cause : Cause

namespace Failure

def misuse (reason : Misuse) : Failure :=
  ⟨[], .misuse reason⟩

def unsupported (reason : Unsupported) : Failure :=
  ⟨[], .unsupported reason⟩

def missingGeometry (reason : MissingGeometry) : Failure :=
  ⟨[], .missingGeometry reason⟩

def badData (reason : BadData) : Failure :=
  ⟨[], .badData reason⟩

def command (reason : CommandFailure) : Failure :=
  ⟨[], .command reason⟩

def within (context : Context) (failure : Failure) : Failure :=
  { failure with contexts := context :: failure.contexts }

/-- All messages from the outermost context to the cause. -/
def messages (failure : Failure) : List String :=
  failure.contexts.map Context.message ++ [failure.cause.message]

def message (failure : Failure) : String :=
  ": ".intercalate failure.messages

end Failure

/-- Adds a context to the failure of a computation. -/
def withContext {α : Type} (context : Context) (result : Except Failure α) : Except Failure α :=
  result.mapError (Failure.within context)

/-- Both steps of a computation that succeeds succeed. -/
theorem eq_ok_of_bind {ε α β : Type} {first : Except ε α} {next : α → Except ε β} {b : β}
    (ended : first >>= next = .ok b) : ∃ a, first = .ok a ∧ next a = .ok b := by
  cases first with
  | error e => simp [bind, Except.bind] at ended
  | ok a => exact ⟨a, rfl, ended⟩

theorem eq_ok_of_withContext {α : Type} {context : Context} {result : Except Failure α} {a : α}
    (ended : withContext context result = .ok a) : result = .ok a := by
  cases result with
  | error failure => cases ended
  | ok b => exact ended

/-- A computation for each item that succeeds gives one value for each. -/
theorem map_eq_of_mapM {ε α β : Type} {f : α → Except ε β} {items : List α} {values : List β}
    (ended : items.mapM f = .ok values) : items.map f = values.map .ok := by
  induction items generalizing values with
  | nil =>
    obtain rfl : [] = values := Except.ok.inj ended
    rfl
  | cons a items ih =>
    rw [List.mapM_cons] at ended
    obtain ⟨b, first, ended⟩ := eq_ok_of_bind ended
    obtain ⟨rest, later, ended⟩ := eq_ok_of_bind ended
    obtain rfl : b :: rest = values := Except.ok.inj ended
    rw [List.map_cons, List.map_cons, first, ih later]

theorem exists_of_mem_mapM {ε α β : Type} {f : α → Except ε β} {items : List α} {values : List β}
    (ended : items.mapM f = .ok values) {b : β} (member : b ∈ values) :
    ∃ a ∈ items, f a = .ok b := by
  have given : (.ok b : Except ε β) ∈ values.map .ok := List.mem_map_of_mem member
  rw [← map_eq_of_mapM ended] at given
  exact List.mem_map.1 given

/-- Fallbacks that do not stop generation. -/
inductive Warning where
  | flatCamera (node : NodeId)
  | screenCamera (node : NodeId)
  | notVisible (id : TraitId) (rate : Rate) (node : NodeId) (kind : Kind)
  | solidRed (id : TraitId) (stage : Stage) (output : String)

def Warning.message : Warning → String
  | .flatCamera node =>
    s!"camera node {node} has no View trait; falling back to a flat 2D camera"
  | .screenCamera node =>
    s!"camera node {node} has no View trait; vertices pass through in screen space"
  | .notVisible id rate node kind => (Misuse.notVisible id rate node kind).message
  | .solidRed id stage output =>
    s!"no {id.label} symbol reaches the {stage.name} stage output {output}; " ++
      "falling back to solid red"

end GlslMaterial
