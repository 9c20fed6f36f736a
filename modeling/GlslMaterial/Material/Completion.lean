import GlslMaterial.Emission.Walk

/-!
Completion: after the walk through its nodes, a material gets the declarations of its inputs and
outputs, a value for every output, the uniform blocks and samplers that its code mentions, and a
version line in every stage.
-/

set_option autoImplicit false

namespace GlslMaterial.Material

open GlslMaterial.Action (perform ofExcept)

def solidRed : String :=
  "vec4(1.0, 0.0, 0.0, 1.0)"

/-- Three vertices that cover the screen. -/
def fullscreenVertex : String :=
  Text.block
    ["int vertexIndex = int(gl_VertexIndex);",
     "vec2 fullscreen = vec2(float((vertexIndex << 1) & 2), float(vertexIndex & 2));",
     "gl_Position = vec4(fullscreen * 2.0 - 1.0, 0.0, 1.0);"]

/-- Whether a colour output has to be added: without any output, or with pixel code that puts out
nothing. -/
def lacksOutput (m : Material) : Bool :=
  m.outputs.isEmpty ||
    (!(m.source .pixel).isEmpty && (m.outputsAt (.stage .pixel)).isEmpty)

def inputLines (m : Material) (stage : Stage) : Except Failure (List String) :=
  (located (m.inputsAt (.stage stage))).mapM fun (b, location) => b.declaration "in" location

def declareInputs (stage : Stage) : Action Unit := do
  (← ofExcept ((← read).inputLines stage)).forM (commit stage .input)

/-- Whether a symbol can be used in a stage as it is. -/
def isAdmissible (limit : Rate) (symbol : Symbol) : Bool :=
  symbol.rate ≤ limit && (symbol.rate.isUniform || symbol.rate = limit)

/-- The last node, in the order of the tree, that gives a trait to a stage. -/
def outputNode? (m : Material) (id : TraitId) (limit : Rate) : Option Symbol :=
  (root :: m.subtree root).reverse.findSome? fun n =>
    ((m.node n).outputs.find? fun (t, symbol) => t.id == id && isAdmissible limit symbol).map
      Prod.snd

/-- The first input that gives a trait to a stage, uniform ones before those of the stage. -/
def outputInput? (m : Material) (id : TraitId) (limit : Rate) : Option Symbol :=
  (UniformRate.all.map Rate.uniform ++ [limit]).findSome? fun rate =>
    (m.inputsAt rate).findSome? fun b =>
      if b.key.id = id && !b.key.isTexture then b.key.type.map fun type => ⟨b.name, type, rate⟩
      else none

/-- Where the value of an output comes from. -/
def outputSource? (m : Material) (id : TraitId) (stage : Stage) : Option Symbol :=
  (m.outputNode? id (.stage stage)).or (m.outputInput? id (.stage stage))

/-- The value of an output, with a warning where nothing gives one. -/
def outputValue (stage : Stage) (b : Binding) : Action String := do
  let target := b.key.type.getD .vec4
  match (← read).outputSource? b.key.id stage with
  | some symbol => ofExcept (convertSymbol symbol target)
  | none =>
    warn (.solidRed b.key.id stage b.name)
    ofExcept (Glsl.convert solidRed .vec4 target "0.0")

/-- Declares an output and, unless that has been done, assigns it. -/
def declareOutput (stage : Stage) (b : Binding) (location : Nat) : Action Unit := do
  commit stage .output (← ofExcept (b.declaration "out" location))
  unless b.wired do
    let value ← outputValue stage b
    assign stage b.name value

def declareOutputs (stage : Stage) : Action Unit := do
  (located ((← read).outputsAt (.stage stage))).forM fun (b, location) =>
    declareOutput stage b location

def uniformBlock (rate : UniformRate) (members : List Binding) : Except Failure String := do
  let (set, binding) := rate.binding
  let name := (Rate.uniform rate).name
  let fields ← members.mapM fun b => do
    let spelling ← b.spelling
    return s!"    {spelling} {b.field};"
  return Text.block
    ([s!"layout(set = {set}, binding = {binding}) uniform UniformBuffer{name} \x7b"] ++ fields ++
      [s!"\x7d {name};", ""])

/-- Writes a declaration into every stage whose code has one of some names. -/
def declareWhereMentioned (names : List String) (declaration : String) : Action Unit :=
  Stage.all.forM fun stage => do
    if names.any ((← read).source stage).mentions then commit stage .uniform declaration

def declareBlock (rate : UniformRate) : Action Unit := do
  let members := ((← read).inputsAt (.uniform rate)).filter fun b => !b.key.isTexture
  unless members.isEmpty do
    declareWhereMentioned (members.map Binding.name) (← ofExcept (uniformBlock rate members))

def declareSampler (b : Binding) : Action Unit :=
  let slot := b.sampler.getD 0
  declareWhereMentioned [b.name] s!"layout(set = 2, binding = {slot}) uniform sampler2D {b.name};"

/-- Declares the uniform blocks and then the samplers. -/
def declareUniforms : Action Unit := do
  UniformRate.all.forM declareBlock
  let samplers := ((← read).inputsAt (.uniform .renderable)).filter fun b => b.key.isTexture
  samplers.forM declareSampler

/-- Adds a colour output where there has to be one. -/
def ensureOutput : Action Unit := do
  if (← read).lacksOutput then
    discard <| outputFor (.stage .pixel) (.typed .color .vec4) false

/-- Covers the screen where no vertex has a position. -/
def ensurePosition : Action Unit := do
  unless ((← read).source .vertex).mentions "gl_Position" do
    commit .vertex .position fullscreenVertex

def declareInterface : Action Unit :=
  Stage.all.forM fun stage => do
    declareInputs stage
    declareOutputs stage

def complete : Action Unit := do
  ensureOutput
  declareInterface
  ensurePosition
  declareUniforms
  perform .stamp

/-- Writes all stages of a material. Once begun it is never begun again. -/
def generate : Action Unit := do
  if (← read).generated then return
  perform .begin
  Emission.generateNode root
  complete

end GlslMaterial.Material
