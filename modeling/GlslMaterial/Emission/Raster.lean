import GlslMaterial.Emission.Camera

/-!
What a raster writes: a search through all primitives for each pixel, or the position of each
vertex.
-/

set_option autoImplicit false

namespace GlslMaterial.Emission

open GlslMaterial.Action (perform fail ofExcept)
open Material

/-- Whether any of the scenes has something to draw. -/
def anyGeometry (m : Material) (topology : Topology) (scenes : List NodeId) : Bool :=
  scenes.any fun id => match (m.node id).config with
    | .scene scene => scene.hasGeometry topology
    | _ => false

def rasterPosition (n : NodeId) (raster : Raster) (scenes : List NodeId) : Action Unit := do
  unless anyGeometry (← read) raster.topology scenes do
    fail (.missingGeometry (.raster n raster.topology))
  let position ← valueOrInput n .position (.stage .vertex) .vec4
  commit .vertex .position s!"gl_Position = {position};"

/-- The function that tests one primitive, with what it calls. -/
def rasterFunction (n : NodeId) (raster : Raster) : String × List (String × String) :=
  match raster.topology with
  | .triangle =>
    let name := s!"RasterizeTriangle{n}"
    (name, [("RasterEdge", Raster.edgeHelper), (name, Raster.triangleFunction name raster.cull)])
  | .line =>
    let name := s!"RasterizeLine{n}"
    (name, [(name, Raster.lineFunction name)])

def rasterLoop (n : NodeId) (function extra : String) (array : PrimitiveArray) : List String :=
  [s!"for (int i = 0; i < {array.count}; i++) \x7b",
   s!"    RasterizeResult candidate = {function}({array.name}[i], rasterClip{n}, " ++
     s!"rasterPoint{n}{extra});",
   s!"    if (candidate.hit && candidate.depth < raster{n}.depth) raster{n} = candidate;",
   "\x7d"]

/-- The code that finds the nearest primitive of all arrays. -/
def rasterCode (n : NodeId) (clip resolution function extra : String)
    (arrays : List PrimitiveArray) : String :=
  Text.block <|
    [s!"mat4 rasterClip{n} = {clip};",
     s!"vec2 rasterPoint{n} = (gl_FragCoord.xy / {resolution}) * 2.0 - 1.0;",
     s!"RasterizeResult raster{n} = RasterizeResult(false, 1.0, vec2(0.0), vec3(0.0));"] ++
    arrays.flatMap (rasterLoop n function extra) ++
    [s!"if (!raster{n}.hit) discard;"]

/-- Lines are drawn two pixels wide. -/
def lineWidth (resolution : String) : Topology → String
  | .triangle => ""
  | .line => s!", 2.0 / {resolution}.y"

def rasterPixels (n : NodeId) (raster : Raster) (scenes : List NodeId) : Action Unit := do
  let rate := Rate.stage .pixel
  let arrays ← scenes.filterMapM fun id => sceneArray raster.topology id .pixel
  if arrays.isEmpty then fail (.missingGeometry (.raster n raster.topology))
  let projection ← exprOrInput n .projection rate
  let view ← exprOrInput n .view rate
  let resolution ← exprOrInput n .resolution rate
  let clip := match (← lookupAs n (.ofId .model) rate .mat4 .soft) with
    | some model => s!"{projection} * {view} * {model}"
    | none => s!"{projection} * {view}"
  let (function, helpers) := rasterFunction n raster
  ensureFunctions .pixel (("RasterizeResult", Raster.resultStruct) :: helpers)
  commit .pixel .texturize
    (rasterCode n clip resolution function (lineWidth resolution raster.topology) arrays)
  expose n .sampler .vec2 s!"raster{n}.uv" rate
  expose n .aim .vec3 s!"raster{n}.normal" rate
  expose n .depth .float s!"raster{n}.depth" rate

def emitRaster (n : NodeId) (raster : Raster) : Action Unit := do
  let scenes := (← read).sceneChildren n
  match (← ofExcept ((← read).stageOf n)) with
  | .pixel => rasterPixels n raster scenes
  | .vertex => rasterPosition n raster scenes
  | other => fail (.misuse (.rasterStage n other))

end GlslMaterial.Emission
