import GlslMaterial.Emission.Walk
import GlslMaterial.Proofs.Emission.Operands
import GlslMaterial.Proofs.Lookup.Search

/-!
What nodes do while they are written, whatever is to be shown of it. A node looks up symbols, asks
for helpers, and in the end publishes a piece of code with the symbols that it declares. A
discipline is a way to speak about actions that is closed under the ways to build them; it holds of
whatever a node writes if it holds of lookups, of the helpers and of the pieces of its kind.
-/

set_option autoImplicit false

namespace GlslMaterial

open GlslMaterial.Action (perform)

/-- Whether the result of a verb has the type of what the verb is applied to. -/
def Verb.keepsType : Verb → Bool
  | randomize | select | project => false
  | _ => true

theorem DataType.decay?_vector {type : DataType} {family : Family} {width : Nat}
    (shape : type.vectorShape? = some (family, width)) :
    type.decay? = some type ↔ family = .float ∨ family = .double := by
  cases type <;> cases shape <;> simp [decay?]

theorem DataType.vectorShape?_vector? {type : DataType} {family : Family} {width : Nat}
    (found : vector? family width = some type) : type.vectorShape? = some (family, width) := by
  have shape := List.find?_some found
  exact eq_of_beq shape

theorem DataType.isTexture_of_vectorShape? {type : DataType} {shape : Family × Nat}
    (found : type.vectorShape? = some shape) : type.isTexture = false := by
  cases type <;> first | rfl | cases found

namespace Emission

open Material

/-- Code for a stage, and what it lets other nodes see. -/
structure Piece where
  stage : Stage
  marker : Marker
  code : String
  shown : List (TraitId × Symbol)

def showAll (n : NodeId) : TraitId × Symbol → List (TraitId × Symbol) → Action Unit
  | (id, symbol), [] => perform (.expose n (.typed id symbol.type) symbol)
  | (id, symbol), next :: rest => do
    perform (.expose n (.typed id symbol.type) symbol)
    showAll n next rest

/-- Writes the code of a piece and shows its symbols. -/
def publish (n : NodeId) (piece : Piece) : Action Unit :=
  match piece.shown with
  | [] => commit piece.stage piece.marker piece.code
  | first :: rest => do
    commit piece.stage piece.marker piece.code
    showAll n first rest

/-- What is known of the texts that a node is given: of expressions, of the names of samplers, and
of the symbols for a trait. -/
structure Given where
  expr : String → Prop
  sampler : String → Prop
  symbol : Trait → Symbol → Prop

/-- The helpers that a node asks for. -/
inductive Helper (given : Given) (n : NodeId) : Config → String → String → Prop
  | shape (raster : Raster) :
    Helper given n (.raster raster) raster.topology.label (Scene.structFor raster.topology)
  | array (raster : Raster) (id : NodeId) (scene : Scene) :
    Helper given n (.raster raster) (arrayName raster.topology id)
      (Scene.arrayDeclaration raster.topology.label (arrayName raster.topology id)
        (scene.literals raster.topology))
  | search (raster : Raster) {helper : String × String}
    (member : helper ∈ ("RasterizeResult", Raster.resultStruct) :: (rasterFunction n raster).2) :
    Helper given n (.raster raster) helper.1 helper.2
  | solid (raymarch : Raymarch) {scene : Scene} {term : Distance}
      (member : term ∈ scene.distances) :
    Helper given n (.raymarch raymarch) term.helper term.body
  | union (raymarch : Raymarch) : Helper given n (.raymarch raymarch) "SDFUnion" Scene.unionHelper
  | distance (raymarch : Raymarch) (id : NodeId) {scene : Scene} {first : Distance}
    {rest : List Distance} (listed : scene.distances = first :: rest) :
    Helper given n (.raymarch raymarch) s!"SceneSDF{id}"
      (Scene.distanceFunction s!"SceneSDF{id}" first rest)
  | march (raymarch : Raymarch) (id : NodeId) :
    Helper given n (.raymarch raymarch) s!"Raymarch{n}"
      (raymarch.marchFunction s!"Raymarch{n}" s!"SceneSDF{id}")
  | normal (raymarch : Raymarch) (id : NodeId) :
    Helper given n (.raymarch raymarch) s!"RaymarchNormal{n}"
      (raymarch.normalFunction s!"RaymarchNormal{n}" s!"SceneSDF{id}")
  | transform (transform : Transform) {helper : String × String}
    (member : helper ∈ transform.functions n) :
    Helper given n (.transform transform) helper.1 helper.2
  | sample (texture : Texture) {samplers : List (Nat × String)}
    (named : ∀ sampler ∈ samplers, given.sampler sampler.2) :
    Helper given n (.texture texture) s!"SampleChannel{n}"
      (Texture.sampleFunction s!"SampleChannel{n}" samplers)
  | times (texture : Texture) :
    Helper given n (.texture texture) s!"TextureKeyTimes{n}" (keyTimes n texture)
  | channels (texture : Texture) :
    Helper given n (.texture texture) s!"TextureKeyChannels{n}" (keyChannels n texture)
  | noise (config : Config) {dimensions : Nat} {helpers : List (String × String)} {name : String}
    (known : Noise.functions dimensions = .ok (helpers, name)) {helper : String × String}
    (member : helper ∈ helpers) : Helper given n config helper.1 helper.2
  | sum (fractal : Fractal) :
    Helper given n (.fractal fractal) s!"FBM{n}" (fractal.function s!"FBM{n}")

/-- The matrix of a transform, as it is shown. -/
def modelExpr (n : NodeId) : TransformPlan → String
  | .identity => "mat4(1.0)"
  | .constant matrix => Glsl.mat4 matrix
  | .animated _ => s!"transformModel{n}"

/-- A value before its verbs: a literal, or a symbol for its trait. -/
inductive Began (given : Given) (key : Trait) : Expression → Prop
  | literal {value : Json} {e : Expression} (set : key.value = some value)
    (made : Glsl.ofJson value (key.type.or key.id.defaultType?) = .ok e) : Began given key e
  | symbol {symbol : Symbol} (unset : key.value = none) (known : given.symbol key symbol) :
    Began given key ⟨symbol.expr, symbol.type⟩

/-- What verbs make of a type. -/
structure Became (verbs : List VerbEntry) (start last : DataType) : Prop where
  kept : (∀ entry ∈ verbs, entry.verb.keepsType = true) → last = start
  stays : start.decay? = some start → last.decay? = some last
  plain : last.isTexture = true → start.isTexture = true

def movedShown (n : NodeId) (stage : Stage) (plan : TransformPlan) : List (TraitId × Symbol) :=
  [(.model, ⟨modelExpr n plan, .mat4, modelRate (.stage stage) plan⟩),
   (.position, ⟨s!"transformPosition{n}", .vec4, .stage stage⟩)]

def rayShown (n : NodeId) : List (TraitId × Symbol) :=
  [(.aim, ⟨s!"cameraRay{n}", .vec3, .stage .pixel⟩),
   (.origin, ⟨s!"cameraOrigin{n}", .vec3, .stage .pixel⟩)]

def colorShown (n : NodeId) (stage : Stage) : List (TraitId × Symbol) :=
  [(.color, ⟨s!"textureColor{n}", .vec4, .stage stage⟩)]

/-- The pieces that a node of a kind may publish. -/
inductive Publishes (given : Given) (n : NodeId) : Config → Piece → Prop
  | flat (camera : Camera) {resolution : String} (size : given.expr resolution) :
    Publishes given n (.camera camera) ⟨.pixel, .texturize, flatRay n resolution, rayShown n⟩
  | perspective (camera : Camera) {resolution view projection : String}
    (size : given.expr resolution) (viewed : given.expr view)
    (projected : given.expr projection) :
    Publishes given n (.camera camera)
      ⟨.pixel, .texturize, perspectiveRay n resolution view projection, rayShown n⟩
  | panoramic (camera : Camera) {resolution view angle : String}
    (size : given.expr resolution) (viewed : given.expr view)
    (wide : given.expr angle) :
    Publishes given n (.camera camera)
      ⟨.pixel, .texturize, panoramicRay n resolution view angle, rayShown n⟩
  | place (camera : Camera) {point transform : String} (placed : given.expr point)
    (moved : transform = "" ∨ ∃ projection view, given.expr projection ∧
      given.expr view ∧ transform = s!"{projection} * {view} * ") :
    Publishes given n (.camera camera)
      ⟨.vertex, .transform, s!"vec4 cameraPosition{n} = {transform}{point};",
        [(.position, ⟨s!"cameraPosition{n}", .vec4, .stage .vertex⟩)]⟩
  | vertices (raster : Raster) {position : String} (placed : given.expr position) :
    Publishes given n (.raster raster) ⟨.vertex, .position, s!"gl_Position = {position};", []⟩
  | pixels (raster : Raster) {clip resolution : String} {arrays : List PrimitiveArray}
    (clipped : given.expr clip) (size : given.expr resolution)
    (named : ∀ array ∈ arrays, ∃ id, array.name = arrayName raster.topology id) :
    Publishes given n (.raster raster)
      ⟨.pixel, .texturize, rasterCode n clip resolution (rasterFunction n raster).1
        (lineWidth resolution raster.topology) arrays,
        [(.sampler, ⟨s!"raster{n}.uv", .vec2, .stage .pixel⟩),
         (.aim, ⟨s!"raster{n}.normal", .vec3, .stage .pixel⟩),
         (.depth, ⟨s!"raster{n}.depth", .float, .stage .pixel⟩)]⟩
  | surface (raymarch : Raymarch) (stage : Stage) {origin aim : String}
    (start : given.expr origin) (direction : given.expr aim) :
    Publishes given n (.raymarch raymarch)
      ⟨stage, .mainBody stage, raymarchCode n stage origin aim,
        [(.position, ⟨s!"raymarchPosition{n}", .vec3, .stage stage⟩),
         (.aim, ⟨s!"raymarchNormal{n}", .vec3, .stage stage⟩),
         (.depth, ⟨s!"raymarchDepth{n}", .float, .stage stage⟩)]⟩
  | direct (texture : Texture) (stage : Stage) {sampler uv : String}
    (named : sampler = "" ∨ given.sampler sampler) (placed : given.expr uv) :
    Publishes given n (.texture texture)
      ⟨stage, .mainBody stage, s!"vec4 textureColor{n} = texture({sampler}, {uv});",
        colorShown n stage⟩
  | blend (texture : Texture) (stage : Stage) {time uv : String} (timed : given.expr time)
    (placed : given.expr uv) :
    Publishes given n (.texture texture)
      ⟨stage, .mainBody stage, blendCode n (texture.keys.length - 1) time uv, colorShown n stage⟩
  | still (transform : Transform) (stage : Stage) {point : String} (placed : given.expr point)
    (plan : transform.plan = .identity) :
    Publishes given n (.transform transform)
      ⟨stage, .mainBody stage, s!"vec4 transformPosition{n} = Transform{n}({point});",
        movedShown n stage .identity⟩
  | moved (transform : Transform) (stage : Stage) {point : String} (placed : given.expr point)
    {matrix : Mat4} (plan : transform.plan = .constant matrix) :
    Publishes given n (.transform transform)
      ⟨stage, .mainBody stage, s!"vec4 transformPosition{n} = Model{n} * {point};",
        movedShown n stage (.constant matrix)⟩
  | animated (transform : Transform) (stage : Stage) {point time : String}
    (placed : given.expr point) (timed : given.expr time) {changes : Changes}
    (plan : transform.plan = .animated changes) :
    Publishes given n (.transform transform)
      ⟨stage, .mainBody stage, Text.block
        [s!"mat4 transformModel{n} = Animate{n}({time});",
         s!"vec4 transformPosition{n} = transformModel{n} * {point};"],
        movedShown n stage (.animated changes)⟩
  | value (wrapped : Wrapped) (stage : Stage) {first : Expression} {start : DataType}
    {result : Running} {spelling : String} (began : Began given wrapped.key first)
    (decays : first.type.decayed = .ok start) (became : Became wrapped.verbs start result.type)
    (inside : given.expr result.code) (spelled : result.type.spelling = .ok spelling) :
    Publishes given n (.value wrapped)
      ⟨stage, .mainBody stage, s!"{spelling} value{n} = {result.code};",
        [(wrapped.key.id, ⟨s!"value{n}", result.type, .stage stage⟩)]⟩
  | sum (fractal : Fractal) (stage : Stage) {function point : String}
      (named : function = s!"FBM{n}")
    (placed : given.expr point ∨ stage = .pixel ∧
      ∃ resolution, given.expr resolution ∧ point = s!"gl_FragCoord.xy / {resolution}") :
    Publishes given n (.fractal fractal)
      ⟨stage, .mainBody stage, s!"float fbm{n} = {function}({point});",
        [(fractal.output,
          ⟨(spread n fractal.output).1, (spread n fractal.output).2, .stage stage⟩)]⟩

/-- The stems of the variables that nodes show. -/
def shownStems : List String :=
  ["cameraRay", "cameraOrigin", "cameraPosition", "raymarchPosition", "raymarchNormal",
   "raymarchDepth", "textureColor", "transformModel", "transformPosition", "value"]

/-- What holds of variables, of parts of rasters, of matrices and of sums of fractals holds of all
that nodes show. -/
theorem shown_of_publishes {given : Given} {n : NodeId} {config : Config} {piece : Piece}
    {p : String → DataType → Prop}
    (name : ∀ stem ∈ shownStems, ∀ type, p s!"{stem}{n}" type)
    (part : ∀ field ∈ [".uv", ".normal", ".depth"], ∀ type, p s!"raster{n}{field}" type)
    (identity : p "mat4(1.0)" .mat4) (matrix : ∀ m, p (Glsl.mat4 m) .mat4)
    (sum : ∀ id, p (spread n id).1 (spread n id).2)
    (publishes : Publishes given n config piece) :
    ∀ each ∈ piece.shown, p each.2.expr each.2.type := by
  simp only [shownStems, List.forall_mem_cons] at name part
  cases publishes
  all_goals
    simp only [rayShown, movedShown, colorShown, modelExpr, List.forall_mem_cons, name, part,
      identity, matrix, sum, List.not_mem_nil, false_implies, implies_true, and_self]

/-- A rate at which a node of a stage looks things up. -/
def Suits (stage : Stage) (rate : Rate) : Prop :=
  rate = .stage stage ∨ rate.isUniform = true

/-- A way to speak about what a node does, between the places at which its stage is open and those
at which none is. -/
structure Discipline (given : Given) (n : NodeId) (config : Config) where
  Holds {α : Type} (before after : Option Stage) (action : Action α) (good : α → Prop) : Prop
  expressive : Glsl.Expressive given.expr
  readable {key : Trait} {symbol : Symbol} :
    given.symbol key symbol → given.expr symbol.expr
  callable {dimensions : Nat} {helpers : List (String × String)} {name : String} :
    Noise.functions dimensions = .ok (helpers, name) → given.expr name
  fail {α : Type} {before after : Option Stage} {failure : Failure} {good : α → Prop} :
    Holds before after (Action.fail failure) good
  ofExcept {α : Type} {place : Option Stage} {value : Except Failure α} {good : α → Prop} :
    (∀ a, value = .ok a → good a) → Holds place place (Action.ofExcept value) good
  bind {α β : Type} {before middle after : Option Stage} {first : Action α} {next : α → Action β}
    {good : α → Prop} {better : β → Prop} : Holds before middle first good →
    (∀ a, good a → Holds middle after (next a) better) → Holds before after (first >>= next) better
  look {place : Option Stage} : Holds place place (outline <$> read) fun _ => True
  opens {α : Type} {stage : Stage} {after : Option Stage} {action : Action α} {good : α → Prop} :
    Holds (some stage) after action good → Holds none after action good
  warn {place : Option Stage} (warning : Warning) : Holds place place (warn warning) fun _ => True
  sampler {place : Option Stage} :
    Holds place place (inputFor (.uniform .renderable) (.typed .texture .sampler2D) true)
      fun result => given.sampler result.1
  ask {place : Option Stage} (key : Trait) (rate : Rate) (kind : Fallback) :
    Holds place place (perform (.ask n key rate kind)) fun _ => True
  seen? {stage : Stage} {rate : Rate} (suits : Suits stage rate) (key : Trait) :
    Holds (some stage) (some stage) (seen? n key rate) fun found =>
      ∀ symbol, found = some symbol → given.symbol key symbol
  inputSymbol {stage : Stage} {rate : Rate} (suits : Suits stage rate) (key : Trait) :
    Holds (some stage) (some stage) (inputSymbol key rate) (given.symbol key)
  ensure {stage : Stage} {name body : String} : Helper given n config name body →
    Holds (some stage) (some stage) (ensureFunction stage name body) fun _ => True
  publish {piece : Piece} : Publishes given n config piece →
    Holds (some piece.stage) none (publish n piece) fun _ => True

theorem suits_own (stage : Stage) : Suits stage (.stage stage) :=
  .inl rfl

theorem Suits.ne_auto {stage : Stage} {rate : Rate} (suits : Suits stage rate) : rate ≠ .auto := by
  rintro rfl
  rcases suits with own | uniform
  · cases own
  · cases uniform

namespace Discipline

variable {given : Given} {n : NodeId} {config : Config} (d : Discipline given n config)
  {α β : Type} {before after place : Option Stage} {stage : Stage}

theorem pure {a : α} {good : α → Prop} (holds : good a) : d.Holds place place (Pure.pure a) good :=
  show d.Holds place place (Action.ofExcept (.ok a)) good from
    d.ofExcept fun _ same => Except.ok.inj same ▸ holds

theorem mono {action : Action α} {good better : α → Prop} (implies : ∀ a, good a → better a)
    (holds : d.Holds before after action good) : d.Holds before after action better := by
  rw [← bind_pure action]
  exact d.bind holds fun a known => d.pure (implies a known)

theorem failThen {failure : Failure} {next : α → Action β} {good : β → Prop} :
    d.Holds before after (Action.fail failure >>= next) good :=
  d.bind (d.fail : d.Holds before after _ fun _ => False) fun _ impossible => impossible.elim

theorem map {action : Action α} {f : α → β} {good : β → Prop}
    (holds : d.Holds before after action fun a => good (f a)) :
    d.Holds before after (f <$> action) good := by
  rw [← bind_pure_comp]
  exact d.bind holds fun _ known => d.pure known

theorem discard {action : Action α} {good : α → Prop} (holds : d.Holds before after action good) :
    d.Holds before after (Functor.discard action) fun _ => True := by
  rw [Functor.discard, map_const]
  exact d.map (d.mono (fun _ _ => trivial) holds)

theorem read {next : Material → Action β} {good : β → Prop}
    (same : ∀ m : Material, next m.outline = next m)
    (holds : ∀ m, d.Holds before after (next m) good) :
    d.Holds before after (MonadReader.read >>= next) good := by
  have shape : (MonadReader.read >>= next) = (outline <$> MonadReader.read) >>= next := by
    rw [bind_map_left]
    exact congrArg _ (funext fun m => (same m).symm)
  rw [shape]
  exact d.bind d.look fun m _ => holds m

theorem staged {next : Stage → Action β} {good : β → Prop}
    (holds : ∀ stage, d.Holds before after (next stage) good) :
    d.Holds before after (do next (← Action.ofExcept ((← MonadReader.read).stageOf n))) good :=
  d.read (fun m => by simp only [stageOf_outline]) fun _ =>
    d.bind (d.ofExcept fun _ _ => trivial) fun stage _ => holds stage

theorem forM {step : α → Action Unit} {items : List α}
    (each : ∀ a ∈ items, d.Holds place place (step a) fun _ => True) :
    d.Holds place place (items.forM step) fun _ => True := by
  induction items with
  | nil => exact d.pure trivial
  | cons a items ih =>
    exact d.bind (each a List.mem_cons_self) fun _ _ =>
      ih fun b member => each b (List.mem_cons_of_mem a member)

theorem mapM {f : α → Action β} {items : List α} {good : β → Prop}
    (each : ∀ a ∈ items, d.Holds place place (f a) good) :
    d.Holds place place (items.mapM f) fun values => ∀ b ∈ values, good b := by
  induction items with
  | nil => exact d.pure (by simp)
  | cons a items ih =>
    rw [List.mapM_cons]
    refine d.bind (each a List.mem_cons_self) fun b first => ?_
    refine d.bind (ih fun b member => each b (List.mem_cons_of_mem a member)) fun values rest => ?_
    exact d.pure (List.forall_mem_cons.2 ⟨first, rest⟩)

theorem filterMapM {f : α → Action (Option β)} {items : List α} {good : β → Prop}
    (each : ∀ a ∈ items, d.Holds place place (f a) fun found => ∀ b, found = some b → good b) :
    d.Holds place place (items.filterMapM f) fun values => ∀ b ∈ values, good b := by
  induction items with
  | nil => exact d.pure (by simp)
  | cons a items ih =>
    have rest := ih fun b member => each b (List.mem_cons_of_mem a member)
    rw [List.filterMapM_cons]
    refine d.bind (each a List.mem_cons_self) fun found first => ?_
    cases found with
    | none => exact rest
    | some b =>
      exact d.bind rest fun values others =>
        d.pure (List.forall_mem_cons.2 ⟨first b rfl, others⟩)

theorem foldlM {step : β → α → Action β} {items : List α} {good : β → Prop}
    (each : ∀ acc, good acc → ∀ a ∈ items, d.Holds place place (step acc a) good) {acc : β}
    (start : good acc) : d.Holds place place (items.foldlM step acc) good := by
  induction items generalizing acc with
  | nil => exact d.pure start
  | cons a items ih =>
    rw [List.foldlM_cons]
    exact d.bind (each acc start a List.mem_cons_self) fun _ known =>
      ih (fun acc kept b member => each acc kept b (List.mem_cons_of_mem a member)) known

theorem search {rate : Rate} (suits : Suits stage rate) (key : Trait) (kind : Fallback)
    {give : Symbol → α} {fallback : Rate → Action α} {good : α → Prop}
    (gives : ∀ symbol, given.symbol key symbol → good (give symbol))
    (falls : d.Holds (some stage) (some stage) (fallback rate) good) :
    d.Holds (some stage) (some stage) (search n key rate kind give fallback) good := by
  refine d.bind (d.ask key rate kind) fun _ _ => ?_
  refine d.read (fun m => by rw [concreteRate_outline]) fun m => ?_
  rw [concreteRate_of_ne_auto suits.ne_auto]
  refine d.bind (d.seen? suits key) fun found known => ?_
  cases found with
  | some symbol => exact d.pure (gives symbol (known symbol rfl))
  | none => exact falls

theorem symbolOrInput {rate : Rate} (suits : Suits stage rate) (key : Trait) :
    d.Holds (some stage) (some stage) (symbolOrInput n key rate) (given.symbol key) :=
  d.search suits key .input (fun _ known => known) (d.inputSymbol suits key)

theorem symbolOrWarning (key : Trait) :
    d.Holds (some stage) (some stage) (symbolOrWarning n key (.stage stage)) fun found =>
      ∀ symbol, found = some symbol → given.expr symbol.expr := by
  show d.Holds _ _ (Material.search n key (.stage stage) .soft some fun rate => do
    Material.warn (.notVisible key.id rate n ((← MonadReader.read).node n).config.kind)
    return none) _
  refine d.search (suits_own stage) key .soft (fun symbol known other same => ?_) ?_
  · exact Option.some.inj same ▸ d.readable known
  · refine d.read (fun m => by rw [node_outline, Node.outline, Config.kind_uncoded]) fun m => ?_
    refine d.bind (d.warn _) fun _ _ => d.pure fun symbol impossible => ?_
    cases impossible

theorem exprOrInput {rate : Rate} (suits : Suits stage rate) (id : TraitId) :
    d.Holds (some stage) (some stage) (exprOrInput n id rate) given.expr :=
  d.bind (d.symbolOrInput suits (.ofId id)) fun _ known => d.pure (d.readable known)

theorem valueOrInput (id : TraitId) (type : DataType) :
    d.Holds (some stage) (some stage) (valueOrInput n id (.stage stage) type) given.expr :=
  d.bind (d.symbolOrInput (suits_own stage) (.ofId id)) fun _ known =>
    d.ofExcept fun _ converted => d.expressive.convertSymbol (d.readable known) converted

/-- A lookup that may come back without anything. -/
theorem lookupSoft (id : TraitId) (type : DataType) :
    d.Holds (some stage) (some stage) (lookupAs n (.ofId id) (.stage stage) type .soft) fun found =>
      ∀ text, found = some text → given.expr text := by
  refine d.bind (d.symbolOrWarning (.ofId id)) fun found known => ?_
  cases found with
  | none => exact d.pure fun _ impossible => by cases impossible
  | some symbol =>
    refine d.bind (d.ofExcept fun text converted =>
      d.expressive.convertSymbol (known symbol rfl) converted) fun text inside => d.pure ?_
    rintro _ ⟨⟩
    exact inside

theorem valueOr {absent : String} (default : given.expr absent) (id : TraitId)
    (type : DataType) :
    d.Holds (some stage) (some stage) (valueOr absent n id (.stage stage) type)
      given.expr := by
  refine d.bind (d.lookupSoft id type) fun found known => ?_
  cases found with
  | none => exact d.pure default
  | some text => exact d.pure (known text rfl)

theorem ensureAll {helpers : List (String × String)}
    (known : ∀ helper ∈ helpers, Helper given n config helper.1 helper.2) :
    d.Holds (some stage) (some stage) (ensureFunctions stage helpers) fun _ => True :=
  d.forM fun helper member => d.ensure (known helper member)

/-- A piece that shows three symbols, with its actions written out. -/
theorem publishThree {marker : Marker} {code : String} {i j k : TraitId} {t u v : DataType}
    {x y z : String} {p q r : Rate}
    (publishes : Publishes given n config
      ⟨stage, marker, code, [(i, ⟨x, t, p⟩), (j, ⟨y, u, q⟩), (k, ⟨z, v, r⟩)]⟩) :
    d.Holds (some stage) none (do
      commit stage marker code
      expose n i t x p
      expose n j u y q
      expose n k v z r) fun _ => True :=
  d.publish publishes

end Discipline

section Camera

variable {given : Given} {n : NodeId} {camera : Camera} (d : Discipline given n (.camera camera))

theorem Discipline.rayCode :
    d.Holds (some .pixel) (some .pixel) (rayCode n camera) fun code =>
      Publishes given n (.camera camera) ⟨.pixel, .texturize, code, rayShown n⟩ := by
  have expr (id : TraitId) := d.exprOrInput (suits_own .pixel) id
  refine d.bind (expr .resolution) fun resolution size => ?_
  split
  · refine d.bind (expr .view) fun view viewed => ?_
    split
    · exact d.bind (expr .projection) fun _ projected =>
        d.pure (.perspective camera size viewed projected)
    · exact d.bind (expr .fieldOfView) fun _ wide => d.pure (.panoramic camera size viewed wide)
  · exact d.bind (d.warn _) fun _ _ => d.pure (.flat camera size)

theorem Discipline.viewTransform :
    d.Holds (some .vertex) (some .vertex) (viewTransform n camera) fun transform =>
      transform = "" ∨ ∃ projection view, given.expr projection ∧ given.expr view ∧
        transform = s!"{projection} * {view} * " := by
  have expr (id : TraitId) := d.exprOrInput (suits_own .vertex) id
  unfold Emission.viewTransform
  dsimp only
  split
  · refine d.bind (expr .view) fun view viewed => ?_
    exact d.bind (expr .projection) fun projection projected =>
      d.pure (.inr ⟨projection, view, projected, viewed, rfl⟩)
  · exact d.bind (d.warn _) fun _ _ => d.pure (.inl rfl)

theorem Discipline.emitCamera : d.Holds none none (emitCamera n camera) fun _ => True := by
  refine d.staged fun stage => ?_
  split
  · apply d.opens
    exact d.bind d.rayCode fun code piece => d.publish piece
  · apply d.opens
    refine d.bind (d.valueOrInput .position .vec4) fun point placed => ?_
    exact d.bind d.viewTransform fun transform moved => d.publish (.place camera placed moved)
  · exact d.fail

end Camera

theorem sceneOf_outline (m : Material) (id : NodeId) : sceneOf m.outline id = sceneOf m id := by
  unfold sceneOf
  rw [node_outline, Node.outline]
  cases (m.node id).config <;> rfl

theorem anyGeometry_outline (m : Material) (topology : Topology) (scenes : List NodeId) :
    anyGeometry m.outline topology scenes = anyGeometry m topology scenes := by
  unfold anyGeometry
  congr 1
  funext id
  rw [node_outline, Node.outline]
  cases (m.node id).config <;> rfl

section Raster

variable {given : Given} {n : NodeId} {raster : Raster} (d : Discipline given n (.raster raster))

theorem Discipline.sceneArray (id : NodeId) (stage : Stage) :
    d.Holds (some stage) (some stage) (sceneArray raster.topology id stage) fun found =>
      ∀ array, found = some array → ∃ id, array.name = arrayName raster.topology id := by
  refine d.read (fun m => by simp only [sceneOf_outline]) fun m => ?_
  refine d.bind (d.ofExcept fun _ _ => trivial) fun scene _ => ?_
  dsimp only
  split
  · exact d.pure fun _ impossible => by cases impossible
  · refine d.bind (d.ensure (.shape raster)) fun _ _ => ?_
    refine d.bind (d.ensure (.array raster id scene)) fun _ _ => d.pure ?_
    rintro _ ⟨⟩
    exact ⟨id, rfl⟩

include d in
theorem Discipline.clip {projection view : String} (projected : given.expr projection)
    (viewed : given.expr view) (model : Option String) :
    (∀ text, model = some text → given.expr text) →
      given.expr (match model with
        | some model => s!"{projection} * {view} * {model}"
        | none => s!"{projection} * {view}") := by
  intro known
  have product {left right : String} (one : given.expr left) (two : given.expr right) :
      given.expr (left ++ " * " ++ right) :=
    d.expressive.operator (by decide) one two
  cases model with
  | none => exact product projected viewed
  | some model => exact product (product projected viewed) (known model rfl)

theorem Discipline.rasterPixels (scenes : List NodeId) :
    d.Holds (some .pixel) none (rasterPixels n raster scenes) fun _ => True := by
  have expr (id : TraitId) := d.exprOrInput (suits_own .pixel) id
  unfold Emission.rasterPixels
  dsimp only
  refine d.bind (d.filterMapM fun id _ => d.sceneArray id .pixel) fun arrays named => ?_
  split
  · exact d.failThen
  · refine d.bind (expr .projection) fun projection projected => ?_
    refine d.bind (expr .view) fun view viewed => ?_
    refine d.bind (expr .resolution) fun resolution size => ?_
    refine d.bind (d.lookupSoft .model .mat4) fun model known => ?_
    refine d.bind (d.ensureAll fun helper member => .search raster member) fun _ _ => ?_
    exact d.publishThree (.pixels raster (d.clip projected viewed model known) size named)

theorem Discipline.emitRaster : d.Holds none none (emitRaster n raster) fun _ => True := by
  refine d.read (fun m => by simp only [sceneChildren_outline]) fun m => ?_
  refine d.staged fun stage => ?_
  split
  · exact d.opens (d.rasterPixels _)
  · apply d.opens
    refine d.read (fun m => by simp only [anyGeometry_outline]) fun m => ?_
    dsimp only
    split
    · exact d.bind (d.valueOrInput .position .vec4) fun position placed =>
        d.publish (.vertices raster placed)
    · exact d.failThen
  · exact d.fail

end Raster

section Raymarch

variable {given : Given} {n : NodeId} {raymarch : Raymarch}
  (d : Discipline given n (.raymarch raymarch))

theorem Discipline.sceneDistance (id : NodeId) (stage : Stage) :
    d.Holds (some stage) (some stage) (sceneDistance id stage) fun found =>
      ∀ name, found = some name → name = s!"SceneSDF{id}" := by
  refine d.read (fun m => by simp only [sceneOf_outline]) fun m => ?_
  refine d.bind (d.ofExcept fun _ _ => trivial) fun scene _ => ?_
  split
  · exact d.pure fun _ impossible => by cases impossible
  · rename_i first rest listed
    have last : d.Holds (some stage) (some stage) (do
        ensureFunction stage s!"SceneSDF{id}" (Scene.distanceFunction s!"SceneSDF{id}" first rest)
        return some s!"SceneSDF{id}") fun found =>
          ∀ name, found = some name → name = s!"SceneSDF{id}" := by
      refine d.bind (d.ensure (.distance raymarch id listed)) fun _ _ => d.pure ?_
      rintro _ ⟨⟩
      rfl
    have solids : ∀ helper ∈ (first :: rest).map fun term => (term.helper, term.body),
        Helper given n (.raymarch raymarch) helper.1 helper.2 :=
      List.forall_mem_map.2 fun term member => .solid raymarch (listed ▸ member)
    refine d.bind (d.ensureAll solids) fun _ _ => ?_
    dsimp only
    split
    · exact last
    · exact d.bind (d.ensure (.union raymarch)) fun _ _ => last

theorem Discipline.emitRaymarch : d.Holds none none (emitRaymarch n raymarch) fun _ => True := by
  have vector (components : List String)
      (small : ∀ c ∈ components, c.toList.all Glsl.isSmall = true) :
      given.expr (Glsl.call "vec3" components) :=
    d.expressive.call (d.expressive.small (by decide)) fun c member =>
      d.expressive.small (small c member)
  refine d.staged fun stage => ?_
  refine d.read (fun m => by simp only [sceneChildren_outline]) fun m => ?_
  refine d.bind (d.ofExcept fun _ _ => trivial) fun scene _ => ?_
  apply d.opens
  refine d.bind (d.sceneDistance scene stage) fun found named => ?_
  split
  · rename_i distance
    obtain rfl := named distance rfl
    refine d.bind (d.valueOr (vector ["0.0", "0.0", "5.0"] (by decide)) .origin .vec3)
      fun origin start => ?_
    refine d.bind (d.valueOr (vector ["0.0", "0.0", "-1.0"] (by decide)) .aim .vec3)
      fun aim direction => ?_
    refine d.bind (d.ensure (.march raymarch scene)) fun _ _ => ?_
    refine d.bind (d.ensure (.normal raymarch scene)) fun _ _ => ?_
    exact d.publishThree (.surface raymarch stage start direction)
  · exact d.fail

end Raymarch

section Texture

variable {given : Given} {n : NodeId} {texture : Texture}
  (d : Discipline given n (.texture texture))

theorem Discipline.channelSamplers {place : Option Stage} :
    d.Holds place place (channelSamplers texture) fun samplers =>
      ∀ sampler ∈ samplers, given.sampler sampler.2 :=
  d.mapM fun _ _ => d.bind d.sampler fun _ named => d.pure named

theorem Discipline.animatedTexture {stage : Stage} {samplers : List (Nat × String)}
    (named : ∀ sampler ∈ samplers, given.sampler sampler.2) {uv : String}
    (placed : given.expr uv) :
    d.Holds (some stage) (some stage) (animatedTexture n stage texture samplers uv) fun code =>
      Publishes given n (.texture texture) ⟨stage, .mainBody stage, code, colorShown n stage⟩ := by
  refine d.bind (d.ensure (.sample texture named)) fun _ _ => ?_
  refine d.bind (d.ensure (.times texture)) fun _ _ => ?_
  refine d.bind (d.ensure (.channels texture)) fun _ _ => ?_
  exact d.bind (d.valueOrInput .time .float) fun time timed =>
    d.pure (.blend texture stage timed placed)

theorem Discipline.emitTexture : d.Holds none none (emitTexture n texture) fun _ => True := by
  refine d.staged fun stage => ?_
  apply d.opens
  refine d.bind d.channelSamplers fun samplers named => ?_
  refine d.bind (d.valueOrInput .sampler .vec2) fun uv placed => ?_
  dsimp only
  split
  · refine d.publish (.direct texture stage ?_ placed)
    cases samplers with
    | nil => exact .inl rfl
    | cons first rest => exact .inr (named first List.mem_cons_self)
  · exact d.bind (d.animatedTexture named placed) fun code piece => d.publish piece

end Texture

section Transform

variable {given : Given} {n : NodeId} {transform : Transform}
  (d : Discipline given n (.transform transform))

theorem Discipline.transformCode {stage : Stage} {point : String} (placed : given.expr point)
    (plan : TransformPlan) (planned : transform.plan = plan) :
    d.Holds (some stage) (some stage) (transformCode n point (.stage stage) plan) fun result =>
      result.1 = modelExpr n plan ∧ Publishes given n (.transform transform)
        ⟨stage, .mainBody stage, result.2, movedShown n stage plan⟩ := by
  cases plan with
  | identity => exact d.pure ⟨rfl, .still transform stage placed planned⟩
  | constant matrix => exact d.pure ⟨rfl, .moved transform stage placed planned⟩
  | animated changes =>
    exact d.bind (d.valueOrInput .time .float) fun time timed =>
      d.pure ⟨rfl, .animated transform stage placed timed planned⟩

theorem Discipline.emitTransform : d.Holds none none (emitTransform n transform) fun _ => True := by
  refine d.staged fun stage => ?_
  apply d.opens
  refine d.bind (d.ensureAll fun helper member => .transform transform member) fun _ _ => ?_
  refine d.bind (d.valueOrInput .position .vec4) fun point placed => ?_
  refine d.bind (d.transformCode placed _ rfl) fun result known => ?_
  obtain ⟨model, code⟩ := result
  obtain ⟨rfl, piece⟩ := known
  exact d.publish piece

end Transform

section Noise

variable {given : Given} {n : NodeId} {config : Config} (d : Discipline given n config)
  {stage : Stage}

theorem Discipline.ensureSimplex (dimensions : Nat) :
    d.Holds (some stage) (some stage) (ensureSimplex stage dimensions) fun name =>
      ∃ helpers, Noise.functions dimensions = .ok (helpers, name) := by
  refine d.bind (d.ofExcept fun _ known => known) fun result known => ?_
  obtain ⟨helpers, name⟩ := result
  exact d.bind (d.ensureAll fun helper member => .noise config known member) fun _ _ =>
    d.pure ⟨helpers, known⟩

theorem Discipline.ensureNoise (code : String) :
    d.Holds (some stage) (some stage) (ensureNoise stage code) fun _ => True := by
  have last : d.Holds (some stage) (some stage)
      (if Text.contains "SimplexNoise3D".toList code.toList
        then Functor.discard (Emission.ensureSimplex stage 3) else Pure.pure ()) fun _ => True := by
    split
    · exact d.discard (d.ensureSimplex 3)
    · exact d.pure trivial
  unfold Emission.ensureNoise
  dsimp only
  split
  · exact d.bind (d.discard (d.ensureSimplex 2)) fun _ _ => last
  · exact last

end Noise

section Fractal

variable {given : Given} {n : NodeId} {fractal : Fractal}
  (d : Discipline given n (.fractal fractal))

theorem Discipline.domain {config : Config} (d : Discipline given n config) (stage : Stage) :
    d.Holds (some stage) (some stage) (domain n stage) fun point =>
      given.expr point ∨ stage = .pixel ∧ ∃ resolution, given.expr resolution ∧
        point = s!"gl_FragCoord.xy / {resolution}" := by
  unfold Emission.domain
  split
  · rename_i here
    subst here
    have screen : d.Holds (some .pixel) (some .pixel) (do
        let resolution ← Material.exprOrInput n .resolution (.uniform .camera)
        return s!"gl_FragCoord.xy / {resolution}") fun point =>
          given.expr point ∨ Stage.pixel = .pixel ∧ ∃ resolution,
            given.expr resolution ∧ point = s!"gl_FragCoord.xy / {resolution}" :=
      d.bind (d.exprOrInput (.inr rfl) .resolution) fun resolution size =>
        d.pure (.inr ⟨rfl, resolution, size, rfl⟩)
    refine d.read (fun m => by simp only [find?_outline]) fun m => ?_
    dsimp only
    split
    · refine d.bind (d.lookupSoft .sampler .vec2) fun uv known => ?_
      cases uv with
      | some uv => exact d.pure (.inl (known uv rfl))
      | none => exact screen
    · exact screen
  · exact d.mono (fun _ => .inl) (d.valueOrInput .sampler .vec2)

theorem Discipline.emitFractal : d.Holds none none (emitFractal n fractal) fun _ => True := by
  refine d.staged fun stage => ?_
  apply d.opens
  refine d.bind (d.domain stage) fun point placed => ?_
  refine d.bind (d.ensureNoise fractal.code) fun _ _ => ?_
  refine d.bind (d.ensure (.sum fractal)) fun _ _ => ?_
  exact d.publish (.sum fractal stage rfl placed)

end Fractal

section Value

variable {e result : Running}

/-- The components of a vector are no texture, and stay what they are where the vector does. -/
theorem became_select {value : Option Json} (selected : select e value = .ok result) :
    (e.type.decay? = some e.type → result.type.decay? = some result.type) ∧
      result.type.isTexture = false := by
  unfold select at selected
  dsimp only at selected
  split at selected
  · rename_i family width shape
    split at selected
    · split at selected
      · rename_i type found
        obtain rfl := Except.ok.inj selected
        have part := DataType.vectorShape?_vector? found
        exact ⟨fun stays => (DataType.decay?_vector part).2
          ((DataType.decay?_vector shape).1 stays),
          DataType.isTexture_of_vectorShape? part⟩
      · cases selected
    · cases selected
  · cases selected

theorem became_project {matrix : Expression} (projected : project e matrix = .ok result) :
    result.type.decay? = some result.type ∧ result.type.isTexture = false := by
  unfold project at projected
  split at projected
  · rename_i dimension _
    obtain ⟨vector, -, projected⟩ := eq_ok_of_bind projected
    obtain rfl := Except.ok.inj projected
    show ((DataType.vector? .float dimension).getD .vec4).decay? = some _ ∧
      ((DataType.vector? .float dimension).getD .vec4).isTexture = false
    cases found : DataType.vector? .float dimension with
    | none => exact ⟨rfl, rfl⟩
    | some type =>
      have shape := DataType.vectorShape?_vector? found
      exact ⟨(DataType.decay?_vector shape).2 (.inl rfl), DataType.isTexture_of_vectorShape? shape⟩
  · cases projected

/-- A running value in the class of expressions, after some of the verbs on a value of a type. -/
structure Advances (given : Given) (start : DataType) (verbs : List VerbEntry) (e : Running) :
    Prop where
  inside : given.expr e.code
  became : Became verbs start e.type

theorem Advances.next {given : Given} {start : DataType} {verbs : List VerbEntry}
    (advances : Advances given start verbs e) {entry : VerbEntry} (member : entry ∈ verbs)
    (inside : given.expr result.code) (kept : entry.verb.keepsType = true → result.type = e.type)
    (stays : e.type.decay? = some e.type → result.type.decay? = some result.type)
    (plain : result.type.isTexture = true → e.type.isTexture = true) :
    Advances given start verbs result :=
  ⟨inside, fun all => (kept (all entry member)).trans (advances.became.kept all),
    fun first => stays (advances.became.stays first),
    fun texture => advances.became.plain (plain texture)⟩

variable {given : Given} {n : NodeId} {wrapped : Wrapped} (d : Discipline given n (.value wrapped))
  {stage : Stage}

theorem Discipline.operand (entry : VerbEntry) :
    d.Holds (some stage) (some stage) (operand n (.stage stage) entry) fun e =>
      given.expr e.code := by
  unfold Emission.operand
  split
  · refine d.bind (d.symbolOrInput (suits_own stage) _) fun symbol known => ?_
    exact d.bind (d.ofExcept fun _ _ => trivial) fun _ _ => d.pure (d.readable known)
  · exact d.ofExcept fun _ made => d.expressive.ofJson made
  · exact d.fail

theorem Discipline.randomize (inside : given.expr e.code)
    (seed : Option Expression) (seeded : ∀ other, seed = some other → given.expr other.code) :
    d.Holds (some stage) (some stage) (randomize stage e seed) fun result =>
      given.expr result.code ∧ result.type = .float := by
  refine d.bind (d.ofExcept fun _ placed => placed) fun result placed => ?_
  obtain ⟨dimensions, point⟩ := result
  have moved := d.expressive.seeded (d.expressive.noisePoint inside placed) seed seeded
  refine d.bind (d.ensureSimplex dimensions) fun function known => ?_
  obtain ⟨helpers, known⟩ := known
  have call (point : String) (within : given.expr point) :
      given.expr s!"{function}({point})" := by
    have same : s!"{function}({point})" = Glsl.call function [point] := by
      apply String.toList_inj.1
      simp [Glsl.call, toString_string]
    rw [same]
    exact d.expressive.call (d.callable known) (by simpa using within)
  exact d.pure ⟨call _ moved, rfl⟩

theorem Discipline.applyVerb {start : DataType} {verbs : List VerbEntry}
    (advances : Advances given start verbs e) {entry : VerbEntry} (member : entry ∈ verbs) :
    d.Holds (some stage) (some stage) (applyVerb n stage e entry) (Advances given start verbs) := by
  have operand : d.Holds (some stage) (some stage) (Emission.operand n (.stage stage) entry)
      fun e => given.expr e.code := d.operand entry
  have same (code : String) (product : Bool) (inside : given.expr code) :
      Advances given start verbs ⟨code, e.type, product⟩ :=
    advances.next member inside (fun _ => rfl) id id
  have aligned (wrap : String → String) (product : Bool)
      (wraps : ∀ right, given.expr right → given.expr (wrap right)) :
      d.Holds (some stage) (some stage)
        ((do Action.ofExcept (align (← Emission.operand n (.stage stage) entry) e.type)) >>=
          fun right => Pure.pure ⟨wrap right, e.type, product⟩)
        (Advances given start verbs) := by
    refine d.bind (d.bind operand fun right known =>
      d.ofExcept fun text made => d.expressive.align known made) fun text known => ?_
    exact d.pure (same _ product (wraps text known))
  have operator (symbol : String) (known : s!" {symbol} " ∈ Glsl.signs) (product : Bool) :=
    aligned (fun right => (applyOperator symbol product e right).code) product fun right within =>
      d.expressive.applyOperator known advances.inside within product
  have call (function right : String) (word : function.toList.all Glsl.isSmall = true)
      (within : given.expr right) : given.expr (Glsl.call function [e.code, right]) :=
    d.expressive.call (d.expressive.small word) (by simp [advances.inside, within])
  unfold Emission.applyVerb
  cases verb : entry.verb with
  | add => exact operator "+" (by decide) false
  | subtract => exact operator "-" (by decide) false
  | multiply => exact operator "*" (by decide) true
  | divide => exact operator "/" (by decide) true
  | modulate =>
    exact aligned (fun right => Glsl.call "mod" [e.code, right]) false fun right =>
      call "mod" right (by decide)
  | exponent =>
    refine d.bind operand fun right known => ?_
    refine d.bind (d.ofExcept fun text made => d.expressive.powerOperand known made)
      fun text within => d.pure (same _ false (call "pow" text (by decide) within))
  | randomize =>
    have random (seed : Option Expression)
        (seeded : ∀ other, seed = some other → given.expr other.code) :
        d.Holds (some stage) (some stage) (Emission.randomize stage e seed)
          (Advances given start verbs) :=
      d.mono (fun result known => advances.next member known.1 (by simp [verb, Verb.keepsType])
        (by simp [known.2, DataType.decay?]) (by simp [known.2, DataType.isTexture]))
        (d.randomize advances.inside seed seeded)
    dsimp only
    split
    · exact random none fun _ impossible => by cases impossible
    · refine d.bind (d.map (d.mono (fun seed known other same => ?_) operand)) random
      exact Option.some.inj same ▸ known
  | select =>
    refine d.ofExcept fun result selected => ?_
    obtain ⟨stays, plain⟩ := became_select selected
    exact advances.next member (d.expressive.select advances.inside selected)
      (by simp [verb, Verb.keepsType]) stays (by simp [plain])
  | project =>
    refine d.bind operand fun matrix known => d.ofExcept fun result projected => ?_
    obtain ⟨stays, plain⟩ := became_project projected
    exact advances.next member (d.expressive.project advances.inside known projected)
      (by simp [verb, Verb.keepsType]) (fun _ => stays) (by simp [plain])

theorem Discipline.wrappedValue (key : Trait) :
    d.Holds (some stage) (some stage) (wrappedValue n (.stage stage) key) fun e =>
      given.expr e.code ∧ Began given key e := by
  unfold Emission.wrappedValue
  split
  · rename_i value set
    refine d.ofExcept fun e made => ?_
    have made := eq_ok_of_withContext made
    exact ⟨d.expressive.ofJson made, .literal set made⟩
  · rename_i unset
    exact d.bind (d.symbolOrInput (suits_own stage) key) fun symbol known =>
      d.pure ⟨d.readable known, .symbol unset known⟩

theorem Discipline.emitValue : d.Holds none none (emitValue n wrapped) fun _ => True := by
  refine d.staged fun stage => ?_
  apply d.opens
  refine d.bind (d.wrappedValue wrapped.key) fun first began => ?_
  refine d.bind (d.ofExcept fun _ decays => decays) fun start decays => ?_
  have unchanged : Advances given start wrapped.verbs ⟨first.code, start, false⟩ :=
    ⟨began.1, fun _ => rfl, id, id⟩
  have verbs : d.Holds (some stage) (some stage)
      (wrapped.verbs.foldlM (Emission.applyVerb n stage) ⟨first.code, start, false⟩)
      (Advances given start wrapped.verbs) :=
    d.foldlM (fun _ advances _ member => d.applyVerb advances member) unchanged
  refine d.bind verbs fun result advances => ?_
  refine d.bind (d.ofExcept fun _ spelled => spelled) fun spelling spelled => ?_
  exact d.publish (.value wrapped stage began.2 decays advances.became advances.inside spelled)

end Value

theorem Discipline.emit {given : Given} {n : NodeId} {config : Config}
    (d : Discipline given n config) : d.Holds none none (emit n config) fun _ => True := by
  cases config with
  | root | scene => exact d.pure trivial
  | camera => exact d.emitCamera
  | raster => exact d.emitRaster
  | raymarch => exact d.emitRaymarch
  | transform => exact d.emitTransform
  | texture => exact d.emitTexture
  | value => exact d.emitValue
  | fractal => exact d.emitFractal
  | light | raycast | raytrace => exact d.fail

end Emission

end GlslMaterial
