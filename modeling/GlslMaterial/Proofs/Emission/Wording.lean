import GlslMaterial.Proofs.Emission.Discipline
import GlslMaterial.Proofs.Glsl.Reserved

/-!
The wording of nodes: the helpers that they declare have no reserved words, and neither has the code
that they write around the expressions that they are given. Code of pixels may name what the
pipeline gives to a pixel.
-/

set_option autoImplicit false

namespace GlslMaterial

open Glsl (isInline isOrdinary isUnmarked admits_inline admits_ordinary admits_unmarked
  madeOf_literal lacks_of_ordinary expressive_inline)
open Text (madeOf madeOf_append)

theorem ordinary_block (parts : List String) :
    madeOf isOrdinary (Text.block parts) = parts.all (madeOf isOrdinary) :=
  Text.madeOf_block rfl parts

theorem unmarked_block (parts : List String) :
    madeOf isUnmarked (Text.block parts) = parts.all (madeOf isUnmarked) :=
  Text.madeOf_block rfl parts

theorem inline_numbered {stem : String} (word : madeOf isInline stem = true) (n : Nat) :
    madeOf isInline s!"{stem}{n}" = true := by
  simp only [toString_string, madeOf_append, word, admits_inline.nat, Bool.and_true]

theorem ordinary_constantArray {type name : String} (word : madeOf isOrdinary type = true)
    (named : madeOf isOrdinary name = true) {items : List String}
    (each : ∀ item ∈ items, madeOf isOrdinary item = true) :
    madeOf isOrdinary (Glsl.constantArray type name items) = true := by
  have listed : items.all (madeOf isOrdinary) = true := List.all_eq_true.2 each
  unfold Glsl.constantArray
  simp only [toString_string, madeOf_append, admits_ordinary.call, admits_ordinary.nat, word, named,
    listed, Bool.true_and, Bool.and_true, Bool.and_eq_true]
  and_intros <;> exact madeOf_literal (by decide)

namespace Noise

/-- A line with an underscore that lacks the capital letter of the position. -/
theorem lacks_literal {text : List Char}
    (free : (text.all isUnmarked && (text.all (· != '_') || text.all (· != 'P'))) = true) :
    lacks reserved (String.ofList text) = true := by
  obtain ⟨unmarked, missing⟩ := Bool.and_eq_true_iff.1 free
  refine lacks_reserved_iff.2 ⟨Glsl.lacks_of_unmarked (madeOf_literal unmarked), lacks_iff.2 ?_⟩
  intro word member found
  rw [List.mem_singleton.1 member] at found
  rcases Bool.or_eq_true_iff.1 missing with underscore | capital
  · have inside : '_' ∈ (String.ofList text).toList := found.subset (by decide)
    rw [String.toList_ofList] at inside
    simpa using List.all_eq_true.1 underscore '_' inside
  · have inside : 'P' ∈ (String.ofList text).toList := found.subset (by decide)
    rw [String.toList_ofList] at inside
    simpa using List.all_eq_true.1 capital 'P' inside

theorem lacks_wraps :
    lacks reserved wrap2 = true ∧ lacks reserved wrap3 = true ∧ lacks reserved wrap4 = true := by
  refine ⟨?_, ?_, ?_⟩
  all_goals
    apply lacks_of_ordinary
    simp only [wrap2, wrap3, wrap4, ordinary_block, List.all_cons, List.all_nil, Bool.and_true,
      Bool.and_eq_true]
    and_intros <;> exact madeOf_literal (by decide)

theorem lacks_permutes : lacks reserved permute3 = true ∧ lacks reserved permute4 = true := by
  refine ⟨?_, ?_⟩
  all_goals
    apply lacks_of_ordinary
    simp only [permute3, permute4, ordinary_block, List.all_cons, List.all_nil, Bool.and_true,
      Bool.and_eq_true]
    and_intros <;> exact madeOf_literal (by decide)

theorem lacks_simplex2 : lacks reserved simplex2 = true := by
  apply lacks_of_ordinary
  simp only [simplex2, ordinary_block, List.all_cons, List.all_nil, madeOf_append, Bool.and_true,
    Bool.and_eq_true, -String.reduceAppend]
  and_intros <;> exact madeOf_literal (by decide)

theorem lacks_simplex3 : lacks reserved simplex3 = true := by
  have long : lacks reserved
      ("    vec4 norm = 1.79284291400159 - 0.85373472095314 * vec4(dot(p0, p0), dot(p1, p1), " ++
        "dot(p2, p2), dot(p3, p3));") = true := by
    apply lacks_of_ordinary
    simp only [madeOf_append, Bool.and_eq_true, -String.reduceAppend]
    and_intros <;> exact madeOf_literal (by decide)
  apply lacks_block fun _ member => member
  apply List.all_eq_true.1
  simp only [List.all_cons, List.all_nil, long, Bool.true_and, Bool.and_true, Bool.and_eq_true,
    -String.reduceAppend]
  and_intros <;> exact lacks_literal (by decide)

theorem lacks_functions {dimensions : Nat} {helpers : List (String × String)} {name : String}
    (given : functions dimensions = .ok (helpers, name)) :
    madeOf isInline name = true ∧ ∀ helper ∈ helpers, lacks reserved helper.2 = true := by
  match dimensions, given with
  | 2, given =>
    obtain ⟨rfl, rfl⟩ := Prod.mk.inj (Except.ok.inj given)
    refine ⟨madeOf_literal (by decide), ?_⟩
    simp only [List.forall_mem_cons, List.not_mem_nil, false_implies, implies_true, and_true]
    exact ⟨lacks_wraps.1, lacks_wraps.2.1, lacks_permutes.1, lacks_simplex2⟩
  | 3, given =>
    obtain ⟨rfl, rfl⟩ := Prod.mk.inj (Except.ok.inj given)
    refine ⟨madeOf_literal (by decide), ?_⟩
    simp only [List.forall_mem_cons, List.not_mem_nil, false_implies, implies_true, and_true]
    exact ⟨lacks_wraps.2.1, lacks_wraps.2.2, lacks_permutes.2, lacks_simplex3⟩

end Noise

namespace Raster

theorem lacks_helpers : lacks reserved resultStruct = true ∧ lacks reserved edgeHelper = true := by
  refine ⟨?_, ?_⟩
  all_goals
    apply lacks_of_ordinary
    simp only [resultStruct, edgeHelper, ordinary_block, List.all_cons, List.all_nil,
      Bool.and_true, Bool.and_eq_true]
    and_intros <;> exact madeOf_literal (by decide)

theorem lacks_triangleFunction {name : String} (named : madeOf isInline name = true)
    (cull : Cull) : lacks reserved (triangleFunction name cull) = true := by
  have tested : (cullTest cull).all (madeOf isOrdinary) = true := by
    cases cull with
    | twoSided => rfl
    | normal | flipped =>
      simp only [cullTest, List.all_cons, List.all_nil, Bool.and_true]
      exact madeOf_literal (by decide)
  apply lacks_of_ordinary
  simp only [triangleFunction, ordinary_block, List.all_append, tested, List.all_cons,
    List.all_nil, toString_string, madeOf_append, admits_ordinary.madeOf named, Bool.and_true,
    Bool.and_eq_true, -String.reduceAppend]
  and_intros <;> exact madeOf_literal (by decide)

theorem lacks_lineFunction {name : String} (named : madeOf isInline name = true) :
    lacks reserved (lineFunction name) = true := by
  apply lacks_of_ordinary
  simp only [lineFunction, ordinary_block, List.all_cons, List.all_nil, toString_string,
    madeOf_append, admits_ordinary.madeOf named, Bool.and_true, Bool.and_eq_true]
  and_intros <;> exact madeOf_literal (by decide)

end Raster

namespace Scene

theorem lacks_structFor (topology : Topology) : lacks reserved (structFor topology) = true := by
  apply lacks_of_ordinary
  cases topology with
  | triangle =>
    simp only [structFor, triangleStruct, ordinary_block, List.all_cons, List.all_nil,
      Bool.and_true, Bool.and_eq_true]
    and_intros <;> exact madeOf_literal (by decide)
  | line =>
    simp only [structFor, lineStruct, ordinary_block, List.all_cons, List.all_nil, Bool.and_true,
      Bool.and_eq_true]
    and_intros <;> exact madeOf_literal (by decide)

theorem inline_vec (v : Vec3) (uv : Vec2) :
    madeOf isInline (Glsl.vec3 v) = true ∧ madeOf isInline (Glsl.vec2 uv) = true :=
  ⟨expressive_inline.components (madeOf_literal (by decide)) _,
    expressive_inline.components (madeOf_literal (by decide)) _⟩

/-- Primitives are written as expressions. -/
theorem inline_literals (s : Scene) (topology : Topology) :
    ∀ item ∈ s.literals topology, madeOf isInline item = true := by
  intro item member
  have triangle : madeOf isInline "Triangle" = true := madeOf_literal (by decide)
  have line : madeOf isInline "Line" = true := madeOf_literal (by decide)
  cases topology with
  | triangle =>
    obtain ⟨t, -, rfl⟩ := List.mem_map.1 member
    simp [triangleLiteral, admits_inline.call, triangle, inline_vec _ default,
      (inline_vec default _).2]
  | line =>
    obtain ⟨l, -, rfl⟩ := List.mem_map.1 member
    simp [lineLiteral, admits_inline.call, line, inline_vec _ default, (inline_vec default _).2]

theorem lacks_arrayDeclaration {type name : String} (word : madeOf isInline type = true)
    (named : madeOf isInline name = true) {items : List String}
    (each : ∀ item ∈ items, madeOf isInline item = true) :
    lacks reserved (arrayDeclaration type name items) = true := by
  have indented : (items.map ("    " ++ ·)).all (madeOf isOrdinary) = true := by
    simp only [List.all_map, List.all_eq_true, Function.comp_def, madeOf_append, Bool.and_eq_true]
    intro item member
    exact ⟨madeOf_literal (by decide), admits_ordinary.madeOf (each item member)⟩
  have comma : madeOf isOrdinary ",\n" = true := madeOf_literal (by decide)
  apply lacks_of_ordinary
  unfold arrayDeclaration
  simp only [toString_string, madeOf_append, admits_ordinary.nat, admits_ordinary.madeOf word,
    admits_ordinary.madeOf named, Text.madeOf_intercalate comma, indented, Bool.and_true,
    Bool.and_eq_true]
  and_intros <;> exact madeOf_literal (by decide)

theorem lacks_helpers : lacks reserved unionHelper = true ∧
    lacks reserved Primitive.boxHelper = true ∧ lacks reserved Primitive.sphereHelper = true := by
  refine ⟨?_, ?_, ?_⟩
  all_goals
    apply lacks_of_ordinary
    simp only [unionHelper, Primitive.boxHelper, Primitive.sphereHelper, ordinary_block,
      List.all_cons, List.all_nil, Bool.and_true, Bool.and_eq_true]
    and_intros <;> exact madeOf_literal (by decide)

theorem inline_fromCenter (p : Primitive) : madeOf isInline (p.fromCenter "point") = true := by
  have point : madeOf isInline "point" = true := madeOf_literal (by decide)
  unfold Primitive.fromCenter
  split
  · exact point
  · simp only [toString_string, madeOf_append, point, (inline_vec p.center default).1,
      Bool.true_and, Bool.and_true]
    exact madeOf_literal (by decide)

theorem lacks_distances {s : Scene} {term : Distance} (member : term ∈ s.distances) :
    madeOf isInline term.expr = true ∧ lacks reserved term.body = true := by
  obtain ⟨p, -, given⟩ := List.mem_filterMap.1 member
  have box : madeOf isInline "SDFBox" = true := madeOf_literal (by decide)
  have sphere : madeOf isInline "SDFSphere" = true := madeOf_literal (by decide)
  unfold Primitive.distance? at given
  split at given
  · obtain rfl := Option.some.inj given
    refine ⟨?_, lacks_helpers.2.1⟩
    simp [admits_inline.call, box, inline_fromCenter, (inline_vec _ default).1]
  · obtain rfl := Option.some.inj given
    refine ⟨?_, lacks_helpers.2.2⟩
    simp [admits_inline.call, sphere, inline_fromCenter, admits_inline.float32]
  all_goals cases given

theorem inline_foldl_union {terms : List String}
    (each : ∀ term ∈ terms, madeOf isInline term = true) {first : String}
    (start : madeOf isInline first = true) :
    madeOf isInline (terms.foldl union first) = true := by
  have word : madeOf isInline "SDFUnion" = true := madeOf_literal (by decide)
  induction terms generalizing first with
  | nil => exact start
  | cons term terms ih =>
    have next : madeOf isInline (union first term) = true := by
      simp [union, admits_inline.call, word, start, each term List.mem_cons_self]
    exact ih (fun other member => each other (List.mem_cons_of_mem term member)) next

theorem lacks_distanceFunction {name : String} (named : madeOf isInline name = true)
    {first : Distance} {rest : List Distance}
    (each : ∀ term ∈ first :: rest, madeOf isInline term.expr = true) :
    lacks reserved (distanceFunction name first rest) = true := by
  have all : madeOf isInline ((rest.map Distance.expr).foldl union first.expr) = true := by
    apply inline_foldl_union
    · intro expr member
      obtain ⟨term, listed, rfl⟩ := List.mem_map.1 member
      exact each term (List.mem_cons_of_mem first listed)
    · exact each first List.mem_cons_self
  apply lacks_of_ordinary
  unfold distanceFunction
  simp only [ordinary_block, List.all_cons, List.all_nil, toString_string, madeOf_append,
    admits_ordinary.madeOf named, admits_ordinary.madeOf all, Bool.and_true, Bool.and_eq_true]
  and_intros <;> exact madeOf_literal (by decide)

end Scene

namespace Raymarch

theorem lacks_marchFunction (r : Raymarch) {name distance : String}
    (named : madeOf isInline name = true) (inline : madeOf isInline distance = true) :
    lacks reserved (r.marchFunction name distance) = true := by
  apply lacks_of_ordinary
  unfold marchFunction
  simp only [ordinary_block, List.all_cons, List.all_nil, toString_string, madeOf_append,
    admits_ordinary.madeOf named, admits_ordinary.madeOf inline, admits_ordinary.nat,
    admits_ordinary.float64, Bool.and_true, Bool.and_eq_true]
  and_intros <;> exact madeOf_literal (by decide)

theorem lacks_normalFunction (r : Raymarch) {name distance : String}
    (named : madeOf isInline name = true) (inline : madeOf isInline distance = true) :
    lacks reserved (r.normalFunction name distance) = true := by
  apply lacks_of_ordinary
  unfold normalFunction
  simp only [ordinary_block, List.all_cons, List.all_nil, toString_string, madeOf_append,
    admits_ordinary.madeOf named, admits_ordinary.madeOf inline, admits_ordinary.float64,
    Bool.and_true, Bool.and_eq_true]
  and_intros <;> exact madeOf_literal (by decide)

end Raymarch

namespace Texture

theorem lacks_sampleFunction {name : String} (named : madeOf isInline name = true)
    {samplers : List (Nat × String)} (each : ∀ s ∈ samplers, madeOf isInline s.2 = true) :
    lacks reserved (sampleFunction name samplers) = true := by
  have tests : (samplers.dropLast.map fun s =>
      s!"    if (channel == {s.1}) return texture({s.2}, uv);").all (madeOf isOrdinary) = true := by
    apply List.all_eq_true.2
    intro line member
    obtain ⟨s, listed, rfl⟩ := List.mem_map.1 member
    have sampler := admits_ordinary.madeOf (each s (List.dropLast_subset samplers listed))
    simp only [toString_string, madeOf_append, admits_ordinary.nat, sampler, Bool.and_true,
      Bool.and_eq_true]
    and_intros <;> exact madeOf_literal (by decide)
  apply lacks_of_ordinary
  unfold sampleFunction
  simp only [ordinary_block, List.all_append, List.all_cons, List.all_nil, toString_string,
    madeOf_append, admits_ordinary.madeOf named, Bool.and_true, Bool.and_eq_true]
  refine ⟨⟨⟨?_, ?_⟩, tests⟩, ?_, ?_⟩
  · exact madeOf_literal (by decide)
  · exact madeOf_literal (by decide)
  · split
    · rename_i channel sampler found
      have inline := admits_ordinary.madeOf (each _ (List.mem_of_getLast? found))
      simp only [madeOf_append, inline, Bool.and_true, Bool.and_eq_true]
      and_intros <;> exact madeOf_literal (by decide)
    · exact madeOf_literal (by decide)
  · exact madeOf_literal (by decide)

end Texture

namespace Transform

theorem lacks_catmullRom : lacks reserved catmullRom = true := by
  apply lacks_of_ordinary
  simp only [catmullRom, ordinary_block, List.all_cons, List.all_nil, madeOf_append, Bool.and_true,
    Bool.and_eq_true, -String.reduceAppend]
  and_intros <;> exact madeOf_literal (by decide)

theorem lacks_quaternionBlend : lacks reserved quaternionBlend = true := by
  apply lacks_of_ordinary
  simp only [quaternionBlend, ordinary_block, List.all_cons, List.all_nil, Bool.and_true,
    Bool.and_eq_true]
  and_intros <;> exact madeOf_literal (by decide)

theorem lacks_composeModel : lacks reserved composeModel = true := by
  apply lacks_of_ordinary
  simp only [composeModel, ordinary_block, List.all_cons, List.all_nil, madeOf_append,
    Bool.and_true, Bool.and_eq_true, -String.reduceAppend]
  and_intros <;> exact madeOf_literal (by decide)

/-- Both texts of a channel have ordinary characters. -/
def Channel.IsOrdinary (channel : Channel) : Prop :=
  madeOf isOrdinary channel.definition = true ∧ madeOf isOrdinary channel.blend = true

variable {values : List String}

theorem isOrdinary_constantChannel (n : Nat) {label type : String}
    (named : madeOf isOrdinary label = true) (word : madeOf isOrdinary type = true)
    (each : ∀ value ∈ values, madeOf isOrdinary value = true) :
    (constantChannel n label type values).IsOrdinary := by
  have first : madeOf isOrdinary (values.headD "") = true := by
    cases values with
    | nil => exact madeOf_literal (by decide)
    | cons value values => exact each value List.mem_cons_self
  unfold Channel.IsOrdinary constantChannel
  simp only [toString_string, madeOf_append, admits_ordinary.nat, named, word, first, Bool.and_true,
    Bool.and_eq_true]
  and_intros <;> exact madeOf_literal (by decide)

theorem isOrdinary_vectorChannel (n : Nat) {label : String} (named : madeOf isOrdinary label = true)
    (each : ∀ value ∈ values, madeOf isOrdinary value = true) :
    (vectorChannel n label values).IsOrdinary := by
  have name : madeOf isOrdinary s!"Keyframe{label}s{n}" = true := by
    simp only [toString_string, madeOf_append, admits_ordinary.nat, named, Bool.and_true,
      Bool.and_eq_true]
    and_intros <;> exact madeOf_literal (by decide)
  refine ⟨ordinary_constantArray (madeOf_literal (by decide)) name each, ?_⟩
  unfold vectorChannel
  simp only [toString_string, madeOf_append, admits_ordinary.call, admits_ordinary.nat, named,
    List.all_cons, List.all_nil, Bool.and_true, Bool.and_eq_true]
  and_intros <;> exact madeOf_literal (by decide)

theorem isOrdinary_rotationChannel (n : Nat)
    (each : ∀ value ∈ values, madeOf isOrdinary value = true) :
    (rotationChannel n values).IsOrdinary := by
  have name : madeOf isOrdinary s!"KeyframeRotations{n}" = true := by
    simp only [toString_string, madeOf_append, admits_ordinary.nat, Bool.and_true]
    exact madeOf_literal (by decide)
  refine ⟨ordinary_constantArray (madeOf_literal (by decide)) name each, ?_⟩
  unfold rotationChannel
  simp only [toString_string, madeOf_append, admits_ordinary.nat, Bool.and_true, Bool.and_eq_true]
  and_intros <;> exact madeOf_literal (by decide)

theorem lacks_interpolateFunction (n last : Nat) {position scale rotation : Channel}
    (positions : position.IsOrdinary) (scales : scale.IsOrdinary)
    (rotations : rotation.IsOrdinary) :
    lacks reserved (interpolateFunction n last position scale rotation) = true := by
  apply lacks_of_ordinary
  unfold interpolateFunction
  simp only [ordinary_block, List.all_cons, List.all_nil, toString_string, madeOf_append,
    admits_ordinary.nat, positions.2, scales.2, rotations.2, Bool.and_true, Bool.and_eq_true]
  and_intros <;> exact madeOf_literal (by decide)

theorem lacks_animateFunction (n last : Nat) (firstTime lastTime : Float32) :
    lacks reserved (animateFunction n last firstTime lastTime) = true := by
  apply lacks_of_ordinary
  unfold animateFunction
  simp only [ordinary_block, List.all_cons, List.all_nil, toString_string, madeOf_append,
    admits_ordinary.nat, admits_ordinary.float32, Bool.and_true, Bool.and_eq_true]
  and_intros <;> exact madeOf_literal (by decide)

theorem ordinary_map_components {α : Type} {type : String} (word : madeOf isInline type = true)
    (part : α → List Float32) (items : List α) :
    ∀ value ∈ items.map fun item => Glsl.components type (part item),
      madeOf isOrdinary value = true := by
  intro value member
  obtain ⟨item, -, rfl⟩ := List.mem_map.1 member
  exact admits_ordinary.madeOf (expressive_inline.components word _)

theorem lacks_animatedFunctions (n : Nat) (keys : List Keyframe) (changes : Changes) :
    ∀ helper ∈ animatedFunctions n keys changes, lacks reserved helper.2 = true := by
  have vec3 : madeOf isInline "vec3" = true := madeOf_literal (by decide)
  have vec4 : madeOf isInline "vec4" = true := madeOf_literal (by decide)
  have vector (label : String) (named : madeOf isOrdinary label = true) (change : Bool)
      (part : Keyframe → Vec3) : (positionOrScale n label change
        (keys.map fun k => Glsl.vec3 (part k))).IsOrdinary := by
    have each := ordinary_map_components vec3 (fun k => (part k).toList) keys
    unfold positionOrScale
    split
    · exact isOrdinary_vectorChannel n named each
    · exact isOrdinary_constantChannel n named (admits_ordinary.madeOf vec3) each
  have positions := vector "Position" (madeOf_literal (by decide)) changes.position
    Keyframe.position
  have scales := vector "Scale" (madeOf_literal (by decide)) changes.scale Keyframe.scale
  have rotations : (rotationOf n changes.rotation
      (keys.map fun k => Glsl.quaternion k.rotation)).IsOrdinary := by
    have each := ordinary_map_components vec4 (fun k : Keyframe => k.rotation.toList) keys
    unfold rotationOf
    split
    · exact isOrdinary_rotationChannel n each
    · exact isOrdinary_constantChannel n (madeOf_literal (by decide))
        (admits_ordinary.madeOf vec4) each
  have named (stem : String) (word : madeOf isInline stem = true) :
      madeOf isOrdinary s!"{stem}{n}" = true :=
    admits_ordinary.madeOf (inline_numbered word n)
  have times : ∀ value ∈ (keys.map Keyframe.time).map Glsl.float32,
      madeOf isOrdinary value = true := by
    intro value member
    obtain ⟨x, -, rfl⟩ := List.mem_map.1 member
    exact admits_ordinary.float32 x
  have codes : ∀ value ∈ keys.map fun k => k.interpolator.code, madeOf isOrdinary value = true := by
    intro value member
    obtain ⟨k, -, rfl⟩ := List.mem_map.1 member
    cases k.interpolator <;> exact madeOf_literal (by decide)
  unfold animatedFunctions
  simp only [List.forall_mem_append, List.forall_mem_cons, List.not_mem_nil, false_implies,
    implies_true, and_true]
  refine ⟨⟨⟨?_, ?_, lacks_of_ordinary positions.1, lacks_of_ordinary scales.1,
    lacks_of_ordinary rotations.1, lacks_catmullRom⟩, ?_⟩, lacks_composeModel,
    lacks_interpolateFunction n _ positions scales rotations, lacks_animateFunction n _ _ _⟩
  · exact lacks_of_ordinary (ordinary_constantArray (madeOf_literal (by decide))
      (named "KeyframeTimes" (madeOf_literal (by decide))) times)
  · exact lacks_of_ordinary (ordinary_constantArray (madeOf_literal (by decide))
      (named "KeyframeInterpolators" (madeOf_literal (by decide))) codes)
  · split
    · simpa using lacks_quaternionBlend
    · simp

theorem lacks_transform_functions (n : Nat) (t : Transform) :
    ∀ helper ∈ t.functions n, lacks reserved helper.2 = true := by
  unfold functions
  split
  · simp only [List.forall_mem_cons, List.not_mem_nil, false_implies, implies_true, and_true]
    apply lacks_of_ordinary
    simp only [ordinary_block, List.all_cons, List.all_nil, toString_string, madeOf_append,
      admits_ordinary.nat, Bool.and_true, Bool.and_eq_true]
    and_intros <;> exact madeOf_literal (by decide)
  · rename_i matrix _
    have inline : madeOf isInline (Glsl.mat4 matrix) = true :=
      expressive_inline.components (madeOf_literal (by decide)) _
    simp only [List.forall_mem_cons, List.not_mem_nil, false_implies, implies_true, and_true]
    apply lacks_of_ordinary
    simp only [toString_string, madeOf_append, admits_ordinary.nat, admits_ordinary.madeOf inline,
      Bool.and_true, Bool.and_eq_true]
    and_intros <;> exact madeOf_literal (by decide)
  · exact lacks_animatedFunctions n t.keyframes _

end Transform

namespace Emission

variable {resolution : String}

theorem unmarked_flatRay (n : NodeId) (inline : madeOf isInline resolution = true) :
    madeOf isUnmarked (flatRay n resolution) = true := by
  unfold flatRay
  simp only [unmarked_block, List.all_cons, List.all_nil, toString_string, madeOf_append,
    admits_unmarked.nat, admits_unmarked.madeOf inline, Bool.and_true, Bool.and_eq_true]
  and_intros <;> exact madeOf_literal (by decide)

theorem unmarked_perspectiveRay (n : NodeId) {view projection : String}
    (size : madeOf isInline resolution = true) (viewed : madeOf isInline view = true)
    (projected : madeOf isInline projection = true) :
    madeOf isUnmarked (perspectiveRay n resolution view projection) = true := by
  unfold perspectiveRay
  simp only [unmarked_block, List.all_cons, List.all_nil, toString_string, madeOf_append,
    admits_unmarked.nat, admits_unmarked.madeOf size, admits_unmarked.madeOf viewed,
    admits_unmarked.madeOf projected, Bool.and_true, Bool.and_eq_true, -String.reduceAppend]
  and_intros <;> exact madeOf_literal (by decide)

theorem unmarked_panoramicRay (n : NodeId) {view fieldOfView : String}
    (size : madeOf isInline resolution = true) (viewed : madeOf isInline view = true)
    (angle : madeOf isInline fieldOfView = true) :
    madeOf isUnmarked (panoramicRay n resolution view fieldOfView) = true := by
  unfold panoramicRay
  simp only [unmarked_block, List.all_cons, List.all_nil, toString_string, madeOf_append,
    admits_unmarked.nat, admits_unmarked.madeOf size, admits_unmarked.madeOf viewed,
    admits_unmarked.madeOf angle, Bool.true_and, Bool.and_true, Bool.and_eq_true,
    -String.reduceAppend]
  and_intros <;> exact madeOf_literal (by decide)

theorem lacks_rasterFunction (n : NodeId) (raster : Raster) :
    madeOf isInline (rasterFunction n raster).1 = true ∧
      ∀ helper ∈ (rasterFunction n raster).2, lacks reserved helper.2 = true := by
  unfold rasterFunction
  split
  · have named : madeOf isInline s!"RasterizeTriangle{n}" = true :=
      inline_numbered (madeOf_literal (by decide)) n
    refine ⟨named, ?_⟩
    simp only [List.forall_mem_cons, List.not_mem_nil, false_implies, implies_true, and_true]
    exact ⟨Raster.lacks_helpers.2, Raster.lacks_triangleFunction named raster.cull⟩
  · have named : madeOf isInline s!"RasterizeLine{n}" = true :=
      inline_numbered (madeOf_literal (by decide)) n
    refine ⟨named, ?_⟩
    simp only [List.forall_mem_cons, List.not_mem_nil, false_implies, implies_true, and_true]
    exact Raster.lacks_lineFunction named

theorem inline_lineWidth (inline : madeOf isInline resolution = true)
    (topology : Topology) : madeOf isInline (lineWidth resolution topology) = true := by
  cases topology with
  | triangle => exact madeOf_literal (by decide)
  | line =>
    simp only [lineWidth, toString_string, madeOf_append, inline, Bool.and_true, Bool.and_eq_true]
    and_intros <;> exact madeOf_literal (by decide)

theorem unmarked_rasterCode (n : NodeId) {clip function extra : String}
    (clipped : madeOf isInline clip = true) (size : madeOf isInline resolution = true)
    (named : madeOf isInline function = true) (more : madeOf isInline extra = true)
    {arrays : List PrimitiveArray} (each : ∀ array ∈ arrays, madeOf isInline array.name = true) :
    madeOf isUnmarked (rasterCode n clip resolution function extra arrays) = true := by
  have loops : (arrays.flatMap (rasterLoop n function extra)).all (madeOf isUnmarked) = true := by
    apply List.all_eq_true.2
    intro line member
    obtain ⟨array, listed, inside⟩ := List.mem_flatMap.1 member
    have loop : (rasterLoop n function extra array).all (madeOf isUnmarked) = true := by
      unfold rasterLoop
      simp only [List.all_cons, List.all_nil, toString_string, madeOf_append, admits_unmarked.nat,
        admits_unmarked.madeOf named, admits_unmarked.madeOf more,
        admits_unmarked.madeOf (each array listed), Bool.and_true, Bool.and_eq_true,
        -String.reduceAppend]
      and_intros <;> exact madeOf_literal (by decide)
    exact List.all_eq_true.1 loop line inside
  unfold rasterCode
  simp only [unmarked_block, List.all_append, loops, List.all_cons, List.all_nil, toString_string,
    madeOf_append, admits_unmarked.nat, admits_unmarked.madeOf clipped,
    admits_unmarked.madeOf size, Bool.and_true, Bool.and_eq_true]
  and_intros <;> exact madeOf_literal (by decide)

theorem lacks_raymarchCode (n : NodeId) (stage : Stage) {origin aim : String}
    (start : madeOf isInline origin = true) (direction : madeOf isInline aim = true) :
    lacks reserved (raymarchCode n stage origin aim) = true := by
  have missed : (if stage = .pixel then [s!"if (raymarchDepth{n} < 0.0) discard;"] else []).all
      (madeOf isOrdinary) = true := by
    split
    · simp only [List.all_cons, List.all_nil, toString_string, madeOf_append, admits_ordinary.nat,
        Bool.and_true, Bool.and_eq_true]
      and_intros <;> exact madeOf_literal (by decide)
    · rfl
  apply lacks_of_ordinary
  rw [raymarchCode, ordinary_block, List.all_append, List.all_append, missed]
  simp only [List.all_cons, List.all_nil, toString_string, madeOf_append, admits_ordinary.nat,
    admits_ordinary.madeOf start, admits_ordinary.madeOf direction, Bool.and_true,
    Bool.and_eq_true, -String.reduceAppend]
  and_intros <;> exact madeOf_literal (by decide)

theorem lacks_blendCode (n : NodeId) (last : Nat) {time uv : String}
    (timed : madeOf isInline time = true) (placed : madeOf isInline uv = true) :
    lacks reserved (blendCode n last time uv) = true := by
  apply lacks_of_ordinary
  unfold blendCode
  simp only [ordinary_block, List.all_cons, List.all_nil, toString_string, madeOf_append,
    admits_ordinary.nat, admits_ordinary.madeOf timed, admits_ordinary.madeOf placed,
    Bool.and_true, Bool.and_eq_true, -String.reduceAppend]
  and_intros <;> exact madeOf_literal (by decide)

theorem inline_spread (n : NodeId) (id : TraitId) : madeOf isInline (spread n id).1 = true := by
  unfold spread
  split
  all_goals
    simp only [toString_string, madeOf_append, admits_inline.nat, Bool.and_true, Bool.and_eq_true]
    and_intros <;> exact madeOf_literal (by decide)

theorem inline_arrayName (topology : Topology) (id : NodeId) :
    madeOf isInline (arrayName topology id) = true := by
  cases topology
  all_goals
    simp only [arrayName, Topology.label, toString_string, madeOf_append, admits_inline.nat,
      Bool.and_true, Bool.and_eq_true]
    and_intros <;> exact madeOf_literal (by decide)

theorem lacks_keyArray {type stem : String} (n : NodeId) {items : List String}
    (word : madeOf isInline type = true) (start : madeOf isInline stem = true)
    (each : ∀ item ∈ items, madeOf isInline item = true) :
    lacks reserved (Glsl.constantArray type s!"{stem}{n}" items) = true :=
  lacks_of_ordinary (ordinary_constantArray (admits_ordinary.madeOf word)
    (admits_ordinary.madeOf (inline_numbered start n)) fun item member =>
      admits_ordinary.madeOf (each item member))

theorem lacks_helper {given : Given} {n : NodeId} {config : Config} {name body : String}
    (helper : Helper given n config name body)
    (named : ∀ sampler, given.sampler sampler → madeOf isInline sampler = true)
    {words : List String} (known : ∀ word ∈ words, word ∈ reserved)
    (clean : ∀ fractal, config = .fractal fractal → lacks words fractal.code = true) :
    lacks words body = true := by
  have numbered (stem : String) (id : Nat) (word : madeOf isInline stem = true) :
      madeOf isInline s!"{stem}{id}" = true := inline_numbered word id
  -- All but the function of a fractal lack reserved words, whatever the descriptor is.
  by_cases coded : ∃ fractal, config = .fractal fractal ∧ body = fractal.function s!"FBM{n}"
  · obtain ⟨fractal, rfl, rfl⟩ := coded
    exact Fractal.lacks_function known (clean fractal rfl) (numbered "FBM" n (by decide))
  apply lacks_mono known
  cases helper with
  | shape raster => exact Scene.lacks_structFor _
  | array raster id scene =>
    have label : madeOf isInline raster.topology.label = true := by
      cases raster.topology <;> exact madeOf_literal (by decide)
    exact Scene.lacks_arrayDeclaration label (inline_arrayName _ id) (Scene.inline_literals scene _)
  | search raster member =>
    rcases List.mem_cons.1 member with rfl | listed
    · exact Raster.lacks_helpers.1
    · exact (lacks_rasterFunction n raster).2 _ listed
  | solid raymarch member => exact (Scene.lacks_distances member).2
  | union raymarch => exact Scene.lacks_helpers.1
  | distance raymarch id listed =>
    exact Scene.lacks_distanceFunction (numbered "SceneSDF" id (by decide)) fun term member =>
      (Scene.lacks_distances (listed ▸ member)).1
  | march raymarch id =>
    exact raymarch.lacks_marchFunction (numbered "Raymarch" n (by decide))
      (numbered "SceneSDF" id (by decide))
  | normal raymarch id =>
    exact raymarch.lacks_normalFunction (numbered "RaymarchNormal" n (by decide))
      (numbered "SceneSDF" id (by decide))
  | transform transform member => exact transform.lacks_transform_functions n _ member
  | sample texture known =>
    exact Texture.lacks_sampleFunction (numbered "SampleChannel" n (by decide))
      fun sampler member =>
      named _ (known sampler member)
  | times texture =>
    exact lacks_keyArray n (by decide) (by decide)
      (List.forall_mem_map.2 fun key _ => admits_inline.float32 key.time)
  | channels texture =>
    exact lacks_keyArray n (by decide) (by decide)
      (List.forall_mem_map.2 fun key _ => admits_inline.nat key.channel)
  | noise config known member => exact (Noise.lacks_functions known).2 _ member
  | sum fractal => exact absurd ⟨fractal, rfl, rfl⟩ coded

end Emission

end GlslMaterial
