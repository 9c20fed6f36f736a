import GlslMaterial.Proofs.Snippet.Draft

/-!
The finished pixel stage of a snippet: the definitions and declarations of what the snippet uses and
of nothing else, the snippet itself, and a main function that does nothing but call it.
-/

set_option autoImplicit false

namespace GlslMaterial.Snippet

open GlslMaterial.Action (bind_of_ok Yields)
open Material

def globalDefinitions : List (String × String) :=
  [("iTime", "#define iTime Tick.Time"),
   ("iResolution", "#define iResolution vec3(Camera.Resolution, 1.0)"),
   ("iChannel0", "#define iChannel0 Texture0"),
   ("iView", "#define iView Camera.View"),
   ("iMouse", "#define iMouse vec4(Tick.MousePosition, 0.0, 0.0)")]

def globalLines (code : String) : List String :=
  (globalDefinitions.filter fun entry => uses code entry.1).map Prod.snd

/-- The block of the time and the mouse, for snippets that use one of them. -/
def tickLines (time mouse : Bool) : List String :=
  if time || mouse then
    ["layout(set = 0, binding = 0) uniform UniformBufferTick \x7b"] ++
      (if time then ["    float Time;"] else []) ++
      (if mouse then ["    vec2 MousePosition;"] else []) ++ ["\x7d Tick;"]
  else []

/-- The block of the camera, which every snippet needs for its size. -/
def cameraLines (view : Bool) : List String :=
  ["layout(set = 0, binding = 2) uniform UniformBufferCamera \x7b", "    vec2 Resolution;"] ++
    (if view then ["    mat4 View;"] else []) ++ ["\x7d Camera;"]

def samplerLines (texture : Bool) : List String :=
  if texture then ["layout(set = 2, binding = 0) uniform sampler2D Texture0;"] else []

/-- The lines of the finished pixel stage. Of the snippet, the blanks around it and at the ends of
its lines are left out. -/
def pixelLines (code : String) : List (List Char) :=
  (["#version 450",
    "#define FRAGCOORD vec2(gl_FragCoord.x, Camera.Resolution.y - gl_FragCoord.y)"] ++
    globalLines code ++
    ["layout(location = 0) out vec4 outColor;"] ++
    tickLines (uses code "iTime") (uses code "iMouse") ++
    cameraLines (uses code "iView") ++
    samplerLines (uses code "iChannel0")).map String.toList ++
  (Text.lines (Text.trim code.toList)).map Text.trimRight ++
  ["", "void main () \x7b", "    mainImage(outColor, FRAGCOORD);", "\x7d"].map String.toList

theorem definitionsOf_eq (code : String) : definitionsOf code = placeLine :: globalLines code := by
  have table : globals.map (fun g => (g.name, definitionLine g)) = globalDefinitions := by decide
  rw [definitionsOf, globalLines, ← table, List.filter_map, List.map_map]
  rfl

/-- The traits that a snippet binds, by the names that it uses. -/
theorem boundBy_eq (code : String) :
    boundBy code = [.resolution] ++ (if uses code "iTime" then [.time] else []) ++
      (if uses code "iChannel0" then [.texture] else []) ++
      (if uses code "iView" then [.view] else []) ++
      (if uses code "iMouse" then [.mousePosition] else []) := by
  have used (g : Global) : isUsed code g = uses code g.name := rfl
  simp only [boundBy, globals, List.filter_cons, used, List.filter_nil]
  cases uses code "iTime" <;> cases uses code "iResolution" <;> cases uses code "iChannel0" <;>
    cases uses code "iView" <;> cases uses code "iMouse" <;> rfl

/-- A snippet's material in generation, with its one node visited. -/
def running (ids : List TraitId) (pixel vertex : Source) : Material :=
  { called ids pixel with
    nodes := #[⟨.root, none, .stage .pixel, none, [], [], true, .bare .material⟩]
    sources := ((PerStage.constant .empty).set .pixel pixel).set .vertex vertex
    generated := true }

theorem walk_called (ids : List TraitId) (pixel : Source) :
    ∃ begun, Action.perform .begin (called ids pixel) = .ok () begun ∧
      Emission.generateNode root begun = .ok () (running ids pixel .empty) :=
  ⟨{ called ids pixel with generated := true }, rfl, rfl⟩

theorem ensureOutput_running (ids : List TraitId) (pixel vertex : Source) :
    ensureOutput (running ids pixel vertex) = .ok () (running ids pixel vertex) := by
  have has : (running ids pixel vertex).lacksOutput = false := by
    simp [lacksOutput, running, called, outputsAt, output]
  have run : ensureOutput (running ids pixel vertex) =
      (if (running ids pixel vertex).lacksOutput then
        discard <| outputFor (.stage .pixel) (.typed .color .vec4) false
      else pure ()) (running ids pixel vertex) := rfl
  rw [run, has]
  rfl

variable {ids : List TraitId} {sections : Sections}

theorem inputsAt_running (known : ∀ id ∈ ids, id ∈ traits) (stage : Stage)
    (pixel vertex : Source) : (running ids pixel vertex).inputsAt (.stage stage) = [] := by
  have uniform : ∀ id ∈ traits, (input id).rate.isUniform = true := by decide
  refine List.filter_eq_nil_iff.2 fun b member => ?_
  obtain ⟨id, listed, rfl⟩ := List.mem_map.1 member
  intro same
  have rate := uniform id (known id listed)
  rw [of_decide_eq_true same] at rate
  cases rate

theorem declareInputs_running (known : ∀ id ∈ ids, id ∈ traits)
    (stage : Stage) (pixel vertex : Source) :
    declareInputs stage (running ids pixel vertex) = .ok () (running ids pixel vertex) := by
  have none : (running ids pixel vertex).inputLines stage = .ok [] := by
    rw [inputLines, inputsAt_running known]
    rfl
  refine (bind_of_ok (a := running ids pixel vertex) rfl ?_).1
  exact (bind_of_ok (Yields.ofExcept none).result rfl).1

theorem declareOutputs_running {stage : Stage} (other : stage ≠ .pixel) (ids : List TraitId)
    (pixel vertex : Source) :
    declareOutputs stage (running ids pixel vertex) = .ok () (running ids pixel vertex) := by
  have none : (running ids pixel vertex).outputsAt (.stage stage) = [] := by
    cases stage <;> first | rfl | exact absurd rfl other
  refine (bind_of_ok (a := running ids pixel vertex) rfl ?_).1
  rw [none]
  rfl

/-- The declaration of the only output. -/
def outputLine : String :=
  "layout(location = 0) out vec4 outColor;"

theorem declareOutputs_pixel (plain : sections.Plain) (ids : List TraitId) (vertex : Source) :
    declareOutputs .pixel (running ids (sections.source .pixel) vertex) =
      .ok () (running ids ((sections.add .output outputLine).source .pixel) vertex) := by
  have spelled : output.declaration "out" 0 = .ok outputLine := rfl
  have committed : commit .pixel .output outputLine (running ids (sections.source .pixel) vertex) =
      .ok () (running ids ((sections.add .output outputLine).source .pixel) vertex) :=
    commit_of_source plain (by decide) rfl outputLine
  have declared : declareOutput .pixel output 0 (running ids (sections.source .pixel) vertex) =
      .ok () (running ids ((sections.add .output outputLine).source .pixel) vertex) := by
    refine (bind_of_ok (Yields.ofExcept spelled).result ?_).1
    exact (bind_of_ok committed rfl).1
  refine (bind_of_ok (a := running ids (sections.source .pixel) vertex) rfl ?_).1
  exact (bind_of_ok declared rfl).1

theorem forM_stages {step : Stage → Action Unit} {m after : Material}
    (early : ∀ stage ≠ Stage.pixel, step stage m = .ok () m) (own : step .pixel m = .ok () after)
    (late : ∀ stage ≠ Stage.pixel, step stage after = .ok () after) :
    Stage.all.forM step m = .ok () after := by
  have first : [Stage.vertex, .geometry, .tessControl, .tessEvaluation].forM step m = .ok () m := by
    refine (Action.forM_cons_of_ok (early .vertex (by decide)) ?_).1
    refine (Action.forM_cons_of_ok (early .geometry (by decide)) ?_).1
    refine (Action.forM_cons_of_ok (early .tessControl (by decide)) ?_).1
    exact (Action.forM_cons_of_ok (early .tessEvaluation (by decide)) rfl).1
  have last : [Stage.compute].forM step after = .ok () after :=
    (Action.forM_cons_of_ok (late .compute (by decide)) rfl).1
  exact (Action.forM_append_of_ok first (Action.forM_cons_of_ok own last).1).1

theorem declareInterface_running (known : ∀ id ∈ ids, id ∈ traits)
    (plain : sections.Plain) (vertex : Source) :
    declareInterface (running ids (sections.source .pixel) vertex) =
      .ok () (running ids ((sections.add .output outputLine).source .pixel) vertex) := by
  have other (pixel : Source) (stage : Stage) (different : stage ≠ .pixel) :
      (declareInputs stage >>= fun _ => declareOutputs stage) (running ids pixel vertex) =
        .ok () (running ids pixel vertex) := by
    refine (bind_of_ok (declareInputs_running known stage pixel vertex) ?_).1
    exact declareOutputs_running different ids pixel vertex
  refine forM_stages (other _) ?_ (other _)
  refine (bind_of_ok (declareInputs_running known .pixel _ vertex) ?_).1
  exact declareOutputs_pixel plain ids vertex

/-- The vertex stage that covers the screen. -/
def screen : Source :=
  (Sections.empty.add .position fullscreenVertex).source .vertex

theorem ensurePosition_running (ids : List TraitId) (pixel : Source) :
    ensurePosition (running ids pixel .empty) = .ok () (running ids pixel screen) := by
  have absent : ((running ids pixel .empty).source .vertex).mentions "gl_Position" = false :=
    Source.mentions_empty "gl_Position"
  have committed : commit .vertex .position fullscreenVertex (running ids pixel .empty) =
      .ok () (running ids pixel screen) := commit_of_empty (by decide) rfl fullscreenVertex
  refine (bind_of_ok (a := running ids pixel .empty) rfl ?_).1
  rw [absent]
  exact committed

/-- The letters of which every input has one. -/
theorem notMem_fullscreenVertex {c : Char} (large : (c == 'T' || c == 'C') = true) :
    c ∉ fullscreenVertex.toList := by
  have small : (fullscreenVertex.toList.all fun c => !(c == 'T' || c == 'C')) = true := by
    rw [fullscreenVertex, Text.block, String.toList_intercalate]
    simp only [List.map_cons, List.map_nil, -String.reduceToList]
    iterate 4 rw [String.toList_ofList]
    decide
  intro member
  have other := List.all_eq_true.1 small c member
  rw [large] at other
  cases other

/-- Nothing that a snippet binds is in the vertex stage. -/
theorem mentions_screen {id : TraitId} (known : id ∈ traits) :
    screen.mentions (input id).name = false := by
  have solid : (traits.all fun id =>
      (input id).name.toList.all fun c => c != '\n' && c != ' ') = true := by
    decide +kernel
  have capital : (traits.all fun id =>
      (input id).name.toList.any fun c => c == 'T' || c == 'C') = true := by
    decide +kernel
  have template : ∀ id ∈ traits, ∀ line ∈ Stage.vertex.lines,
      ¬ (input id).name.toList <:+: line := by
    decide +kernel
  obtain ⟨c, inside, large⟩ := List.any_eq_true.1 (List.all_eq_true.1 capital id known)
  have other (d : Char) (plain : (d != '\n' && d != ' ') = false) :
      d ∉ (input id).name.toList := fun member => by
    rw [List.all_eq_true.1 (List.all_eq_true.1 solid id known) d member] at plain
    cases plain
  refine Bool.eq_false_iff.2 fun mentions => ?_
  obtain ⟨marker, line, member, part⟩ := Sections.exists_mem_of_infix
    (List.ne_nil_of_mem inside) (other '\n' (by decide)) (other ' ' (by decide))
    (template id known) (Text.infix_of_hasKeyword mentions)
  have written : line ∈ Source.codeLines fullscreenVertex := by
    unfold Sections.add at member
    split at member
    · rcases List.mem_append.1 member with early | late
      · cases early
      · exact late
    · cases member
  exact notMem_fullscreenVertex large
    ((part.trans (Source.infix_of_mem_codeLines written)).subset inside)

theorem declareWhereMentioned_running (plain : sections.Plain)
    {bound : List TraitId} (known : ∀ id ∈ bound, id ∈ traits) {id : TraitId} (member : id ∈ bound)
    {vertex : Source} (elsewhere : ∀ id ∈ traits, vertex.mentions (input id).name = false)
    (mentioned : (sections.source .pixel).mentions (input id).name = true) (text : String)
    (ids : List TraitId) :
    declareWhereMentioned ((bound.map input).map Binding.name) text
        (running ids (sections.source .pixel) vertex) =
      .ok () (running ids ((sections.add .uniform text).source .pixel) vertex) := by
  let names := (bound.map input).map Binding.name
  have other (pixel : Source) (stage : Stage) (different : stage ≠ .pixel) :
      declareAt names text stage (running ids pixel vertex) =
        .ok () (running ids pixel vertex) := by
    have absent : names.any ((running ids pixel vertex).source stage).mentions = false := by
      refine List.any_eq_false.2 fun name listed => ?_
      obtain ⟨b, inside, rfl⟩ := List.mem_map.1 listed
      obtain ⟨id, here, rfl⟩ := List.mem_map.1 inside
      rw [Bool.not_eq_true]
      cases stage with
      | vertex => exact elsewhere id (known id here)
      | pixel => exact absurd rfl different
      | _ => exact Source.mentions_empty _
    refine (bind_of_ok (a := running ids pixel vertex) rfl ?_).1
    rw [absent]
    rfl
  have own : declareAt names text .pixel (running ids (sections.source .pixel) vertex) =
      .ok () (running ids ((sections.add .uniform text).source .pixel) vertex) := by
    have present : names.any ((running ids (sections.source .pixel) vertex).source
        .pixel).mentions = true :=
      List.any_eq_true.2 ⟨_, List.mem_map_of_mem (List.mem_map_of_mem member), mentioned⟩
    refine (bind_of_ok (a := running ids (sections.source .pixel) vertex) rfl ?_).1
    rw [present]
    exact commit_of_source plain (by decide) rfl text
  exact forM_stages (other _) own (other _)

def blockTraits (time view mouse : Bool) : UniformRate → List TraitId
  | .tick => (if time then [.time] else []) ++ if mouse then [.mousePosition] else []
  | .camera => .resolution :: if view then [.view] else []
  | _ => []

def blockLines (time view mouse : Bool) : UniformRate → List String
  | .tick => tickLines time mouse
  | .camera => cameraLines view
  | _ => []

def blockTexts (time view mouse : Bool) (rate : UniformRate) : List String :=
  if (blockLines time view mouse rate).isEmpty then []
  else [Text.block (blockLines time view mouse rate ++ [""])]

theorem blockMembers_running (code : String) (pixel vertex : Source) (rate : UniformRate) :
    (running (boundBy code) pixel vertex).blockMembers rate =
      (blockTraits (uses code "iTime") (uses code "iView") (uses code "iMouse") rate).map
        input := by
  show ((((boundBy code).map input).filter fun b => b.rate = .uniform rate).filter fun b =>
    !b.key.isTexture) = _
  rw [boundBy_eq]
  cases uses code "iTime" <;> cases uses code "iChannel0" <;> cases uses code "iView" <;>
    cases uses code "iMouse" <;> cases rate <;> rfl

theorem textures_running (code : String) (pixel vertex : Source) :
    (((running (boundBy code) pixel vertex).inputsAt (.uniform .renderable)).filter fun b =>
      b.key.isTexture) = if uses code "iChannel0" then [input .texture] else [] := by
  show ((((boundBy code).map input).filter fun b => b.rate = .uniform .renderable).filter fun b =>
    b.key.isTexture) = _
  rw [boundBy_eq]
  cases uses code "iTime" <;> cases uses code "iChannel0" <;> cases uses code "iView" <;>
    cases uses code "iMouse" <;> rfl

theorem uniformBlock_traits (time view mouse : Bool) {rate : UniformRate}
    (filled : blockTraits time view mouse rate ≠ []) :
    ∃ text, blockTexts time view mouse rate = [text] ∧
      uniformBlock rate ((blockTraits time view mouse rate).map input) = .ok text := by
  cases rate with
  | tick =>
    cases time <;> cases mouse
    · exact absurd rfl filled
    · exact ⟨_, rfl, rfl⟩
    · exact ⟨_, rfl, rfl⟩
    · exact ⟨_, rfl, rfl⟩
  | camera => cases view <;> exact ⟨_, rfl, rfl⟩
  | _ => exact absurd rfl filled

end GlslMaterial.Snippet
