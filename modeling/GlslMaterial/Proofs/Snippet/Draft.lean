import GlslMaterial.Material.Snippet
import GlslMaterial.Proofs.Generation.Uniforms
import GlslMaterial.Proofs.History.Yields
import GlslMaterial.Proofs.Source.Definitions

/-!
Drafts: the material around a snippet while it is being written. Its inputs are those of the globals
that the snippet uses, and its pixel stage has their definitions, the snippet, and the call of the
image function.
-/

set_option autoImplicit false

namespace GlslMaterial

open GlslMaterial.Action (bind_of_ok)

/-- A line that stands in a block of code as it is: it is not empty and ends without blanks. -/
structure Source.Solid (line : String) : Prop where
  newline : '\n' ∉ line.toList
  filled : line.toList ≠ []
  laid : Source.laid [] line.toList = line.toList

namespace Sections

variable {sections : Sections} {stage : Stage}

theorem hasMarker_source (plain : sections.Plain) {marker : Marker}
    (member : marker ∈ stage.markers) : (sections.source stage).hasMarker marker = true := by
  have inserted := insert?_source plain member ""
  unfold Source.insert? at inserted
  unfold Source.hasMarker Source.mentions Text.hasKeyword
  split at inserted
  · cases inserted
  · rename_i found
    rw [found]
    rfl

theorem mentions_of_mem_defines {name : String} (filled : name.toList ≠ [])
    (newline : '\n' ∉ name.toList) {line : List Char} (member : line ∈ sections .defines)
    (has : Text.hasKeyword name.toList (Source.laid [] line) = true) :
    (sections.source .pixel).mentions name = true := by
  rw [mentions_source filled newline]
  refine List.any_eq_true.2 ⟨"#DEFINES".toList, by decide, ?_⟩
  rw [above_defines, List.any_eq_true.2 ⟨_, List.mem_map_of_mem member, has⟩, Bool.true_or]

end Sections

namespace Material

variable {m : Material}

theorem setSource_setSource (m : Material) (stage : Stage) (first second : Source) :
    (m.setSource stage first).setSource stage second = m.setSource stage second := by
  cases stage <;> rfl

variable {sections : Sections} {stage : Stage} {marker : Marker}

theorem started_of_source
    (here : m.source stage = sections.source stage) : m.started stage = m := by
  rw [started, here, sections.isEmpty_source, if_neg Bool.false_ne_true]

theorem commit_of_started (plain : sections.Plain) (member : marker ∈ stage.markers)
    (here : (m.started stage).source stage = sections.source stage) (code : String) :
    commit stage marker code m =
      .ok () ((m.started stage).setSource stage ((sections.add marker code).source stage)) := by
  have has : ((m.started stage).source stage).hasMarker marker = true := by
    rw [here]
    exact Sections.hasMarker_source plain member
  have written : (m.started stage).written stage marker code =
      (m.started stage).setSource stage ((sections.add marker code).source stage) := by
    rw [Material.written, here, Sections.insert_source plain]
  rw [← written]
  exact (writing_yields (.write stage marker code) has).result

theorem commit_of_source (plain : sections.Plain) (member : marker ∈ stage.markers)
    (here : m.source stage = sections.source stage) (code : String) :
    commit stage marker code m =
      .ok () (m.setSource stage ((sections.add marker code).source stage)) := by
  have same := started_of_source here
  have done := commit_of_started plain member (same.symm ▸ here) code
  rwa [same] at done

theorem commit_of_empty (member : marker ∈ stage.markers)
    (nothing : m.source stage = .empty) (code : String) :
    commit stage marker code m =
      .ok () (m.setSource stage ((Sections.empty.add marker code).source stage)) := by
  have same : m.started stage = m.setSource stage (.ofTemplate stage) := by
    rw [started, nothing]
    rfl
  have here : (m.started stage).source stage = Sections.empty.source stage := by
    rw [same, source_setSource, if_pos rfl, Sections.source_empty]
  have done := commit_of_started Sections.plain_empty member here code
  rwa [same, setSource_setSource] at done

end Material

namespace Snippet

open Material

/-- Whether a snippet has a name as a word. -/
def uses (code name : String) : Bool :=
  Text.hasKeyword name.toList code.toList

/-- The traits of the globals, and of the size that every snippet needs. -/
def traits : List TraitId :=
  [.resolution, .time, .texture, .view, .mousePosition]

/-- The input that a trait of a global is bound to. -/
def input : TraitId → Binding
  | .resolution =>
    ⟨.uniform .camera, .typed .resolution .vec2, "Camera.Resolution", none, false, none⟩
  | .time => ⟨.uniform .tick, .typed .time .float, "Tick.Time", none, false, none⟩
  | .texture => ⟨.uniform .renderable, .typed .texture .sampler2D, "Texture0", some 0, false, none⟩
  | .view => ⟨.uniform .camera, .typed .view .mat4, "Camera.View", none, false, none⟩
  | .mousePosition =>
    ⟨.uniform .tick, .typed .mousePosition .vec2, "Tick.MousePosition", none, false, none⟩
  | _ => default

/-- The traits that are bound after one more is asked for. -/
def enter (ids : List TraitId) (id : TraitId) : List TraitId :=
  if id ∈ ids then ids else ids ++ [id]

/-- A material with the inputs of some traits, and with code in its pixel stage only. -/
def draft (ids : List TraitId) (code : Source) : Material :=
  { ofRate (.stage .pixel) with
    inputs := ids.map input
    samplers := ids.count .texture
    sources := (PerStage.constant .empty).set .pixel code }

variable {id : TraitId} {sections : Sections} {ids : List TraitId} {line code : String}
  {lines : List String}

theorem resolved_input (member : id ∈ traits) : (Trait.ofId id).resolved = .ok (input id).key := by
  revert id
  simp only [traits, List.forall_mem_cons]
  exact ⟨rfl, rfl, rfl, rfl, rfl, by simp⟩

theorem inputRate_input (member : id ∈ traits) :
    inputRate (.stage .pixel) (input id).key = .ok (input id).rate := by
  revert id
  simp only [traits, List.forall_mem_cons]
  exact ⟨rfl, rfl, rfl, rfl, rfl, by simp⟩

theorem agrees_input {other : TraitId} (member : id ∈ traits) (known : other ∈ traits) :
    (input other).rate = (input id).rate ∧ (input other).key.agrees (input id).key = true ↔
      other = id := by
  have all : ∀ id ∈ traits, ∀ other ∈ traits,
      ((input other).rate = (input id).rate ∧ (input other).key.agrees (input id).key = true ↔
        other = id) := by
    decide
  exact all id member other known

theorem input_eq (member : id ∈ traits) (plain : id ≠ .texture) :
    input id = ⟨(input id).rate, (input id).key, inputName (input id).rate (input id).key.id,
      none, false, none⟩ := by
  revert id
  simp only [traits, List.forall_mem_cons]
  exact ⟨fun _ => rfl, fun _ => rfl, fun other => absurd rfl other, fun _ => rfl, fun _ => rfl,
    by simp⟩

theorem isTexture_input (member : id ∈ traits) :
    (input id).key.isTexture = decide (id = .texture) := by
  have all : ∀ id ∈ traits, (input id).key.isTexture = decide (id = .texture) := by decide
  exact all id member

theorem name_input_ne {other : TraitId} (member : id ∈ traits) (known : other ∈ traits)
    (different : other ≠ id) : (input other).name ≠ (input id).name := by
  have all : ∀ id ∈ traits, ∀ other ∈ traits, other ≠ id →
      (input other).name ≠ (input id).name := by
    decide
  exact all id member other known different

section Inputs

variable {ids : List TraitId} {id : TraitId}
  (known : ∀ other ∈ ids, other ∈ traits) (member : id ∈ traits)

include known member

theorem find?_draft (code : Source) :
    ((draft ids code).inputsAt (input id).rate).find?
        (fun b => !false && b.key.agrees (input id).key) =
      if id ∈ ids then some (input id) else none := by
  have bound (b : Binding) : b ∈ (draft ids code).inputsAt (input id).rate ↔
      (∃ other ∈ ids, input other = b) ∧ b.rate = (input id).rate := by
    simp [inputsAt, draft]
  cases found : ((draft ids code).inputsAt (input id).rate).find?
      (fun b => !false && b.key.agrees (input id).key) with
  | none =>
    have absent : id ∉ ids := by
      intro inside
      have here := List.find?_eq_none.1 found (input id) ((bound _).2 ⟨⟨id, inside, rfl⟩, rfl⟩)
      exact here (by simp)
    rw [if_neg absent]
  | some b =>
    obtain ⟨⟨other, listed, rfl⟩, rate⟩ := (bound b).1 (List.mem_of_find?_eq_some found)
    have agrees := List.find?_some found
    have same := (agrees_input member (known other listed)).1 ⟨rate, by simpa using agrees⟩
    rw [same] at listed ⊢
    rw [if_pos listed]

theorem pushInput_draft (plain : id ≠ .texture) (absent : id ∉ ids) (code : Source) :
    (draft ids code).pushInput (input id).rate (input id).key =
      ((input id).name, draft (ids ++ [id]) code) := by
  have name : (input id).name = inputName (input id).rate (input id).key.id := by
    rw [input_eq member plain]
  have free : (((draft ids code).inputsAt (input id).rate).map Binding.name).contains
      (input id).name = false := by
    simp only [List.contains_eq_mem, decide_eq_false_iff_not, List.mem_map, not_exists, not_and]
    intro b bound same
    obtain ⟨other, listed, rfl⟩ := List.mem_map.1 (List.mem_filter.1 bound).1
    exact name_input_ne member (known other listed) (fun equal => absent (equal ▸ listed)) same
  have fresh : freshName (((draft ids code).inputsAt (input id).rate).map Binding.name)
      (inputName (input id).rate (input id).key.id) = (input id).name := by
    rw [← name, freshName, free, if_neg Bool.false_ne_true]
  have whole : (⟨(input id).rate, (input id).key, (input id).name, none, false, none⟩ : Binding) =
      input id := by
    rw [name]
    exact (input_eq member plain).symm
  simp only [pushInput, fresh, whole]
  simp [draft, plain]

omit known member in
theorem pushTexture_draft (absent : .texture ∉ ids) (code : Source) :
    (draft ids code).pushTexture (.uniform .renderable) (input .texture).key =
      ("Texture0", draft (ids ++ [.texture]) code) := by
  have first : (draft ids code).samplers = 0 := List.count_eq_zero.2 absent
  have name : s!"Texture{0}" = "Texture0" := by decide
  simp only [pushTexture, first, name]
  simp [draft, input, List.count_eq_zero.2 absent]

theorem addInput_draft (code : Source) :
    (draft ids code).addInput (.stage .pixel) (.ofId id) false =
      .ok (((input id).name, (input id).rate), draft (enter ids id) code) := by
  unfold addInput
  rw [resolved_input member]
  simp only [bind, Except.bind]
  rw [inputRate_input member]
  simp only
  rw [find?_draft known member code]
  by_cases inside : id ∈ ids
  · rw [if_pos inside, enter, if_pos inside]
    rfl
  · rw [if_neg inside, enter, if_neg inside]
    simp only [isTexture_input member]
    by_cases texture : id = .texture
    · subst texture
      simp only [decide_true, if_true]
      rw [show (input .texture).rate = .uniform .renderable from rfl,
        pushTexture_draft inside code]
      rfl
    · simp only [texture, decide_false, Bool.false_eq_true, if_false]
      rw [pushInput_draft known member texture inside code]
      rfl

end Inputs

theorem define_draft (plain : sections.Plain) {text : String}
    (fresh : (sections.source .pixel).mentions s!"#define {text}" = false) (ids : List TraitId) :
    (draft ids (sections.source .pixel)).define .pixel text =
      draft ids ((sections.add .defines s!"#define {text}").source .pixel) := by
  have here : (draft ids (sections.source .pixel)).source .pixel = sections.source .pixel := rfl
  have insert := Sections.insert_source plain .pixel .defines s!"#define {text}"
  rw [define, started_of_source here, here, Source.define, Source.isDefined, fresh,
    if_neg Bool.false_ne_true, insert]
  rfl

theorem define_draft_empty (ids : List TraitId) (text : String) :
    (draft ids .empty).define .pixel text =
      (draft ids (Sections.empty.source .pixel)).define .pixel text := by
  have here : (draft ids (Sections.empty.source .pixel)).source .pixel =
      Sections.empty.source .pixel := rfl
  rw [define, define, started_of_source here, Sections.source_empty]
  rfl

theorem bindInput_draft (known : ∀ other ∈ ids, other ∈ traits) (member : id ∈ traits)
    (definition : String → String) (code : Source) :
    bindInput id definition (draft ids code) =
      .ok () ((draft (enter ids id) code).define .pixel (definition (input id).name)) := by
  have added := addInput_draft known member code
  have bound := (inputFor_yields added).result
  have entered : (draft ids code).replay [.input (.stage .pixel) (.ofId id) false] =
      draft (enter ids id) code := by
    show (draft ids code).withInput _ _ _ = _
    rw [withInput, added]
  rw [entered] at bound
  exact (bind_of_ok bound rfl).1

def Global.text (g : Global) : String :=
  s!"{g.name} {g.wrap (input g.id).name}"

def imageCall (output : String) : String :=
  s!"mainImage({output}, {fragCoord});"

def placeLine : String :=
  "#define FRAGCOORD vec2(gl_FragCoord.x, Camera.Resolution.y - gl_FragCoord.y)"

def definitionLine (g : Global) : String :=
  s!"#define {g.name} {g.wrap (input g.id).name}"

def definitionLines : List String :=
  placeLine :: globals.map definitionLine

theorem nodup_definitionLines : definitionLines.Nodup := by
  decide

/-- A solid line without markers and without a version. -/
structure Whole (line : String) : Prop extends Source.Solid line where
  plain : Source.isPlainCode line = true
  unversioned : ¬ "#version".toList <:+: line.toList

theorem whole_of_mem_definitionLines (member : line ∈ definitionLines) : Whole line := by
  have all : ∀ line ∈ definitionLines, ('\n' ∉ line.toList ∧ line.toList ≠ [] ∧
      Source.laid [] line.toList = line.toList) ∧ Source.isPlainCode line = true ∧
      ¬ "#version".toList <:+: line.toList := by
    decide +kernel
  obtain ⟨⟨newline, filled, laid⟩, plain, unversioned⟩ := all line member
  exact ⟨⟨newline, filled, laid⟩, plain, unversioned⟩

theorem hasKeyword_definitionLines {other : String} (member : line ∈ definitionLines)
    (known : other ∈ definitionLines) (different : other ≠ line) :
    Text.hasKeyword line.toList other.toList = false := by
  have all : ∀ line ∈ definitionLines, ∀ other ∈ definitionLines, other ≠ line →
      Text.hasKeyword line.toList other.toList = false := by
    decide +kernel
  exact all line member other known different

theorem hasKeyword_template (member : line ∈ definitionLines) :
    ∀ place ∈ Stage.pixel.lines, Text.hasKeyword line.toList place = false := by
  have letter : ∀ line ∈ definitionLines, 'f' ∈ line.toList := by decide
  have absent : ∀ place ∈ Stage.pixel.lines, 'f' ∉ place := by decide
  intro place listed
  refine Bool.eq_false_iff.2 fun found => ?_
  exact absent place listed ((Text.infix_of_hasKeyword found).subset (letter line member))

theorem mentions_definitionLine
    (known : ∀ other ∈ lines, other ∈ definitionLines) (member : line ∈ definitionLines)
    (absent : line ∉ lines) :
    ((Sections.defining lines).source .pixel).mentions line = false := by
  have whole := whole_of_mem_definitionLines member
  rw [Sections.mentions_defining whole.filled whole.newline, Bool.or_eq_false_iff]
  constructor
  · refine List.any_eq_false.2 fun other listed => ?_
    have different : other ≠ line := fun same => absent (same ▸ listed)
    rw [(whole_of_mem_definitionLines (known other listed)).laid,
      hasKeyword_definitionLines member (known other listed) different]
    exact Bool.false_ne_true
  · refine List.any_eq_false.2 fun place listed => ?_
    rw [hasKeyword_template member place listed]
    exact Bool.false_ne_true

theorem plain_defining (known : ∀ line ∈ lines, line ∈ definitionLines) :
    (Sections.defining lines).Plain := by
  refine Sections.plain_defining fun line listed => ?_
  have whole := whole_of_mem_definitionLines (known line listed)
  have plain := whole.plain
  rw [Source.isPlainCode, Source.codeLines_of_notMem whole.newline] at plain
  exact ⟨by simpa using plain, whole.newline⟩

theorem id_mem_traits {g : Global} (member : g ∈ globals) : g.id ∈ traits := by
  revert g
  simp only [globals, List.forall_mem_cons]
  exact ⟨by decide, by decide, by decide, by decide, by decide, by simp⟩

theorem mem_traits_enter (known : ∀ other ∈ ids, other ∈ traits) (member : id ∈ traits) :
    ∀ other ∈ enter ids id, other ∈ traits := by
  intro other listed
  unfold enter at listed
  split at listed
  · exact known other listed
  · rcases List.mem_append.1 listed with old | new
    · exact known other old
    · rw [List.mem_singleton.1 new]
      exact member

theorem define_defining {text : String}
    (known : ∀ other ∈ lines, other ∈ definitionLines) (member : line ∈ definitionLines)
    (absent : line ∉ lines) (spelled : Source.definition text = line) (ids : List TraitId) :
    (draft ids ((Sections.defining lines).source .pixel)).define .pixel text =
      draft ids ((Sections.defining (lines ++ [line])).source .pixel) := by
  have fresh := mentions_definitionLine known member absent
  rw [← spelled] at fresh
  rw [define_draft (plain_defining known) fresh]
  show draft ids (((Sections.defining lines).add .defines (Source.definition text)).source .pixel) =
      _
  rw [spelled, Sections.defining_concat (whole_of_mem_definitionLines member).newline]

theorem forM_bindInput {gs : List Global} (some : ∀ g ∈ gs, g ∈ globals)
    (known : ∀ other ∈ ids, other ∈ traits) (listed : ∀ line ∈ lines, line ∈ definitionLines)
    (once : (lines ++ gs.map definitionLine).Nodup) :
    gs.forM (fun g => bindInput g.id fun input => s!"{g.name} {g.wrap input}")
        (draft ids ((Sections.defining lines).source .pixel)) =
      .ok () (draft (gs.foldl (fun ids g => enter ids g.id) ids)
        ((Sections.defining (lines ++ gs.map definitionLine)).source .pixel)) := by
  induction gs generalizing ids lines with
  | nil => rw [List.map_nil, List.append_nil]; rfl
  | cons g gs ih =>
    have given := some g List.mem_cons_self
    have line : definitionLine g ∈ definitionLines :=
      List.mem_cons_of_mem _ (List.mem_map_of_mem given)
    have absent : definitionLine g ∉ lines := fun early =>
      (List.nodup_append.1 once).2.2 _ early _ List.mem_cons_self rfl
    have spelled : Source.definition g.text = definitionLine g := by
      simp [Source.definition, Global.text, definitionLine, String.append_assoc]
    let step : Global → Action Unit := fun g =>
      bindInput g.id fun input => s!"{g.name} {g.wrap input}"
    have first : step g (draft ids ((Sections.defining lines).source .pixel)) =
        .ok () ((draft (enter ids g.id) ((Sections.defining lines).source .pixel)).define
          .pixel g.text) :=
      bindInput_draft known (id_mem_traits given) _ _
    rw [define_defining listed line absent spelled] at first
    have rest := ih (fun other member => some other (List.mem_cons_of_mem g member))
      (mem_traits_enter known (id_mem_traits given))
      (List.forall_mem_append.2 ⟨listed, List.forall_mem_singleton.2 line⟩)
      (by simpa using once)
    rw [List.append_assoc] at rest
    exact (Action.forM_cons_of_ok first rest).1

def definitionsOf (code : String) : List String :=
  placeLine :: (globals.filter (isUsed code)).map definitionLine

def boundBy (code : String) : List TraitId :=
  (globals.filter (isUsed code)).foldl (fun ids g => enter ids g.id) [.resolution]

theorem definitionsOf_sublist (code : String) : (definitionsOf code).Sublist definitionLines :=
  List.Sublist.cons_cons _ (List.filter_sublist.map _)

def sectionsOf (code : String) : Sections :=
  ((Sections.defining (definitionsOf code)).add .functions
    (String.ofList (Text.trim code.toList))).add .texturize "mainImage(outColor, FRAGCOORD);"

def output : Binding :=
  ⟨.stage .pixel, .typed .color .vec4, "outColor", none, true, none⟩

theorem lacks_trim {words : List String} (free : lacks words code = true) :
    lacks words (String.ofList (Text.trim code.toList)) = true := by
  apply lacks_iff.2
  intro word member found
  rw [String.toList_ofList] at found
  have inside : Text.trim code.toList <:+: code.toList :=
    (Text.dropWhileRight_isPrefix Text.isBlank _).isInfix.trans
      (List.dropWhile_suffix Text.isBlank).isInfix
  exact lacks_iff.1 free word member (found.trans inside)

theorem plain_trim (free : lacks directives code = true) :
    Source.isPlainCode (String.ofList (Text.trim code.toList)) = true :=
  Source.isPlainCode_of_lacks (fun marker => by cases marker <;> decide) (lacks_trim free)

theorem plain_sectionsOf (free : lacks directives code = true) : (sectionsOf code).Plain := by
  have defined := plain_defining fun line member => (definitionsOf_sublist code).subset member
  exact (defined.add .functions (plain_trim free)).add .texturize (by decide)

/-- The draft of a snippet whose output has been added and is assigned. -/
def called (ids : List TraitId) (code : Source) : Material :=
  { draft ids code with outputs := [output] }

theorem commit_draft (plain : sections.Plain) {marker : Marker}
    (member : marker ∈ Stage.pixel.markers) (text : String) (ids : List TraitId) :
    commit .pixel marker text (draft ids (sections.source .pixel)) =
      .ok () (draft ids ((sections.add marker text).source .pixel)) :=
  commit_of_source plain member rfl text

theorem commit_called (plain : sections.Plain) {marker : Marker}
    (member : marker ∈ Stage.pixel.markers) (text : String) (ids : List TraitId) :
    commit .pixel marker text (called ids (sections.source .pixel)) =
      .ok () (called ids ((sections.add marker text).source .pixel)) :=
  commit_of_source plain member rfl text

theorem outputFor_draft (ids : List TraitId) (code : Source) :
    ∃ middle, outputFor (.stage .pixel) (.typed .color .vec4) false (draft ids code) =
        .ok ("outColor", true) middle ∧
      Action.perform (.wire (.stage .pixel) "outColor") middle = .ok () (called ids code) :=
  ⟨{ draft ids code with outputs := [{ output with wired := false }] }, rfl, rfl⟩

theorem bindInput_place :
    bindInput .resolution
      (fun input => s!"{fragCoord} vec2(gl_FragCoord.x, {input}.y - gl_FragCoord.y)")
        (ofRate (.stage .pixel)) =
      .ok () (draft [.resolution] ((Sections.defining [placeLine]).source .pixel)) := by
  let place (input : String) : String :=
    s!"{fragCoord} vec2(gl_FragCoord.x, {input}.y - gl_FragCoord.y)"
  have bound : bindInput .resolution place (draft [] .empty) =
      .ok () ((draft [.resolution] .empty).define .pixel (place "Camera.Resolution")) :=
    bindInput_draft (by simp) (by decide) place .empty
  have spelled : Source.definition (place "Camera.Resolution") = placeLine := by decide
  rw [define_draft_empty, ← Sections.defining_nil,
    define_defining (by simp) (by decide) (by simp) spelled] at bound
  exact bound

theorem writeSnippet_ofRate (free : lacks directives code = true) :
    writeSnippet code (ofRate (.stage .pixel)) =
      .ok () (called (boundBy code) ((sectionsOf code).source .pixel)) := by
  have globals := forM_bindInput (fun g member => (List.mem_filter.1 member).1)
    (show ∀ other ∈ [TraitId.resolution], other ∈ traits by decide)
    (show ∀ line ∈ [placeLine], line ∈ definitionLines by decide)
    (nodup_definitionLines.sublist (definitionsOf_sublist code))
  have defined := plain_defining fun line member => (definitionsOf_sublist code).subset member
  have given := commit_draft defined (show .functions ∈ Stage.pixel.markers by decide)
    (String.ofList (Text.trim code.toList)) (boundBy code)
  have plain := defined.add .functions (plain_trim free)
  obtain ⟨middle, added, wired⟩ := outputFor_draft (boundBy code)
    (((Sections.defining (definitionsOf code)).add .functions
      (String.ofList (Text.trim code.toList))).source .pixel)
  have ends := commit_called plain (show .texturize ∈ Stage.pixel.markers by decide)
    (imageCall "outColor") (boundBy code)
  have spelled : imageCall "outColor" = "mainImage(outColor, FRAGCOORD);" := by
    decide
  rw [sectionsOf, ← spelled]
  refine (bind_of_ok bindInput_place ?_).1
  refine (bind_of_ok globals ?_).1
  refine (bind_of_ok given ?_).1
  refine (bind_of_ok added ?_).1
  refine (bind_of_ok wired ?_).1
  exact ends

end Snippet

end GlslMaterial
