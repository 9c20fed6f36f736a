import Mathlib.Data.List.TakeWhile
import GlslMaterial.Proofs.Snippet.Pixel

/-!
Finished snippets. Completion adds the declarations of what a snippet binds and the version to its
pixel stage, and warns of nothing. Main statement: the text of the pixel stage, line by line.
-/

set_option autoImplicit false

namespace GlslMaterial

namespace Source

theorem laid_nil (line : List Char) : laid [] line = Text.trimRight line := by
  unfold laid
  split
  · rename_i blank
    rw [Text.isAllBlank, List.all_eq_true] at blank
    rw [Text.trimRight, Text.dropWhileRight, List.dropWhile_eq_nil_iff.2 (by simpa using blank)]
    rfl
  · rfl

theorem codeLines_trim (text : List Char) :
    codeLines (String.ofList (Text.trim text)) = Text.lines (Text.trim text) := by
  have blank (c : Char) (newline : (c == '\n') = true) : Text.isBlank c = true := by
    rw [eq_of_beq newline]
    decide
  rw [codeLines, String.toList_ofList]
  exact congrArg Text.lines (Text.dropWhileRight_dropWhileRight blank _)

end Source

namespace Sections

/-- Pieces of code behind those that the section of a marker has. -/
def addAll (sections : Sections) (marker : Marker) (codes : List String) : Sections :=
  codes.foldl (fun sections code => sections.add marker code) sections

theorem addAll_self (sections : Sections) (marker : Marker) (codes : List String) :
    sections.addAll marker codes marker = sections marker ++ codes.flatMap Source.codeLines := by
  induction codes generalizing sections with
  | nil => exact (List.append_nil _).symm
  | cons code codes ih =>
    show (sections.add marker code).addAll marker codes marker = _
    rw [ih, add, if_pos rfl, List.append_assoc, List.flatMap_cons]

theorem addAll_of_ne {marker other : Marker} (different : other ≠ marker) (sections : Sections)
    (codes : List String) : sections.addAll marker codes other = sections other := by
  induction codes generalizing sections with
  | nil => rfl
  | cons code codes ih =>
    show (sections.add marker code).addAll marker codes other = _
    rw [ih, add, if_neg different]

theorem addAll_append (sections : Sections) (marker : Marker) (first second : List String) :
    sections.addAll marker (first ++ second) =
      (sections.addAll marker first).addAll marker second :=
  List.foldl_append

variable {sections : Sections} {word : List Char}

theorem Plain.addAll (plain : sections.Plain) (marker : Marker)
    {codes : List String} (free : ∀ code ∈ codes, Source.isPlainCode code = true) :
    (sections.addAll marker codes).Plain := by
  induction codes generalizing sections with
  | nil => exact plain
  | cons code codes ih =>
    obtain ⟨first, rest⟩ := List.forall_mem_cons.1 free
    exact ih (plain.add marker first) rest

/-- A word that no line of the sections has. -/
def Lacks (sections : Sections) (word : List Char) : Prop :=
  ∀ marker, ∀ line ∈ sections marker, ¬ word <:+: line

theorem Lacks.add (clean : sections.Lacks word)
    (marker : Marker) {code : String} (free : ¬ word <:+: code.toList) :
    (sections.add marker code).Lacks word := by
  intro other line member found
  unfold Sections.add at member
  split at member
  · rcases List.mem_append.1 member with old | new
    · exact clean other line old found
    · exact free (found.trans (Source.infix_of_mem_codeLines new))
  · exact clean other line member found

theorem Lacks.addAll (clean : sections.Lacks word)
    (marker : Marker) {codes : List String} (free : ∀ code ∈ codes, ¬ word <:+: code.toList) :
    (sections.addAll marker codes).Lacks word := by
  induction codes generalizing sections with
  | nil => exact clean
  | cons code codes ih =>
    obtain ⟨first, rest⟩ := List.forall_mem_cons.1 free
    exact ih (clean.add marker first) rest

theorem lacks_defining {lines : List String}
    (free : ∀ line ∈ lines, ¬ word <:+: line.toList) : (Sections.defining lines).Lacks word := by
  intro marker line member
  cases marker with
  | defines =>
    obtain ⟨given, listed, rfl⟩ := List.mem_map.1 member
    exact free given listed
  | _ => cases member

end Sections

namespace Snippet

open GlslMaterial.Action (bind_of_ok Yields)
open Material

theorem known_boundBy (code : String) : ∀ id ∈ boundBy code, id ∈ traits := by
  rw [boundBy_eq]
  cases uses code "iTime" <;> cases uses code "iChannel0" <;> cases uses code "iView" <;>
    cases uses code "iMouse" <;> decide

variable {id : TraitId} {code : String} {sections : Sections}

theorem mem_foldl_enter {gs : List Global} {ids : List TraitId}
    (member : id ∈ gs.foldl (fun ids g => enter ids g.id) ids) :
    id ∈ ids ∨ ∃ g ∈ gs, g.id = id := by
  induction gs generalizing ids with
  | nil => exact .inl member
  | cons g gs ih =>
    rcases ih member with early | ⟨other, listed, same⟩
    · change id ∈ enter ids g.id at early
      unfold enter at early
      split at early
      · exact .inl early
      · rcases List.mem_append.1 early with old | new
        · exact .inl old
        · exact .inr ⟨g, List.mem_cons_self, (List.mem_singleton.1 new).symm⟩
    · exact .inr ⟨other, List.mem_cons_of_mem g listed, same⟩

theorem exists_definition (bound : id ∈ boundBy code) : ∃ line ∈ definitionsOf code,
      Text.hasKeyword (input id).name.toList (Source.laid [] line.toList) = true := by
  have place : Text.hasKeyword (input .resolution).name.toList
      (Source.laid [] placeLine.toList) = true := by
    decide +kernel
  have defined : ∀ g ∈ globals, Text.hasKeyword (input g.id).name.toList
      (Source.laid [] (definitionLine g).toList) = true := by
    decide +kernel
  rcases mem_foldl_enter bound with size | ⟨g, used, rfl⟩
  · rw [List.mem_singleton.1 size]
    exact ⟨placeLine, List.mem_cons_self, place⟩
  · exact ⟨definitionLine g, List.mem_cons_of_mem _ (List.mem_map_of_mem used),
      defined g (List.mem_filter.1 used).1⟩

theorem mentions_of_bound (defines : sections .defines = (definitionsOf code).map String.toList)
    (bound : id ∈ boundBy code) : (sections.source .pixel).mentions (input id).name = true := by
  have solid : ∀ id ∈ traits, (input id).name.toList ≠ [] ∧ '\n' ∉ (input id).name.toList := by
    decide
  obtain ⟨filled, newline⟩ := solid id (known_boundBy code id bound)
  obtain ⟨line, member, has⟩ := exists_definition bound
  refine Sections.mentions_of_mem_defines filled newline ?_ has
  rw [defines]
  exact List.mem_map_of_mem member

theorem blockTraits_subset (code : String) (rate : UniformRate) :
    ∀ id ∈ blockTraits (uses code "iTime") (uses code "iView") (uses code "iMouse") rate,
      id ∈ boundBy code := by
  rw [boundBy_eq]
  cases uses code "iTime" <;> cases uses code "iChannel0" <;> cases uses code "iView" <;>
    cases uses code "iMouse" <;> cases rate <;> decide

def blocksOf (code : String) (rate : UniformRate) : List String :=
  blockTexts (uses code "iTime") (uses code "iView") (uses code "iMouse") rate

theorem blockTexts_nil {time view mouse : Bool} {rate : UniformRate}
    (nothing : blockTraits time view mouse rate = []) : blockTexts time view mouse rate = [] := by
  cases rate with
  | tick =>
    cases time <;> cases mouse
    · rfl
    · cases nothing
    · cases nothing
    · cases nothing
  | camera => cases nothing
  | _ => rfl

theorem declareBlock_eq (rate : UniformRate) (m : Material) :
    declareBlock rate m =
      (if (m.blockMembers rate).isEmpty then pure () else do
        declareWhereMentioned ((m.blockMembers rate).map Binding.name)
          (← Action.ofExcept (uniformBlock rate (m.blockMembers rate)))) m := rfl

theorem declareBlock_running (plain : sections.Plain)
    (defines : sections .defines = (definitionsOf code).map String.toList) (rate : UniformRate) :
    declareBlock rate (running (boundBy code) (sections.source .pixel) screen) =
      .ok () (running (boundBy code)
        ((sections.addAll .uniform (blocksOf code rate)).source .pixel) screen) := by
  have members := blockMembers_running code (sections.source .pixel) screen rate
  have inside := blockTraits_subset code rate
  rw [declareBlock_eq, members]
  unfold blocksOf
  generalize uses code "iTime" = time, uses code "iView" = view, uses code "iMouse" = mouse at *
  by_cases nothing : blockTraits time view mouse rate = []
  · rw [blockTexts_nil nothing, nothing]
    rfl
  · obtain ⟨text, texts, made⟩ := uniformBlock_traits time view mouse nothing
    obtain ⟨id, member⟩ := List.exists_mem_of_ne_nil _ nothing
    have declared := declareWhereMentioned_running plain
      (fun other listed => known_boundBy code other (inside other listed)) member
      (fun _ => mentions_screen) (mentions_of_bound defines (inside id member)) text (boundBy code)
    rw [if_neg (by simpa using nothing), texts]
    exact (bind_of_ok (Yields.ofExcept made).result declared).1

def samplersOf (code : String) : List String :=
  samplerLines (uses code "iChannel0")

theorem lacks_of_notMem (free : '#' ∉ code.toList) : lacks directives code = true := by
  have marked : ∀ word ∈ directives, '#' ∈ word.toList := by decide
  exact lacks_iff.2 fun word member found => free (found.subset (marked word member))

theorem lacks_blockTexts (time view mouse : Bool) (rate : UniformRate) :
    ∀ text ∈ blockTexts time view mouse rate, lacks directives text = true := by
  have unmarked : ∀ line ∈ blockLines time view mouse rate, '#' ∉ line.toList := by
    revert time view mouse
    cases rate <;> decide
  intro text member
  refine lacks_of_notMem fun inside => ?_
  unfold blockTexts at member
  split at member
  · cases member
  · rw [List.mem_singleton.1 member, Text.toList_block] at inside
    obtain ⟨line, listed, here⟩ := List.mem_flatMap.1 inside
    obtain ⟨given, known, rfl⟩ := List.mem_map.1 listed
    rcases List.mem_append.1 here with own | ends
    · exact unmarked given known own
    · simp at ends

theorem plain_of_lacks (free : lacks directives code = true) : Source.isPlainCode code = true :=
  Source.isPlainCode_of_lacks (fun marker => by cases marker <;> decide) free

theorem lacks_samplersOf (code : String) :
    ∀ text ∈ samplersOf code, lacks directives text = true := by
  refine fun text member => lacks_of_notMem ?_
  revert text
  unfold samplersOf
  cases uses code "iChannel0" <;> decide

theorem forM_declareBlock_running (plain : sections.Plain)
    (defines : sections .defines = (definitionsOf code).map String.toList)
    (rates : List UniformRate) :
    rates.forM declareBlock (running (boundBy code) (sections.source .pixel) screen) =
      .ok () (running (boundBy code)
        ((sections.addAll .uniform (rates.flatMap (blocksOf code))).source .pixel) screen) := by
  induction rates generalizing sections with
  | nil => rfl
  | cons rate rates ih =>
    have first := declareBlock_running plain defines rate
    have free : ∀ text ∈ blocksOf code rate, Source.isPlainCode text = true :=
      fun text member => plain_of_lacks (lacks_blockTexts _ _ _ rate text member)
    have rest := ih (plain.addAll .uniform free)
      (by rw [Sections.addAll_of_ne (by decide), defines])
    rw [← Sections.addAll_append, ← List.flatMap_cons] at rest
    exact (Action.forM_cons_of_ok first rest).1

/-- The declaration of a sampler. -/
def samplerText (b : Binding) : String :=
  let slot := b.sampler.getD 0
  s!"layout(set = 2, binding = {slot}) uniform sampler2D {b.name};"

theorem declareSamplers_running (plain : sections.Plain)
    (defines : sections .defines = (definitionsOf code).map String.toList) :
    (((running (boundBy code) (sections.source .pixel) screen).inputsAt
      (.uniform .renderable)).filter fun b => b.key.isTexture).forM declareSampler
        (running (boundBy code) (sections.source .pixel) screen) =
      .ok () (running (boundBy code)
        ((sections.addAll .uniform (samplersOf code)).source .pixel) screen) := by
  rw [textures_running, samplersOf]
  cases used : uses code "iChannel0" with
  | false => rfl
  | true =>
    have bound : .texture ∈ boundBy code := by simp [boundBy_eq, used]
    have spelled : samplerText (input .texture) =
        "layout(set = 2, binding = 0) uniform sampler2D Texture0;" := by decide
    have declared := declareWhereMentioned_running plain
      (List.forall_mem_singleton.2 (known_boundBy code .texture bound)) List.mem_cons_self
      (fun _ => mentions_screen) (mentions_of_bound defines bound) (samplerText (input .texture))
      (boundBy code)
    let step : Binding → Action Unit := declareSampler
    have first : step (input .texture) (running (boundBy code) (sections.source .pixel) screen) =
        .ok () (running (boundBy code)
          ((sections.add .uniform (samplerText (input .texture))).source .pixel) screen) := declared
    rw [spelled] at first
    exact (Action.forM_cons_of_ok first rfl).1

/-- All declarations of uniforms. -/
def uniformsOf (code : String) : List String :=
  UniformRate.all.flatMap (blocksOf code) ++ samplersOf code

theorem declareUniforms_running (plain : sections.Plain)
    (defines : sections .defines = (definitionsOf code).map String.toList) :
    declareUniforms (running (boundBy code) (sections.source .pixel) screen) =
      .ok () (running (boundBy code)
        ((sections.addAll .uniform (uniformsOf code)).source .pixel) screen) := by
  have blocks := forM_declareBlock_running plain defines UniformRate.all
  have free : ∀ text ∈ UniformRate.all.flatMap (blocksOf code), Source.isPlainCode text = true := by
    intro text member
    obtain ⟨rate, -, inside⟩ := List.mem_flatMap.1 member
    exact plain_of_lacks (lacks_blockTexts _ _ _ rate text inside)
  have samplers := declareSamplers_running (plain.addAll .uniform free)
    (by rw [Sections.addAll_of_ne (by decide), defines])
  rw [← Sections.addAll_append] at samplers
  unfold declareUniforms
  refine (bind_of_ok blocks ?_).1
  generalize running (boundBy code) ((sections.addAll .uniform
    (UniformRate.all.flatMap (blocksOf code))).source .pixel) screen = blocked at samplers ⊢
  exact (bind_of_ok (show (read : Action Material) blocked = .ok blocked blocked from rfl)
    samplers).1

/-- The sections of the finished pixel stage, but for its version. -/
def finishedSections (code : String) : Sections :=
  ((sectionsOf code).add .output outputLine).addAll .uniform (uniformsOf code)

theorem lacks_uniformsOf (code : String) :
    ∀ text ∈ uniformsOf code, lacks directives text = true := by
  intro text member
  rcases List.mem_append.1 member with block | sampler
  · obtain ⟨rate, -, inside⟩ := List.mem_flatMap.1 block
    exact lacks_blockTexts _ _ _ rate text inside
  · exact lacks_samplersOf code text sampler

theorem defines_sectionsOf (code : String) :
    sectionsOf code .defines = (definitionsOf code).map String.toList := by
  simp [sectionsOf, Sections.add, Sections.defining]

theorem plain_output (free : lacks directives code = true) :
    ((sectionsOf code).add .output outputLine).Plain :=
  (plain_sectionsOf free).add .output (by decide)

theorem plain_finishedSections (free : lacks directives code = true) :
    (finishedSections code).Plain :=
  (plain_output free).addAll .uniform fun text member =>
    plain_of_lacks (lacks_uniformsOf code text member)

theorem unversioned_finishedSections (free : lacks directives code = true) :
    (finishedSections code).Lacks "#version".toList := by
  have version {text : String} (clean : lacks directives text = true) :
      ¬ "#version".toList <:+: text.toList :=
    lacks_iff.1 clean "#version" (by decide)
  have defined : (Sections.defining (definitionsOf code)).Lacks "#version".toList := by
    refine Sections.lacks_defining fun line member => ?_
    exact (whole_of_mem_definitionLines ((definitionsOf_sublist code).subset member)).unversioned
  refine Sections.Lacks.addAll ?_ .uniform fun text member =>
    version (lacks_uniformsOf code text member)
  refine Sections.Lacks.add ?_ .output (version (lacks_of_notMem (by decide)))
  refine Sections.Lacks.add ?_ .texturize (version (lacks_of_notMem (by decide)))
  exact defined.add .functions (version (lacks_trim free))

theorem perform_stamp (m : Material) : Action.perform .stamp m = .ok () m.stamped := rfl

/-- Completing the material of a snippet succeeds, and it says nothing of what it does. -/
theorem complete_running (free : lacks directives code = true) :
    complete (running (boundBy code) ((sectionsOf code).source .pixel) .empty) =
      .ok () (running (boundBy code) ((finishedSections code).source .pixel) screen).stamped := by
  have interface := declareInterface_running (known_boundBy code) (plain_sectionsOf free) .empty
  have uniforms := declareUniforms_running (plain_output free) (defines_sectionsOf code)
  refine (bind_of_ok (ensureOutput_running _ _ _) ?_).1
  refine (bind_of_ok interface ?_).1
  refine (bind_of_ok (ensurePosition_running _ _) ?_).1
  exact (bind_of_ok uniforms (perform_stamp _)).1

theorem generate_called (free : lacks directives code = true) :
    generate (called (boundBy code) ((sectionsOf code).source .pixel)) =
      .ok () (running (boundBy code) ((finishedSections code).source .pixel) screen).stamped := by
  obtain ⟨begun, marked, walked⟩ := walk_called (boundBy code) ((sectionsOf code).source .pixel)
  refine (bind_of_ok (a := called (boundBy code) ((sectionsOf code).source .pixel)) rfl ?_).1
  refine (bind_of_ok marked ?_).1
  refine (bind_of_ok walked ?_).1
  exact complete_running free

end Snippet

namespace Source

theorem codeLines_block {lines : List String} (filled : lines ≠ [])
    (solid : ∀ line ∈ lines, Solid line) :
    codeLines (Text.block (lines ++ [""])) = lines.map String.toList := by
  obtain ⟨ended, last, rfl⟩ := (List.eq_nil_or_concat lines).resolve_left filled
  rw [List.concat_eq_append] at solid ⊢
  have plain := (solid last (by simp)).newline
  obtain ⟨front, c, cut⟩ :=
    (List.eq_nil_or_concat last.toList).resolve_left (solid last (by simp)).filled
  rw [List.concat_eq_append] at cut
  have stays : (c == '\n') = false := by
    have different : c ≠ '\n' := fun same => plain (by simp [cut, same])
    simpa using different
  have dropped : Text.dropWhileRight (· == '\n')
      (Text.terminated ((ended ++ [last]).map String.toList)) =
        Text.terminated (ended.map String.toList) ++ last.toList := by
    rw [List.map_append, Text.terminated_append, cut]
    simp [Text.dropWhileRight, cut, stays]
  rw [codeLines, Text.toList_block, dropped, Text.lines_terminated ?_ plain, List.map_append]
  · rfl
  · intro line member
    obtain ⟨given, listed, rfl⟩ := List.mem_map.1 member
    exact (solid given (List.mem_append_left _ listed)).newline

end Source

namespace Snippet

open GlslMaterial.Action (bind_of_ok Yields)
open Material

theorem laid_blockTexts (time view mouse : Bool) (rate : UniformRate) :
    ((blockTexts time view mouse rate).flatMap Source.codeLines).map (Source.laid []) =
      (blockLines time view mouse rate).map String.toList := by
  have all : ∀ time view mouse, ∀ line ∈ blockLines time view mouse rate, '\n' ∉ line.toList ∧
      line.toList ≠ [] ∧ Source.laid [] line.toList = line.toList := by
    cases rate <;> decide +kernel
  have solid : ∀ line ∈ blockLines time view mouse rate, Source.Solid line := by
    intro line member
    obtain ⟨newline, filled, laid⟩ := all time view mouse line member
    exact ⟨newline, filled, laid⟩
  unfold blockTexts
  cases lines : blockLines time view mouse rate with
  | nil => rfl
  | cons first rest =>
    rw [lines] at solid
    rw [List.isEmpty_cons, if_neg Bool.false_ne_true, List.flatMap_cons, List.flatMap_nil,
      List.append_nil, Source.codeLines_block (by simp) solid, List.map_map]
    exact List.map_congr_left fun line member => (solid line member).laid

theorem laid_uniformsOf (code : String) :
    ((uniformsOf code).flatMap Source.codeLines).map (Source.laid []) =
      (tickLines (uses code "iTime") (uses code "iMouse") ++ cameraLines (uses code "iView") ++
        samplerLines (uses code "iChannel0")).map String.toList := by
  have samplers : ((samplersOf code).flatMap Source.codeLines).map (Source.laid []) =
      (samplerLines (uses code "iChannel0")).map String.toList := by
    unfold samplersOf
    cases uses code "iChannel0" <;> decide +kernel
  have blocks : ((UniformRate.all.flatMap (blocksOf code)).flatMap Source.codeLines).map
        (Source.laid []) =
      (UniformRate.all.flatMap (blockLines (uses code "iTime") (uses code "iView")
        (uses code "iMouse"))).map String.toList := by
    rw [List.flatMap_assoc, List.map_flatMap, List.map_flatMap]
    exact List.flatMap_congr fun rate _ => laid_blockTexts _ _ _ rate
  rw [uniformsOf, List.flatMap_append, List.map_append, samplers, blocks, ← List.map_append]
  simp [UniformRate.all, blockLines]

theorem laid_definitionsOf (code : String) :
    ((definitionsOf code).map String.toList).map (Source.laid []) =
      (placeLine :: globalLines code).map String.toList := by
  rw [← definitionsOf_eq, List.map_map]
  refine List.map_congr_left fun line member => ?_
  exact (whole_of_mem_definitionLines ((definitionsOf_sublist code).subset member)).laid

theorem finishedLines_pixel (sections : Sections) :
    sections.finishedLines .pixel =
      (sections .version ++ sections .defines ++ sections .input ++ sections .output ++
        sections .uniform ++ sections .functions).map (Source.laid []) ++
      ["".toList, "void main () \x7b".toList] ++
      (sections .texturize ++ sections .colorize).map (Source.laid "    ".toList) ++
      ["\x7d".toList] := by
  have template : Stage.pixel.lines = ["#VERSION", "#DEFINES", "#INPUT", "#OUTPUT", "#UNIFORM",
      "#FUNCTIONS", "", "void main () \x7b", "    #TEXTURIZE", "    #COLORIZE",
      "\x7d"].map String.toList := by
    decide
  have spelled : sections.finishedLines .pixel =
      (((sections .version).map (Source.laid []) ++ []) ++
      (((sections .defines).map (Source.laid []) ++ []) ++
      (((sections .input).map (Source.laid []) ++ []) ++
      (((sections .output).map (Source.laid []) ++ []) ++
      (((sections .uniform).map (Source.laid []) ++ []) ++
      (((sections .functions).map (Source.laid []) ++ []) ++
      (([] ++ ["".toList]) ++ (([] ++ ["void main () \x7b".toList]) ++
      (((sections .texturize).map (Source.laid "    ".toList) ++ []) ++
      (((sections .colorize).map (Source.laid "    ".toList) ++ []) ++
      (([] ++ ["\x7d".toList]) ++ []))))))))))) := by
    rw [Sections.finishedLines, template]
    rfl
  rw [spelled]
  simp only [List.map_append, List.append_assoc, List.append_nil, List.nil_append,
    List.cons_append]

theorem finishedSections_of_ne (code : String) {marker : Marker} (other : marker ≠ .uniform) :
    finishedSections code marker = (sectionsOf code).add .output outputLine marker :=
  Sections.addAll_of_ne other _ _

theorem finishedLines_finishedSections (code : String) :
    "#version 450".toList :: (finishedSections code).finishedLines .pixel = pixelLines code := by
  have defines : finishedSections code .defines = (definitionsOf code).map String.toList :=
    finishedSections_of_ne code (by decide)
  have output : finishedSections code .output = [] ++ Source.codeLines outputLine :=
    finishedSections_of_ne code (by decide)
  have uniform : finishedSections code .uniform = (uniformsOf code).flatMap Source.codeLines :=
    Sections.addAll_self _ _ _
  have functions : finishedSections code .functions =
      [] ++ Source.codeLines (String.ofList (Text.trim code.toList)) :=
    finishedSections_of_ne code (by decide)
  have texturize : finishedSections code .texturize =
      [] ++ Source.codeLines "mainImage(outColor, FRAGCOORD);" :=
    finishedSections_of_ne code (by decide)
  have version : finishedSections code .version = [] := finishedSections_of_ne code (by decide)
  have input : finishedSections code .input = [] := finishedSections_of_ne code (by decide)
  have colorize : finishedSections code .colorize = [] := finishedSections_of_ne code (by decide)
  have declared : (Source.codeLines outputLine).map (Source.laid []) =
      ["layout(location = 0) out vec4 outColor;".toList] := by
    decide +kernel
  have called : (Source.codeLines "mainImage(outColor, FRAGCOORD);").map
      (Source.laid "    ".toList) = ["    mainImage(outColor, FRAGCOORD);".toList] := by
    decide +kernel
  have kept : (Text.lines (Text.trim code.toList)).map (Source.laid []) =
      (Text.lines (Text.trim code.toList)).map Text.trimRight :=
    List.map_congr_left fun line _ => Source.laid_nil line
  rw [finishedLines_pixel, defines, output, uniform, functions, texturize, version, input, colorize,
    List.nil_append, List.nil_append, List.nil_append, List.append_nil, List.append_nil,
    List.nil_append, Source.codeLines_trim, called, List.map_append,
    List.map_append, List.map_append, declared, laid_definitionsOf, laid_uniformsOf, kept,
    pixelLines]
  simp only [List.map_append, List.map_cons, List.map_nil, List.append_assoc,
    List.cons_append, List.nil_append]
  rfl

/-- A text without markers and without a version that has the image function becomes a material,
which is generated without warnings. Its pixel stage has nothing but the definitions and
declarations of what the text uses, the text, and the call of the image function. -/
theorem generate_ofSnippet {code : String}
    (entry : Text.wildcardMatch entryPattern.toList code.toList = true)
    (free : lacks directives code = true) :
    ∃ m after, ofSnippet code = .ok m ∧ generate m = .ok () after ∧ after.warnings = [] ∧
      (after.stageCode .pixel).toList = Text.terminated (pixelLines code) := by
  let sections := finishedSections code
  let m := running (boundBy code) (sections.source .pixel) screen
  have plain := plain_finishedSections free
  have made : ofSnippet code = .ok (called (boundBy code) ((sectionsOf code).source .pixel)) := by
    rw [ofSnippet, if_pos entry, writeSnippet_ofRate free]
  have unversioned : (sections.source .pixel).mentions "#version" = false := by
    refine Bool.eq_false_iff.2 fun mentions => ?_
    obtain ⟨marker, line, member, part⟩ := Sections.exists_mem_of_infix (by decide) (by decide)
      (by decide) (fun line listed => (Stage.pixel.notInfix_of_mem_lines listed).1)
      (Text.infix_of_hasKeyword mentions)
    exact unversioned_finishedSections free marker line member part
  have stamped : m.stamped.source .pixel =
      (sections.add .version (Source.versionLine 450)).source .pixel := by
    have filled : (m.source .pixel).isEmpty = false := sections.isEmpty_source .pixel
    rw [source_stamped, filled, if_neg Bool.false_ne_true]
    show (sections.source .pixel).setVersion 450 = _
    rw [Source.setVersion, unversioned, if_neg Bool.false_ne_true]
    exact Sections.insert_source plain .pixel .version _
  have none : sections .version = [] := Sections.addAll_of_ne (by decide) _ _
  refine ⟨_, m.stamped, made, generate_called free, rfl, ?_⟩
  rw [stageCode, stamped, Sections.compiled_source
    (plain.add .version (Source.isPlainCode_versionLine 450)),
    Sections.finishedLines_add_version none]
  exact congrArg Text.terminated (finishedLines_finishedSections code)

/-- A snippet with blanks behind a line and a global in a longer word. -/
def waves : String :=
  Text.block
    ["", "void mainImage(out vec4 c, in vec2 p) \x7b  ", "    c = vec4(iTime + myiView);", "\x7d"]

theorem generate_ofSnippet_of_waves :
    Text.wildcardMatch entryPattern.toList waves.toList = true ∧ lacks directives waves = true ∧
    ∃ m after, ofSnippet waves = .ok m ∧ generate m = .ok () after ∧ after.warnings = [] ∧
      (after.stageCode .pixel).toList = Text.terminated
        (["#version 450",
          "#define FRAGCOORD vec2(gl_FragCoord.x, Camera.Resolution.y - gl_FragCoord.y)",
          "#define iTime Tick.Time",
          "layout(location = 0) out vec4 outColor;",
          "layout(set = 0, binding = 0) uniform UniformBufferTick \x7b",
          "    float Time;",
          "\x7d Tick;",
          "layout(set = 0, binding = 2) uniform UniformBufferCamera \x7b",
          "    vec2 Resolution;",
          "\x7d Camera;",
          "void mainImage(out vec4 c, in vec2 p) \x7b",
          "    c = vec4(iTime + myiView);",
          "\x7d",
          "",
          "void main () \x7b",
          "    mainImage(outColor, FRAGCOORD);",
          "\x7d"].map String.toList) := by
  have entry : Text.wildcardMatch entryPattern.toList waves.toList = true := by decide +kernel
  have free : lacks directives waves = true := lacks_of_notMem (by decide)
  obtain ⟨m, after, made, generated, quiet, text⟩ := generate_ofSnippet entry free
  refine ⟨entry, free, m, after, made, generated, quiet, text.trans (congrArg Text.terminated ?_)⟩
  decide +kernel

end Snippet

end GlslMaterial
