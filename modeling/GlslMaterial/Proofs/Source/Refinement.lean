import GlslMaterial.Proofs.Source.Sections

/-!
Refinement: whatever is inserted, defined or versioned, a source is the source of a table of
sections, and its finished text is that table without the lines of the markers.
-/

set_option autoImplicit false

namespace GlslMaterial

namespace Source

/-- A change of a source. -/
inductive Edit where
  | insert (marker : Marker) (code : String)
  | define (text : String)
  | setVersion (version : Nat)

namespace Edit

/-- Where an edit puts its code. -/
def marker : Edit → Marker
  | insert marker _ => marker
  | define _ => .defines
  | setVersion _ => .version

def code : Edit → String
  | insert _ code => code
  | define text => s!"#define {text}"
  | setVersion version => s!"#version {version}"

/-- Whether an edit finds in the source what it would put there. Plain insertions never look. -/
def isRedundant (s : Source) : Edit → Bool
  | insert _ _ => false
  | define text => s.isDefined text
  | setVersion _ => s.mentions "#version"

end Edit

def edit (s : Source) : Edit → Source
  | .insert marker code => s.insert marker code
  | .define text => s.define text
  | .setVersion version => s.setVersion version

theorem edit_eq (s : Source) (change : Edit) :
    s.edit change = if change.isRedundant s then s else s.insert change.marker change.code := by
  cases change <;> rfl

end Source

namespace Sections

def edit (stage : Stage) (sections : Sections) (change : Source.Edit) : Sections :=
  if change.isRedundant (sections.source stage) then sections
  else sections.add change.marker change.code

variable {sections : Sections}

theorem Plain.edit (plain : sections.Plain) (stage : Stage)
    {change : Source.Edit} (free : Source.isPlainCode change.code = true) :
    (Sections.edit stage sections change).Plain := by
  unfold Sections.edit
  split
  · exact plain
  · exact plain.add change.marker free

theorem edit_source (plain : sections.Plain) (stage : Stage) (change : Source.Edit) :
    (sections.source stage).edit change = (sections.edit stage change).source stage := by
  rw [Source.edit_eq, edit]
  split
  · rfl
  · exact insert_source plain stage change.marker change.code

theorem foldl_edit_source (stage : Stage) {changes : List Source.Edit}
    (free : ∀ change ∈ changes, Source.isPlainCode change.code = true) (plain : sections.Plain) :
    (changes.foldl (edit stage) sections).Plain ∧
      changes.foldl Source.edit (sections.source stage) =
        (changes.foldl (edit stage) sections).source stage := by
  induction changes generalizing sections with
  | nil => exact ⟨plain, rfl⟩
  | cons change changes ih =>
    have first := free change List.mem_cons_self
    have later := fun other member => free other (List.mem_cons_of_mem change member)
    rw [List.foldl_cons, List.foldl_cons, edit_source plain stage change]
    exact ih later (plain.edit stage first)

theorem newline_notMem_lines (plain : sections.Plain) (stage : Stage) :
    ∀ line ∈ sections.lines stage, '\n' ∉ line := by
  intro line member
  obtain ⟨place, listed, here⟩ := List.mem_flatMap.1 member
  rcases List.mem_append.1 here with inserted | own
  · exact (plain.above place line inserted).2
  · rw [List.mem_singleton.1 own]
    exact stage.newline_notMem_of_mem_lines place listed

theorem filter_place (plain : sections.Plain) {stage : Stage}
    {place : List Char} (listed : place ∈ stage.lines) :
    (sections.above place ++ [place]).filter (fun line => !Source.isMarkerLine (line ++ ['\n'])) =
      sections.above place ++ if (Marker.ofLine? place).isSome then [] else [place] := by
  have kept : (sections.above place).filter (fun line => !Source.isMarkerLine (line ++ ['\n'])) =
      sections.above place := by
    apply List.filter_eq_self.2
    intro line inserted
    rw [Source.isMarkerLine_of_isPlain (plain.above place line inserted).1]
    rfl
  rw [List.filter_append, kept]
  cases holds : Marker.ofLine? place with
  | some marker => simp [Marker.isMarkerLine_of_ofLine? holds]
  | none => simp [Source.isMarkerLine_of_isPlain (stage.isPlain_of_mem_lines listed holds)]

theorem compiled_source (plain : sections.Plain) (stage : Stage) :
    (sections.source stage).compiled.toList = Text.terminated (sections.finishedLines stage) := by
  have filtered :
      (sections.lines stage).filter (fun line => !Source.isMarkerLine (line ++ ['\n'])) =
        sections.finishedLines stage := by
    rw [lines, finishedLines, List.filter_flatMap, List.flatMap_def, List.flatMap_def]
    congr 1
    apply List.map_congr_left
    intro place listed
    exact filter_place plain listed
  rw [Source.compiled, source, Text.linesWithEnds_terminated (newline_notMem_lines plain stage),
    String.toList_ofList, List.filter_map, ← filtered, Text.terminated, List.flatMap_def]
  rfl

theorem isPlain_finishedLines (plain : sections.Plain) (stage : Stage) :
    ∀ line ∈ sections.finishedLines stage, Source.isPlain line = true := by
  intro line member
  obtain ⟨place, listed, here⟩ := List.mem_flatMap.1 member
  rcases List.mem_append.1 here with inserted | own
  · exact (plain.above place line inserted).1
  · cases holds : Marker.ofLine? place with
    | some marker => simp [holds] at own
    | none =>
      have same : line = place := by simpa [holds] using own
      rw [same]
      exact stage.isPlain_of_mem_lines listed holds

theorem hasKeyword_compiled (plain : sections.Plain) (stage : Stage) (marker : Marker) :
    Text.hasKeyword marker.text.toList (sections.source stage).compiled.toList = false := by
  have free : ∀ line ∈ sections.finishedLines stage,
      Text.splitKeyword marker.text.toList line = none := fun line member =>
    Source.splitKeyword_of_isPlain (isPlain_finishedLines plain stage line member) marker
  rw [compiled_source plain stage, Text.hasKeyword,
    Text.splitKeyword_terminated_none marker.text_ne_nil marker.newline_notMem_text free]
  rfl

theorem insert?_source_eq_none_iff (plain : sections.Plain) (stage : Stage)
    (marker : Marker) (code : String) :
    (sections.source stage).insert? marker code = none ↔
      (Source.ofTemplate stage).hasMarker marker = false := by
  have looks (s : Source) : s.hasMarker marker = (s.insert? marker code).isSome := by
    rw [Source.hasMarker, Source.mentions, Text.hasKeyword, Source.insert?]
    split <;> simp_all
  rw [looks, ← source_empty]
  by_cases member : marker ∈ stage.markers
  · simp [insert?_source plain member, insert?_source plain_empty member]
  · simp [insert?_source_eq_none plain member, insert?_source_eq_none plain_empty member]

theorem insert_source_comm (plain : sections.Plain) (stage : Stage)
    {first second : Marker} (different : first ≠ second) {code other : String}
    (free : Source.isPlainCode code = true) (otherFree : Source.isPlainCode other = true) :
    ((sections.source stage).insert first code).insert second other =
      ((sections.source stage).insert second other).insert first code := by
  rw [insert_source plain, insert_source plain, insert_source (plain.add first free),
    insert_source (plain.add second otherFree), add_comm different]

end Sections

/-- A source made from a template by edits without markers in their code is the source of the table
that the same edits make: its text, which insertions succeed, that insertions at different markers
commute, and the finished text, which has no marker left. -/
theorem Source.edits_refine_sections (stage : Stage) (changes : List Source.Edit)
    (free : ∀ change ∈ changes, Source.isPlainCode change.code = true) :
    let s := changes.foldl Source.edit (Source.ofTemplate stage)
    let sections := changes.foldl (Sections.edit stage) Sections.empty
    s.text = Text.terminated (sections.lines stage) ∧
      (∀ marker code, s.insert? marker code = none ↔
        (Source.ofTemplate stage).hasMarker marker = false) ∧
      (∀ marker code, (Source.ofTemplate stage).hasMarker marker = false →
        s.insert marker code = s) ∧
      (∀ first second code other, first ≠ second → Source.isPlainCode code = true →
        Source.isPlainCode other = true →
        (s.insert first code).insert second other = (s.insert second other).insert first code) ∧
      s.compiled.toList = Text.terminated (sections.finishedLines stage) ∧
      ∀ marker : Marker, Text.hasKeyword marker.text.toList s.compiled.toList = false := by
  intro s sections
  obtain ⟨plain, same⟩ : sections.Plain ∧ _ :=
    Sections.foldl_edit_source stage free Sections.plain_empty
  have source : s = sections.source stage := by
    rw [← same, Sections.source_empty]
  rw [source]
  have absent := Sections.insert?_source_eq_none_iff plain stage
  refine ⟨rfl, absent, ?_, ?_, Sections.compiled_source plain stage,
    Sections.hasKeyword_compiled plain stage⟩
  · intro marker code lacks
    rw [Source.insert, (absent marker code).2 lacks]
    rfl
  · intro first second code other different plainCode plainOther
    exact Sections.insert_source_comm plain stage different plainCode plainOther

/-- Several lines, a definition made twice, a version and a marker that the stage lacks. -/
theorem Source.edits_refine_sections_pixel :
    let changes : List Source.Edit :=
      [.insert .functions "float f () \x7b\n    return 1.0;  \n\n\x7d\n", .define "LIT 1",
        .define "LIT 1", .setVersion 450, .insert .position "gl_Position = p;",
        .insert .texturize "float value1 = f();"]
    let s := changes.foldl Source.edit (Source.ofTemplate .pixel)
    (∀ change ∈ changes, Source.isPlainCode change.code = true) ∧
      s.text = Text.terminated
        ((changes.foldl (Sections.edit .pixel) Sections.empty).lines .pixel) ∧
      s.compiled.toList = Text.terminated
        ((changes.foldl (Sections.edit .pixel) Sections.empty).finishedLines .pixel) := by
  intro changes s
  have free : ∀ change ∈ changes, Source.isPlainCode change.code = true := by
    decide +kernel
  have refined := Source.edits_refine_sections .pixel changes free
  exact ⟨free, refined.1, refined.2.2.2.2.1⟩

end GlslMaterial
