import GlslMaterial.Proofs.Source.Insertion

/-!
Sections: a source is the template of its stage with, above the line of each marker, the lines that
were inserted there.
-/

set_option autoImplicit false

namespace GlslMaterial

/-- For each marker the lines inserted at it, in the order in which they came. -/
abbrev Sections : Type :=
  Marker → List (List Char)

namespace Sections

def empty : Sections :=
  fun _ => []

/-- The lines of `code` behind those that the section of `marker` has. -/
def add (sections : Sections) (marker : Marker) (code : String) : Sections :=
  fun other =>
    if other = marker then sections other ++ Source.codeLines code else sections other

/-- What stands above a line of a template, in the indentation of that line. -/
def above (sections : Sections) (line : List Char) : List (List Char) :=
  match Marker.ofLine? line with
  | some marker => (sections marker).map (Source.laid (indentation line))
  | none => []

/-- The template of a stage with every section above the line of its marker. -/
def lines (sections : Sections) (stage : Stage) : List (List Char) :=
  stage.lines.flatMap fun line => sections.above line ++ [line]

/-- The same lines without those that hold a marker of the template. -/
def finishedLines (sections : Sections) (stage : Stage) : List (List Char) :=
  stage.lines.flatMap fun line =>
    sections.above line ++ if (Marker.ofLine? line).isSome then [] else [line]

def source (sections : Sections) (stage : Stage) : Source :=
  ⟨Text.terminated (sections.lines stage)⟩

/-- No line of any section has a marker or a newline. -/
def Plain (sections : Sections) : Prop :=
  ∀ marker, ∀ line ∈ sections marker, Source.isPlain line = true ∧ '\n' ∉ line

theorem plain_empty : empty.Plain := by
  simp [Plain, empty]

variable {sections : Sections} {code : String} {marker : Marker} {stage : Stage}

theorem Plain.add (plain : sections.Plain) (marker : Marker)
    (free : Source.isPlainCode code = true) : (sections.add marker code).Plain := by
  intro other line member
  unfold Sections.add at member
  split at member
  · rcases List.mem_append.1 member with old | new
    · exact plain other line old
    · exact ⟨List.all_eq_true.1 free line new, Text.newline_notMem_of_mem_lines new⟩
  · exact plain other line member

theorem Plain.above (plain : sections.Plain) (line : List Char) :
    ∀ other ∈ sections.above line, Source.isPlain other = true ∧ '\n' ∉ other := by
  intro other member
  unfold Sections.above at member
  split at member
  · obtain ⟨inserted, inside, rfl⟩ := List.mem_map.1 member
    obtain ⟨free, whole⟩ := plain _ inserted inside
    exact ⟨Source.isPlain_laid (notMem_indentation line (by decide)) free,
      Source.newline_notMem_laid (notMem_indentation line (by decide)) whole⟩
  · simp at member

theorem source_empty (stage : Stage) : empty.source stage = Source.ofTemplate stage := by
  have nothing (line : List Char) : empty.above line = [] := by
    unfold Sections.above
    split <;> rfl
  simp only [source, lines, nothing, List.nil_append, Source.ofTemplate, stage.template_toList,
    List.flatMap_singleton']

theorem above_add_of_ne {line : List Char} (other : Marker.ofLine? line ≠ some marker) :
    (sections.add marker code).above line = sections.above line := by
  unfold above
  split
  · rename_i holds
    have different : _ ≠ marker := fun same => other (same ▸ holds)
    rw [add, if_neg different]
  · rfl

theorem above_add_self {line : List Char} (holds : Marker.ofLine? line = some marker) :
    (sections.add marker code).above line =
      sections.above line ++ (Source.codeLines code).map (Source.laid (indentation line)) := by
  simp only [above, holds, add, if_true, List.map_append]

theorem add_comm {first second : Marker} (different : first ≠ second) (code other : String) :
    (sections.add first code).add second other = (sections.add second other).add first code := by
  funext marker
  by_cases here : marker = first
  · have there : marker ≠ second := fun same => different (here.symm.trans same)
    simp [add, here, different]
  · simp [add, here]

theorem splitKeyword_source (plain : sections.Plain)
    {lines : List (List Char)} (inside : ∀ line ∈ lines, line ∈ stage.lines)
    (other : ∀ line ∈ lines, Marker.ofLine? line ≠ some marker) :
    ∀ line ∈ lines.flatMap fun line => sections.above line ++ [line],
      Text.splitKeyword marker.text.toList line = none := by
  intro line member
  obtain ⟨place, listed, here⟩ := List.mem_flatMap.1 member
  rcases List.mem_append.1 here with inserted | own
  · exact Source.splitKeyword_of_isPlain (plain.above place line inserted).1 marker
  · rw [List.mem_singleton.1 own]
    exact stage.splitKeyword_of_mem_lines (inside place listed) (other place listed)

theorem insert?_source (plain : sections.Plain) (member : marker ∈ stage.markers) (code : String) :
    (sections.source stage).insert? marker code =
      some ((sections.add marker code).source stage) := by
  obtain ⟨before, line, after, cut, holds, other⟩ := Stage.exists_line_of_mem_markers member
  let placed (table : Sections) (line : List Char) := table.above line ++ [line]
  have rendered (table : Sections) : table.lines stage =
      before.flatMap (placed table) ++ table.above line ++
        line :: after.flatMap (placed table) := by
    simp [lines, cut, placed]
  have unchanged (rest : List (List Char)) (inside : ∀ line ∈ rest, line ∈ before ++ after) :
      rest.flatMap (placed (sections.add marker code)) = rest.flatMap (placed sections) := by
    rw [List.flatMap_def, List.flatMap_def]
    congr 1
    apply List.map_congr_left
    intro place listed
    simp only [placed, above_add_of_ne (other place (inside place listed))]
  have free : ∀ earlier ∈ before.flatMap (placed sections) ++ sections.above line,
      Text.splitKeyword marker.text.toList earlier = none := by
    intro earlier listed
    rcases List.mem_append.1 listed with template | inserted
    · have early : ∀ place ∈ before, place ∈ stage.lines := by
        intro place listed
        rw [cut]
        exact List.mem_append_left _ listed
      exact splitKeyword_source plain early
        (fun place listed => other place (List.mem_append_left after listed)) earlier template
    · exact Source.splitKeyword_of_isPlain (plain.above line earlier inserted).1 marker
  have inserted := Source.insert?_terminated free (notMem_indentation line (by decide))
    (notMem_indentation line (by decide)) (after.flatMap (placed sections)) code
  rw [← Marker.eq_of_ofLine? holds] at inserted
  rw [source, source, rendered, rendered, inserted, above_add_self holds,
    unchanged before fun _ listed => List.mem_append_left after listed,
    unchanged after fun _ listed => List.mem_append_right before listed]
  simp

theorem insert?_source_eq_none (plain : sections.Plain)
    (absent : marker ∉ stage.markers) (code : String) :
    (sections.source stage).insert? marker code = none := by
  have nowhere : ∀ line ∈ stage.lines, Marker.ofLine? line ≠ some marker :=
    fun line member holds => absent (List.mem_filterMap.2 ⟨line, member, holds⟩)
  have free := splitKeyword_source plain (fun line member => member) nowhere
  have missing :=
    Text.splitKeyword_terminated_none marker.text_ne_nil marker.newline_notMem_text free
  simp only [Source.insert?, source, lines, missing]

theorem source_add_of_notMem (absent : marker ∉ stage.markers) (code : String) :
    (sections.add marker code).source stage = sections.source stage := by
  have same : (sections.add marker code).lines stage = sections.lines stage := by
    rw [lines, lines, List.flatMap_def, List.flatMap_def]
    congr 1
    apply List.map_congr_left
    intro line member
    rw [above_add_of_ne fun holds => absent (List.mem_filterMap.2 ⟨line, member, holds⟩)]
  rw [source, source, same]

theorem insert_source (plain : sections.Plain) (stage : Stage) (marker : Marker) (code : String) :
    (sections.source stage).insert marker code = (sections.add marker code).source stage := by
  by_cases member : marker ∈ stage.markers
  · rw [Source.insert, insert?_source plain member]
    rfl
  · rw [Source.insert, insert?_source_eq_none plain member, source_add_of_notMem member]
    rfl

end Sections

end GlslMaterial
