import GlslMaterial.Proofs.Source.Marker
import GlslMaterial.Source

/-!
Insertion by lines: code goes above the first line that has its marker, and each line of a template
has at most one marker, which no other line of the template has.
-/

set_option autoImplicit false

namespace GlslMaterial

namespace Source

/-- The lines of a piece of code; newlines at its end do not count. -/
def codeLines (code : String) : List (List Char) :=
  Text.lines (Text.dropWhileRight (· == '\n') code.toList)

/-- An inserted line in its place: a blank line is empty, and any other takes the indentation and
loses the blanks at its end. -/
def laid (pad line : List Char) : List Char :=
  if Text.isAllBlank line then [] else pad ++ Text.trimRight line

/-- Whether no marker stands in a line as a word. -/
def isPlain (line : List Char) : Bool :=
  Marker.all.all fun marker => !Text.hasKeyword marker.text.toList line

/-- Whether no line of a piece of code has a marker. -/
def isPlainCode (code : String) : Bool :=
  (codeLines code).all isPlain

theorem codeLines_of_notMem {code : String} (plain : '\n' ∉ code.toList) :
    codeLines code = [code.toList] := by
  obtain ⟨dropped, cut, newlines⟩ := Text.dropWhileRight_append (· == '\n') code.toList
  have nothing : dropped = [] := by
    apply List.eq_nil_iff_forall_not_mem.2
    intro c member
    have newline : c = '\n' := by simpa using newlines c member
    exact plain (newline ▸ cut ▸ List.mem_append_right _ member)
  rw [nothing, List.append_nil] at cut
  rw [codeLines, cut, Text.lines_of_notMem plain]

theorem insertion_eq_terminated (pad : List Char) (code : String) :
    insertion pad code.toList = Text.terminated ((codeLines code).map (laid pad)) := by
  have one (line : List Char) : indented pad line = laid pad line ++ ['\n'] := by
    unfold indented laid
    split <;> simp
  simp only [insertion, codeLines, Text.terminated, List.flatMap_map]
  congr 1
  funext line
  exact one line

variable {line pad : List Char}

theorem splitKeyword_of_isPlain (plain : isPlain line = true) (marker : Marker) :
    Text.splitKeyword marker.text.toList line = none := by
  have free := List.all_eq_true.1 plain marker marker.mem_all
  simpa [Text.hasKeyword] using free

/-- Indentation and trimming do not make a marker. -/
theorem isPlain_laid (blank : '#' ∉ pad) (plain : isPlain line = true) :
    isPlain (laid pad line) = true := by
  apply List.all_eq_true.2
  intro marker _
  have free := splitKeyword_of_isPlain plain marker
  unfold laid
  split
  · simp [Text.hasKeyword, Text.splitKeyword, Text.splitKeywordFrom]
  · by_cases has : Text.hasKeyword marker.text.toList (pad ++ Text.trimRight line) = true
    · have found := marker.hasKeyword_laid blank has
      simp [Text.hasKeyword, free] at found
    · simpa using has

theorem laid_concat (pad line : List Char) {c : Char} (solid : Text.isBlank c = false) :
    laid pad (line ++ [c]) = pad ++ (line ++ [c]) := by
  have whole : Text.trimRight (line ++ [c]) = line ++ [c] := by
    simp [Text.trimRight, Text.dropWhileRight, solid]
  have filled : Text.isAllBlank (line ++ [c]) = false := by
    simp [Text.isAllBlank, solid]
  rw [laid, filled, whole]
  rfl

theorem newline_notMem_laid (blank : '\n' ∉ pad) (plain : '\n' ∉ line) : '\n' ∉ laid pad line := by
  have trimmed : '\n' ∉ Text.trimRight line := fun member =>
    plain ((Text.dropWhileRight_isPrefix Text.isBlank line).subset member)
  unfold laid
  split <;> simp [blank, trimmed]

theorem insert?_terminated {before : List (List Char)} {marker : Marker}
    (free : ∀ line ∈ before, Text.splitKeyword marker.text.toList line = none)
    (blank : '#' ∉ pad) (plain : '\n' ∉ pad) (after : List (List Char)) (code : String) :
    insert? ⟨Text.terminated (before ++ (pad ++ marker.text.toList) :: after)⟩ marker code =
      some ⟨Text.terminated
        (before ++ (codeLines code).map (laid pad) ++ (pad ++ marker.text.toList) :: after)⟩ := by
  have found := Text.splitKeyword_terminated marker.text_ne_nil marker.newline_notMem_text free
    (marker.splitKeyword_line blank) after
  unfold insert?
  simp only [found, Text.dropWhileRight_terminated plain, List.drop_left, insertion_eq_terminated]
  simp

theorem hasKeyword_of_trim {marker : Marker} (trimmed : Text.trim line = marker.text.toList) :
    Text.hasKeyword marker.text.toList line = true := by
  obtain ⟨blanks, cut, blank⟩ :=
    Text.dropWhileRight_append Text.isBlank (line.dropWhile Text.isBlank)
  rw [show Text.dropWhileRight Text.isBlank _ = _ from trimmed] at cut
  refine (marker.hasKeyword_iff line).2 ⟨line.takeWhile Text.isBlank, blanks, ?_, ?_⟩
  · rw [List.append_assoc, cut, List.takeWhile_append_dropWhile]
  · intro c next
    exact Text.isIdentifierChar_eq_false_of_isBlank (blank c (List.mem_of_mem_head? next))

theorem isMarkerLine_of_isPlain (plain : isPlain line = true) :
    isMarkerLine (line ++ ['\n']) = false := by
  apply Bool.eq_false_iff.2
  intro marked
  obtain ⟨marker, -, same⟩ := List.any_eq_true.1 marked
  have has := hasKeyword_of_trim (beq_iff_eq.1 same)
  rw [Text.hasKeyword, Text.splitKeyword_append_newline marker.text_ne_nil
    marker.newline_notMem_text, splitKeyword_of_isPlain plain] at has
  simp [Text.splitKeyword, Text.splitKeywordFrom] at has

end Source

def indentation (line : List Char) : List Char :=
  line.takeWhile (· == ' ')

theorem notMem_indentation (line : List Char) {c : Char} (different : c ≠ ' ') :
    c ∉ indentation line := by
  intro member
  have space : c = ' ' := by simpa using List.all_eq_true.1 List.all_takeWhile c member
  exact different space

namespace Marker

/-- The marker that a line of a template holds behind its indentation. -/
def ofLine? (line : List Char) : Option Marker :=
  all.find? fun marker => line.dropWhile (· == ' ') == marker.text.toList

theorem eq_of_ofLine? {line : List Char} {marker : Marker} (holds : ofLine? line = some marker) :
    line = indentation line ++ marker.text.toList := by
  have same : line.dropWhile (· == ' ') = marker.text.toList := by
    simpa using List.find?_some holds
  rw [← same]
  exact List.takeWhile_append_dropWhile.symm

theorem isMarkerLine_of_ofLine? {line : List Char} {marker : Marker}
    (holds : ofLine? line = some marker) : Source.isMarkerLine (line ++ ['\n']) = true := by
  have skipped (pad : List Char) (blank : ∀ c ∈ pad, c = ' ') (rest : List Char) :
      Text.trim (pad ++ rest) = Text.trim rest := by
    have all : ∀ c ∈ pad, Text.isBlank c = true := fun c member => blank c member ▸ by decide
    rw [Text.trim, Text.trim, List.dropWhile_append_of_pos all]
  have own : Text.trim (marker.text.toList ++ ['\n']) = marker.text.toList := by
    cases marker <;> decide
  have spaces : ∀ c ∈ indentation line, c = ' ' := fun c member =>
    Decidable.byContradiction fun different => notMem_indentation line different member
  refine List.any_eq_true.2 ⟨marker, marker.mem_all, beq_iff_eq.2 ?_⟩
  rw [eq_of_ofLine? holds, List.append_assoc, skipped _ spaces, own]

end Marker

namespace Stage

/-- The lines of a template, without their newlines. -/
def lines (stage : Stage) : List (List Char) :=
  stage.templateLines.dropLast.map String.toList

/-- The markers of a template. -/
def markers (stage : Stage) : List Marker :=
  stage.lines.filterMap Marker.ofLine?

theorem template_toList (stage : Stage) : stage.template.toList = Text.terminated stage.lines := by
  have ends : stage.templateLines = stage.templateLines.dropLast ++ [""] := by
    cases stage <;> rfl
  rw [template, ends, Text.toList_block, lines]

/-- There are three templates. -/
theorem lines_eq (stage : Stage) :
    stage.lines = Stage.vertex.lines ∨ stage.lines = Stage.pixel.lines ∨
      stage.lines = Stage.compute.lines := by
  cases stage with
  | pixel => exact .inr (.inl rfl)
  | compute => exact .inr (.inr rfl)
  | _ => exact .inl rfl

theorem newline_notMem_of_mem_lines (stage : Stage) : ∀ line ∈ stage.lines, '\n' ∉ line := by
  rcases stage.lines_eq with same | same | same <;> rw [same] <;> decide

theorem nodup_markers (stage : Stage) : stage.markers.Nodup := by
  rw [markers]
  rcases stage.lines_eq with same | same | same <;> rw [same] <;> decide

theorem hasKeyword_of_mem_lines (stage : Stage) :
    ∀ line ∈ stage.lines, ∀ marker ∈ Marker.all,
      Text.hasKeyword marker.text.toList line = (Marker.ofLine? line == some marker) := by
  rcases stage.lines_eq with same | same | same <;> rw [same] <;> decide +kernel

theorem splitKeyword_of_mem_lines (stage : Stage) {line : List Char} (member : line ∈ stage.lines)
    {marker : Marker} (other : Marker.ofLine? line ≠ some marker) :
    Text.splitKeyword marker.text.toList line = none := by
  have has := stage.hasKeyword_of_mem_lines line member marker marker.mem_all
  rw [beq_false_of_ne other] at has
  simpa [Text.hasKeyword] using has

theorem isPlain_of_mem_lines (stage : Stage) {line : List Char} (member : line ∈ stage.lines)
    (bare : Marker.ofLine? line = none) : Source.isPlain line = true := by
  apply List.all_eq_true.2
  intro marker listed
  rw [stage.hasKeyword_of_mem_lines line member marker listed, bare]
  rfl

theorem exists_line_of_mem_markers {stage : Stage} {marker : Marker}
    (member : marker ∈ stage.markers) :
    ∃ before line after, stage.lines = before ++ line :: after ∧
      Marker.ofLine? line = some marker ∧
      ∀ other ∈ before ++ after, Marker.ofLine? other ≠ some marker := by
  obtain ⟨line, inside, holds⟩ := List.mem_filterMap.1 member
  obtain ⟨before, after, cut⟩ := List.append_of_mem inside
  refine ⟨before, line, after, cut, holds, fun other elsewhere same => ?_⟩
  have once := stage.nodup_markers
  rw [markers, cut, List.filterMap_append, List.filterMap_cons_some holds] at once
  have apart := List.nodup_append.1 once
  rcases List.mem_append.1 elsewhere with early | late
  · have twice := List.mem_filterMap.2 ⟨other, early, same⟩
    exact apart.2.2 marker twice marker List.mem_cons_self rfl
  · have twice := List.mem_filterMap.2 ⟨other, late, same⟩
    exact (List.nodup_cons.1 apart.2.1).1 twice

theorem hasMarker_of_mem_markers {stage : Stage} {marker : Marker}
    (member : marker ∈ stage.markers) : (Source.ofTemplate stage).hasMarker marker = true := by
  obtain ⟨line, inside, holds⟩ := List.mem_filterMap.1 member
  have has := stage.hasKeyword_of_mem_lines line inside marker marker.mem_all
  show Text.hasKeyword marker.text.toList stage.template.toList = true
  rw [stage.template_toList,
    Text.hasKeyword_terminated marker.text_ne_nil marker.newline_notMem_text]
  exact List.any_eq_true.2 ⟨line, inside, by simp [has, holds]⟩

end Stage

end GlslMaterial
