import GlslMaterial.Proofs.Text.Lines
import GlslMaterial.Source.Marker

/-! Where markers stand in a line, and that indentation and trimming do not make one. -/

set_option autoImplicit false

namespace GlslMaterial

namespace Marker

/-- A marker begins with the only `#` in it, and is a word on its own line. -/
theorem text_toList (marker : Marker) :
    ∃ tail, marker.text.toList = '#' :: tail ∧ '#' ∉ tail ∧ '\n' ∉ marker.text.toList := by
  cases marker <;> exact ⟨_, rfl, by decide, by decide⟩

theorem text_ne_nil (marker : Marker) : marker.text.toList ≠ [] := by
  cases marker <;> decide

theorem newline_notMem_text (marker : Marker) : '\n' ∉ marker.text.toList := by
  cases marker <;> decide

theorem delimited_text (marker : Marker) (left right : Option Char)
    (free : ∀ c, right = some c → Text.isIdentifierChar c = false) :
    Text.delimited marker.text.toList left right = true := by
  have bounded (last : Char) : Text.rightBoundary last right = true := by
    cases right with
    | none => rfl
    | some c => simp [Text.rightBoundary, free c rfl]
  have first : Text.leftBoundary '#' left = true := by
    cases left with
    | none => rfl
    | some c => simp [Text.leftBoundary, show Text.isIdentifierChar '#' = false by decide]
  cases marker <;> simp [Marker.text, Text.delimited, bounded, first]

theorem rightBoundary_of_delimited (marker : Marker) {left right : Option Char}
    (bounded : Text.delimited marker.text.toList left right = true) (c : Char)
    (next : right = some c) : Text.isIdentifierChar c = false := by
  subst next
  cases marker <;> exact Text.rightBoundary_of_delimited rfl (by decide) bounded

theorem hasKeyword_iff (marker : Marker) (line : List Char) :
    Text.hasKeyword marker.text.toList line = true ↔
      ∃ left right, left ++ marker.text.toList ++ right = line ∧
        ∀ c, right.head? = some c → Text.isIdentifierChar c = false := by
  obtain ⟨tail, text, fresh, -⟩ := marker.text_toList
  have apart : Text.IsApart marker.text.toList := text ▸ Text.isApart_of_head_notMem fresh
  rw [Text.hasKeyword_iff_occurs marker.text_ne_nil apart]
  constructor
  · rintro ⟨left, right, whole, bounded⟩
    exact ⟨left, right, whole, fun c next => marker.rightBoundary_of_delimited bounded c next⟩
  · rintro ⟨left, right, whole, free⟩
    exact ⟨left, right, whole, marker.delimited_text left.getLast? right.head? free⟩

/-- Blanks at either end do not make a marker. -/
theorem hasKeyword_laid (marker : Marker) {pad line : List Char} (plain : '#' ∉ pad)
    (has : Text.hasKeyword marker.text.toList (pad ++ Text.trimRight line) = true) :
    Text.hasKeyword marker.text.toList line = true := by
  obtain ⟨left, right, whole, free⟩ := (marker.hasKeyword_iff _).1 has
  obtain ⟨tail, text, -, -⟩ := marker.text_toList
  have inside : ∃ middle, Text.trimRight line = middle ++ marker.text.toList ++ right := by
    rw [List.append_assoc] at whole
    rcases List.append_eq_append_iff.1 whole with ⟨extra, split, rest⟩ | ⟨middle, -, rest⟩
    · cases extra with
      | nil => exact ⟨[], by simpa using rest.symm⟩
      | cons c extra =>
        rw [text, List.cons_append, List.cons_append] at rest
        have head : c = '#' := (List.head_eq_of_cons_eq rest).symm
        exact absurd (by simp [split, head]) plain
    · exact ⟨middle, by simpa using rest⟩
  obtain ⟨middle, trimmed⟩ := inside
  obtain ⟨blanks, cut, blank⟩ := Text.dropWhileRight_append Text.isBlank line
  refine (marker.hasKeyword_iff _).2 ⟨middle, right ++ blanks, ?_, ?_⟩
  · rw [← cut, show Text.dropWhileRight Text.isBlank line = _ from trimmed]
    simp
  · intro c next
    cases right with
    | nil =>
      have member : c ∈ blanks := List.mem_of_mem_head? (by simpa using next)
      exact Text.isIdentifierChar_eq_false_of_isBlank (blank c member)
    | cons d right => exact free c (by simpa using next)

/-- A marker behind its indentation is found there. -/
theorem splitKeyword_line (marker : Marker) {pad : List Char} (plain : '#' ∉ pad) :
    Text.splitKeyword marker.text.toList (pad ++ marker.text.toList) = some (pad, []) := by
  obtain ⟨tail, text, fresh, -⟩ := marker.text_toList
  have search (before : List Char) :
      Text.splitKeywordFrom ('#' :: tail) 0 before (pad ++ '#' :: tail) =
        some (before.reverse ++ pad, []) := by
    induction pad generalizing before with
    | nil =>
      have bounded := marker.delimited_text before.head? none (by simp)
      rw [text] at bounded
      simp [Text.splitKeywordFrom, bounded]
    | cons c pad ih =>
      have other : '#' ≠ c := fun same => plain (same ▸ List.mem_cons_self)
      have rest := ih (fun member => plain (List.mem_cons_of_mem c member)) (c :: before)
      simp [Text.splitKeywordFrom, List.isPrefixOf, other, rest]
  simpa [Text.splitKeyword, text] using search []

end Marker

end GlslMaterial
