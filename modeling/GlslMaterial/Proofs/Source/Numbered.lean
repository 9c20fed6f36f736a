import GlslMaterial.Source.Numbered

/-!
Numbered sources lose nothing: the numbers stand in a column of one width, and the source behind it
can be cut out again.
-/

set_option autoImplicit false

namespace GlslMaterial.Text

/-- Lines that are joined are found again. -/
theorem lines_unlines {lines : List (List Char)} (some : lines ≠ [])
    (plain : ∀ line ∈ lines, '\n' ∉ line) : Text.lines (unlines lines) = lines := by
  induction lines with
  | nil => exact absurd rfl some
  | cons line rest ih =>
    have first := plain line List.mem_cons_self
    by_cases more : rest = []
    · rw [more]
      exact lines_of_notMem first
    · have later := ih more fun other member => plain other (List.mem_cons_of_mem line member)
      rw [unlines, joined_cons _ _ more, ← unlines, lines_append_newline, lines_of_notMem first,
        later]
      rfl

end GlslMaterial.Text

namespace GlslMaterial.Source

open Text (lines unlines)

/-- A number is not longer than one that is not below it. -/
theorem length_digitText_le {n k : Nat} (le : n ≤ k) :
    (Decimal.digitText n).length ≤ (Decimal.digitText k).length := by
  have some : 0 < (Decimal.digitText k).length := List.length_pos_iff.2 Nat.toDigits_ne_nil
  have bound := (Nat.length_toDigits_le_iff (b := 10) (n := k) (by decide) some).1 (Nat.le_refl _)
  exact (Nat.length_toDigits_le_iff (by decide) some).2 (Nat.lt_of_le_of_lt le bound)

theorem length_alignedNumber {n k : Nat} (le : n ≤ k) :
    (alignedNumber (Decimal.digitText k).length n).length = (Decimal.digitText k).length := by
  have fits := length_digitText_le le
  simp only [alignedNumber, List.length_append, List.length_replicate]
  omega

theorem newline_notMem_alignedNumber (width n : Nat) : '\n' ∉ alignedNumber width n := by
  intro member
  rcases List.mem_append.1 member with blank | digit
  · exact absurd (List.eq_of_mem_replicate blank) (by decide)
  · exact absurd (Decimal.isDigit_of_mem_digitText digit) (by decide)

theorem numberLines_eq_mapIdx (width first : Nat) (lines : List (List Char)) :
    numberLines width first lines =
      lines.mapIdx fun i line => alignedNumber width (first + i) ++ [' ', '|', ' '] ++ line := by
  induction lines generalizing first with
  | nil => rfl
  | cons line rest ih =>
    rw [numberLines, ih, List.mapIdx_cons]
    simp only [Nat.add_zero, Nat.add_comm, Nat.add_left_comm]

/-- What stands behind the column of numbers. -/
theorem map_drop_numberLines {width first : Nat} {lines : List (List Char)}
    (aligned : ∀ i < lines.length, (alignedNumber width (first + i)).length = width) :
    (numberLines width first lines).map (List.drop (width + 3)) = lines := by
  rw [numberLines_eq_mapIdx]
  apply List.ext_getElem?
  intro i
  rw [List.getElem?_map, List.getElem?_mapIdx]
  cases found : lines[i]? with
  | none => rfl
  | some line =>
    obtain ⟨inside, -⟩ := List.getElem?_eq_some_iff.1 found
    exact congrArg some (List.drop_left' (by simp [aligned i inside]))

theorem lines_numbered (text : List Char) : lines (numbered text) =
    numberLines (Decimal.digitText (lines text).length).length 1 (lines text) := by
  refine Text.lines_unlines ?_ ?_
  · rw [numberLines_eq_mapIdx]
    exact fun none => Text.lines_ne_nil text (List.mapIdx_eq_nil_iff.1 none)
  · intro line member
    rw [numberLines_eq_mapIdx] at member
    obtain ⟨i, inside, rfl⟩ := List.mem_mapIdx.1 member
    have plain := Text.newline_notMem_of_mem_lines (List.getElem_mem inside)
    simp [newline_notMem_alignedNumber, plain]

theorem map_drop_lines_numbered (text : List Char) : (lines (numbered text)).map
    (List.drop ((Decimal.digitText (lines text).length).length + 3)) = lines text := by
  rw [lines_numbered]
  exact map_drop_numberLines fun i inside => length_alignedNumber (by omega)

theorem numbered_injective : Function.Injective numbered := by
  intro first second same
  have count (text : List Char) : (lines (numbered text)).length = (lines text).length := by
    rw [lines_numbered, numberLines_eq_mapIdx, List.length_mapIdx]
  have lengths : (lines first).length = (lines second).length := by
    rw [← count, same, count]
  rw [← Text.unlines_lines first, ← map_drop_lines_numbered, same, lengths, map_drop_lines_numbered,
    Text.unlines_lines]

/-- The lines of a numbered text are those of the text, each behind its number, which stands at the
right of a column as wide as the last number. What stands behind the column is the text again, and
so different texts are shown differently. -/
theorem numbered_keeps_lines :
    (∀ text, let width := (toString (lines text).length).length
      lines (numbered text) = ((lines text).mapIdx fun i line =>
        List.leftpad width ' ' (toString (i + 1)).toList ++ " | ".toList ++ line) ∧
      (∀ i : Fin (lines text).length,
        (List.leftpad width ' ' (toString (i.val + 1)).toList).length = width) ∧
      unlines ((lines (numbered text)).map (List.drop (width + 3))) = text) ∧
    Function.Injective numbered := by
  refine ⟨fun text => ?_, numbered_injective⟩
  simp only [← String.length_toList, Decimal.toList_toString]
  refine ⟨?_, fun i => length_alignedNumber i.isLt, ?_⟩
  · rw [lines_numbered, numberLines_eq_mapIdx]
    simp only [Nat.add_comm 1]
    rfl
  · rw [map_drop_lines_numbered, Text.unlines_lines]

end GlslMaterial.Source
