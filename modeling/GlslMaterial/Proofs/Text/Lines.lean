import GlslMaterial.Proofs.Text.Keyword
import GlslMaterial.Text.Lines

/-!
Texts in which every line is ended by a newline: what a search finds in them, and how they are cut
into their lines again.
-/

set_option autoImplicit false

namespace GlslMaterial.Text

/-- Lines, each of them ended by a newline. -/
def terminated (lines : List (List Char)) : List Char :=
  lines.flatMap (· ++ ['\n'])

@[simp] theorem terminated_nil : terminated [] = [] := rfl

@[simp] theorem terminated_cons (line : List Char) (lines : List (List Char)) :
    terminated (line :: lines) = line ++ '\n' :: terminated lines := by
  simp [terminated]

@[simp] theorem terminated_append (first second : List (List Char)) :
    terminated (first ++ second) = terminated first ++ terminated second :=
  List.flatMap_append

theorem toList_block_append (lines : List String) (last : String) :
    (block (lines ++ [last])).toList = terminated (lines.map String.toList) ++ last.toList := by
  rw [block, String.toList_intercalate]
  induction lines with
  | nil => simp
  | cons line lines ih =>
    rw [List.cons_append, List.map_cons, List.intercalate_cons_of_ne_nil (by simp), ih]
    simp

theorem toList_block (lines : List String) :
    (block (lines ++ [""])).toList = terminated (lines.map String.toList) :=
  (toList_block_append lines "").trans (List.append_nil _)

variable {symbol : List Char}

theorem splitKeyword_terminated (some : symbol ≠ []) (plain : '\n' ∉ symbol)
    {before : List (List Char)} (free : ∀ line ∈ before, splitKeyword symbol line = none)
    {line left right : List Char} (found : splitKeyword symbol line = .some (left, right))
    (after : List (List Char)) :
    splitKeyword symbol (terminated (before ++ line :: after)) =
      .some (terminated before ++ left, right ++ '\n' :: terminated after) := by
  induction before with
  | nil =>
    rw [List.nil_append, terminated_cons, splitKeyword_append_newline some plain, found]
    rfl
  | cons first before ih =>
    have rest := ih fun line member => free line (List.mem_cons_of_mem first member)
    rw [List.cons_append, terminated_cons, splitKeyword_append_newline some plain,
      free first List.mem_cons_self, rest]
    simp

theorem splitKeyword_terminated_none (some : symbol ≠ [])
    (plain : '\n' ∉ symbol) {lines : List (List Char)}
    (free : ∀ line ∈ lines, splitKeyword symbol line = none) :
    splitKeyword symbol (terminated lines) = none := by
  induction lines with
  | nil => simp [splitKeyword, splitKeywordFrom]
  | cons first lines ih =>
    have rest := ih fun line member => free line (List.mem_cons_of_mem first member)
    rw [terminated_cons, splitKeyword_append_newline some plain, free first List.mem_cons_self,
      rest]
    rfl

theorem hasKeyword_terminated (some : symbol ≠ []) (plain : '\n' ∉ symbol)
    (lines : List (List Char)) :
    hasKeyword symbol (terminated lines) = lines.any (hasKeyword symbol) := by
  induction lines with
  | nil => simp [hasKeyword, splitKeyword, splitKeywordFrom]
  | cons line lines ih =>
    rw [terminated_cons, hasKeyword_append_newline some plain, ih, List.any_cons]

/-- Cutting off the last line that has no newline yet leaves the ended ones. -/
theorem dropWhileRight_terminated {last : List Char} (plain : '\n' ∉ last)
    (lines : List (List Char)) :
    dropWhileRight (· != '\n') (terminated lines ++ last) = terminated lines := by
  have all : ∀ c ∈ last.reverse, (c != '\n') = true := by
    intro c member
    have different : c ≠ '\n' := fun same => plain (same ▸ List.mem_reverse.1 member)
    simpa using different
  rw [dropWhileRight, List.reverse_append, List.dropWhile_append_of_pos all]
  rcases List.eq_nil_or_concat lines with rfl | ⟨lines, line, rfl⟩
  · rfl
  · simp [terminated]

theorem dropWhileRight_newline (text : List Char) :
    dropWhileRight (· != '\n') text = [] ∨
      ∃ line, dropWhileRight (· != '\n') text = line ++ ['\n'] := by
  unfold dropWhileRight
  cases left : text.reverse.dropWhile (· != '\n') with
  | nil => exact .inl rfl
  | cons c rest =>
    have stops : (c != '\n') = false := by
      have head := List.head?_dropWhile_not (· != '\n') text.reverse
      simpa [left] using head
    obtain rfl : c = '\n' := by simpa using stops
    exact .inr ⟨rest.reverse, by simp⟩

theorem linesWithEnds_append_newline {line : List Char} (plain : '\n' ∉ line)
    (rest : List Char) :
    linesWithEnds (line ++ '\n' :: rest) = (line ++ ['\n']) :: linesWithEnds rest := by
  induction line with
  | nil => rfl
  | cons c line ih =>
    have head : c ≠ '\n' := fun same => plain (same ▸ List.mem_cons_self)
    have tail : '\n' ∉ line := fun member => plain (List.mem_cons_of_mem c member)
    show consLineWithEnd c (linesWithEnds (line ++ '\n' :: rest)) = _
    rw [ih tail, consLineWithEnd, if_neg head]
    rfl

theorem linesWithEnds_terminated {lines : List (List Char)}
    (plain : ∀ line ∈ lines, '\n' ∉ line) :
    linesWithEnds (terminated lines) = lines.map (· ++ ['\n']) := by
  induction lines with
  | nil => rfl
  | cons line lines ih =>
    have rest := ih fun other member => plain other (List.mem_cons_of_mem line member)
    rw [terminated_cons, List.map_cons, ← rest]
    exact linesWithEnds_append_newline (plain line List.mem_cons_self) _

theorem isPrefix_dropWhileRight (line rest : List Char) :
    line ++ ['\n'] <+: dropWhileRight (· != '\n') (line ++ '\n' :: rest) := by
  obtain ⟨dropped, whole, solid⟩ := dropWhileRight_append (· != '\n') (line ++ '\n' :: rest)
  rw [List.append_cons line '\n' rest] at whole ⊢
  rcases List.append_eq_append_iff.1 whole with ⟨missing, longer, cut⟩ | ⟨more, longer, -⟩
  · rcases List.eq_nil_or_concat missing with rfl | ⟨early, c, rfl⟩
    · rw [List.append_nil] at longer
      exact longer ▸ List.prefix_rfl
    · -- The newline would be among what is dropped.
      have last : c = '\n' := by
        have same := congrArg List.getLast? longer
        simpa using same.symm
      have inside : '\n' ∈ dropped := by
        rw [cut, last]
        simp
      exact absurd (solid _ inside) (by simp)
  · exact ⟨more, longer.symm⟩

end GlslMaterial.Text
