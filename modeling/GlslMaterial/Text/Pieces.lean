/-! Pieces: a text cut at every occurrence of a mark, and put together again. -/

set_option autoImplicit false

namespace GlslMaterial.Text

/-- Puts one character in front of the first piece; the mark starts a piece of its own. -/
def consPiece (mark c : Char) (pieces : List (List Char)) : List (List Char) :=
  if c = mark then [] :: pieces
  else match pieces with
    | [] => [[c]]
    | piece :: rest => (c :: piece) :: rest

def pieces (mark : Char) (text : List Char) : List (List Char) :=
  text.foldr (consPiece mark) [[]]

/-- Joins pieces with the mark between each two. -/
def joined (mark : Char) : List (List Char) → List Char
  | [] => []
  | [piece] => piece
  | piece :: rest => piece ++ mark :: joined mark rest

theorem consPiece_ne_nil (mark c : Char) (pieces : List (List Char)) :
    consPiece mark c pieces ≠ [] := by
  unfold consPiece
  split
  · simp
  · split <;> simp

theorem pieces_ne_nil (mark : Char) (text : List Char) : pieces mark text ≠ [] := by
  cases text with
  | nil => simp [pieces]
  | cons c rest => exact consPiece_ne_nil mark c (pieces mark rest)

@[simp] theorem pieces_nil (mark : Char) : pieces mark [] = [[]] := rfl

@[simp] theorem pieces_cons (mark c : Char) (text : List Char) :
    pieces mark (c :: text) = consPiece mark c (pieces mark text) := rfl

theorem joined_cons (mark : Char) (piece : List Char) {rest : List (List Char)}
    (more : rest ≠ []) : joined mark (piece :: rest) = piece ++ mark :: joined mark rest := by
  cases rest with
  | nil => exact absurd rfl more
  | cons next rest => rfl

theorem joined_consPiece (mark c : Char) {pieces : List (List Char)} (some : pieces ≠ []) :
    joined mark (consPiece mark c pieces) = c :: joined mark pieces := by
  cases pieces with
  | nil => exact absurd rfl some
  | cons piece rest =>
    by_cases marked : c = mark
    · simp [consPiece, marked, joined_cons]
    · cases rest <;> simp [consPiece, marked, joined]

/-- Cutting a text loses nothing. -/
@[simp] theorem joined_pieces (mark : Char) (text : List Char) :
    joined mark (pieces mark text) = text := by
  induction text with
  | nil => rfl
  | cons c rest ih => rw [pieces_cons, joined_consPiece mark c (pieces_ne_nil mark rest), ih]

theorem pieces_append_mark (mark : Char) (first second : List Char) :
    pieces mark (first ++ mark :: second) = pieces mark first ++ pieces mark second := by
  induction first with
  | nil => simp [consPiece]
  | cons c rest ih =>
    rw [List.cons_append, pieces_cons, ih, pieces_cons]
    unfold consPiece
    split
    · rfl
    · cases cut : pieces mark rest with
      | nil => exact absurd cut (pieces_ne_nil mark rest)
      | cons piece others => rfl

/-- No piece holds the mark. -/
theorem mark_notMem_of_mem_pieces {mark : Char} {text piece : List Char}
    (member : piece ∈ pieces mark text) : mark ∉ piece := by
  induction text generalizing piece with
  | nil => simp_all
  | cons c rest ih =>
    rw [pieces_cons] at member
    unfold consPiece at member
    split at member
    · rcases List.mem_cons.1 member with rfl | later
      · simp
      · exact ih later
    · rename_i plain
      split at member
      · rename_i empty
        exact absurd empty (pieces_ne_nil mark rest)
      · rename_i first others cut
        rcases List.mem_cons.1 member with rfl | later
        · exact List.not_mem_cons_of_ne_of_not_mem (Ne.symm plain) (ih (by simp [cut]))
        · exact ih (by simp [cut, later])

end GlslMaterial.Text
