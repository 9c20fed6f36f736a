import GlslMaterial.Text.Pieces

/-! Lines: a text cut at its newlines, and the pieces put together again. -/

set_option autoImplicit false

namespace GlslMaterial.Text

/-- The pieces between newlines. There is always at least one, and a text that ends in a newline
has an empty last line. -/
def lines (text : List Char) : List (List Char) :=
  pieces '\n' text

/-- Joins lines with a newline between each two. -/
def unlines (lines : List (List Char)) : List Char :=
  joined '\n' lines

theorem lines_ne_nil (text : List Char) : lines text ≠ [] :=
  pieces_ne_nil _ text

/-- Cutting a text into lines loses nothing. -/
@[simp] theorem unlines_lines (text : List Char) : unlines (lines text) = text :=
  joined_pieces _ text

/-- No line holds a newline. -/
theorem newline_notMem_of_mem_lines {text line : List Char} (member : line ∈ lines text) :
    '\n' ∉ line :=
  mark_notMem_of_mem_pieces member

theorem lines_append_newline (first second : List Char) :
    lines (first ++ '\n' :: second) = lines first ++ lines second :=
  pieces_append_mark '\n' first second

/-- A text without newlines in front of another goes to its first line. -/
theorem lines_append_of_notMem {start : List Char} (plain : '\n' ∉ start) {rest line : List Char}
    {others : List (List Char)} (cut : lines rest = line :: others) :
    lines (start ++ rest) = (start ++ line) :: others := by
  induction start with
  | nil => exact cut
  | cons c start ih =>
    have other : c ≠ '\n' := fun same => plain (same ▸ List.mem_cons_self)
    have tail := ih fun member => plain (List.mem_cons_of_mem c member)
    show consPiece '\n' c (lines (start ++ rest)) = _
    rw [tail, consPiece, if_neg other]
    rfl

theorem lines_of_notMem {text : List Char} (plain : '\n' ∉ text) : lines text = [text] := by
  simpa using lines_append_of_notMem plain (show lines [] = [[]] from rfl)

/-- Puts one character in front of the first line, where lines keep their newlines. -/
def consLineWithEnd (c : Char) (lines : List (List Char)) : List (List Char) :=
  if c = '\n' then [c] :: lines
  else match lines with
    | [] => [[c]]
    | line :: rest => (c :: line) :: rest

/-- The lines of a text with their newlines; an empty text has none. -/
def linesWithEnds (text : List Char) : List (List Char) :=
  text.foldr consLineWithEnd []

/-- Joins several lines of text into one. -/
def block (lines : List String) : String :=
  "\n".intercalate lines

end GlslMaterial.Text
