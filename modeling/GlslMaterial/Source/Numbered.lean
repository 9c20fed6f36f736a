import GlslMaterial.Decimal.Written
import GlslMaterial.Text.Lines

/-! Numbered sources: every line with its number in front. -/

set_option autoImplicit false

namespace GlslMaterial.Source

/-- A number in at least `width` characters, with blanks on its left. -/
def alignedNumber (width n : Nat) : List Char :=
  let digits := Decimal.digitText n
  List.replicate (width - digits.length) ' ' ++ digits

def numberLines (width : Nat) : Nat → List (List Char) → List (List Char)
  | _, [] => []
  | first, line :: rest =>
    (alignedNumber width first ++ [' ', '|', ' '] ++ line) :: numberLines width (first + 1) rest

/-- A text with its lines numbered from 1, all numbers as wide as the last. -/
def numbered (text : List Char) : List Char :=
  let lines := Text.lines text
  let width := (Decimal.digitText lines.length).length
  Text.unlines (numberLines width 1 lines)

end GlslMaterial.Source
