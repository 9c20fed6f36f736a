/-! Replacement of every occurrence of a piece of text. -/

set_option autoImplicit false

namespace GlslMaterial.Text

/-- Replaces from the left, with `skip` characters of an occurrence still to be dropped. -/
def replaceFrom (piece replacement : List Char) : Nat → List Char → List Char
  | _, [] => []
  | skip + 1, _ :: rest => replaceFrom piece replacement skip rest
  | 0, c :: rest =>
    if piece.isPrefixOf (c :: rest) then
      replacement ++ replaceFrom piece replacement (piece.length - 1) rest
    else
      c :: replaceFrom piece replacement 0 rest

/-- Replaces every occurrence of a non-empty `piece`; occurrences do not overlap, and replaced text
is not read again. -/
def replaceAll (piece replacement text : List Char) : List Char :=
  if piece.isEmpty then text else replaceFrom piece replacement 0 text

/-- Whether `piece` occurs in `text`. -/
def contains (piece : List Char) : List Char → Bool
  | [] => piece.isEmpty
  | c :: rest => piece.isPrefixOf (c :: rest) || contains piece rest

end GlslMaterial.Text
