/-!
Keyword search: the first occurrence of a symbol that its neighbours do not extend to a longer
identifier.
-/

set_option autoImplicit false

namespace GlslMaterial.Text

def isIdentifierChar (c : Char) : Bool :=
  c.isAlphanum || c == '_'

/-- Whether `left` may stand before a symbol that starts with `first`. A digit may precede a symbol
that starts with a letter. -/
def leftBoundary (first : Char) (left : Option Char) : Bool :=
  match left with
  | none => true
  | some c => !isIdentifierChar first || !isIdentifierChar c || (first.isAlpha && c.isDigit)

/-- Whether `right` may stand after a symbol that ends with `last`. -/
def rightBoundary (last : Char) (right : Option Char) : Bool :=
  match right with
  | none => true
  | some c => !isIdentifierChar last || !isIdentifierChar c

/-- Whether a symbol between these two neighbours is a word of its own. -/
def delimited (symbol : List Char) (left right : Option Char) : Bool :=
  match symbol.head?, symbol.getLast? with
  | some first, some last => leftBoundary first left && rightBoundary last right
  | _, _ => false

/-- Scans for `symbol`, with the characters already passed in reverse in `before` and `skip` more
of them to pass unseen. An occurrence that is not delimited is passed as a whole. -/
def splitKeywordFrom (symbol : List Char) :
    Nat → List Char → List Char → Option (List Char × List Char)
  | _, _, [] => none
  | skip + 1, before, c :: rest => splitKeywordFrom symbol skip (c :: before) rest
  | 0, before, c :: rest =>
    if symbol.isPrefixOf (c :: rest) then
      let after := (c :: rest).drop symbol.length
      if delimited symbol before.head? after.head? then
        some (before.reverse, after)
      else
        splitKeywordFrom symbol (symbol.length - 1) (c :: before) rest
    else
      splitKeywordFrom symbol 0 (c :: before) rest

/-- The text before and the text after the first delimited occurrence of `symbol`. Occurrences are
tried from the left and do not overlap. -/
def splitKeyword (symbol text : List Char) : Option (List Char × List Char) :=
  if symbol.isEmpty then none else splitKeywordFrom symbol 0 [] text

theorem splitKeywordFrom_eq_some {symbol : List Char} {skip : Nat}
    {before text left right : List Char}
    (found : splitKeywordFrom symbol skip before text = some (left, right)) :
    left ++ symbol ++ right = before.reverse ++ text ∧
      delimited symbol left.getLast? right.head? := by
  fun_induction splitKeywordFrom symbol skip before text with
  | case1 => simp at found
  | case2 _ _ _ _ ih => simpa using ih found
  | case3 before c rest begins after bounded =>
    obtain ⟨rfl, rfl⟩ : before.reverse = left ∧ after = right := by simpa using found
    obtain ⟨tail, eq⟩ := List.isPrefixOf_iff_prefix.1 begins
    refine ⟨?_, by simpa using bounded⟩
    simp [after, ← eq]
  | case4 _ _ _ _ _ _ ih => simpa using ih found
  | case5 _ _ _ _ ih => simpa using ih found

/-- The two parts stand around the symbol, which is delimited by them. -/
theorem splitKeyword_eq_some {symbol text left right : List Char}
    (found : splitKeyword symbol text = some (left, right)) :
    left ++ symbol ++ right = text ∧ delimited symbol left.getLast? right.head? := by
  unfold splitKeyword at found
  split at found
  · simp at found
  · simpa using splitKeywordFrom_eq_some found

def hasKeyword (symbol text : List Char) : Bool :=
  (splitKeyword symbol text).isSome

def byteLength (text : List Char) : Nat :=
  text.foldl (fun total c => total + c.utf8Size) 0

/-- Byte offset of the first delimited occurrence of `symbol`. -/
def findKeyword (text symbol : List Char) : Option Nat :=
  (splitKeyword symbol text).map fun found => byteLength found.1

end GlslMaterial.Text
