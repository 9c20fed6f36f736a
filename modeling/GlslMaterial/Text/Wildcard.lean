/-!
Wildcard patterns, in which each star stands for any run of characters. Pattern and text are
compared character by character. Where they differ, the run of the last star becomes longer by one
character and the comparison begins again behind it; no earlier star is tried again.
-/

set_option autoImplicit false

namespace GlslMaterial.Text

/-- Where the comparison of a pattern with a text comes to. -/
inductive Comparison where
  | ended (pattern : List Char)
  | star (pattern text : List Char)
  | differs
deriving DecidableEq, Repr

/-- Compares up to the end of the text or the next star, and gives what is left behind it. -/
def compared : List Char → List Char → Comparison
  | pattern, [] => .ended pattern
  | [], _ :: _ => .differs
  | c :: pattern, d :: text =>
    if c = '*' then .star pattern (d :: text)
    else if c = d then compared pattern text
    else .differs

theorem length_of_compared {pattern text later rest : List Char}
    (reaches : compared pattern text = .star later rest) :
    later.length < pattern.length ∧ rest.length ≤ text.length := by
  fun_induction compared pattern text with
  | case1 | case2 | case5 => cases reaches
  | case3 =>
    obtain ⟨rfl, rfl⟩ := Comparison.star.inj reaches
    simp
  | case4 c pattern text plain ih =>
    have shorter := ih reaches
    simp only [List.length_cons]
    omega

/-- Whether a pattern holds nothing but stars, which may all be empty. -/
def isStars (pattern : List Char) : Bool :=
  pattern.all (· == '*')

/-- Matches what follows a star against a text in which the run of the star may go on. -/
def matchAfterStar (pattern text : List Char) : Bool :=
  match reaches : compared pattern text with
  | .ended rest => isStars rest
  | .star later rest =>
    have := length_of_compared reaches
    matchAfterStar later rest
  | .differs =>
    match text with
    | [] => false
    | _ :: longer => matchAfterStar pattern longer
termination_by pattern.length + text.length

/-- Whether `text` arises from `pattern` by replacing each star by some run of characters. -/
def wildcardMatch (pattern text : List Char) : Bool :=
  match compared pattern text with
  | .ended rest => isStars rest
  | .star later rest => matchAfterStar later rest
  | .differs => false

end GlslMaterial.Text
