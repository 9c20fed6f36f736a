/-! Blanks: the characters of the Unicode property White_Space, and trimming by them. -/

set_option autoImplicit false

namespace GlslMaterial.Text

/-- The 25 characters of the Unicode property White_Space. -/
def isBlank (c : Char) : Bool :=
  let n := c.toNat
  (9 ≤ n && n ≤ 13) || n == 0x20 || n == 0x85 || n == 0xA0 || n == 0x1680 ||
    (0x2000 ≤ n && n ≤ 0x200A) || n == 0x2028 || n == 0x2029 || n == 0x202F ||
    n == 0x205F || n == 0x3000

/-- Drops the longest run of characters satisfying `p` from the end. -/
def dropWhileRight (p : Char → Bool) (text : List Char) : List Char :=
  (text.reverse.dropWhile p).reverse

/-- What is dropped from the end satisfies the condition. -/
theorem dropWhileRight_append (p : Char → Bool) (text : List Char) :
    ∃ dropped, dropWhileRight p text ++ dropped = text ∧ ∀ c ∈ dropped, p c := by
  refine ⟨(text.reverse.takeWhile p).reverse, ?_, fun c member => ?_⟩
  · rw [dropWhileRight, ← List.reverse_append, List.takeWhile_append_dropWhile,
      List.reverse_reverse]
  · exact List.all_eq_true.1 List.all_takeWhile c (List.mem_reverse.1 member)

theorem dropWhileRight_isPrefix (p : Char → Bool) (text : List Char) :
    dropWhileRight p text <+: text :=
  (dropWhileRight_append p text).imp fun _ h => h.1

def trimRight (text : List Char) : List Char :=
  dropWhileRight isBlank text

def trim (text : List Char) : List Char :=
  trimRight (text.dropWhile isBlank)

/-- Nothing but blanks, so that trimming leaves nothing. -/
def isAllBlank (text : List Char) : Bool :=
  text.all isBlank

end GlslMaterial.Text
