import GlslMaterial.Text.Blank
import GlslMaterial.Text.Keyword

/-!
Keyword search in a text of several lines. A symbol without a newline stands in one line, and is
found in the first line that has it. For symbols that do not overlap themselves, the search misses
no occurrence.
-/

set_option autoImplicit false

namespace GlslMaterial.Text

variable {c : Char} {symbol : List Char}

theorem isIdentifierChar_eq_false_of_isBlank (blank : isBlank c = true) :
    isIdentifierChar c = false := by
  have ranges : isIdentifierChar c = true →
      (48 ≤ c.toNat ∧ c.toNat ≤ 57) ∨ (65 ≤ c.toNat ∧ c.toNat ≤ 90) ∨ c.toNat = 95 ∨
        (97 ≤ c.toNat ∧ c.toNat ≤ 122) := by
    intro word
    change (((decide (65 ≤ c.val ∧ c.val ≤ 90) ||
      (decide (97 ≤ c.val) && decide (c.val ≤ 122))) ||
      (decide (48 ≤ c.val) && decide (c.val ≤ 57))) || c == '_') = true at word
    simp only [Bool.or_eq_true, Bool.and_eq_true, decide_eq_true_eq, beq_iff_eq,
      UInt32.le_iff_toNat_le] at word
    rcases word with ((upper | lower) | digit) | rfl
    · exact .inr (.inl upper)
    · exact .inr (.inr (.inr lower))
    · exact .inl digit
    · decide
  simp only [isBlank, Bool.or_eq_true, Bool.and_eq_true, decide_eq_true_eq, beq_iff_eq] at blank
  cases word : isIdentifierChar c with
  | false => rfl
  | true =>
    have := ranges word
    omega

theorem leftBoundary_newline (first : Char) : leftBoundary first (some '\n') = true := by
  have plain : isIdentifierChar '\n' = false := by decide
  simp [leftBoundary, plain]

theorem rightBoundary_newline (last : Char) : rightBoundary last (some '\n') = true := by
  have plain : isIdentifierChar '\n' = false := by decide
  simp [rightBoundary, plain]

theorem delimited_newline_left (symbol : List Char) (right : Option Char) :
    delimited symbol (some '\n') right = delimited symbol none right := by
  unfold delimited
  split
  · rw [leftBoundary_newline]
    rfl
  · rfl

theorem delimited_newline_right (symbol : List Char) (left : Option Char) :
    delimited symbol left (some '\n') = delimited symbol left none := by
  unfold delimited
  split
  · rw [rightBoundary_newline]
    rfl
  · rfl

theorem splitKeywordFrom_behind_newline (symbol : List Char) (skip : Nat)
    (front back text : List Char) :
    splitKeywordFrom symbol skip (front ++ '\n' :: back) text =
      (splitKeywordFrom symbol skip front text).map
        fun found => (back.reverse ++ '\n' :: found.1, found.2) := by
  have sameBound (right : Option Char) (front : List Char) :
      delimited symbol (front ++ '\n' :: back).head? right =
        delimited symbol front.head? right := by
    cases front with
    | nil => exact delimited_newline_left symbol right
    | cons c front => rfl
  fun_induction splitKeywordFrom symbol skip front text with
  | case1 => simp [splitKeywordFrom]
  | case2 skip front c rest ih => exact ih
  | case3 front c rest begins after bounded =>
    rw [splitKeywordFrom, if_pos begins]
    simp only [sameBound]
    rw [if_pos bounded]
    simp [after]
  | case4 front c rest begins after unbounded ih =>
    rw [splitKeywordFrom, if_pos begins]
    simp only [sameBound]
    rw [if_neg unbounded]
    exact ih
  | case5 front c rest absent ih =>
    rw [splitKeywordFrom, if_neg absent]
    exact ih

theorem isPrefixOf_append_newline (plain : '\n' ∉ symbol) (line rest : List Char) :
    symbol.isPrefixOf (line ++ '\n' :: rest) = symbol.isPrefixOf line := by
  induction symbol generalizing line with
  | nil => simp
  | cons c symbol ih =>
    have head : c ≠ '\n' := fun same => plain (same ▸ List.mem_cons_self)
    have tail : '\n' ∉ symbol := fun member => plain (List.mem_cons_of_mem c member)
    cases line with
    | nil => simp [List.isPrefixOf, head]
    | cons d line => simp [List.isPrefixOf, ih tail line]

theorem delimited_line_end (symbol : List Char) (left : Option Char) (after rest : List Char) :
    delimited symbol left (after ++ '\n' :: rest).head? = delimited symbol left after.head? := by
  cases after with
  | nil => exact delimited_newline_right symbol left
  | cons c after => rfl

theorem drop_line {line : List Char}
    (begins : symbol.isPrefixOf (c :: line) = true) (rest : List Char) :
    (c :: (line ++ '\n' :: rest)).drop symbol.length =
      (c :: line).drop symbol.length ++ '\n' :: rest := by
  have fits : symbol.length ≤ (c :: line).length :=
    (List.isPrefixOf_iff_prefix.1 begins).length_le
  rw [← List.cons_append, List.drop_append_of_le_length fits]

/-- The search of a text that begins with a whole line: that line first, then what follows. -/
theorem splitKeywordFrom_append_newline (some : symbol ≠ [])
    (plain : '\n' ∉ symbol) (skip : Nat) (before line rest : List Char)
    (inside : skip ≤ line.length) :
    splitKeywordFrom symbol skip before (line ++ '\n' :: rest) =
      match splitKeywordFrom symbol skip before line with
      | .some found => .some (found.1, found.2 ++ '\n' :: rest)
      | none => (splitKeywordFrom symbol 0 [] rest).map
          fun found => (before.reverse ++ line ++ '\n' :: found.1, found.2) := by
  have samePrefix (c : Char) (line : List Char) :
      symbol.isPrefixOf (c :: (line ++ '\n' :: rest)) = symbol.isPrefixOf (c :: line) :=
    isPrefixOf_append_newline plain (c :: line) rest
  fun_induction splitKeywordFrom symbol skip before line with
  | case1 skip before =>
    have start : skip = 0 := by simpa using inside
    have absent : ¬ symbol.isPrefixOf ('\n' :: rest) = true := by
      cases symbol with
      | nil => exact absurd rfl some
      | cons c symbol =>
        have head : c ≠ '\n' := fun same => plain (same ▸ List.mem_cons_self)
        simp [List.isPrefixOf, head]
    rw [start, List.nil_append, splitKeywordFrom, if_neg absent]
    simpa using splitKeywordFrom_behind_newline symbol 0 [] before rest
  | case2 skip before c line ih =>
    have shorter : skip ≤ line.length := by simpa using inside
    rw [List.cons_append, splitKeywordFrom, ih shorter]
    simp
  | case3 before c line begins after bounded =>
    rw [List.cons_append, splitKeywordFrom, samePrefix, if_pos begins]
    simp only [drop_line begins, delimited_line_end]
    rw [if_pos bounded]
  | case4 before c line begins after unbounded ih =>
    have fits := (List.isPrefixOf_iff_prefix.1 begins).length_le
    have shorter : symbol.length - 1 ≤ line.length := by
      simp only [List.length_cons] at fits
      omega
    rw [List.cons_append, splitKeywordFrom, samePrefix, if_pos begins]
    simp only [drop_line begins, delimited_line_end]
    rw [if_neg unbounded, ih shorter]
    simp
  | case5 before c line absent ih =>
    rw [List.cons_append, splitKeywordFrom, samePrefix, if_neg absent, ih (Nat.zero_le _)]
    simp

/-- The search of a text that begins with a whole line. -/
theorem splitKeyword_append_newline (some : symbol ≠ [])
    (plain : '\n' ∉ symbol) (line rest : List Char) :
    splitKeyword symbol (line ++ '\n' :: rest) =
      match splitKeyword symbol line with
      | .some found => .some (found.1, found.2 ++ '\n' :: rest)
      | none => (splitKeyword symbol rest).map
          fun found => (line ++ '\n' :: found.1, found.2) := by
  have filled : symbol.isEmpty = false := by simpa using some
  simp only [splitKeyword, filled, Bool.false_eq_true, ↓reduceIte]
  simpa using splitKeywordFrom_append_newline some plain 0 [] line rest (Nat.zero_le _)

theorem hasKeyword_append_newline (some : symbol ≠ []) (plain : '\n' ∉ symbol)
    (line rest : List Char) :
    hasKeyword symbol (line ++ '\n' :: rest) =
      (hasKeyword symbol line || hasKeyword symbol rest) := by
  unfold hasKeyword
  rw [splitKeyword_append_newline some plain]
  cases splitKeyword symbol line <;> simp

/-- A symbol stands in a text as a word of its own. -/
def Occurs (symbol text : List Char) : Prop :=
  ∃ left right, left ++ symbol ++ right = text ∧
    delimited symbol left.getLast? right.head? = true

theorem occurs_iff_exists_place (symbol text : List Char) :
    Occurs symbol text ↔ ∃ place ∈ List.range (text.length + 1), symbol <+: text.drop place ∧
      delimited symbol (text.take place).getLast? (text.drop (place + symbol.length)).head? =
        true := by
  constructor
  · rintro ⟨left, right, rfl, bounded⟩
    refine ⟨left.length, ?_, ⟨right, by simp⟩, ?_⟩
    · simp only [List.mem_range, List.length_append]
      omega
    · simpa [← List.drop_drop] using bounded
  · rintro ⟨place, -, ⟨rest, begins⟩, bounded⟩
    refine ⟨text.take place, rest, ?_, ?_⟩
    · rw [List.append_assoc, begins, List.take_append_drop]
    · rwa [← List.drop_drop, ← begins, List.drop_left] at bounded

instance (symbol text : List Char) : Decidable (Occurs symbol text) :=
  decidable_of_iff _ (occurs_iff_exists_place symbol text).symm

theorem occurs_of_hasKeyword {text : List Char} (has : hasKeyword symbol text = true) :
    Occurs symbol text := by
  obtain ⟨⟨left, right⟩, found⟩ := Option.isSome_iff_exists.1 has
  exact ⟨left, right, splitKeyword_eq_some found⟩

/-- Where a symbol overlaps itself, the second occurrence is not a word of its own. -/
def IsApart (symbol : List Char) : Prop :=
  ∀ front back, front ≠ [] → back ≠ [] → front ++ back = symbol → back <+: symbol →
    delimited symbol front.getLast? none = false

theorem isApart_of_head_notMem {first : Char} {tail : List Char} (fresh : first ∉ tail) :
    IsApart (first :: tail) := by
  intro front back some filled split begins
  obtain ⟨c, front, rfl⟩ := List.exists_cons_of_ne_nil some
  obtain ⟨d, back, rfl⟩ := List.exists_cons_of_ne_nil filled
  obtain ⟨rfl, -⟩ := List.cons_prefix_cons.1 begins
  obtain ⟨-, rfl⟩ := List.cons.inj split
  exact absurd (by simp) fresh

theorem leftBoundary_of_delimited {left right : Option Char}
    (bounded : delimited symbol left right = true) : delimited symbol left none = true := by
  unfold delimited at bounded ⊢
  split at bounded
  · simp only [Bool.and_eq_true] at bounded
    simp [bounded.1, rightBoundary]
  · simp at bounded

theorem rightBoundary_of_delimited {left : Option Char} {last : Char}
    (ends : symbol.getLast? = some last) (word : isIdentifierChar last = true)
    (bounded : delimited symbol left (some c) = true) : isIdentifierChar c = false := by
  unfold delimited at bounded
  split at bounded
  · rename_i known
    obtain rfl : last = _ := Option.some.inj (ends.symm.trans known)
    simp only [rightBoundary, word, Bool.and_eq_true, Bool.not_true, Bool.false_or,
      Bool.not_eq_true'] at bounded
    exact bounded.2
  · simp at bounded

theorem splitKeywordFrom_ne_none (some : symbol ≠ []) (apart : IsApart symbol)
    (skip : Nat) (before text : List Char) {left right : List Char}
    (occurs : left ++ symbol ++ right = text) (inside : skip ≤ left.length)
    (bounded : delimited symbol (left.reverse ++ before).head? right.head? = true) :
    splitKeywordFrom symbol skip before text ≠ none := by
  have next {c d : Char} {left rest : List Char} (occurs : d :: left ++ symbol ++ right = c :: rest)
      (before : List Char) : left ++ symbol ++ right = rest ∧
        ((d :: left).reverse ++ before).head? = (left.reverse ++ (c :: before)).head? := by
    obtain ⟨rfl, same⟩ := List.cons.inj occurs
    exact ⟨same, by simp⟩
  fun_induction splitKeywordFrom symbol skip before text generalizing left with
  | case1 => simp [some] at occurs
  | case2 skip before c rest ih =>
    cases left with
    | nil => simp at inside
    | cons d left =>
      obtain ⟨shorter, neighbour⟩ := next occurs before
      exact ih shorter (by simpa using inside) (neighbour ▸ bounded)
  | case3 => simp
  | case4 before c rest begins after unbounded =>
    rename_i ih
    cases left with
    | nil =>
      have same : after = right := by
        simp only [after, ← occurs, List.nil_append, List.drop_left]
      exact absurd (same ▸ bounded) unbounded
    | cons d left =>
      obtain ⟨shorter, neighbour⟩ := next occurs before
      refine ih shorter ?_ (neighbour ▸ bounded)
      -- The occurrence that is passed ends before the one that is sought.
      apply Nat.le_of_not_lt
      intro overlap
      obtain ⟨other, again⟩ := List.isPrefixOf_iff_prefix.1 begins
      have both : (d :: left) ++ (symbol ++ right) = symbol ++ other := by
        rw [again, ← occurs, List.append_assoc]
      rcases List.append_eq_append_iff.1 both with ⟨back, split, rest⟩ | ⟨extra, split, -⟩
      · have filled : back ≠ [] := by
          rintro rfl
          simp only [List.append_nil] at split
          simp only [split, List.length_cons] at overlap
          omega
        have start : back <+: symbol := by
          have begin_back : back <+: symbol ++ right := ⟨other, rest.symm⟩
          refine List.prefix_of_prefix_length_le begin_back (List.prefix_append symbol right) ?_
          rw [split, List.length_append]
          omega
        have bad := apart (d :: left) back (List.cons_ne_nil d left) filled split.symm start
        have good := leftBoundary_of_delimited bounded
        rw [List.head?_append, List.head?_reverse] at good
        rw [Option.or_of_isSome (by simp)] at good
        rw [good] at bad
        cases bad
      · have longer := congrArg List.length split
        simp only [List.length_cons, List.length_append] at longer
        omega
  | case5 before c rest absent ih =>
    cases left with
    | nil => exact absurd (by simp [← occurs]) absent
    | cons d left =>
      obtain ⟨shorter, neighbour⟩ := next occurs before
      exact ih shorter (Nat.zero_le _) (neighbour ▸ bounded)

theorem hasKeyword_iff_occurs (some : symbol ≠ []) (apart : IsApart symbol)
    (text : List Char) : hasKeyword symbol text = true ↔ Occurs symbol text := by
  refine ⟨occurs_of_hasKeyword, ?_⟩
  rintro ⟨left, right, whole, bounded⟩
  have filled : symbol.isEmpty = false := by simpa using some
  have found := splitKeywordFrom_ne_none some apart 0 [] text whole (Nat.zero_le _)
    (by simpa using bounded)
  simpa [hasKeyword, splitKeyword, filled, Option.isSome_iff_ne_none] using found

end GlslMaterial.Text
