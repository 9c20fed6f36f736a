import GlslMaterial.Proofs.Text.Keyword

/-!
The first word of a text. The search passes an occurrence that is no word of its own as a whole, and
with it a word that begins inside of the occurrence. Main statement: it finds the first word of
every text for those symbols, and only for those, that do not overlap themselves in this way.
-/

set_option autoImplicit false

namespace GlslMaterial.Text

/-- What stands around a symbol does not extend it: an identifier character at its beginning has no
other before it, but for a digit before a letter, and one at its end has no other behind it. -/
structure Bounded (symbol left right : List Char) : Prop where
  before : ∀ first ∈ symbol.head?, isIdentifierChar first = true → ∀ c ∈ left.getLast?,
    isIdentifierChar c = false ∨ c.isDigit = true ∧ first.isAlpha = true
  behind : ∀ last ∈ symbol.getLast?, isIdentifierChar last = true → ∀ c ∈ right.head?,
    isIdentifierChar c = false

theorem leftBoundary_iff (first : Char) (left : Option Char) :
    leftBoundary first left = true ↔ (isIdentifierChar first = true → ∀ c ∈ left,
      isIdentifierChar c = false ∨ c.isDigit = true ∧ first.isAlpha = true) := by
  cases left with
  | none => simp [leftBoundary]
  | some c =>
    cases letter : isIdentifierChar first with
    | false => simp [leftBoundary, letter]
    | true => simp [leftBoundary, letter, and_comm]

theorem rightBoundary_iff (last : Char) (right : Option Char) :
    rightBoundary last right = true ↔
      (isIdentifierChar last = true → ∀ c ∈ right, isIdentifierChar c = false) := by
  cases right with
  | none => simp [rightBoundary]
  | some c => cases letter : isIdentifierChar last <;> simp [rightBoundary, letter]

theorem delimited_iff_bounded {symbol : List Char} (filled : symbol ≠ []) (left right : List Char) :
    delimited symbol left.getLast? right.head? = true ↔ Bounded symbol left right := by
  obtain ⟨first, begins⟩ := Option.ne_none_iff_exists'.1 (mt List.head?_eq_none_iff.1 filled)
  obtain ⟨last, ends⟩ := Option.ne_none_iff_exists'.1 (mt List.getLast?_eq_none_iff.1 filled)
  rw [delimited, begins, ends, Bool.and_eq_true, leftBoundary_iff, rightBoundary_iff]
  constructor
  · rintro ⟨before, behind⟩
    refine ⟨fun c here => ?_, fun c here => ?_⟩
    · obtain rfl : first = c := Option.some.inj (begins.symm.trans here)
      exact before
    · obtain rfl : last = c := Option.some.inj (ends.symm.trans here)
      exact behind
  · exact fun bounded => ⟨bounded.before first begins, bounded.behind last ends⟩

/-- A symbol stands at a byte of a text. -/
def StandsAt (symbol text : List Char) (place : Nat) : Prop :=
  ∃ left right, left ++ symbol ++ right = text ∧ byteLength left = place

/-- A symbol stands at a byte of a text as a word of its own. -/
def WordAt (symbol text : List Char) (place : Nat) : Prop :=
  ∃ left right, left ++ symbol ++ right = text ∧ byteLength left = place ∧
    Bounded symbol left right

/-- The answer to where the first word is. -/
def IsFirst (symbol text : List Char) : Option Nat → Prop
  | some place => WordAt symbol text place ∧ ∀ other, WordAt symbol text other → place ≤ other
  | none => ∀ place, ¬ WordAt symbol text place

/-- A symbol overlaps itself, in such a way that the second occurrence is a word while the first one
is not, or would not be behind some other character. -/
def Hides (symbol : List Char) : Prop :=
  ∃ front back next, front ++ back = symbol ∧ back ++ next = symbol ∧ front ≠ [] ∧ back ≠ [] ∧
    Bounded symbol front [] ∧
    (symbol.head?.any isIdentifierChar = true ∨ ¬ Bounded symbol [] next)

section Bytes

theorem byteLength_append (first second : List Char) :
    byteLength (first ++ second) = byteLength first + byteLength second := by
  have sum (start : Nat) (text : List Char) :
      text.foldl (fun total c => total + c.utf8Size) start = start + byteLength text := by
    induction text generalizing start with
    | nil => rfl
    | cons c text ih =>
      have whole : byteLength (c :: text) = 0 + c.utf8Size + byteLength text := ih _
      rw [List.foldl_cons, ih, whole]
      omega
  rw [byteLength, List.foldl_append, sum]
  rfl

variable {text first second : List Char}

theorem byteLength_pos (filled : text ≠ []) : 0 < byteLength text := by
  obtain ⟨c, rest, rfl⟩ := List.exists_cons_of_ne_nil filled
  have first : byteLength [c] = c.utf8Size := Nat.zero_add _
  rw [← List.singleton_append, byteLength_append, first]
  exact Nat.add_pos_left c.utf8Size_pos _

theorem byteLength_lt_of_prefix (one : first <+: text)
    (two : second <+: text) (shorter : first.length < second.length) :
    byteLength first < byteLength second := by
  obtain ⟨rest, rfl⟩ := List.prefix_of_prefix_length_le one two (Nat.le_of_lt shorter)
  have filled : rest ≠ [] := by
    rintro rfl
    simp at shorter
  rw [byteLength_append]
  exact Nat.lt_add_of_pos_right (byteLength_pos filled)

theorem length_le_of_byteLength_le (one : first <+: text)
    (two : second <+: text) (le : byteLength first ≤ byteLength second) :
    first.length ≤ second.length := by
  refine Nat.le_of_not_lt fun longer => ?_
  have more := byteLength_lt_of_prefix two one longer
  omega

theorem byteLength_le_of_length_le (one : first <+: text)
    (two : second <+: text) (le : first.length ≤ second.length) :
    byteLength first ≤ byteLength second := by
  obtain ⟨rest, rfl⟩ := List.prefix_of_prefix_length_le one two le
  rw [byteLength_append]
  exact Nat.le_add_right _ _

end Bytes

variable {symbol : List Char}

/-- The search does not go beyond a word, unless an occurrence that is no word begins before it and
ends behind its beginning. -/
theorem splitKeywordFrom_covers (filled : symbol ≠ []) (skip : Nat) (before text : List Char)
    {left right : List Char} (stands : left ++ symbol ++ right = text)
    (bounded : delimited symbol (left.reverse ++ before).head? right.head? = true)
    (inside : skip ≤ left.length) :
    (∃ found, splitKeywordFrom symbol skip before text = some found ∧
        found.1.length ≤ before.length + left.length) ∨
      ∃ early late, early ++ symbol ++ late = text ∧ early.length < left.length ∧
        left.length < early.length + symbol.length ∧
        delimited symbol (early.reverse ++ before).head? late.head? = false := by
  -- One character on, where the word does not begin yet.
  have onward {skip : Nat} {before rest left : List Char} {c : Char}
      (ih : ∀ {left : List Char}, left ++ symbol ++ right = rest →
        delimited symbol (left.reverse ++ c :: before).head? right.head? = true →
        skip ≤ left.length →
        (∃ found, splitKeywordFrom symbol skip (c :: before) rest = some found ∧
            found.1.length ≤ (c :: before).length + left.length) ∨
          ∃ early late, early ++ symbol ++ late = rest ∧ early.length < left.length ∧
            left.length < early.length + symbol.length ∧
            delimited symbol (early.reverse ++ c :: before).head? late.head? = false)
      (more : left ≠ []) (stands : left ++ symbol ++ right = c :: rest)
      (bounded : delimited symbol (left.reverse ++ before).head? right.head? = true)
      (inside : skip ≤ left.length - 1) :
      (∃ found, splitKeywordFrom symbol skip (c :: before) rest = some found ∧
          found.1.length ≤ before.length + left.length) ∨
        ∃ early late, early ++ symbol ++ late = c :: rest ∧ early.length < left.length ∧
          left.length < early.length + symbol.length ∧
          delimited symbol (early.reverse ++ before).head? late.head? = false := by
    obtain ⟨d, left, rfl⟩ := List.exists_cons_of_ne_nil more
    obtain ⟨rfl, later⟩ := List.cons.inj stands
    rcases ih later (by simpa using bounded) (by simpa using inside) with
      ⟨found, same, short⟩ | ⟨early, late, whole, first, overlap, loose⟩
    · refine .inl ⟨found, same, ?_⟩
      simp only [List.length_cons] at short ⊢
      omega
    · refine .inr ⟨d :: early, late, by simp [← whole], ?_, ?_, by simpa using loose⟩
      · simpa using first
      · simp only [List.length_cons]
        omega
  fun_induction splitKeywordFrom symbol skip before text generalizing left with
  | case1 => simp [filled] at stands
  | case2 skip before c rest ih =>
    have more : left ≠ [] := by
      rintro rfl
      simp at inside
    exact onward ih more stands bounded (by omega)
  | case3 => exact .inl ⟨_, rfl, by simp⟩
  | case4 before c rest begins after loose =>
    rename_i ih
    obtain ⟨late, cut⟩ := List.isPrefixOf_iff_prefix.1 begins
    have rest_eq : after = late := by simp only [after, ← cut, List.drop_left]
    have more : left ≠ [] := by
      rintro rfl
      have same : right = after := by
        simp only [after, ← stands, List.nil_append, List.drop_left]
      exact loose (same ▸ bounded)
    by_cases overlap : left.length < symbol.length
    · refine .inr ⟨[], late, cut, List.length_pos_iff.2 more, by simpa using overlap, ?_⟩
      simpa [← rest_eq] using loose
    · exact onward ih more stands bounded (by omega)
  | case5 before c rest absent ih =>
    have more : left ≠ [] := by
      rintro rfl
      exact absent (by simp [← stands])
    exact onward ih more stands bounded (Nat.zero_le _)

theorem findKeyword_covers (filled : symbol ≠ []) {text : List Char} {place : Nat}
    (word : WordAt symbol text place) :
    (∃ found, findKeyword text symbol = some found ∧ found ≤ place) ∨
      ∃ other < place, place < other + byteLength symbol ∧ StandsAt symbol text other ∧
        ¬ WordAt symbol text other := by
  obtain ⟨left, right, rfl, rfl, bounded⟩ := word
  have start : left <+: left ++ symbol ++ right := ⟨symbol ++ right, by simp⟩
  have covers := splitKeywordFrom_covers filled 0 [] _ rfl
    (by simpa using (delimited_iff_bounded filled left right).2 bounded) (Nat.zero_le _)
  have search : splitKeyword symbol (left ++ symbol ++ right) =
      splitKeywordFrom symbol 0 [] (left ++ symbol ++ right) := by
    simp [splitKeyword, filled]
  rcases covers with ⟨⟨first, rest⟩, found, short⟩ | ⟨early, late, whole, before, overlap, loose⟩
  · rw [← search] at found
    have begins : first <+: left ++ symbol ++ right := by
      rw [← (splitKeyword_eq_some found).1, List.append_assoc]
      exact List.prefix_append _ _
    refine .inl ⟨byteLength first, by rw [findKeyword, found]; rfl, ?_⟩
    exact byteLength_le_of_length_le begins start (by simpa using short)
  · have begins : early <+: left ++ symbol ++ right := ⟨symbol ++ late, by simp [← whole]⟩
    have ends : early ++ symbol <+: left ++ symbol ++ right := ⟨late, whole⟩
    refine .inr ⟨byteLength early, byteLength_lt_of_prefix begins start before, ?_,
      ⟨early, late, whole, rfl⟩, ?_⟩
    · rw [← byteLength_append]
      exact byteLength_lt_of_prefix start ends (by simpa using overlap)
    · rintro ⟨other, rest, again, bytes, known⟩
      have one : other <+: left ++ symbol ++ right := ⟨symbol ++ rest, by simp [← again]⟩
      have length : other.length = early.length :=
        Nat.le_antisymm (length_le_of_byteLength_le one begins (Nat.le_of_eq bytes))
          (length_le_of_byteLength_le begins one (Nat.le_of_eq bytes.symm))
      have both : other ++ (symbol ++ rest) = early ++ (symbol ++ late) := by
        rw [← List.append_assoc, ← List.append_assoc, again, whole]
      obtain ⟨rfl, same⟩ := List.append_inj both length
      obtain rfl := List.append_cancel_left same
      have tight := (delimited_iff_bounded filled other rest).2 known
      rw [← List.head?_reverse, ← List.append_nil other.reverse, loose] at tight
      cases tight

theorem wordAt_of_findKeyword {text : List Char} {place : Nat}
    (found : findKeyword text symbol = some place) : WordAt symbol text place := by
  obtain ⟨⟨left, right⟩, split, rfl⟩ := Option.map_eq_some_iff.1 found
  have filled : symbol ≠ [] := by
    rintro rfl
    cases split
  obtain ⟨whole, bounded⟩ := splitKeyword_eq_some split
  exact ⟨left, right, whole, rfl, (delimited_iff_bounded filled left right).1 bounded⟩

theorem hides_of_overlap {early late left right : List Char}
    (both : early ++ symbol ++ late = left ++ symbol ++ right) (before : early.length < left.length)
    (overlap : left.length < early.length + symbol.length) (word : Bounded symbol left right)
    (loose : ¬ Bounded symbol early late) : Hides symbol := by
  have one : early <+: early ++ symbol ++ late := ⟨symbol ++ late, by simp⟩
  have two : left <+: early ++ symbol ++ late := ⟨symbol ++ right, by simp [both]⟩
  have three : early ++ symbol <+: early ++ symbol ++ late := ⟨late, rfl⟩
  obtain ⟨front, rfl⟩ := List.prefix_of_prefix_length_le one two (Nat.le_of_lt before)
  obtain ⟨back, cut⟩ := List.prefix_of_prefix_length_le two three
    (by simpa using Nat.le_of_lt overlap)
  have split : front ++ back = symbol := by simpa using cut
  have longer : front ≠ [] := by
    rintro rfl
    simp at before
  have some : back ≠ [] := by
    rintro rfl
    rw [← split] at overlap
    simp at overlap
  have rest : back ++ late = symbol ++ right := by
    have whole : early ++ (front ++ (back ++ late)) = early ++ (front ++ (symbol ++ right)) := by
      simpa [← split] using both
    exact List.append_cancel_left (List.append_cancel_left whole)
  have fits : back.length ≤ symbol.length := by
    rw [← split, List.length_append]
    omega
  obtain ⟨next, again⟩ := List.prefix_of_prefix_length_le (List.prefix_append back late)
    (rest ▸ List.prefix_append symbol right) fits
  have behind : late = next ++ right := by
    rw [← again, List.append_assoc] at rest
    exact List.append_cancel_left rest
  have follows : next ≠ [] := by
    rintro rfl
    have short : back.length = symbol.length := by simpa using congrArg List.length again
    rw [← split, List.length_append] at short
    exact longer (List.length_eq_zero_iff.1 (by omega))
  refine ⟨front, back, next, split, again, longer, some, ?_, ?_⟩
  · refine ⟨fun first begins letter c last => ?_, by simp⟩
    exact word.before first begins letter c (by simp_all [List.getLast?_append])
  · refine Classical.byContradiction fun neither => ?_
    obtain ⟨plain, tight⟩ := not_or.1 neither
    -- With another character at its beginning a symbol is bounded there by whatever precedes it.
    refine loose ⟨fun first begins letter => ?_, fun last ends letter c head => ?_⟩
    · rw [Option.mem_def.1 begins] at plain
      exact absurd letter plain
    · refine (Classical.not_not.1 tight).behind last ends letter c ?_
      obtain ⟨d, rest, rfl⟩ := List.exists_cons_of_ne_nil follows
      simpa [behind] using head

/-- A name without digits does not hide itself: what precedes its second occurrence extends it. -/
theorem not_hides_of_letters (letters : symbol.all isIdentifierChar = true)
    (plain : symbol.all (fun c => !c.isDigit) = true) : ¬ Hides symbol := by
  rintro ⟨front, back, next, split, -, longer, -, word, -⟩
  obtain ⟨first, others, rfl⟩ := List.exists_cons_of_ne_nil longer
  have inside : (first :: others).getLast (by simp) ∈ symbol := by
    rw [← split]
    exact List.mem_append_left back (List.getLast_mem _)
  have begins : first ∈ symbol.head? := by simp [← split]
  have letter := List.all_eq_true.1 letters first (List.mem_of_mem_head? begins)
  rcases word.before first begins letter _ (List.getLast?_eq_some_getLast (by simp)) with
    other | ⟨digit, -⟩
  · rw [List.all_eq_true.1 letters _ inside] at other
    cases other
  · have free := List.all_eq_true.1 plain _ inside
    rw [digit] at free
    cases free

theorem isFirst_findKeyword (filled : symbol ≠ []) (shown : ¬ Hides symbol) (text : List Char) :
    IsFirst symbol text (findKeyword text symbol) := by
  have covered {place : Nat} (word : WordAt symbol text place) :
      ∃ found, findKeyword text symbol = some found ∧ found ≤ place := by
    refine (findKeyword_covers filled word).resolve_right ?_
    rintro ⟨other, first, overlap, ⟨early, late, whole, rfl⟩, loose⟩
    obtain ⟨left, right, here, rfl, bounded⟩ := word
    have one : early <+: text := ⟨symbol ++ late, by simp [← whole]⟩
    have two : left <+: text := ⟨symbol ++ right, by simp [← here]⟩
    have three : early ++ symbol <+: text := ⟨late, whole⟩
    refine shown (hides_of_overlap (whole.trans here.symm) ?_ ?_ bounded
      fun tight => loose ⟨early, late, whole, rfl, tight⟩)
    · refine Nat.lt_of_not_le fun longer => ?_
      have more := byteLength_le_of_length_le two one longer
      omega
    · refine Nat.lt_of_not_le fun apart => ?_
      have more := byteLength_le_of_length_le three two (by simpa using apart)
      rw [byteLength_append] at more
      omega
  cases found : findKeyword text symbol with
  | none =>
    intro place word
    obtain ⟨_, some, -⟩ := covered word
    rw [found] at some
    cases some
  | some place =>
    refine ⟨wordAt_of_findKeyword found, fun other word => ?_⟩
    obtain ⟨first, same, le⟩ := covered word
    rw [found] at same
    obtain rfl := Option.some.inj same
    exact le

theorem splitKeywordFrom_of_short {skip : Nat} {before text : List Char}
    (short : text.length < skip + symbol.length) :
      splitKeywordFrom symbol skip before text = none := by
  fun_induction splitKeywordFrom symbol skip before text with
  | case1 => rfl
  | case2 skip before c rest ih =>
    refine ih ?_
    simp only [List.length_cons] at short
    omega
  | case3 before c rest begins | case4 before c rest begins =>
    have fits := (List.isPrefixOf_iff_prefix.1 begins).length_le
    omega
  | case5 before c rest absent ih =>
    refine ih ?_
    simp only [List.length_cons] at short
    omega

/-- An occurrence that is no word is passed as a whole. -/
theorem splitKeywordFrom_of_loose (filled : symbol ≠ []) {before next : List Char}
    (loose : delimited symbol before.head? next.head? = false)
    (short : next.length < symbol.length) :
    splitKeywordFrom symbol 0 before (symbol ++ next) = none := by
  obtain ⟨c, tail, rfl⟩ := List.exists_cons_of_ne_nil filled
  have begins : (c :: tail).isPrefixOf (c :: (tail ++ next)) = true :=
    List.isPrefixOf_iff_prefix.2 ⟨next, rfl⟩
  have after : (c :: (tail ++ next)).drop (c :: tail).length = next := by simp
  rw [List.cons_append, splitKeywordFrom, if_pos begins]
  dsimp only
  rw [after, loose, if_neg (by simp)]
  refine splitKeywordFrom_of_short ?_
  simp only [List.length_append, List.length_cons, Nat.add_sub_cancel] at short ⊢
  omega

theorem exists_extending {first : Char} (letter : isIdentifierChar first = true) :
    ∃ c ≠ first, leftBoundary first (some c) = false := by
  have digit : ('_'.isDigit, 'a'.isDigit) = (false, false) := by decide
  have plain : isIdentifierChar '_' = true ∧ isIdentifierChar 'a' = true := by decide
  by_cases underscore : first = '_'
  · refine ⟨'a', by rw [underscore]; decide, ?_⟩
    simp_all [leftBoundary]
  · refine ⟨'_', fun same => underscore same.symm, ?_⟩
    simp_all [leftBoundary]

theorem Hides.exists_missed (hides : Hides symbol) :
    ∃ text place, WordAt symbol text place ∧ findKeyword text symbol = none := by
  obtain ⟨front, back, next, split, again, longer, some, word, loose⟩ := hides
  have filled : symbol ≠ [] := by
    rintro rfl
    exact longer (List.append_eq_nil_iff.1 split).1
  have both : front ++ symbol = symbol ++ next := by
    rw [← again, ← List.append_assoc, split, again]
  have short : next.length < symbol.length := by
    have length := congrArg List.length again
    rw [List.length_append] at length
    have more := List.length_pos_iff.2 some
    omega
  have unfound {text : List Char} (none : splitKeywordFrom symbol 0 [] text = none) :
      findKeyword text symbol = .none := by
    simp [findKeyword, splitKeyword, filled, none]
  obtain ⟨first, tail, rfl⟩ := List.exists_cons_of_ne_nil filled
  by_cases letter : isIdentifierChar first = true
  · -- The first occurrence is extended on its left.
    obtain ⟨c, other, extends_⟩ := exists_extending letter
    have outside : delimited (first :: tail) [c].head? next.head? = false := by
      obtain ⟨last, ends⟩ := Option.ne_none_iff_exists'.1 (mt List.getLast?_eq_none_iff.1 filled)
      simp [delimited, ends, extends_]
    have behind : Bounded (first :: tail) (c :: front) [] := by
      refine ⟨fun d begins identifier e last => ?_, by simp⟩
      refine word.before d begins identifier e ?_
      rwa [List.getLast?_cons_of_ne_nil longer] at last
    refine ⟨c :: (front ++ first :: tail), byteLength (c :: front),
      ⟨c :: front, [], by simp, rfl, behind⟩, unfound ?_⟩
    rw [both, splitKeywordFrom, if_neg (by simp [List.isPrefixOf, other.symm])]
    exact splitKeywordFrom_of_loose filled outside short
  · -- The first occurrence is extended by the end of the second one.
    have tight : ¬ Bounded (first :: tail) [] next := by simpa [letter] using loose
    have outside : delimited (first :: tail) [].head? next.head? = false := by
      refine Bool.eq_false_iff.2 fun known => tight ?_
      exact (delimited_iff_bounded filled [] next).1 known
    refine ⟨front ++ first :: tail, byteLength front, ⟨front, [], by simp, rfl, word⟩, unfound ?_⟩
    rw [both]
    exact splitKeywordFrom_of_loose filled outside short

/-- The search finds words only, and goes beyond a word only where an occurrence that is no word
overlaps it. It finds the first word of every text if and only if the symbol does not hide itself.
-/
theorem findKeyword_isFirst_iff (filled : symbol ≠ []) :
    (∀ text place, findKeyword text symbol = some place → WordAt symbol text place) ∧
      (∀ text place, WordAt symbol text place →
        (∃ found, findKeyword text symbol = some found ∧ found ≤ place) ∨
          ∃ other < place, place < other + byteLength symbol ∧ StandsAt symbol text other ∧
            ¬ WordAt symbol text other) ∧
      ((∀ text, IsFirst symbol text (findKeyword text symbol)) ↔ ¬ Hides symbol) := by
  refine ⟨fun _ _ => wordAt_of_findKeyword, fun _ _ => findKeyword_covers filled, ?_, ?_⟩
  · intro first hides
    obtain ⟨text, place, word, missed⟩ := hides.exists_missed
    have none := first text
    rw [missed] at none
    exact none place word
  · exact fun shown text => isFirst_findKeyword filled shown text

/-- A name of letters is found wherever it comes first, a name with a digit inside is not. -/
theorem findKeyword_isFirst_iff_of_names :
    (∀ text, IsFirst "time".toList text (findKeyword text "time".toList)) ∧
      ¬ ∀ text, IsFirst "a1a".toList text (findKeyword text "a1a".toList) := by
  have time := findKeyword_isFirst_iff (show "time".toList ≠ [] by decide)
  have digit := findKeyword_isFirst_iff (show "a1a".toList ≠ [] by decide)
  have behind : Bounded "a1a".toList "a1".toList [] :=
    (delimited_iff_bounded (by decide) _ _).1 (by decide)
  refine ⟨time.2.2.2 (not_hides_of_letters (by decide) (by decide)), fun first => ?_⟩
  exact digit.2.2.1 first ⟨['a', '1'], ['a'], ['1', 'a'], rfl, rfl, by decide, by decide, behind,
    .inl (by decide)⟩

/-- The second `a1a` is a word, since a digit precedes it, but it begins inside of the first. -/
theorem findKeyword_not_isFirst :
    WordAt "a1a".toList "_a1a1a".toList 3 ∧
      ¬ IsFirst "a1a".toList "_a1a1a".toList (findKeyword "_a1a1a".toList "a1a".toList) := by
  have word : WordAt "a1a".toList "_a1a1a".toList 3 :=
    ⟨"_a1".toList, [], by decide, by decide, (delimited_iff_bounded (by decide) _ _).1 (by decide)⟩
  have missed : findKeyword "_a1a1a".toList "a1a".toList = none := by decide
  rw [missed]
  exact ⟨word, fun none => none 3 word⟩

end GlslMaterial.Text
