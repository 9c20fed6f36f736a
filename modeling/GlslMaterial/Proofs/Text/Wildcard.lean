import GlslMaterial.Text.Wildcard

/-!
Wildcard patterns against what they stand for. The matcher goes back to the last star only. This
loses nothing: where the pattern between two stars fits, every later place for it leaves less of the
text behind it, and the run of the next star can take in what is left over.

Main statement: the matcher accepts a text if and only if the text arises from the pattern by
putting some run of characters in the place of each star.
-/

set_option autoImplicit false

namespace GlslMaterial.Text

/-- A text arises from a pattern: each star is replaced by a run of characters, which may be empty,
and all other characters stay. -/
inductive Fills : List Char → List Char → Prop
  | nil : Fills [] []
  | star (run : List Char) {pattern text : List Char} (rest : Fills pattern text) :
    Fills ('*' :: pattern) (run ++ text)
  | same {c : Char} (plain : c ≠ '*') {pattern text : List Char} (rest : Fills pattern text) :
    Fills (c :: pattern) (c :: text)

namespace Fills

variable {pattern text part : List Char}

theorem star_iff : Fills ('*' :: pattern) text ↔ ∃ rest, rest <:+ text ∧ Fills pattern rest := by
  constructor
  · intro fills
    cases fills with
    | star run rest => exact ⟨_, List.suffix_append _ _, rest⟩
    | same plain => exact absurd rfl plain
  · rintro ⟨rest, ⟨run, rfl⟩, fills⟩
    exact .star run fills

/-- The run of a star can begin earlier. -/
theorem of_suffix (fills : Fills ('*' :: pattern) part) (suffix : part <:+ text) :
    Fills ('*' :: pattern) text := by
  obtain ⟨rest, inside, fills⟩ := star_iff.1 fills
  exact star_iff.2 ⟨rest, inside.trans suffix, fills⟩

theorem star_cons_iff {c : Char} :
    Fills ('*' :: pattern) (c :: text) ↔ Fills pattern (c :: text) ∨
      Fills ('*' :: pattern) text := by
  constructor
  · intro fills
    obtain ⟨rest, suffix, fills⟩ := star_iff.1 fills
    rcases List.suffix_cons_iff.1 suffix with rfl | suffix
    · exact .inl fills
    · exact .inr (star_iff.2 ⟨rest, suffix, fills⟩)
  · rintro (fills | fills)
    · exact .star [] fills
    · exact fills.of_suffix (List.suffix_cons c text)

theorem append_iff {plain : List Char} (free : '*' ∉ plain) :
    Fills (plain ++ pattern) text ↔ ∃ rest, text = plain ++ rest ∧ Fills pattern rest := by
  induction plain generalizing text with
  | nil => simp
  | cons c plain ih =>
    obtain ⟨other, free⟩ := not_or.1 (mt List.mem_cons.2 free)
    constructor
    · intro fills
      cases fills with
      | star => exact absurd rfl other
      | same _ fills =>
        obtain ⟨rest, rfl, filled⟩ := (ih free).1 fills
        exact ⟨rest, rfl, filled⟩
    · rintro ⟨rest, rfl, fills⟩
      exact .same (Ne.symm other) ((ih free).2 ⟨rest, rfl, fills⟩)

theorem cons_iff {c : Char} (plain : c ≠ '*') :
    Fills (c :: pattern) text ↔ ∃ rest, text = c :: rest ∧ Fills pattern rest := by
  have free : '*' ∉ [c] := by simpa using plain.symm
  exact append_iff free

theorem nil_iff : Fills pattern [] ↔ isStars pattern = true := by
  induction pattern with
  | nil => exact ⟨fun _ => rfl, fun _ => .nil⟩
  | cons c pattern ih =>
    rw [isStars, List.all_cons, Bool.and_eq_true, beq_iff_eq]
    constructor
    · intro fills
      cases star : decide (c = '*') with
      | true =>
        obtain rfl := of_decide_eq_true star
        obtain ⟨rest, suffix, fills⟩ := star_iff.1 fills
        rw [List.suffix_nil.1 suffix] at fills
        exact ⟨rfl, ih.1 fills⟩
      | false =>
        obtain ⟨rest, impossible, -⟩ := (cons_iff (of_decide_eq_false star)).1 fills
        cases impossible
    · rintro ⟨rfl, stars⟩
      exact .star [] (ih.2 stars)

end Fills

section Comparison

variable {pattern text later rest : List Char}

theorem exists_of_compared_ended (reaches : compared pattern text = .ended rest) :
    '*' ∉ text ∧ pattern = text ++ rest := by
  fun_induction compared pattern text with
  | case1 pattern => exact ⟨by simp, by simpa using reaches⟩
  | case2 | case3 | case5 => cases reaches
  | case4 c pattern text plain ih =>
    obtain ⟨free, rfl⟩ := ih reaches
    exact ⟨by simp [Ne.symm plain, free], rfl⟩

theorem exists_of_compared_star (reaches : compared pattern text = .star later rest) :
    ∃ plain, '*' ∉ plain ∧ pattern = plain ++ '*' :: later ∧ text = plain ++ rest := by
  fun_induction compared pattern text with
  | case1 | case2 | case5 => cases reaches
  | case3 pattern d text =>
    obtain ⟨rfl, rfl⟩ := Comparison.star.inj reaches
    exact ⟨[], by simp, rfl, rfl⟩
  | case4 pattern d text plain ih =>
    obtain ⟨matched, free, rfl, rfl⟩ := ih reaches
    exact ⟨d :: matched, by simp [Ne.symm plain, free], rfl, rfl⟩

theorem not_fills_of_compared_differs (reaches : compared pattern text = .differs) :
    text ≠ [] ∧ ¬ Fills pattern text := by
  fun_induction compared pattern text with
  | case1 | case3 => cases reaches
  | case2 =>
    refine ⟨List.cons_ne_nil _ _, fun fills => ?_⟩
    cases fills
  | case4 c pattern text plain ih =>
    refine ⟨List.cons_ne_nil _ _, fun fills => ?_⟩
    obtain ⟨rest, same, filled⟩ := (Fills.cons_iff plain).1 fills
    obtain rfl := (List.cons.inj same).2
    exact (ih reaches).2 filled
  | case5 c pattern d text plain other =>
    refine ⟨List.cons_ne_nil _ _, fun fills => ?_⟩
    obtain ⟨rest, same, -⟩ := (Fills.cons_iff plain).1 fills
    exact other (List.cons.inj same).1.symm

theorem fills_iff_of_compared_star (reaches : compared pattern text = .star later rest) :
    Fills pattern text ↔ Fills ('*' :: later) rest := by
  obtain ⟨plain, free, rfl, rfl⟩ := exists_of_compared_star reaches
  rw [Fills.append_iff free]
  constructor
  · rintro ⟨same, cut, fills⟩
    obtain rfl := List.append_cancel_left cut
    exact fills
  · exact fun fills => ⟨rest, rfl, fills⟩

theorem star_fills_iff_of_compared_ended (reaches : compared pattern text = .ended rest) :
    Fills ('*' :: pattern) text ↔ isStars rest = true := by
  obtain ⟨free, rfl⟩ := exists_of_compared_ended reaches
  rw [← Fills.nil_iff, Fills.star_iff]
  constructor
  · rintro ⟨part, suffix, fills⟩
    obtain ⟨left, rfl, filled⟩ := (Fills.append_iff free).1 fills
    have short := suffix.length_le
    rw [List.length_append] at short
    obtain rfl := List.eq_nil_of_length_eq_zero (show left.length = 0 by omega)
    exact filled
  · exact fun fills => ⟨text, List.suffix_rfl, (Fills.append_iff free).2 ⟨[], by simp, fills⟩⟩

theorem star_fills_iff_of_compared_star (reaches : compared pattern text = .star later rest) :
    Fills ('*' :: pattern) text ↔ Fills ('*' :: later) rest := by
  obtain ⟨plain, free, rfl, rfl⟩ := exists_of_compared_star reaches
  constructor
  · intro fills
    obtain ⟨part, suffix, fills⟩ := Fills.star_iff.1 fills
    obtain ⟨left, rfl, filled⟩ := (Fills.append_iff free).1 fills
    refine filled.of_suffix ?_
    -- Both are ends of the text, and what is left behind a later place is shorter.
    have short := suffix.length_le
    simp only [List.length_append] at short
    exact List.suffix_of_suffix_length_le ((List.suffix_append plain left).trans suffix)
      (List.suffix_append plain rest) (by omega)
  · exact fun fills => .star [] ((Fills.append_iff free).2 ⟨rest, rfl, fills⟩)

end Comparison

theorem matchAfterStar_iff (pattern text : List Char) :
    matchAfterStar pattern text = true ↔ Fills ('*' :: pattern) text := by
  fun_induction matchAfterStar pattern text with
  | case1 pattern text rest reaches => exact (star_fills_iff_of_compared_ended reaches).symm
  | case2 pattern text later rest reaches shorter ih =>
    rw [ih]
    exact (star_fills_iff_of_compared_star reaches).symm
  | case3 pattern reaches => exact absurd rfl (not_fills_of_compared_differs reaches).1
  | case4 pattern d longer reaches ih =>
    rw [ih, Fills.star_cons_iff, or_iff_right (not_fills_of_compared_differs reaches).2]

/-- The matcher accepts exactly the texts that arise from the pattern. -/
theorem wildcardMatch_iff_fills (pattern text : List Char) :
    wildcardMatch pattern text = true ↔ Fills pattern text := by
  unfold wildcardMatch
  cases reaches : compared pattern text with
  | ended rest =>
    obtain ⟨free, rfl⟩ := exists_of_compared_ended reaches
    rw [Fills.append_iff free, ← Fills.nil_iff]
    simp
  | star later rest =>
    rw [fills_iff_of_compared_star reaches]
    exact matchAfterStar_iff later rest
  | differs => simp [(not_fills_of_compared_differs reaches).2]

/-- The last part fits at two places, and only the later one leaves nothing over. -/
example : wildcardMatch "a*bc".toList "abcbc".toList = true := by decide +kernel

end GlslMaterial.Text
