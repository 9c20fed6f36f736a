import GlslMaterial.Proofs.Glsl.Atom

/-!
Enclosures: parentheses that are closed by the last character of a text and not before. Main
statement: the atoms are the names and the calls whose parenthesis encloses all that follows, and an
expression that is put in parentheses is enclosed by them.
-/

set_option autoImplicit false

namespace GlslMaterial.Glsl

/-- A text that closes each parenthesis it opens, and no other: none of its beginnings closes more
than it opens. -/
def Balanced (text : List Char) : Prop :=
  (∀ front, front <+: text → front.count ')' ≤ front.count '(') ∧ text.count '(' = text.count ')'

/-- The first character of a text is a parenthesis that is closed by the last one and not before. -/
def Encloses (text : List Char) : Prop :=
  ∃ inner, text = '(' :: (inner ++ [')']) ∧ Balanced inner

/-- The counter of open parentheses behind each character that a scan reads. The scan ends where a
closing parenthesis brings the counter back to zero. -/
def counters (depth : Int) : List Char → List Int
  | [] => []
  | '(' :: rest => (depth + 1) :: counters (depth + 1) rest
  | ')' :: rest => (depth - 1) :: if depth - 1 = 0 then [] else counters (depth - 1) rest
  | _ :: rest => depth :: counters depth rest

theorem counters_cons {c : Char} (opens : c ≠ '(') (closes : c ≠ ')') (depth : Int)
    (rest : List Char) : counters depth (c :: rest) = depth :: counters depth rest := by
  rw [counters] <;> simp [opens, closes]

theorem forall_prefix_cons_iff {p : List Char → Prop} {c : Char} {rest : List Char} :
    (∀ front, front <+: c :: rest → p front) ↔ p [] ∧ ∀ front, front <+: rest → p (c :: front) := by
  constructor
  · intro all
    exact ⟨all [] List.nil_prefix, fun front within =>
      all _ (List.cons_prefix_cons.2 ⟨rfl, within⟩)⟩
  · rintro ⟨none, all⟩ front within
    rcases List.prefix_cons_iff.1 within with rfl | ⟨shorter, rfl, shorterWithin⟩
    · exact none
    · exact all shorter shorterWithin

variable {text : List Char}

theorem depthAfter_eq_some_iff {depth after : Nat} : depthAfter depth text = some after ↔
      (∀ front, front <+: text → front.count ')' ≤ depth + front.count '(') ∧
        depth + text.count '(' = after + text.count ')' := by
  fun_induction depthAfter depth text with
  | case1 depth => simp
  | case2 depth rest ih =>
    rw [ih, forall_prefix_cons_iff]
    simp [Nat.add_assoc, Nat.add_comm 1]
  | case3 rest =>
    rw [forall_prefix_cons_iff]
    simp only [reduceCtorEq, false_iff]
    rintro ⟨⟨-, all⟩, -⟩
    simpa using all [] List.nil_prefix
  | case4 depth rest positive ih =>
    rw [ih, forall_prefix_cons_iff]
    simp only [List.count_cons, List.count_nil, beq_self_eq_true, ↓reduceIte, Char.reduceBEq,
      Bool.false_eq_true, Nat.add_zero, Nat.zero_le, true_and]
    refine and_congr (forall₂_congr fun front _ => ?_) ?_ <;> omega
  | case5 depth c rest opens closes ih =>
    rw [ih, forall_prefix_cons_iff]
    simp [List.count_cons_of_ne opens, List.count_cons_of_ne closes]

theorem balanced_iff_depthAfter : Balanced text ↔ depthAfter 0 text = some 0 := by
  simp [Balanced, depthAfter_eq_some_iff]

theorem exists_of_closesAtEnd {more : Nat} (closes : closesAtEnd more text = true) :
    ∃ inner, text = inner ++ [')'] ∧ depthAfter more inner = some 0 := by
  fun_induction closesAtEnd more text with
  | case1 => cases closes
  | case2 rest => exact ⟨[], by simpa using closes, rfl⟩
  | case3 more rest ih =>
    obtain ⟨inner, rfl, reaches⟩ := ih closes
    exact ⟨')' :: inner, rfl, by simpa [depthAfter] using reaches⟩
  | case4 more rest ih =>
    obtain ⟨inner, rfl, reaches⟩ := ih closes
    exact ⟨'(' :: inner, rfl, reaches⟩
  | case5 more c rest outer inner opens ih =>
    have other : c ≠ ')' := by
      rintro rfl
      cases more with
      | zero => exact outer rfl rfl
      | succ more => exact inner more rfl rfl
    obtain ⟨inner, rfl, reaches⟩ := ih closes
    exact ⟨c :: inner, rfl, by rw [depthAfter_cons opens other, reaches]⟩

theorem encloses_cons_iff : Encloses ('(' :: text) ↔ closesAtEnd 0 text = true := by
  constructor
  · rintro ⟨inner, same, balanced⟩
    rw [(List.cons.inj same).2]
    exact closesAtEnd_of_depthAfter (balanced_iff_depthAfter.1 balanced)
  · intro closes
    obtain ⟨inner, rfl, reaches⟩ := exists_of_closesAtEnd closes
    exact ⟨inner, rfl, balanced_iff_depthAfter.2 reaches⟩

theorem isAtom_iff_encloses (code : List Char) :
    isAtom code = true ↔ code ≠ [] ∧ (code.all isNameChar = true ∨
      ∃ name group, code = name ++ group ∧ name ≠ [] ∧ name.all isNameChar = true ∧
        Encloses group) := by
  constructor
  · intro atom
    have whole := List.takeWhile_append_dropWhile (p := (· != '(')) (l := code)
    simp only [isAtom, Bool.and_eq_true, Bool.not_eq_true', List.isEmpty_eq_false_iff] at atom
    obtain ⟨⟨filled, named⟩, closed⟩ := atom
    refine ⟨fun empty => filled (by rw [empty]; rfl), ?_⟩
    cases behind : code.dropWhile (· != '(') with
    | nil =>
      rw [behind, List.append_nil] at whole
      exact .inl (whole ▸ named)
    | cons c inner =>
      have stop := List.head_dropWhile_not
        (· != '(') (by simp [behind] : code.dropWhile (· != '(') ≠ [])
      obtain rfl : c = '(' := by simpa [behind] using stop
      rw [behind] at whole closed
      exact .inr ⟨_, _, whole.symm, filled, named, encloses_cons_iff.2 closed⟩
  · rintro ⟨filled, named | ⟨name, group, rfl, present, named, encloses⟩⟩
    · exact isAtom_name filled named
    · have plain : ∀ c ∈ name, (c != '(') = true := fun c member => by
        simpa using (isNameChar_ne (List.all_eq_true.1 named c member)).1
      obtain ⟨inner, rfl, -⟩ := id encloses
      rw [isAtom, List.takeWhile_append_of_pos plain, List.dropWhile_append_of_pos plain]
      simpa [present, named] using encloses_cons_iff.1 encloses

/-- The counter of a scan that begins inside of a parenthesis stays at or above zero, and the scan
agrees with it: the text ends where the counter first comes back to zero. -/
theorem counters_of_inside (more : Nat) (text : List Char) :
    (∀ d ∈ counters (more + 1) text, 0 ≤ d) ∧
      (closesAtEnd more text = true ↔ (counters (more + 1) text).length = text.length ∧
        (counters (more + 1) text).getLast? = some 0) := by
  fun_induction closesAtEnd more text with
  | case1 more => simp [counters]
  | case2 rest => cases rest <;> simp [counters]
  | case3 more rest ih =>
    have positive : (more : Int) + 1 ≠ 0 := by omega
    have less : ((more + 1 : Nat) : Int) + 1 - 1 = more + 1 := by omega
    rw [counters, less, if_neg positive]
    refine ⟨List.forall_mem_cons.2 ⟨by omega, ih.1⟩, ?_⟩
    rw [ih.2]
    cases counters (more + 1) rest <;> simp [positive]
  | case4 more rest ih =>
    have positive : (more : Int) + 1 + 1 ≠ 0 := by omega
    rw [Int.natCast_succ] at ih
    rw [counters]
    refine ⟨List.forall_mem_cons.2 ⟨by omega, ih.1⟩, ?_⟩
    rw [ih.2]
    cases counters (more + 1 + 1) rest <;> simp [positive]
  | case5 more c rest outer inner opens ih =>
    have other : c ≠ ')' := by
      rintro rfl
      cases more with
      | zero => exact outer rfl rfl
      | succ more => exact inner more rfl rfl
    have positive : (more : Int) + 1 ≠ 0 := by omega
    rw [counters_cons opens other]
    refine ⟨List.forall_mem_cons.2 ⟨by omega, ih.1⟩, ?_⟩
    rw [ih.2]
    cases counters (more + 1) rest <;> simp [positive]

theorem isOperand_of_encloses (encloses : Encloses text) : IsOperand text := by
  obtain ⟨inner, rfl, -⟩ := id encloses
  intro depth
  obtain ⟨ends, deeper⟩ := depthAfter_of_closesAtEnd (encloses_cons_iff.1 encloses) depth
  exact ⟨ends, by simp [atLevel, deeper]⟩

/-- The atoms are the names, and the calls whose parenthesis is closed by the last character and not
before; the counter that finds this never goes below zero. A balanced expression is an atom, or is
put in parentheses that enclose it; in both cases what is around it applies to all of it. -/
theorem atom_isolates (code : String) :
    (isAtom code.toList = true ↔ code ≠ "" ∧ (code.toList.all isNameChar = true ∨
      ∃ name group, code.toList = name ++ group ∧ name ≠ [] ∧ name.all isNameChar = true ∧
        Encloses group)) ∧
    (∀ inner, (∀ d ∈ counters 0 ('(' :: inner), 0 ≤ d) ∧
      (closesAtEnd 0 inner = true ↔ (counters 0 ('(' :: inner)).length = inner.length + 1 ∧
        (counters 0 ('(' :: inner)).getLast? = some 0)) ∧
    (Balanced code.toList →
      (isAtom code.toList = true ∧ atom code = code ∨
        atom code = "(" ++ code ++ ")" ∧ Encloses (atom code).toList) ∧
      IsOperand (atom code).toList) := by
  refine ⟨?_, fun inner => ?_, fun balanced => ?_⟩
  · rw [isAtom_iff_encloses, ne_eq, ne_eq, String.toList_eq_nil_iff]
  · have inside := counters_of_inside 0 inner
    rw [counters]
    refine ⟨List.forall_mem_cons.2 ⟨by omega, inside.1⟩, inside.2.trans ?_⟩
    cases counters (0 + 1) inner <;> simp
  · by_cases atomic : isAtom code.toList = true
    · rw [atom, if_pos atomic]
      exact ⟨.inl ⟨atomic, rfl⟩, isOperand_of_isAtom atomic⟩
    · have wrapped : atom code = "(" ++ code ++ ")" := by
        rw [atom, if_neg atomic]
        rfl
      have encloses : Encloses (atom code).toList := ⟨code.toList, by simp [wrapped], balanced⟩
      exact ⟨.inr ⟨wrapped, encloses⟩, isOperand_of_encloses encloses⟩

/-- Two calls in a sum are not one call, though the text begins with a name and ends with a closing
parenthesis. -/
theorem atom_isolates_sum_of_calls :
    Balanced "f(a) + g(b)".toList ∧ atom "f(a) + g(b)" = "(f(a) + g(b))" ∧
      Encloses (atom "f(a) + g(b)").toList := by
  have balanced : Balanced "f(a) + g(b)".toList := balanced_iff_depthAfter.2 (by decide +kernel)
  rcases ((atom_isolates "f(a) + g(b)").2.2 balanced).1 with ⟨atomic, -⟩ | ⟨wrapped, encloses⟩
  · exact absurd atomic (by decide +kernel)
  · exact ⟨balanced, wrapped, encloses⟩

end GlslMaterial.Glsl
