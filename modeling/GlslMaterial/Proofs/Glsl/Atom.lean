import GlslMaterial.Proofs.Glsl.Scope

/-!
Atoms as operands: an atom closes the parentheses that it opens and has nothing but the characters
of names outside of them. Wherever it is put, the operators around it are those that were there, and
they apply to all of it.
-/

set_option autoImplicit false

namespace GlslMaterial.Glsl

/-- The depth of parentheses behind a text that begins at some depth. The text may not close more of
them than are open. -/
def depthAfter (depth : Nat) : List Char → Option Nat
  | [] => some depth
  | '(' :: rest => depthAfter (depth + 1) rest
  | ')' :: rest => if depth = 0 then none else depthAfter (depth - 1) rest
  | _ :: rest => depthAfter depth rest

/-- What stands at a level of parentheses in a text that begins at some depth. -/
def atLevel (level depth : Nat) : List Char → List Char
  | [] => []
  | '(' :: rest => atLevel level (depth + 1) rest
  | ')' :: rest => atLevel level (depth - 1) rest
  | c :: rest => if depth = level then c :: atLevel level depth rest else atLevel level depth rest

variable {c : Char} {text code : List Char}

theorem depthAfter_cons (opens : c ≠ '(') (closes : c ≠ ')') (depth : Nat)
    (rest : List Char) : depthAfter depth (c :: rest) = depthAfter depth rest := by
  rw [depthAfter] <;> simp [opens, closes]

theorem atLevel_cons (opens : c ≠ '(') (closes : c ≠ ')') (level depth : Nat)
    (rest : List Char) : atLevel level depth (c :: rest) =
      if depth = level then c :: atLevel level depth rest else atLevel level depth rest := by
  rw [atLevel] <;> simp [opens, closes]

section Append

variable {depth middle : Nat} {first : List Char}

/-- A text is scanned one part after the other. -/
theorem depthAfter_append (reaches : depthAfter depth first = some middle) (second : List Char) :
    depthAfter depth (first ++ second) = depthAfter middle second := by
  fun_induction depthAfter depth first with
  | case1 depth => rw [List.nil_append, Option.some.inj reaches]
  | case2 depth rest ih => exact ih reaches
  | case3 rest => cases reaches
  | case4 depth rest open_ ih =>
    rw [List.cons_append, depthAfter, if_neg open_]
    exact ih reaches
  | case5 depth c rest opens closes ih =>
    rw [List.cons_append, depthAfter_cons opens closes]
    exact ih reaches

theorem atLevel_append (level : Nat) (reaches : depthAfter depth first = some middle)
    (second : List Char) :
    atLevel level depth (first ++ second) =
      atLevel level depth first ++ atLevel level middle second := by
  fun_induction depthAfter depth first with
  | case1 depth => rw [List.nil_append, atLevel, Option.some.inj reaches, List.nil_append]
  | case2 depth rest ih => exact ih reaches
  | case3 rest => cases reaches
  | case4 depth rest open_ ih => exact ih reaches
  | case5 depth c rest opens closes ih =>
    rw [List.cons_append, atLevel_cons opens closes, atLevel_cons opens closes, ih reaches]
    split <;> rfl

end Append

/-- Text without parentheses stays at its level. -/
theorem depthAfter_of_plain (opens : '(' ∉ text) (closes : ')' ∉ text)
    (depth : Nat) : depthAfter depth text = some depth := by
  induction text with
  | nil => rfl
  | cons c text ih =>
    simp only [List.mem_cons, not_or] at opens closes
    rw [depthAfter_cons (Ne.symm opens.1) (Ne.symm closes.1), ih opens.2 closes.2]

theorem depthAfter_of_all {p : Char → Bool} (letters : text.all p = true)
    (plain : p '(' = false ∧ p ')' = false) (depth : Nat) : depthAfter depth text = some depth := by
  refine depthAfter_of_plain (fun member => ?_) (fun member => ?_) depth
  · exact absurd (List.all_eq_true.1 letters _ member) (by simp [plain.1])
  · exact absurd (List.all_eq_true.1 letters _ member) (by simp [plain.2])

theorem mem_of_mem_atLevel {level depth : Nat}
    (member : c ∈ atLevel level depth text) : c ∈ text := by
  fun_induction atLevel level depth text with
  | case1 => cases member
  | case2 depth rest ih | case3 depth rest ih => exact List.mem_cons_of_mem _ (ih member)
  | case4 first rest _ _ ih =>
    rcases List.mem_cons.1 member with rfl | later
    · exact List.mem_cons_self
    · exact List.mem_cons_of_mem _ (ih later)
  | case5 depth first rest _ _ away ih => exact List.mem_cons_of_mem _ (ih member)

theorem depthAfter_of_closesAtEnd {more : Nat} {inner : List Char}
    (closes : closesAtEnd more inner = true) (depth : Nat) :
    depthAfter (depth + 1 + more) inner = some depth ∧
      atLevel depth (depth + 1 + more) inner = [] := by
  fun_induction closesAtEnd more inner with
  | case1 => cases closes
  | case2 rest =>
    rw [List.isEmpty_iff.1 closes]
    exact ⟨rfl, rfl⟩
  | case3 more rest ih | case4 more rest ih => exact ih closes
  | case5 more c rest outer inner opens ih =>
    have other : c ≠ ')' := by
      rintro rfl
      cases more with
      | zero => exact outer rfl rfl
      | succ more => exact inner more rfl rfl
    rw [depthAfter_cons opens other, atLevel_cons opens other, if_neg (by omega)]
    exact ih closes

theorem closesAtEnd_of_depthAfter {more : Nat} {inner : List Char}
    (reaches : depthAfter more inner = some 0) : closesAtEnd more (inner ++ [')']) = true := by
  fun_induction depthAfter more inner with
  | case1 more =>
    rw [Option.some.inj reaches]
    rfl
  | case2 more rest ih => exact ih reaches
  | case3 rest => cases reaches
  | case4 more rest open_ ih =>
    obtain ⟨less, rfl⟩ := Nat.exists_eq_succ_of_ne_zero open_
    exact ih reaches
  | case5 more c rest opens closes ih =>
    rw [List.cons_append, closesAtEnd]
    · exact ih reaches
    · exact opens
    · exact fun _ => closes
    · exact fun _ _ => closes

/-- A text that can be an operand as it is: it closes what it opens, and has nothing but characters
of names outside of parentheses. -/
def IsOperand (code : List Char) : Prop :=
  ∀ depth, depthAfter depth code = some depth ∧ ∀ c ∈ atLevel depth depth code, isNameChar c = true

theorem isNameChar_ne (named : isNameChar c = true) : c ≠ '(' ∧ c ≠ ')' := by
  constructor <;> rintro rfl <;> cases named

theorem notMem_of_isNameChar (named : text.all isNameChar = true) : '(' ∉ text ∧ ')' ∉ text :=
  ⟨fun member => (isNameChar_ne (List.all_eq_true.1 named _ member)).1 rfl,
    fun member => (isNameChar_ne (List.all_eq_true.1 named _ member)).2 rfl⟩

theorem isOperand_of_isAtom (atom : isAtom code = true) : IsOperand code := by
  intro depth
  simp only [isAtom, Bool.and_eq_true] at atom
  obtain ⟨⟨-, named⟩, closed⟩ := atom
  obtain ⟨opens, closes⟩ := notMem_of_isNameChar named
  have stays := depthAfter_of_plain opens closes depth
  have front : ∀ c ∈ atLevel depth depth (code.takeWhile (· != '(')), isNameChar c = true :=
    fun c member => List.all_eq_true.1 named c (mem_of_mem_atLevel member)
  rw [← List.takeWhile_append_dropWhile (p := (· != '(')) (l := code)]
  rw [depthAfter_append stays, atLevel_append depth stays]
  cases behind : code.dropWhile (· != '(') with
  | nil => exact ⟨rfl, by simpa [atLevel] using front⟩
  | cons c inner =>
    obtain rfl : c = '(' := by
      have some : code.dropWhile (· != '(') ≠ [] := by simp [behind]
      have stop := List.head_dropWhile_not (· != '(') some
      simpa [behind] using stop
    rw [behind] at closed
    obtain ⟨ends, deeper⟩ := depthAfter_of_closesAtEnd closed depth
    refine ⟨ends, ?_⟩
    rw [atLevel, deeper, List.append_nil]
    exact front

/-- Where an operand is put into a text, parentheses match as they did without it, and around it
there are the operators, commas and blanks that were there. -/
theorem IsOperand.splice (operand : IsOperand code) {left : List Char}
    {depth : Nat} (reaches : depthAfter 0 left = some depth) (right : List Char) :
    depthAfter 0 (left ++ code ++ right) = depthAfter 0 (left ++ right) ∧
      (atLevel depth 0 (left ++ code ++ right)).filter (!isNameChar ·) =
        (atLevel depth 0 (left ++ right)).filter (!isNameChar ·) := by
  obtain ⟨stays, named⟩ := operand depth
  have silent : (atLevel depth depth code).filter (!isNameChar ·) = [] :=
    List.filter_eq_nil_iff.2 fun c member => by simp [named c member]
  have through := (depthAfter_append reaches code).trans stays
  rw [depthAfter_append through, depthAfter_append reaches, atLevel_append depth through,
    atLevel_append depth reaches, atLevel_append depth reaches]
  simp only [List.filter_append, silent, List.append_nil, and_self]

theorem isAtom_name (filled : code ≠ []) (named : code.all isNameChar = true) :
    isAtom code = true := by
  have plain : ∀ c ∈ code, (c != '(') = true := fun c member => by
    simpa using (isNameChar_ne (List.all_eq_true.1 named c member)).1
  have whole : (code ++ []).takeWhile (· != '(') = code ++ [].takeWhile (· != '(') :=
    List.takeWhile_append_of_pos plain
  have nothing : (code ++ []).dropWhile (· != '(') = [].dropWhile (· != '(') :=
    List.dropWhile_append_of_pos plain
  rw [List.append_nil] at whole nothing
  simp [isAtom, whole, nothing, filled, named]

theorem isNameChar_of_isIdentifierChar
    (letters : text.all Text.isIdentifierChar = true) : text.all isNameChar = true := by
  refine List.all_eq_true.2 fun c member => ?_
  have letter := List.all_eq_true.1 letters c member
  simp only [Text.isIdentifierChar, Bool.or_eq_true] at letter
  simp only [isNameChar, Bool.or_eq_true]
  exact .inl (.inl (.inl letter))

theorem depthAfter_intercalate {arguments : List String}
    (closed : ∀ a ∈ arguments, ∀ depth, depthAfter depth a.toList = some depth) (depth : Nat) :
    depthAfter depth (", ".intercalate arguments).toList = some depth := by
  rw [String.toList_intercalate]
  induction arguments with
  | nil => rfl
  | cons first rest ih =>
    obtain ⟨here, later⟩ := List.forall_mem_cons.1 closed
    cases rest with
    | nil => simpa using here depth
    | cons second rest =>
      have comma : depthAfter depth ", ".toList = some depth :=
        depthAfter_of_plain (by decide) (by decide) depth
      rw [List.map_cons, List.intercalate_cons_of_ne_nil (by simp), List.append_assoc,
        depthAfter_append (here depth), depthAfter_append comma]
      exact ih later

theorem isAtom_call {function : String} {arguments : List String}
    (word : isIdentifier function = true)
    (closed : ∀ a ∈ arguments, ∀ depth, depthAfter depth a.toList = some depth) :
    isAtom (call function arguments).toList = true := by
  obtain ⟨present, letters⟩ := Bool.and_eq_true_iff.1 word
  let inner := (", ".intercalate arguments).toList
  have shape : (call function arguments).toList = function.toList ++ '(' :: (inner ++ [')']) := by
    simp [call, inner]
  have filled : function.toList ≠ [] := by simpa using present
  have named := isNameChar_of_isIdentifierChar letters
  have plain : ∀ c ∈ function.toList, (c != '(') = true := fun c member => by
    simpa using (isNameChar_ne (List.all_eq_true.1 named c member)).1
  have ends : depthAfter 0 inner = some 0 := depthAfter_intercalate closed 0
  rw [shape, isAtom, List.takeWhile_append_of_pos plain, List.dropWhile_append_of_pos plain]
  simp [filled, named, closesAtEnd_of_depthAfter ends]

theorem isAtom_numbered (stem : String) (word : isIdentifier stem = true) (n : Nat) :
    isAtom s!"{stem}{n}".toList = true := by
  have letters := (Bool.and_eq_true_iff.1 (isIdentifier_numbered word n)).2
  exact isAtom_name (by simp) (isNameChar_of_isIdentifierChar letters)

theorem isAtom_part (stem part : String) (word : isIdentifier stem = true)
    (named : part.toList.all isNameChar = true) (n : Nat) :
    isAtom s!"{stem}{n}{part}".toList = true := by
  have letters := (Bool.and_eq_true_iff.1 (isIdentifier_numbered word n)).2
  have split : s!"{stem}{n}{part}".toList = s!"{stem}{n}".toList ++ part.toList := by
    simp
  rw [split]
  refine isAtom_name (by simp) ?_
  rw [List.all_append, isNameChar_of_isIdentifierChar letters, named]
  rfl

theorem depthAfter_of_isNumeral {text : String} (number : isNumeral text = true) (depth : Nat) :
    depthAfter depth text.toList = some depth :=
  depthAfter_of_all (Bool.and_eq_true_iff.1 number).2 (by decide) depth

theorem isAtom_of_isClosedLiteral {expr : String} (closed : IsClosedLiteral expr) :
    isAtom expr.toList = true := by
  obtain ⟨type, arguments, word, numbers, rfl⟩ := closed
  exact isAtom_call word fun a member => depthAfter_of_isNumeral (numbers a member)

end GlslMaterial.Glsl
