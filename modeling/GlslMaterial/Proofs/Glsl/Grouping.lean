import GlslMaterial.Proofs.Glsl.Spelling
import GlslMaterial.Proofs.Interface.Access

/-!
Conversions and literals as trees: the conversion of a text spells the conversion of its tree, and
what values are written as has a tree.
-/

set_option autoImplicit false

namespace GlslMaterial

theorem DataType.width_of_decayed {type decayed : DataType} (decays : type.decayed = .ok decayed)
    (single : type.width = 1) : decayed.width = 1 := by
  cases type <;> cases decays <;> first | rfl | cases single

theorem DataType.width_of_vectorShape? {type : DataType} {family : Family} {count : Nat}
    (shape : type.vectorShape? = some (family, count)) : type.width = count ∧ 0 < count := by
  cases type <;> cases shape <;> decide

theorem DataType.pos_of_matrixShape? {type : DataType} {family : Family} {dimension : Nat}
    (shape : type.matrixShape? = some (family, dimension)) : 0 < dimension := by
  cases type <;> cases shape <;> decide

namespace Glsl

variable {text : List Char} {tree : Tree} {code : String} {width : Nat}

theorem Tree.isNumber_call (function : String) (arguments : List Tree) :
    (Tree.call function arguments).isNumber = false := by
  rcases List.eq_nil_or_concat arguments with rfl | ⟨arguments, last, rfl⟩
  · rfl
  · simp [Tree.call, Tree.isNumber]

namespace Tree

/-- A vector in another type. -/
def convertVector (tree : Tree) (family : Family) (count : Nat) (target : String)
    (targetFamily : Family) (width : Nat) : Tree :=
  if width < count then
    let swizzled := field tree (leading width)
    if family = targetFamily then swizzled else call target [swizzled]
  else if count < width then call target (tree :: (padding count width "0.0").map number)
  else call target [tree]

/-- A column of a matrix that extends a smaller one. -/
def grownColumn (tree : Tree) (count width column : Nat) : Tree :=
  call s!"vec{width}"
    (if column < count then
      index tree (number (toString column)) :: List.replicate (width - count) (number "0.0")
    else
      (List.range width).map fun row =>
        number (if row ≠ column then "0.0" else if column = width - 1 then "1.0" else "0.0"))

/-- An expression in another type. -/
def convert (tree : Tree) (source target : DataType) : Except Failure Tree := do
  if source = target then return tree
  let source ← source.decayed
  let target ← target.decayed
  if source = target then return tree
  match source.vectorShape?, target.vectorShape? with
  | some (family, count), some (targetFamily, width) =>
    return convertVector tree family count (← target.spelling) targetFamily width
  | _, _ =>
    match source.matrixShape?, target.matrixShape? with
    | some (_, count), some (_, width) =>
      let spelling ← target.spelling
      if width ≤ count then return call spelling [tree]
      return call spelling ((List.range width).map (grownColumn tree count width))
    | _, _ => throw (.misuse (.noConversion source target))

end Tree

theorem isName_spelling {type : DataType} {spelling : String}
    (spelled : type.spelling = .ok spelling) : isName spelling.toList = true := by
  cases type <;> cases spelled <;> decide

theorem isName_of_alpha {letters digits : List Char} (filled : letters ≠ [])
    (alpha : ∀ c ∈ letters, c.isAlpha = true) (numeric : ∀ c ∈ digits, c.isDigit = true) :
    isName (letters ++ digits) = true := by
  obtain ⟨first, rest, rfl⟩ := List.exists_cons_of_ne_nil filled
  have letter := alpha first List.mem_cons_self
  have start : first.isDigit = false := by
    refine Bool.eq_false_iff.2 fun digit => ?_
    rw [Text.not_isAlpha_of_isDigit digit] at letter
    cases letter
  have all : (first :: rest ++ digits).all Text.isIdentifierChar = true := by
    refine List.all_eq_true.2 fun c member => ?_
    rcases List.mem_append.1 member with early | late
    · simp [Text.isIdentifierChar, Char.isAlphanum, alpha c early]
    · exact Text.isIdentifierChar_of_isDigit (numeric c late)
  simp only [isName, Bool.and_eq_true]
  exact ⟨⟨rfl, all⟩, by simp [start]⟩

theorem isName_leading (some : 0 < width) : isName (leading width).toList = true := by
  have all : ['x', 'y', 'z', 'w'].all Char.isAlpha = true := by decide
  have filled : ['x', 'y', 'z', 'w'].take width ≠ [] := by
    simpa using Nat.ne_of_gt some
  rw [leading, String.toList_ofList, ← List.append_nil (List.take _ _)]
  refine isName_of_alpha filled (fun c member => ?_) (by simp)
  exact List.all_eq_true.1 all c (List.mem_of_mem_take member)

theorem isName_numbered {stem : String} (named : isName stem.toList = true) (n : Nat) :
    isName s!"{stem}{n}".toList = true := by
  obtain ⟨filled, letters⟩ := letters_of_isName named
  have first := head_of_isName named
  have digits : (toString n).toList.all Text.isIdentifierChar = true := by
    refine List.all_eq_true.2 fun c member => ?_
    simp [Text.isIdentifierChar, Char.isAlphanum, isDigit_of_mem_repr member]
  obtain ⟨c, rest, cut⟩ := List.exists_cons_of_ne_nil filled
  have shape : s!"{stem}{n}".toList = stem.toList ++ (toString n).toList := by simp
  rw [cut] at letters first
  simp only [shape, cut, isName, List.cons_append, List.isEmpty_cons, Bool.not_false, Bool.true_and,
    Bool.and_eq_true, Bool.not_eq_true']
  refine ⟨?_, first⟩
  rw [← List.cons_append, List.all_append, letters, digits]
  rfl

theorem spells_numbers {texts : List String}
    (numeric : ∀ text ∈ texts, isUnsigned text.toList = true) :
    List.Forall₂ (fun a tree => Spells (.upTo 12) a.toList tree) texts (texts.map Tree.number) := by
  rw [List.forall₂_map_right_iff, List.forall₂_same]
  exact fun text member => (Spells.unsigned (numeric text member)).operand

theorem isUnsigned_padding (count width : Nat) :
    ∀ text ∈ padding count width "0.0", isUnsigned text.toList = true := by
  intro text member
  obtain ⟨i, -, rfl⟩ := List.mem_map.1 member
  split <;> decide

theorem Spells.convertVector {target : String}
    (spells : Spells .sum code.toList tree) (named : isName target.toList = true) {count : Nat}
    (some : 0 < width) (plain : 1 < count → tree.isNumber = false) (family targetFamily : Family) :
    Spells .operand (convertVector code family count target targetFamily width "0.0").toList
      (tree.convertVector family count target targetFamily width) := by
  have argument : Spells (.upTo 12) code.toList tree := spells.weaken (by decide)
  unfold Glsl.convertVector Tree.convertVector
  split
  · have swizzled := Spells.part spells.atom (plain (by omega)) (isName_leading some)
    dsimp only
    split
    · exact swizzled
    · exact Spells.call named (.cons swizzled.operand .nil) (by simp)
  · split
    · exact Spells.call named (.cons argument (spells_numbers (isUnsigned_padding count width)))
        (by simp)
    · exact Spells.call named (.cons argument .nil) (by simp)

theorem Spells.grownColumn (spells : Spells .operand code.toList tree)
    {count : Nat} (some : 0 < width) (column : Nat) :
    Spells .operand (grownColumn code count width "0.0" column).toList
      (tree.grownColumn count width column) := by
  have named : isName s!"vec{width}".toList = true := isName_numbered (by decide) width
  have zeros (n : Nat) : List.Forall₂ (fun a tree => Spells (.upTo 12) a.toList tree)
      (List.replicate n "0.0") (List.replicate n (.number "0.0")) := by
    rw [← List.map_replicate]
    refine spells_numbers fun text member => ?_
    rw [List.eq_of_mem_replicate member]
    decide
  unfold Glsl.grownColumn Tree.grownColumn
  dsimp only
  split
  · have item : Spells .operand s!"{code}[{column}]".toList
        (.index tree (.number (toString column))) := by
      exact spells.item (Spells.unsigned (isUnsigned_nat column)).operand
    exact Spells.call named (.cons item.operand (zeros _)) (by simp)
  · let entry (row : Nat) :=
      if row ≠ column then "0.0" else if column = width - 1 then "1.0" else "0.0"
    have numeric : ∀ text ∈ (List.range width).map entry, isUnsigned text.toList = true := by
      intro text member
      obtain ⟨row, -, rfl⟩ := List.mem_map.1 member
      dsimp only [entry]
      split
      · decide
      · split <;> decide
    have entries := spells_numbers numeric
    rw [List.map_map] at entries
    exact Spells.call named entries (by simpa using Nat.ne_of_gt some)

theorem Spells.grown {function : String} (spells : Spells .sum code.toList tree)
    (named : isName function.toList = true) (some : 0 < width) (count : Nat) :
    Spells .operand (Glsl.call function
        ((List.range width).map (Glsl.grownColumn (Glsl.atom code) count width "0.0"))).toList
      (.call function ((List.range width).map (tree.grownColumn count width))) := by
  refine Spells.call named ?_ (by simpa using Nat.ne_of_gt some)
  rw [List.forall₂_map_left_iff, List.forall₂_map_right_iff, List.forall₂_same]
  exact fun column _ => (spells.atom.grownColumn some column).operand

/-- The conversion of a text spells the conversion of its tree: as an operand, unless the text is
left as it is. -/
theorem Spells.convert_cases {converted : String} {source target : DataType}
    (spells : Spells .sum code.toList tree) (single : tree.isNumber = true → source.width = 1)
    (given : convert code source target "0.0" = .ok converted) :
    ∃ result, tree.convert source target = .ok result ∧
      (source.decay? = target.decay? ∧ converted = code ∧ result = tree ∨
        source.decay? ≠ target.decay? ∧ Spells .operand converted.toList result) := by
  unfold Glsl.convert at given
  unfold Tree.convert
  by_cases same : source = target
  · rw [if_pos same] at given ⊢
    obtain rfl := Except.ok.inj given
    exact ⟨tree, rfl, .inl ⟨congrArg _ same, rfl, rfl⟩⟩
  rw [if_neg same] at given ⊢
  obtain ⟨first, decays, given⟩ := eq_ok_of_bind given
  obtain ⟨second, decays_target, given⟩ := eq_ok_of_bind given
  rw [decays, decays_target]
  simp only [bind, Except.bind] at given ⊢
  by_cases alike : first = second
  · rw [if_pos alike] at given ⊢
    obtain rfl := Except.ok.inj given
    refine ⟨tree, rfl, .inl ⟨?_, rfl, rfl⟩⟩
    rw [DataType.decay?_of_decayed decays, DataType.decay?_of_decayed decays_target, alike]
  have apart : source.decay? ≠ target.decay? := by
    rw [DataType.decay?_of_decayed decays, DataType.decay?_of_decayed decays_target]
    exact fun same => alike (Option.some.inj same)
  rw [if_neg alike] at given ⊢
  cases vector : first.vectorShape? with
  | some shape =>
    obtain ⟨family, count⟩ := shape
    cases other : second.vectorShape? with
    | some shape =>
      obtain ⟨targetFamily, width⟩ := shape
      simp only [vector, other] at given ⊢
      cases spelled : second.spelling with
      | error failure =>
        rw [spelled] at given
        cases given
      | ok spelling =>
        simp only [spelled] at given ⊢
        obtain rfl := Except.ok.inj given
        have plain : 1 < count → tree.isNumber = false := by
          intro several
          refine Bool.eq_false_iff.2 fun number => ?_
          have one := DataType.width_of_decayed decays (single number)
          rw [(DataType.width_of_vectorShape? vector).1] at one
          omega
        exact ⟨_, rfl, .inr ⟨apart, spells.convertVector (isName_spelling spelled)
          (DataType.width_of_vectorShape? other).2 plain family targetFamily⟩⟩
    | none =>
      have flat : first.matrixShape? = none := by
        cases first <;> first | rfl | cases vector
      simp only [vector, other, flat] at given
      cases given
  | none =>
    simp only [vector] at given ⊢
    cases matrix : first.matrixShape? with
    | none =>
      simp only [matrix] at given
      cases given
    | some shape =>
      obtain ⟨family, count⟩ := shape
      cases other : second.matrixShape? with
      | none =>
        simp only [matrix, other] at given
        cases given
      | some shape =>
        obtain ⟨targetFamily, width⟩ := shape
        simp only [matrix, other] at given ⊢
        cases spelled : second.spelling with
        | error failure =>
          rw [spelled] at given
          cases given
        | ok spelling =>
          simp only [spelled] at given ⊢
          have named := isName_spelling spelled
          by_cases shrinks : width ≤ count
          · rw [if_pos shrinks] at given ⊢
            obtain rfl := Except.ok.inj given
            have argument : Spells (.upTo 12) code.toList tree := spells.weaken (by decide)
            exact ⟨_, rfl, .inr ⟨apart, Spells.call named (.cons argument .nil) (by simp)⟩⟩
          · rw [if_neg shrinks] at given ⊢
            obtain rfl := Except.ok.inj given
            have some := DataType.pos_of_matrixShape? other
            exact ⟨_, rfl, .inr ⟨apart, spells.grown named some count⟩⟩

theorem Spells.convert {converted : String} {source target : DataType}
    (spells : Spells .sum code.toList tree) (single : tree.isNumber = true → source.width = 1)
    (given : convert code source target "0.0" = .ok converted) :
    ∃ result, tree.convert source target = .ok result ∧ Spells .sum converted.toList result := by
  obtain ⟨result, same, ⟨-, rfl, rfl⟩ | ⟨-, operand⟩⟩ := spells.convert_cases single given
  · exact ⟨result, same, spells⟩
  · exact ⟨result, same, operand.operand⟩

section Literals

theorem isUnsigned_cons {first : Char} {rest : List Char} (digit : first.isDigit = true)
    (numeric : ∀ c ∈ rest, c.isDigit = true ∨ c = '.') : isUnsigned (first :: rest) = true := by
  rw [isUnsigned, Bool.and_eq_true_iff]
  refine ⟨digit, List.all_eq_true.2 fun c member => ?_⟩
  have known : c.isDigit = true ∨ c = '.' := by
    rcases List.mem_cons.1 member with rfl | later
    · exact .inl digit
    · exact numeric c later
  rcases known with digit | rfl
  · simp [Text.isIdentifierChar, Char.isAlphanum, digit]
  · decide

theorem isDigit_or_point_of_positional {d : Decimal.Scaled} {c : Char}
    (member : c ∈ Decimal.positional d) : c.isDigit = true ∨ c = '.' := by
  have digit {c : Char} (member : c ∈ Decimal.digitText d.digits) : c.isDigit = true :=
    Decimal.isDigit_of_mem_digitText member
  have zero {n : Nat} {c : Char} (member : c ∈ List.replicate n '0') : c.isDigit = true := by
    rw [List.eq_of_mem_replicate member]
    decide
  unfold Decimal.positional at member
  dsimp only at member
  split at member
  · rcases List.mem_append.1 member with early | late
    · exact .inl (digit early)
    · exact .inl (zero late)
  · split at member
    · rcases List.mem_append.1 member with early | late
      · exact .inl (digit (List.mem_of_mem_take early))
      · rcases List.mem_cons.1 late with rfl | late
        · exact .inr rfl
        · exact .inl (digit (List.mem_of_mem_drop late))
    · rcases List.mem_cons.1 member with rfl | late
      · exact .inl (by decide)
      · rcases List.mem_cons.1 late with rfl | late
        · exact .inr rfl
        · rcases List.mem_append.1 late with early | late
          · exact .inl (zero early)
          · exact .inl (digit late)

theorem isUnsigned_positional (d : Decimal.Scaled) : isUnsigned (Decimal.positional d) = true := by
  obtain ⟨first, rest, shape, digit⟩ : ∃ first rest, Decimal.positional d = first :: rest ∧
      first.isDigit = true := by
    obtain ⟨first, rest, cut⟩ := List.exists_cons_of_ne_nil
      (show Decimal.digitText d.digits ≠ [] from Nat.toDigits_ne_nil)
    have begins : first.isDigit = true :=
      Decimal.isDigit_of_mem_digitText (by rw [cut]; exact List.mem_cons_self)
    unfold Decimal.positional
    dsimp only
    split
    · exact ⟨first, _, by rw [cut]; rfl, begins⟩
    · split
      · obtain ⟨place, more⟩ : ∃ place, (((Decimal.digitText d.digits).length : Int) +
            d.exponent).toNat = place + 1 := ⟨_, (Nat.succ_pred_eq_of_pos (by omega)).symm⟩
        exact ⟨first, _, by rw [more, cut]; rfl, begins⟩
      · exact ⟨'0', _, rfl, by decide⟩
  rw [shape]
  refine isUnsigned_cons digit fun c member => @isDigit_or_point_of_positional d c ?_
  rw [shape]
  exact List.mem_cons_of_mem _ member

theorem isUnsigned_withPoint {word : List Char} (numeric : isUnsigned word = true) :
    isUnsigned (Decimal.withPoint word) = true := by
  unfold Decimal.withPoint
  split
  · exact numeric
  · cases word with
    | nil => cases numeric
    | cons first rest =>
      obtain ⟨digit, all⟩ := Bool.and_eq_true_iff.1 numeric
      have ends : (['.', '0'].all fun c => Text.isIdentifierChar c || c == '.') = true := by decide
      rw [isUnsigned, List.all_append, all, ends]
      exact Bool.and_eq_true_iff.2 ⟨digit, rfl⟩

theorem withPoint_signed (negative : Bool) (word : List Char) :
    Decimal.withPoint (Decimal.signed negative word) =
      Decimal.signed negative (Decimal.withPoint word) := by
  cases negative with
  | false => rfl
  | true =>
    simp only [Decimal.signed, Decimal.withPoint, if_true, List.contains_cons]
    have other : ('.' == '-') = false := by decide
    rw [other, Bool.false_or]
    split <;> rfl

theorem isUnsigned_append {word suffix : List Char} (numeric : isUnsigned word = true)
    (letters : suffix.all Text.isIdentifierChar = true) : isUnsigned (word ++ suffix) = true := by
  cases word with
  | nil => cases numeric
  | cons first rest =>
    obtain ⟨digit, all⟩ := Bool.and_eq_true_iff.1 numeric
    have more : (suffix.all fun c => Text.isIdentifierChar c || c == '.') = true := by
      refine List.all_eq_true.2 fun c member => ?_
      rw [List.all_eq_true.1 letters c member, Bool.true_or]
    rw [isUnsigned, List.all_append, all, more]
    exact Bool.and_eq_true_iff.2 ⟨digit, rfl⟩

/-- A text has a tree, which is a number only where the type is that of a scalar. -/
def Legible (text : String) (type : DataType) : Prop :=
  ∃ tree, Spells .sum text.toList tree ∧ (tree.isNumber = true → type.width = 1)

/-- A text without operators outside of brackets, except for a sign in front of it. -/
def IsLiteral (text : String) (type : DataType) : Prop :=
  ∃ tree, Spells .signed text.toList tree ∧ (tree.isNumber = true → type.width = 1)

variable {text : String} {type : DataType}

theorem IsLiteral.legible (literal : IsLiteral text type) : Legible text type := by
  obtain ⟨tree, spells, number⟩ := literal
  exact ⟨tree, spells.weaken (by decide), number⟩

end Literals

end Glsl

end GlslMaterial
