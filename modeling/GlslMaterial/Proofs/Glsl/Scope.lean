import GlslMaterial.Glsl.Literal
import GlslMaterial.Text.Keyword
import GlslMaterial.Text.Lines

/-!
Scope in GLSL code: literals that refer to nothing, expressions over one variable, and the lines
that declare a variable.
-/

set_option autoImplicit false

namespace GlslMaterial

@[simp] theorem toString_string (text : String) : toString text = text := rfl

namespace Text

theorem exists_line_of_start {start text : List Char} (plain : '\n' ∉ start)
    (begins : start <+: text) : ∃ line ∈ lines text, start <+: line := by
  obtain ⟨rest, rfl⟩ := begins
  obtain ⟨line, others, cut⟩ := List.exists_cons_of_ne_nil (lines_ne_nil rest)
  rw [lines_append_of_notMem plain cut]
  exact ⟨start ++ line, List.mem_cons_self, List.prefix_append start line⟩

theorem mem_lines_block {parts : List String} {part : String} (member : part ∈ parts)
    {line : List Char} (inside : line ∈ lines part.toList) : line ∈ lines (block parts).toList := by
  rw [block, String.toList_intercalate]
  induction parts with
  | nil => simp at member
  | cons first parts ih =>
    cases parts with
    | nil =>
      obtain rfl : part = first := by simpa using member
      simpa using inside
    | cons second parts =>
      rw [List.map_cons, List.intercalate_cons_of_ne_nil (by simp)]
      have cut := lines_append_newline first.toList
        ("\n".toList.intercalate (List.map String.toList (second :: parts)))
      have same : first.toList ++ "\n".toList = first.toList ++ ['\n'] := rfl
      rw [same, List.append_assoc, List.singleton_append, cut]
      rcases List.mem_cons.1 member with rfl | later
      · exact List.mem_append_left _ inside
      · exact List.mem_append_right _ (ih later)

end Text

namespace Glsl

/-- Whether a text is a word of letters, digits and underscores. -/
def isIdentifier (text : String) : Bool :=
  !text.isEmpty && text.toList.all Text.isIdentifierChar

def isNumberChar (c : Char) : Bool :=
  c.isDigit || c == '.' || c == '-'

/-- Whether a text is made of digits, points and signs, so that it refers to nothing. -/
def isNumeral (text : String) : Bool :=
  !text.isEmpty && text.toList.all isNumberChar

/-- A constructor with numbers for all of its arguments. -/
def IsClosedLiteral (expr : String) : Prop :=
  ∃ type arguments, isIdentifier type = true ∧ (∀ a ∈ arguments, isNumeral a = true) ∧
    expr = call type arguments

/-- Expressions that refer to one variable only: the variable, a part of such an expression, and a
constructor of such an expression and of numbers. -/
inductive Over (name : String) : String → Prop
  | self : Over name name
  | part {expr field : String} (inner : Over name expr) (word : isIdentifier field = true) :
      Over name s!"{expr}.{field}"
  | built {expr type : String} {rest : List String} (inner : Over name expr)
      (word : isIdentifier type = true) (numbers : ∀ a ∈ rest, isNumeral a = true) :
      Over name (call type (expr :: rest))

/-- Whether a line of the code starts with the declaration of a variable and its value. -/
def Declares (code name : String) : Prop :=
  ∃ type, isIdentifier type = true ∧
    ∃ line ∈ Text.lines code.toList, s!"{type} {name} = ".toList <+: line

theorem notMem_of_isIdentifier {text : String} (word : isIdentifier text = true) {c : Char}
    (other : Text.isIdentifierChar c = false) : c ∉ text.toList := by
  intro member
  have all := (Bool.and_eq_true_iff.1 word).2
  have inside := List.all_eq_true.1 all c member
  simp [other] at inside

theorem Declares.of_start (type : String) {name code : String} (word : isIdentifier type = true)
    (named : isIdentifier name = true) (begins : s!"{type} {name} = ".toList <+: code.toList) :
    Declares code name := by
  have plain : '\n' ∉ s!"{type} {name} = ".toList := by
    have first := notMem_of_isIdentifier word (show Text.isIdentifierChar '\n' = false by decide)
    have second := notMem_of_isIdentifier named (show Text.isIdentifierChar '\n' = false by decide)
    simp [String.toList_append, first, second]
  obtain ⟨line, member, starts⟩ := Text.exists_line_of_start plain begins
  exact ⟨type, word, line, member, starts⟩

theorem Declares.of_block {parts : List String} {part name : String} (member : part ∈ parts)
    (declares : Declares part name) : Declares (Text.block parts) name := by
  obtain ⟨type, word, line, inside, starts⟩ := declares
  exact ⟨type, word, line, Text.mem_lines_block member inside, starts⟩

theorem isIdentifier_numbered {stem : String} (word : isIdentifier stem = true) (n : Nat) :
    isIdentifier s!"{stem}{n}" = true := by
  obtain ⟨some, all⟩ := Bool.and_eq_true_iff.1 word
  have digits : ∀ c ∈ (toString n).toList, Text.isIdentifierChar c = true := by
    intro c member
    have digit : c.isDigit = true := by
      apply Nat.isDigit_of_mem_toDigits (b := 10) (n := n) (by decide) (by decide)
      simpa [Nat.repr] using member
    simp [Text.isIdentifierChar, Char.isAlphanum, digit]
  apply Bool.and_eq_true_iff.2
  constructor
  · have filled : stem ≠ "" := by simpa using some
    simp [filled]
  · simp only [toString_string, String.toList_append, List.all_append, all, Bool.true_and]
    exact List.all_eq_true.2 digits

theorem isNumberChar_digitText (n : Nat) : (Decimal.digitText n).all isNumberChar = true := by
  apply List.all_eq_true.2
  intro c member
  have digit : c.isDigit = true := Nat.isDigit_of_mem_toDigits (by decide) (by decide) member
  simp [isNumberChar, digit]

theorem isNumberChar_positional (d : Decimal.Scaled) :
    (Decimal.positional d).all isNumberChar = true := by
  have digits := isNumberChar_digitText d.digits
  have point : isNumberChar '.' = true := by decide
  have zero : isNumberChar '0' = true := by decide
  unfold Decimal.positional
  simp only
  split
  · simp [List.all_append, digits, zero]
  · split
    · generalize (_ : Int).toNat = count
      have halves : ((Decimal.digitText d.digits).take count).all isNumberChar = true ∧
          ((Decimal.digitText d.digits).drop count).all isNumberChar = true := by
        rw [← Bool.and_eq_true_iff, ← List.all_append, List.take_append_drop, digits]
      simp [List.all_append, halves, point]
    · simp [List.all_append, digits, point, zero]

theorem isNumberChar_signed (negative : Bool) {text : List Char}
    (number : text.all isNumberChar = true) :
    (Decimal.signed negative text).all isNumberChar = true := by
  have sign : isNumberChar '-' = true := by decide
  unfold Decimal.signed
  split <;> simp [number, sign]

theorem isNumberChar_withPoint {text : List Char} (number : text.all isNumberChar = true) :
    Decimal.withPoint text ≠ [] ∧ (Decimal.withPoint text).all isNumberChar = true := by
  unfold Decimal.withPoint
  split
  · rename_i point
    refine ⟨fun empty => ?_, number⟩
    simp [empty] at point
  · refine ⟨by simp, ?_⟩
    rw [List.all_append, number]
    decide

theorem isNumberChar_floatText (number : Bool × Decimal.Magnitude) :
    floatText number ≠ [] ∧ (floatText number).all isNumberChar = true := by
  rcases number with ⟨negative, magnitude⟩
  cases magnitude with
  | infinite | undefined => exact ⟨by simp [floatText], by simp [floatText]; decide⟩
  | zero => exact isNumberChar_withPoint (isNumberChar_signed negative (by decide))
  | finite b =>
    exact isNumberChar_withPoint (isNumberChar_signed negative (isNumberChar_positional _))

theorem isNumeral_float32 (x : Float32) : isNumeral (float32 x) = true := by
  simp [isNumeral, float32, isNumberChar_floatText]

theorem isNumeral_float64 (x : Float) : isNumeral (float64 x) = true := by
  simp [isNumeral, float64, isNumberChar_floatText]

theorem isClosedLiteral_mat4 (m : Mat4) : IsClosedLiteral (mat4 m) := by
  refine ⟨"mat4", m.toList.map float32, by decide, ?_, rfl⟩
  intro a member
  obtain ⟨x, -, rfl⟩ := List.mem_map.1 member
  exact isNumeral_float32 x

end Glsl

end GlslMaterial
