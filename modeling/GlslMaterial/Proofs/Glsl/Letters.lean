import GlslMaterial.Proofs.Glsl.Expressive
import GlslMaterial.Proofs.Text.Words

/-!
The characters of GLSL code: expressions have no newline, no underscore and no number sign, so that
no directive and no name of the pipeline can be part of them.
-/

set_option autoImplicit false

namespace GlslMaterial

namespace Text

/-- Whether all characters of a text satisfy a condition. -/
def madeOf (p : Char → Bool) (text : String) : Bool :=
  text.toList.all p

variable {p q : Char → Bool}

theorem madeOf_append (p : Char → Bool) (first second : String) :
    madeOf p (first ++ second) = (madeOf p first && madeOf p second) := by
  simp [madeOf]

theorem madeOf_ofList (p : Char → Bool) (text : List Char) :
    madeOf p (String.ofList text) = text.all p := by
  simp [madeOf]

theorem madeOf_intercalate {between : String} (plain : madeOf p between = true)
    (parts : List String) : madeOf p (between.intercalate parts) = parts.all (madeOf p) := by
  rw [madeOf, String.toList_intercalate]
  induction parts with
  | nil => rfl
  | cons first parts ih =>
    cases parts with
    | nil => simp [madeOf]
    | cons second parts =>
      have between_all : between.toList.all p = true := plain
      rw [List.map_cons, List.intercalate_cons_of_ne_nil (by simp), List.all_append,
        List.all_append, ih, between_all, Bool.and_true, List.all_cons]
      rfl

theorem madeOf_block (newline : p '\n' = true) (parts : List String) :
    madeOf p (block parts) = parts.all (madeOf p) :=
  madeOf_intercalate (by simp [madeOf, newline]) parts

theorem madeOf_mono (implies : ∀ c, p c = true → q c = true) {text : String}
    (made : madeOf p text = true) : madeOf q text = true :=
  List.all_eq_true.2 fun c member => implies c (List.all_eq_true.1 made c member)

theorem notMem_of_madeOf {text : String} (made : madeOf p text = true) {c : Char}
    (other : p c = false) : c ∉ text.toList := by
  intro member
  have inside := List.all_eq_true.1 made c member
  simp [other] at inside

end Text

namespace Glsl

open Text (madeOf madeOf_append madeOf_ofList madeOf_intercalate madeOf_block madeOf_mono)

/-- Characters of the names of inputs and outputs. -/
def isSymbolChar (c : Char) : Bool :=
  c.isAlphanum || c == '.'

/-- Characters of expressions. -/
def isInline (c : Char) : Bool :=
  c != '#' && c != '_' && c != '\n'

/-- Characters of code that has neither directives nor names of the pipeline. -/
def isOrdinary (c : Char) : Bool :=
  c != '#' && c != '_'

/-- Characters of code that has no directives. -/
def isUnmarked (c : Char) : Bool :=
  c != '#'

theorem isInline_of {p : Char → Bool} (without : p '#' = false ∧ p '_' = false ∧ p '\n' = false)
    {c : Char} (holds : p c = true) : isInline c = true := by
  obtain ⟨mark, underscore, newline⟩ := without
  have apart {other : Char} (fails : p other = false) : c ≠ other := by
    rintro rfl
    exact absurd holds (by simp [fails])
  simp [isInline, apart mark, apart underscore, apart newline]

/-- A condition that all characters of expressions satisfy. -/
def Admits (p : Char → Bool) : Prop :=
  ∀ c, isInline c = true → p c = true

theorem admits_inline : Admits isInline :=
  fun _ inline => inline

theorem admits_ordinary : Admits isOrdinary := by
  intro c inline
  simp only [isInline, Bool.and_eq_true] at inline
  simp [isOrdinary, inline]

theorem isUnmarked_of_isOrdinary {c : Char} (ordinary : isOrdinary c = true) :
    isUnmarked c = true := by
  simp only [isOrdinary, Bool.and_eq_true] at ordinary
  exact ordinary.1

theorem admits_unmarked : Admits isUnmarked :=
  fun c inline => isUnmarked_of_isOrdinary (admits_ordinary c inline)

variable {p : Char → Bool}

theorem Admits.madeOf (admits : Admits p) {text : String} (inline : madeOf isInline text = true) :
    Text.madeOf p text = true :=
  madeOf_mono admits inline

theorem Admits.numeral (admits : Admits p) {text : String} (number : isNumeral text = true) :
    Text.madeOf p text = true :=
  madeOf_mono (fun c given => admits c (isInline_of (by decide) given))
    (Bool.and_eq_true_iff.1 number).2

theorem Admits.float32 (admits : Admits p) (x : Float32) : Text.madeOf p (float32 x) = true :=
  admits.numeral (isNumeral_float32 x)

theorem Admits.float64 (admits : Admits p) (x : Float) : Text.madeOf p (float64 x) = true :=
  admits.numeral (isNumeral_float64 x)

theorem Admits.nat (admits : Admits p) (n : Nat) : Text.madeOf p (toString n) = true := by
  apply List.all_eq_true.2
  intro c member
  have digit : c.isDigit = true := by
    apply Nat.isDigit_of_mem_toDigits (b := 10) (n := n) (by decide) (by decide)
    simpa [Nat.repr] using member
  exact admits c (isInline_of (p := isNumberChar) (by decide) (by simp [isNumberChar, digit]))

theorem Admits.call (admits : Admits p) (function : String) (arguments : List String) :
    Text.madeOf p (call function arguments) =
      (Text.madeOf p function && arguments.all (Text.madeOf p)) := by
  have left : Text.madeOf p "(" = true := admits.madeOf (by decide)
  have right : Text.madeOf p ")" = true := admits.madeOf (by decide)
  have comma : Text.madeOf p ", " = true := admits.madeOf (by decide)
  simp only [Glsl.call, toString_string, madeOf_append, left, right, Bool.and_true,
    madeOf_intercalate comma]

theorem expressive_inline : Expressive fun text => madeOf isInline text = true := by
  have small {text : String} (plain : text.toList.all isSmall = true) :
      madeOf isInline text = true :=
    madeOf_mono (fun _ => isInline_of (by decide)) plain
  constructor
  · exact small
  · intro type spelling spelled
    unfold DataType.spelling at spelled
    cases type <;> simp [DataType.glsl?] at spelled <;> subst spelled <;> decide
  · intro code inside
    simp only [toString_string, madeOf_append, inside]
    rfl
  · intro function arguments word each
    rw [admits_inline.call, word, List.all_eq_true.2 each]
    rfl
  · intro code field inside plain
    simp only [toString_string, madeOf_append, inside, small plain]
    rfl
  · intro code i inside
    simp only [toString_string, madeOf_append, admits_inline.nat, inside]
    rfl
  · intro sign left right known first second
    have all : signs.all (madeOf isInline) = true := by decide
    rw [madeOf_append, madeOf_append, first, second, List.all_eq_true.1 all sign known]
    rfl

end Glsl

end GlslMaterial
