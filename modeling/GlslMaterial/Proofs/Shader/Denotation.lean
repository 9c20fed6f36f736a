import GlslMaterial.Proofs.Glsl.Spelling
import GlslMaterial.Proofs.Shader.Value

/-!
The value that a text denotes: the value of the tree that it spells. Atoms, parts, items and calls
that are put together as text denote what they say.
-/

set_option autoImplicit false

namespace GlslMaterial.Shader

open Glsl (Level Spells isName isUnsigned parse)
open Text (isIdentifierChar)

/-- The digits of a number are a decimal. -/
theorem literal?_nat (n : Nat) : literal? (toString n).toList = some (.int, (n : ℚ)) := by
  have digits : ∀ c ∈ (toString n).toList, c.isDigit = true := fun _ => isDigit_of_mem_repr
  have point : (toString n).toList.contains '.' = false := by
    refine Bool.eq_false_iff.2 fun member => ?_
    have digit := digits '.' (List.contains_iff_mem.1 member)
    exact absurd digit (by decide)
  have value : Nat.ofDigitChars 10 (toString n).toList 0 = n := by
    simp [Nat.ofDigitChars_toDigits]
  rw [literal?, decimal?_digits digits, point, value]
  rfl

/-- A text is an expression of some level with some value. -/
def Denotes (m : Meaning) (level : Level) (code : String) (value : Value) : Prop :=
  ∃ tree, Spells level code.toList tree ∧ evaluate m tree = .ok value

namespace Denotes

variable {m : Meaning} {code : String} {value : Value}

theorem atom {strength : Nat} (denotes : Denotes m (.upTo strength) code value) :
    Denotes m .operand (Glsl.atom code) value := by
  obtain ⟨tree, spells, valued⟩ := denotes
  exact ⟨tree, spells.atom, valued⟩

theorem upTo (denotes : Denotes m .operand code value) (strength : Nat) :
    Denotes m (.upTo strength) code value := by
  obtain ⟨tree, spells, valued⟩ := denotes
  exact ⟨tree, spells.operand, valued⟩

theorem weaken {strong weak : Nat} (denotes : Denotes m (.upTo strong) code value)
    (le : strong ≤ weak) :
    Denotes m (.upTo weak) code value := by
  obtain ⟨tree, spells, valued⟩ := denotes
  exact ⟨tree, spells.weaken le, valued⟩

theorem exists_parse (denotes : Denotes m (.upTo 13) code value) :
    ∃ tree, parse code = some tree ∧ evaluate m tree = .ok value := by
  obtain ⟨tree, spells, valued⟩ := denotes
  exact ⟨tree, spells.parse_eq, valued⟩

theorem part {family : Family} {components picked : List ℚ} {letters : String}
    (denotes : Denotes m .operand code (.vector family components))
    (several : 2 ≤ components.length)
    (named : isName letters.toList = true)
    (picks : letters.toList.mapM (component? components) = some picked) :
    Denotes m .operand s!"{code}.{letters}" (.vector family picked) := by
  obtain ⟨tree, spells, valued⟩ := denotes
  have other : tree.isNumber = false := by
    cases tree with
    | number text =>
      rw [evaluate] at valued
      split at valued
      · injection valued with same
        injection same with _ single
        rw [← single] at several
        simp at several
      · cases valued
    | _ => rfl
  have foreign : m.memberOf tree letters = none := by
    cases tree with
    | name text =>
      rw [evaluate] at valued
      cases found : m.named text with
      | none => simp [found] at valued
      | some value => simp [Meaning.memberOf, found]
    | _ => rfl
  refine ⟨_, spells.part other named, ?_⟩
  rw [evaluate, foreign, valued]
  simp [bind, Except.bind, Value.select, picks]

theorem literal {family : Family} {x : ℚ} (numeric : isUnsigned code.toList = true)
    (is : literal? code.toList = some (family, x)) :
    Denotes m .operand code (.scalar family x) := by
  refine ⟨_, .unsigned numeric, ?_⟩
  rw [evaluate, is]
  rfl

/-- The value of a number in decimal notation. -/
theorem nat (m : Meaning) (n : Nat) : Denotes m .operand (toString n) (.scalar .int n) :=
  literal (Glsl.isUnsigned_nat n) (literal?_nat n)

theorem zero (m : Meaning) : Denotes m .operand "0.0" (.scalar .float 0) :=
  literal (by decide) (by decide +kernel)

theorem one (m : Meaning) : Denotes m .operand "1.0" (.scalar .float 1) :=
  literal (by decide) (by decide +kernel)

theorem item {item : Value} {place : Nat} (denotes : Denotes m .operand code value)
    (found : value.item place = .ok item) : Denotes m .operand s!"{code}[{place}]" item := by
  obtain ⟨tree, spells, valued⟩ := denotes
  obtain ⟨inside, at_, placed⟩ := nat m place
  refine ⟨_, spells.item at_.operand, ?_⟩
  rw [evaluate, valued, placed]
  simpa [bind, Except.bind, Value.place] using found

theorem exists_trees {level : Level} {texts : List String} {values : List Value}
    (all : List.Forall₂ (Denotes m level) texts values) : ∃ trees,
      List.Forall₂ (fun text tree => Spells level text.toList tree) texts trees ∧
        List.Forall₂ (fun tree value => evaluate m tree = .ok value) trees values := by
  induction all with
  | nil => exact ⟨[], .nil, .nil⟩
  | cons one _ ih =>
    obtain ⟨tree, spells, valued⟩ := one
    obtain ⟨trees, all, rest⟩ := ih
    exact ⟨tree :: trees, .cons spells all, .cons valued rest⟩

theorem call {function : String} {texts : List String} {values : List Value}
    {make : List Value → Except Fault Value} (named : isName function.toList = true)
    (filled : texts ≠ []) (all : List.Forall₂ (Denotes m (.upTo 12)) texts values)
    (makes : constructor? function = some make) (made : make values = .ok value) :
    Denotes m .operand (Glsl.call function texts) value := by
  obtain ⟨trees, spells, valued⟩ := exists_trees all
  refine ⟨_, .call named spells filled, ?_⟩
  rw [evaluate_call_of_forall₂ valued, Meaning.call, makes]
  exact made

end Denotes

end GlslMaterial.Shader
