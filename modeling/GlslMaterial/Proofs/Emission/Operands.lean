import GlslMaterial.Emission.Value
import GlslMaterial.Proofs.Glsl.Expressive

/-!
Verbs and lookups make expressions of expressions: whatever class the operands of a verb belong to,
its result belongs to it.
-/

set_option autoImplicit false

namespace GlslMaterial.Glsl.Expressive

open Emission

variable {p : String → Prop}

variable {text : String} {e : Running}

theorem convertSymbol (expressive : Expressive p) {symbol : Symbol} (inside : p symbol.expr)
    {type : DataType} (given : Material.convertSymbol symbol type = .ok text) : p text :=
  expressive.convert inside (expressive.small (by decide)) given

theorem applyOperator (expressive : Expressive p) {operator right : String}
    (known : s!" {operator} " ∈ signs) (left : p e.code) (inside : p right)
    (product : Bool) : p (applyOperator operator product e right).code := by
  have operand : p (leftOperand e product) := by
    unfold leftOperand
    split
    · exact left
    · exact expressive.atom left
  have same : (Emission.applyOperator operator product e right).code =
      leftOperand e product ++ s!" {operator} " ++ right := by
    simp [Emission.applyOperator, toString_string, String.append_assoc]
  rw [same]
  exact expressive.operator known operand inside

theorem align (expressive : Expressive p) {e : Expression} (inside : p e.code) {type : DataType}
    (aligned : align e type = .ok text) : p text := by
  unfold Emission.align at aligned
  split at aligned
  · exact Except.ok.inj aligned ▸ expressive.atom inside
  · cases converted : Glsl.convert e.code e.type type "0.0" with
    | error failure => simp [converted, Except.map] at aligned
    | ok code =>
      rw [converted] at aligned
      rw [← Except.ok.inj aligned]
      exact expressive.atom (expressive.convert inside (expressive.small (by decide)) converted)

theorem powerOperand (expressive : Expressive p) {right : Expression}
    (inside : p right.code) (given : powerOperand e right = .ok text) : p text := by
  unfold Emission.powerOperand at given
  split at given
  · obtain ⟨spelling, spelled, given⟩ := eq_ok_of_bind given
    rw [← Except.ok.inj given]
    exact expressive.call (expressive.spelling spelled) (by simpa using inside)
  · exact expressive.align inside given

theorem isSmall_of_isSwizzle {width : Nat} {letters : List Char}
    (swizzle : isSwizzle width letters = true) : letters.all isSmall = true := by
  simp only [isSwizzle, Bool.and_eq_true, Bool.or_eq_true] at swizzle
  apply List.all_eq_true.2
  intro c member
  rcases swizzle.1.2 with place | colour
  · have known := List.all_eq_true.1 place c member
    simp only [List.contains_eq_mem, decide_eq_true_eq] at known
    simp only [List.mem_cons, List.not_mem_nil, or_false] at known
    rcases known with rfl | rfl | rfl | rfl <;> rfl
  · have known := List.all_eq_true.1 colour c member
    simp only [List.contains_eq_mem, decide_eq_true_eq] at known
    simp only [List.mem_cons, List.not_mem_nil, or_false] at known
    rcases known with rfl | rfl | rfl | rfl <;> rfl

theorem select (expressive : Expressive p) {result : Running} (inside : p e.code)
    {value : Option Json} (selected : select e value = .ok result) : p result.code := by
  unfold Emission.select at selected
  dsimp only at selected
  split at selected
  · split at selected
    · rename_i swizzle
      have letters := isSmall_of_isSwizzle (Bool.and_eq_true_iff.1 swizzle).2
      split at selected
      · rw [← Except.ok.inj selected]
        exact expressive.part (expressive.atom inside) letters
      · cases selected
    · cases selected
  · cases selected

theorem project (expressive : Expressive p) {result : Running} {matrix : Expression}
    (inside : p e.code) (given : p matrix.code) (projected : project e matrix = .ok result) :
    p result.code := by
  unfold Emission.project at projected
  split at projected
  · obtain ⟨vector, converted, projected⟩ := eq_ok_of_bind projected
    have text := expressive.convert inside (expressive.small (by decide)) converted
    have product : p (Glsl.atom matrix.code ++ " * " ++ vector) :=
      expressive.operator (by decide) (expressive.atom given) text
    have same : s!"({Glsl.atom matrix.code} * {vector})" =
        "(" ++ (Glsl.atom matrix.code ++ " * " ++ vector) ++ ")" := by
      simp [toString_string, String.append_assoc]
    have whole := expressive.enclosed product
    rw [← Except.ok.inj projected]
    exact same ▸ whole
  · cases projected

theorem noisePoint (expressive : Expressive p) (inside : p e.code)
    {dimensions : Nat} {point : String} (given : noisePoint e = .ok (dimensions, point)) :
    p point := by
  unfold Emission.noisePoint at given
  split at given
  · obtain ⟨-, rfl⟩ := Prod.mk.inj (Except.ok.inj given)
    have same : s!"vec2({e.code}, 0.0)" = Glsl.call "vec2" [e.code, "0.0"] := by
      apply String.toList_inj.1
      simp [Glsl.call, toString_string]
    rw [same]
    have zero : p "0.0" := expressive.small (by decide)
    exact expressive.call (expressive.small (by decide)) (by simp [inside, zero])
  · obtain ⟨-, rfl⟩ := Prod.mk.inj (Except.ok.inj given)
    exact inside
  · obtain ⟨-, rfl⟩ := Prod.mk.inj (Except.ok.inj given)
    exact inside
  · obtain ⟨-, rfl⟩ := Prod.mk.inj (Except.ok.inj given)
    have same : s!"{Glsl.atom e.code}.xyz" = Glsl.atom e.code ++ "." ++ "xyz" := by
      simp [toString_string, String.append_assoc]
    have part : p (Glsl.atom e.code ++ "." ++ "xyz") :=
      expressive.part (expressive.atom inside) (by decide)
    exact same ▸ part
  · cases given

theorem seeded (expressive : Expressive p) {point : String} (placed : p point)
    (seed : Option Expression) :
    (∀ e, seed = some e → p e.code) →
      p (match seed with
        | some seed => s!"{point} + {Glsl.atom seed.code}"
        | none => point) := by
  intro given
  cases seed with
  | none => exact placed
  | some seed => exact expressive.operator (by decide) placed (expressive.atom (given seed rfl))

end GlslMaterial.Glsl.Expressive
