import GlslMaterial.Glsl.Value
import GlslMaterial.Proofs.Decimal.Whole
import GlslMaterial.Proofs.Glsl.Scope
import GlslMaterial.Proofs.Interface.Names
import GlslMaterial.Proofs.Text.Lines

/-!
Integers of descriptors in shader code. An `int` and a `uint` have 32 bits, but counts are let
through as long as they have 32 bits without a sign, and literals as long as they have 64. Main
statement: for which numbers of the descriptor the integers that are written fit.
-/

set_option autoImplicit false

namespace GlslMaterial

/-- The values of an `int`. -/
def IsSigned (v : Int) : Prop :=
  -2147483648 ≤ v ∧ v ≤ 2147483647

/-- The values of a `uint`. -/
def IsUnsigned (v : Int) : Prop :=
  0 ≤ v ∧ v ≤ 4294967295

/-- A number is less than a rational. -/
def IsBelow (x : Float) (bound : ℚ) : Prop :=
  Decimal.extended x < (bound : WithTop ℚ)

/-- A number is more than a rational. -/
def IsAbove (x : Float) (bound : ℚ) : Prop :=
  ((bound : WithTop ℚ) : WithBot (WithTop ℚ)) < Decimal.extended x

theorem isBelow_iff_of_natural? {x : Float} {n : Nat} (found : Decimal.natural? x = some n)
    (bound : Nat) : IsBelow x bound ↔ n < bound := by
  rw [IsBelow, Decimal.extended_of_natural? found, WithBot.coe_lt_coe, WithTop.coe_lt_coe,
    Nat.cast_lt]

namespace Raymarch

theorem positive_eq {c : Construct} {id : TraitId} {absent x : Float}
    (given : positive c id absent = .ok x) : x = (c.traitFloat? id).getD absent := by
  unfold positive at given
  split at given
  · rename_i none
    rw [none]
    exact (Except.ok.inj given).symm
  · rename_i y some
    split at given
    · rw [some]
      exact (Except.ok.inj given).symm
    · cases given

theorem natural?_of_ofConstruct {c : Construct} {r : Raymarch} (built : ofConstruct c = .ok r) :
    Decimal.natural? ((c.traitFloat? .count).getD 128) = some r.iterations ∧
      r.iterations ≤ 4294967295 := by
  obtain ⟨count, counted, built⟩ := eq_ok_of_bind built
  obtain ⟨iterations, whole, built⟩ := eq_ok_of_bind built
  iterate 5 obtain ⟨_, -, built⟩ := eq_ok_of_bind built
  obtain rfl := Except.ok.inj built
  rw [← positive_eq counted]
  unfold iterationsOf at whole
  split at whole
  · rename_i n found
    split at whole
    · rename_i small
      obtain rfl := Except.ok.inj whole
      exact ⟨found, Nat.le_of_lt_succ small⟩
    · cases whole
  · cases whole

theorem loop_mem_lines (r : Raymarch) (name distance : String) :
    s!"    for (int i = 0; i < {r.iterations}; i++) \x7b".toList ∈
      Text.lines (r.marchFunction name distance).toList := by
  let loop := s!"    for (int i = 0; i < {r.iterations}; i++) \x7b"
  have newline : '\n' ∉ loop.toList := by
    have digits : '\n' ∉ (toString r.iterations).toList := fun member =>
      absurd (isDigit_of_mem_repr member) (by decide)
    simpa [loop] using digits
  have inside : loop.toList ∈ Text.lines loop.toList := by
    rw [Text.lines_of_notMem newline]
    exact List.mem_singleton_self _
  exact Text.mem_lines_block (by simp [loop]) inside

end Raymarch

namespace Fractal

theorem natural?_of_ofConstruct {c : Construct} {f : Fractal} (built : ofConstruct c = .ok f) :
    Decimal.natural? ((c.traitFloat? .count).getD 4) = some f.octaves ∧
      f.octaves ≤ 4294967295 := by
  obtain ⟨octaves, counted, built⟩ := eq_ok_of_bind built
  obtain ⟨_, -, built⟩ := eq_ok_of_bind built
  obtain ⟨_, -, built⟩ := eq_ok_of_bind built
  obtain rfl := Except.ok.inj built
  simp only [octavesOf] at counted
  split at counted
  · rename_i n found
    split at counted
    · rename_i small
      obtain rfl := Except.ok.inj counted
      simp only [Bool.and_eq_true, decide_eq_true_eq] at small
      exact ⟨found, Nat.le_of_lt_succ small.2⟩
    · cases counted
  · cases counted

end Fractal

namespace Glsl

theorem exists_number_of_ofJson {value : Json} {type : DataType} {literal : Expression}
    (integer : type = .int ∨ type = .uint) (made : ofJson value (some type) = .ok literal)
    (typed : literal.type = type) :
    ∃ n : Json.Number, value = .number n ∧ ofNumber n.toFloat type = .ok literal.code := by
  cases value with
  | bool b =>
    obtain rfl := Except.ok.inj made
    rcases integer with rfl | rfl <;> cases typed
  | number n =>
    obtain ⟨code, written, made⟩ := eq_ok_of_bind made
    obtain rfl := Except.ok.inj made
    exact ⟨n, rfl, written⟩
  | array items =>
    obtain ⟨values, -, made⟩ := eq_ok_of_bind made
    obtain ⟨decayed, decays, made⟩ := eq_ok_of_bind made
    obtain ⟨code, -, made⟩ := eq_ok_of_bind made
    obtain rfl := Except.ok.inj made
    obtain rfl : decayed = type := typed
    rcases integer with rfl | rfl <;> cases decays
  | _ => cases made

theorem isSigned_ofNumber {x : Float} {code : String} (made : ofNumber x .int = .ok code) :
    ∃ v : Int, code = toString v ∧
      (IsSigned v ↔ IsAbove x (-2147483649) ∧ IsBelow x 2147483648) := by
  refine ⟨_, (Except.ok.inj made).symm, and_congr ?_ ?_⟩
  · rw [Decimal.le_truncate_iff (by decide) (by decide) (by decide)]
    norm_num [IsAbove]
  · rw [Decimal.truncate_le_iff (by decide) (by decide) (by decide)]
    norm_num [IsBelow]

theorem isUnsigned_ofNumber {x : Float} {code : String} (made : ofNumber x .uint = .ok code) :
    ∃ v : Int, code = s!"{v}u" ∧ (IsUnsigned v ↔ IsBelow x 4294967296) := by
  refine ⟨_, (Except.ok.inj made).symm, ?_⟩
  rw [IsUnsigned, and_iff_right (Decimal.least_le_truncate (by decide) (by decide) x),
    Decimal.truncate_le_iff (by decide) (by decide) (by decide)]
  norm_num [IsBelow]

end Glsl

/-- The integers that are written for a raymarch, for a literal and for a fractal, and when they
fit: the limit of a loop and the exponents of the octaves fit where the count is below 2^31, and a
literal where the number is not as much as one outside of the range of its type. -/
theorem written_integers_fit_iff (c : Construct) (value : Json) (literal : Expression) :
    (∀ r, Raymarch.ofConstruct c = .ok r →
      r.iterations ≤ 4294967295 ∧
      (∀ name distance, s!"    for (int i = 0; i < {r.iterations}; i++) \x7b".toList ∈
        Text.lines (r.marchFunction name distance).toList) ∧
      (IsSigned r.iterations ↔ IsBelow ((c.traitFloat? .count).getD 128) 2147483648)) ∧
    (Glsl.ofJson value (some .int) = .ok literal → literal.type = .int →
      ∃ (n : Json.Number) (v : Int), value = .number n ∧ literal.code = toString v ∧
        (IsSigned v ↔ IsAbove n.toFloat (-2147483649) ∧ IsBelow n.toFloat 2147483648)) ∧
    (Glsl.ofJson value (some .uint) = .ok literal → literal.type = .uint →
      ∃ (n : Json.Number) (v : Int), value = .number n ∧ literal.code = s!"{v}u" ∧
        (IsUnsigned v ↔ IsBelow n.toFloat 4294967296)) ∧
    (∀ f, Fractal.ofConstruct c = .ok f →
      f.octaves ≤ 4294967295 ∧
      f.weights = (List.range f.octaves).map (fun i => Fractal.power f.base (i + 1)) ∧
      ((∀ i < f.octaves, IsSigned (i + 1 : Nat)) ↔
        IsBelow ((c.traitFloat? .count).getD 4) 2147483648)) := by
  refine ⟨fun r built => ?_, fun made typed => ?_, fun made typed => ?_, fun f built => ?_⟩
  · obtain ⟨count, small⟩ := Raymarch.natural?_of_ofConstruct built
    refine ⟨small, r.loop_mem_lines, ?_⟩
    rw [show (2147483648 : ℚ) = (2147483648 : Nat) by norm_num, isBelow_iff_of_natural? count,
      IsSigned]
    omega
  · obtain ⟨n, rfl, written⟩ := Glsl.exists_number_of_ofJson (.inl rfl) made typed
    obtain ⟨v, code, fits⟩ := Glsl.isSigned_ofNumber written
    exact ⟨n, v, rfl, code, fits⟩
  · obtain ⟨n, rfl, written⟩ := Glsl.exists_number_of_ofJson (.inr rfl) made typed
    obtain ⟨v, code, fits⟩ := Glsl.isUnsigned_ofNumber written
    exact ⟨n, v, rfl, code, fits⟩
  · obtain ⟨count, small⟩ := Fractal.natural?_of_ofConstruct built
    refine ⟨small, rfl, ?_⟩
    rw [show (2147483648 : ℚ) = (2147483648 : Nat) by norm_num, isBelow_iff_of_natural? count]
    constructor
    · intro fits
      by_contra large
      obtain ⟨-, most⟩ := fits 2147483647 (by omega)
      omega
    · intro less i inside
      rw [IsSigned]
      omega

/-- A node with a count. -/
def counting (kind : Kind) (count : Int) : Construct :=
  { Construct.bare kind with traits := [⟨.count, none, some (.number (.int count))⟩] }

theorem exists_result_of_any {α : Type} {result : Except Failure α} {holds : α → Bool}
    (computed : result.toOption.any holds = true) : ∃ a, result = .ok a ∧ holds a = true := by
  cases result with
  | error failure => cases computed
  | ok a => exact ⟨a, rfl, computed⟩

/-- The greatest count and the greatest literal that fit. -/
theorem written_integers_fit_at_most :
    (∃ r, Raymarch.ofConstruct (counting .raymarch 2147483647) = .ok r ∧ IsSigned r.iterations) ∧
    (∃ v : Int, Glsl.ofJson (.number (.int 2147483647)) (some .int) = .ok ⟨toString v, .int⟩ ∧
      IsSigned v) := by
  constructor
  · have count : Decimal.natural? (((counting .raymarch 2147483647).traitFloat? .count).getD 128) =
        some 2147483647 := by decide +kernel
    obtain ⟨r, built, -⟩ := exists_result_of_any
      (show (Raymarch.ofConstruct (counting .raymarch 2147483647)).toOption.any (fun _ => true) =
        true
        by decide +kernel)
    have below := (isBelow_iff_of_natural? count 2147483648).2 (by decide)
    exact ⟨r, built, ((written_integers_fit_iff _ .null ⟨"", .int⟩).1 r built).2.2.2
      (by exact_mod_cast below)⟩
  · obtain ⟨literal, made, typed⟩ := exists_result_of_any
      (show (Glsl.ofJson (.number (.int 2147483647)) (some .int)).toOption.any
        (fun literal => literal.type = .int) = true by decide +kernel)
    have typed := of_decide_eq_true typed
    obtain ⟨n, v, same, code, fits⟩ :=
      (written_integers_fit_iff (Construct.bare .fbm) _ literal).2.1 made typed
    obtain rfl := Json.number.inj same
    have count : Decimal.natural? (Json.Number.int 2147483647).toFloat = some 2147483647 := by
      decide +kernel
    have below := (isBelow_iff_of_natural? count 2147483648).2 (by decide)
    have above : IsAbove (Json.Number.int 2147483647).toFloat (-2147483649) := by
      rw [IsAbove, Decimal.extended_of_natural? count, WithBot.coe_lt_coe, WithTop.coe_lt_coe]
      norm_num
    refine ⟨v, ?_, fits.2 ⟨above, by exact_mod_cast below⟩⟩
    rw [made, ← code, ← typed]

/-- Counts with 32 bits and literals with more are written as they are. -/
theorem written_integers_not_fit :
    (∃ r, Raymarch.ofConstruct (counting .raymarch 4294967295) = .ok r ∧ ¬ IsSigned r.iterations) ∧
    (∃ v : Int, Glsl.ofJson (.number (.int 4294967296)) (some .int) = .ok ⟨toString v, .int⟩ ∧
      ¬ IsSigned v) ∧
    (∃ v : Int, Glsl.ofJson (.number (.int 4294967296)) (some .uint) = .ok ⟨s!"{v}u", .uint⟩ ∧
      ¬ IsUnsigned v) ∧
    (∃ f, Fractal.ofConstruct (counting .fbm 2147483648) = .ok f ∧
      ∃ i < f.octaves, ¬ IsSigned (i + 1 : Nat)) := by
  have signed : Decimal.truncate Int64.minValue.toInt Int64.maxValue.toInt
      (Json.Number.int 4294967296).toFloat = 4294967296 := by decide +kernel
  have unsigned : Decimal.truncate 0 (UInt64.size - 1) (Json.Number.int 4294967296).toFloat =
      4294967296 := by decide +kernel
  obtain ⟨r, built, iterations⟩ := exists_result_of_any
    (show (Raymarch.ofConstruct (counting .raymarch 4294967295)).toOption.any
      (fun r => r.iterations = 4294967295) = true by decide +kernel)
  obtain ⟨f, made, octaves⟩ := exists_result_of_any
    (show (Fractal.ofConstruct (counting .fbm 2147483648)).toOption.any
      (fun f => f.octaves = 2147483648) = true by decide +kernel)
  refine ⟨⟨r, built, ?_⟩, ⟨_, rfl, ?_⟩, ⟨_, rfl, ?_⟩, f, made, 2147483647, ?_, ?_⟩
  · rw [IsSigned, of_decide_eq_true iterations]
    decide
  · rw [IsSigned, signed]
    decide
  · rw [IsUnsigned, unsigned]
    decide
  · rw [of_decide_eq_true octaves]
    decide
  · rw [IsSigned]
    decide

end GlslMaterial
