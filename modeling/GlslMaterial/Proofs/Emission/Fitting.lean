import GlslMaterial.Proofs.Emission.Flow

/-!
Steps of a reckoning. The type that a running expression has by reckoning and the recorded one have
the same rank all along, but not the same family: truth values are recorded as floating point
numbers, and scalars of double precision go into expressions of single precision as they are.

Main statements: each verb keeps the running expression readable as a tree of the reckoned type.
-/

set_option autoImplicit false

namespace GlslMaterial

namespace Emission

open GlslMaterial.Action (Keeps ok_of_bind bind_of_ok ok_of_read ok_of_ofExcept ofExcept)
open GlslMaterial.Glsl (Tree Spells Scope Numeric Rank codeType? typeOf? Settled)
open Material

/-- Behind a matrix, the text of an expression has the type of the product of the matrix and the
whole expression, even where only a part of it is read as the factor. -/
def Scales (scope : Scope) (running : Running) (e : Flow) : Prop :=
  ∀ front factor family dimension, Spells .operand front factor →
    typeOf? scope factor = some ⟨family, .matrix dimension⟩ → family.isFloating = true →
    2 ≤ dimension → e.type.numeric?.map Numeric.rank = some (.vector dimension) →
    ∃ operator left right, Spells (if running.product then .product else .sum)
        (Glsl.spaced front .multiply running.code.toList) (.binary operator left right) ∧
      typeOf? scope (.binary operator left right) =
        e.own.bind (Numeric.combine? .multiply ⟨family, .matrix dimension⟩)

/-- The running expression is read as a tree that has the type by reckoning, which is the recorded
type up to the family. -/
structure Fits (scope : Scope) (running : Running) (c : Composed) (e : Flow) : Prop where
  runs : Runs running c
  type : e.type = running.type
  steady : e.type.decay? = some e.type
  typed : typeOf? scope c.tree = e.own
  settled : e.type.numeric?.isSome = true → Settled scope c.tree
  suits : ∀ own, e.own = some own → own.Suits e.type
  scales : Scales scope running e

section Steps

variable {scope : Scope} {running : Running} {c : Composed} {e : Flow}

variable {text point : String} {factor tree : Tree} {own : Numeric} {type : DataType}
  {dimension dimensions : Nat} {right : Expression}

theorem typeOf?_product (typed : typeOf? scope factor = some own) :
    typeOf? scope (.binary .multiply factor tree) =
      (typeOf? scope tree).bind (own.combine? .multiply) := by
  rw [Glsl.typeOf?_binary rfl, typed, Option.bind_some]

/-- Without operators outside of brackets, the whole expression is the factor. -/
theorem Scales.of_signed {code : String} {own : Option Numeric}
    (spells : Spells .signed code.toList tree) (typed : typeOf? scope tree = own) :
    Scales scope ⟨code, type, false⟩ ⟨type, own⟩ := by
  intro front factor family dimension one matrix _ _ _
  refine ⟨.multiply, factor, tree, (one.product spells).weaken (by decide), ?_⟩
  rw [typeOf?_product matrix, typed]

/-- Calls and parts. -/
theorem Fits.of_operand {code : String} {own : Option Numeric}
    (spells : Spells .operand code.toList tree) (number : tree.isNumber = false)
    (named : ∀ text, tree ≠ .name text) (steady : type.decay? = some type)
    (typed : typeOf? scope tree = own) (suits : ∀ held, own = some held → held.Suits type) :
    Fits scope ⟨code, type, false⟩ ⟨tree, type⟩ ⟨type, own⟩ where
  runs := .of_reflects (.of_operand spells number)
  type := rfl
  steady := steady
  typed := typed
  settled _ _ := named
  suits := suits
  scales := .of_signed (.operand spells) typed

theorem Fits.scaled_leftOperand (fits : Fits scope running c e) (product : Bool)
    {front : List Char} {family : Family} (one : Spells .operand front factor)
    (matrix : typeOf? scope factor = some ⟨family, .matrix dimension⟩)
    (floating : family.isFloating = true) (several : 2 ≤ dimension)
    (rank : e.type.numeric?.map Numeric.rank = some (.vector dimension)) :
    ∃ whole, Spells .product
        (Glsl.spaced front .multiply (leftOperand running product).toList) whole ∧
      typeOf? scope whole =
        e.own.bind (Numeric.combine? .multiply ⟨family, .matrix dimension⟩) := by
  unfold leftOperand
  split
  · rename_i chain
    obtain ⟨operator, left, right, scaled, typed⟩ :=
      fits.scales front factor family dimension one matrix floating several rank
    rw [if_pos (Bool.and_eq_true_iff.1 chain).2] at scaled
    exact ⟨_, scaled, typed⟩
  · have atom := fits.runs.reflects.sum.atom
    refine ⟨_, one.product atom.operand, ?_⟩
    rw [typeOf?_product matrix, fits.typed]

theorem suits_combine? {right result : Numeric} (suits : own.Suits type)
    {operator : Glsl.Operator} (fits : right.rank = .scalar ∨ right.rank = own.rank)
    (combined : own.combine? operator right = some result) : result.Suits type := by
  rw [combine?_of_rank? (rank?_of_fits operator fits)] at combined
  obtain ⟨family, joined, rfl⟩ := Option.map_eq_some_iff.1 combined
  exact ⟨suits.1, suits.2.imp_right fun floating => Family.isFloating_join? floating joined⟩

theorem vector_of_suits (suits : own.Suits type)
    (rank : type.numeric?.map Numeric.rank = some (.vector dimension)) (several : 2 ≤ dimension) :
    own.rank = .vector dimension ∧ own.family.isFloating = true := by
  obtain ⟨ranked, floats⟩ := suits
  have vector : own.rank = .vector dimension := Option.some.inj (ranked.symm.trans rank)
  refine ⟨vector, floats.resolve_left fun scalar => ?_⟩
  rw [vector] at scalar
  cases scalar
  omega

theorem Fits.of_align (fits : Fits scope running c e)
    (operand : IsOperand scope right) {other : Numeric} (is : e.own = some own)
    (aligned : Flow.align e.type right.type = some other) :
    (other.rank = .scalar ∨ other.rank = own.rank) ∧
      (other.family = .bool ∨ other.family.isFloating = true) := by
  obtain ⟨rank, family⟩ := Flow.align_eq_some fits.steady operand.2.2 aligned
  refine ⟨rank.imp_right fun same => ?_, family⟩
  exact (Option.some.inj ((fits.suits own is).1.symm.trans same)).symm

theorem Fits.operator (fits : Fits scope running c e) (operand : IsOperand scope right)
    (given : align right running.type = .ok text) (operator : Glsl.Operator)
    (arithmetic : operator.isArithmetic = true) :
    ∃ c, Fits scope (applyOperator operator.mark operator.isProduct running text) c
      (e.operator operator right.type) := by
  have type := fits.type
  rw [← type] at given
  obtain ⟨tree, spells, typed⟩ := exists_aligned operand fits.steady given
  refine ⟨_, fits.runs.applyOperator spells operator arithmetic, type, fits.steady, ?_,
    fun _ _ => nofun, ?_, ?_⟩
  · rw [Glsl.typeOf?_binary arithmetic, fits.typed, typed]
    rfl
  · intro result is
    obtain ⟨own, known, is⟩ := Option.bind_eq_some_iff.1 is
    obtain ⟨other, aligned, combined⟩ := Option.bind_eq_some_iff.1 is
    exact suits_combine? (fits.suits own known) (fits.of_align operand known aligned).1 combined
  · intro front factor family dimension one matrix floating several rank
    obtain ⟨whole, scaled, product⟩ :=
      fits.scaled_leftOperand operator.isProduct one matrix floating several rank
    have shape : Glsl.spaced front .multiply
        (applyOperator operator.mark operator.isProduct running text).code.toList =
        Glsl.spaced (Glsl.spaced front .multiply
          (leftOperand running operator.isProduct).toList) operator text.toList := by
      simp [applyOperator, Glsl.spaced]
    refine ⟨operator, whole, tree, ?_, ?_⟩
    · have spelled := Spells.binary operator (scaled.weaken operator.strength_bounds.1)
        spells.operand
      rw [shape]
      show Spells (if operator.isProduct = true then .product else .sum) _ _
      split
      · rename_i product
        exact spelled.weaken (Nat.le_of_eq (Glsl.Operator.strength_of_isProduct product))
      · exact spelled.weaken (Glsl.Operator.strength_of_isArithmetic arithmetic)
    · rw [Glsl.typeOf?_binary arithmetic, product, typed]
      unfold Flow.operator
      cases known : e.own with
      | none => rfl
      | some own =>
        cases aligned : Flow.align e.type right.type with
        | none => simp
        | some other =>
          obtain ⟨kept, plain⟩ := fits.of_align operand known aligned
          obtain ⟨vector, float⟩ := vector_of_suits (fits.suits own known) rank several
          exact combine?_scaled operator several floating vector float kept plain

theorem typeOf?_pair (function : String) (first second : Tree) :
    typeOf? scope (.call function [first, second]) =
      (typeOf? scope first).bind fun one => (typeOf? scope second).bind fun two =>
        Glsl.called? function [one, two] := by
  rw [Glsl.typeOf?_call (by simp)]
  cases one : typeOf? scope first <;> cases two : typeOf? scope second <;> simp [one, two]

/-- Remainders. -/
theorem Fits.modulate (fits : Fits scope running c e) (operand : IsOperand scope right)
    (given : align right running.type = .ok text) :
    ∃ c, Fits scope ⟨Glsl.call "mod" [running.code, text], running.type, false⟩ c
      (e.modulate right.type) := by
  have type := fits.type
  rw [← type] at given ⊢
  obtain ⟨tree, spells, typed⟩ := exists_aligned operand fits.steady given
  have called : Spells .operand (Glsl.call "mod" [running.code, text]).toList
      (.call "mod" [c.tree, tree]) :=
    .call (by decide) (.cons fits.runs.reflects.argument (.cons spells.operand .nil)) (by simp)
  refine ⟨_, .of_operand called (Tree.isNumber_call _ _) nofun fits.steady ?_ ?_⟩
  · rw [typeOf?_pair, fits.typed, typed]
    rfl
  · intro result is
    obtain ⟨own, known, is⟩ := Option.bind_eq_some_iff.1 is
    obtain ⟨other, aligned, is⟩ := Option.bind_eq_some_iff.1 is
    unfold Numeric.modulo? at is
    split at is
    · obtain ⟨family, found, rfl⟩ := Option.map_eq_some_iff.1 is
      exact ⟨(fits.suits own known).1, .inr (Family.isFloating_precision? found)⟩
    · cases is

theorem exists_power (fits : Fits scope running c e) (operand : IsOperand scope right)
    (given : powerOperand running right = .ok text) :
    ∃ tree, Spells .sum text.toList tree ∧
      typeOf? scope tree = if right.type.width = 1 && 1 < e.type.width then e.type.numeric?
        else Flow.align e.type right.type := by
  unfold powerOperand at given
  rw [← fits.type] at given
  split at given
  · rename_i spread
    rw [if_pos spread]
    obtain ⟨spelling, spelled, given⟩ := eq_ok_of_bind given
    obtain rfl := Except.ok.inj given
    obtain ⟨legible, typed, -⟩ := operand
    have reflects := reflects_of_legible legible
    have single := of_decide_eq_true (Bool.and_eq_true_iff.1 spread).1
    obtain ⟨family, numeric⟩ := @DataType.numeric?_of_width right.type (by omega)
    have scalar : typeOf? scope (Composed.ofExpression right).tree =
        some ⟨family, .vector right.type.width⟩ := by
      rw [← Glsl.codeType?_of_spells reflects.sum, typed, numeric]
    have called :=
      Spells.call (Glsl.isName_spelling spelled) (.cons reflects.argument .nil) (by simp)
    refine ⟨_, called.operand, ?_⟩
    rw [Glsl.typeOf?_call (by simp), Glsl.mapM_typeOf? (.cons scalar .nil), Option.bind_some,
      Glsl.called?_spelling spelled, List.map_singleton, single]
    cases e.type.numeric? <;> rfl
  · rename_i other
    rw [if_neg other]
    obtain ⟨tree, spells, typed⟩ := exists_aligned operand fits.steady given
    exact ⟨tree, spells.operand, typed⟩

theorem Fits.exponent (fits : Fits scope running c e) (operand : IsOperand scope right)
    (given : powerOperand running right = .ok text) :
    ∃ c, Fits scope ⟨Glsl.call "pow" [running.code, text], running.type, false⟩ c
      (e.exponent right.type) := by
  obtain ⟨tree, spells, typed⟩ := exists_power fits operand given
  have called : Spells .operand (Glsl.call "pow" [running.code, text]).toList
      (.call "pow" [c.tree, tree]) :=
    .call (by decide) (.cons fits.runs.reflects.argument (.cons (spells.weaken (by decide)) .nil))
      (by simp)
  rw [← fits.type]
  refine ⟨_, .of_operand called (Tree.isNumber_call _ _) nofun fits.steady ?_ ?_⟩
  · rw [typeOf?_pair, fits.typed, typed]
    rfl
  · intro result is
    obtain ⟨own, known, is⟩ := Option.bind_eq_some_iff.1 is
    obtain ⟨other, -, is⟩ := Option.bind_eq_some_iff.1 is
    unfold Numeric.power? at is
    split at is
    · obtain rfl := Option.some.inj is
      exact ⟨(fits.suits own known).1, .inr rfl⟩
    · cases is

theorem exists_point (fits : Fits scope running c e)
    (given : noisePoint running = .ok (dimensions, point)) :
    dimensions = e.dimensions ∧ ∃ tree, Spells .sum point.toList tree ∧
      typeOf? scope tree = e.point := by
  obtain ⟨tree, made, spells⟩ := fits.runs.reflects.noisePoint given
  have small := Reflects.width_of_noisePoint given
  have width : c.type.width = e.type.width := by rw [fits.type, fits.runs.reflects.type]
  -- The code has the rank that is recorded.
  have ranked {count : Nat} (is : e.type.width = count + 1) :
      e.own.map (fun own => ⟨own.family, .vector (count + 1)⟩) = e.own := by
    cases known : e.own with
    | none => rfl
    | some own =>
      obtain ⟨held, numeric, same⟩ := Option.map_eq_some_iff.1 (fits.suits own known).1
      rw [Option.map_some, ← rank_of_width is numeric, same]
  rw [← fits.type] at small
  unfold Composed.noisePoint at made
  rw [width] at made
  unfold Flow.point Flow.dimensions
  rcases small with is | is | is | is
  · rw [is] at made
    cases made
    refine ⟨by rw [is]; rfl, _, spells, ?_⟩
    rw [typeOf?_pair, fits.typed, Glsl.typeOf?_number_point (.inl rfl), is]
    cases known : e.own with
    | none => rfl
    | some own =>
      obtain ⟨held, numeric, same⟩ := Option.map_eq_some_iff.1 (fits.suits own known).1
      have scalar : own.rank = .scalar := same.symm.trans (rank_of_width is numeric)
      obtain ⟨family, _⟩ := own
      subst scalar
      rfl
  · rw [is] at made
    cases made
    refine ⟨by rw [is]; rfl, _, spells, ?_⟩
    rw [fits.typed, is]
    exact (ranked is).symm
  · rw [is] at made
    cases made
    refine ⟨by rw [is]; rfl, _, spells, ?_⟩
    rw [fits.typed, is]
    exact (ranked is).symm
  · rw [is] at made
    cases made
    refine ⟨by rw [is]; rfl, _, spells, ?_⟩
    obtain ⟨family, numeric⟩ := @DataType.numeric?_of_width e.type (by omega)
    rw [Glsl.typeOf?_field (fits.settled (by rw [numeric]; rfl)), fits.typed, is, ← ranked is]
    cases e.own <;> rfl

theorem exists_seeded {at_ : Option Numeric}
    (spells : Spells .sum point.toList tree) (typed : typeOf? scope tree = at_)
    {seed : Expression} (operand : IsOperand scope seed) :
    ∃ moved, Spells .sum s!"{point} + {Glsl.atom seed.code}".toList moved ∧
      typeOf? scope moved = Flow.seeded at_ (some seed.type) := by
  obtain ⟨legible, own, -⟩ := operand
  have reflects := reflects_of_legible legible
  refine ⟨_, spells_seeded spells reflects, ?_⟩
  rw [Composed.seeded, Glsl.typeOf?_binary rfl, typed, ← Glsl.codeType?_of_spells reflects.sum, own]
  rfl

theorem called?_simplex {helpers : List (String × String)} {name : String}
    (found : Noise.functions dimensions = .ok (helpers, name)) (point : Numeric) :
    Glsl.called? name [point] = point.noise? dimensions := by
  unfold Noise.functions at found
  split at found
  · cases found
    rfl
  · cases found
    rfl
  · cases found

theorem fits_noise {helpers : List (String × String)} {name : String}
    (found : Noise.functions dimensions = .ok (helpers, name))
    {at_ : Option Numeric} (spells : Spells .sum point.toList tree)
    (typed : typeOf? scope tree = at_) :
    ∃ c, Fits scope ⟨s!"{name}({point})", .float, false⟩ c
      ⟨.float, at_.bind (·.noise? dimensions)⟩ := by
  have called : Spells .operand (Glsl.call name [point]).toList (.call name [tree]) :=
    .call (isName_of_functions found) (.cons (spells.weaken (by decide)) .nil) (by simp)
  refine ⟨_, .of_operand called (Tree.isNumber_call _ _) nofun rfl ?_ ?_⟩
  · rw [Glsl.typeOf?_call (by simp)]
    cases at_ with
    | none => simp [typed]
    | some own => simp [typed, called?_simplex found]
  · intro result is
    obtain ⟨own, -, is⟩ := Option.bind_eq_some_iff.1 is
    unfold Numeric.noise? at is
    split at is
    · obtain rfl := Option.some.inj is
      exact ⟨rfl, .inl rfl⟩
    · cases is

theorem isSelection_of_isSwizzle {width : Nat} {letters : List Char}
    (swizzle : isSwizzle width letters = true) : Glsl.isSelection width letters = true := by
  simp only [isSwizzle, Bool.and_eq_true, Bool.or_eq_true, decide_eq_true_eq, List.all_eq_true,
    List.contains_iff_mem] at swizzle
  obtain ⟨⟨⟨filled, few⟩, letter⟩, inside⟩ := swizzle
  have placed {names : List Char} {c : Char} {place : Nat} (member : c ∈ letters)
      (index : componentIndex? c = some place) (listed : names[place]? = some c) :
      c ∈ names.take width := by
    have less := inside c member
    rw [index] at less
    exact List.mem_of_getElem? ((List.getElem?_take_of_lt (of_decide_eq_true less)).trans listed)
  simp only [Glsl.isSelection, Bool.and_eq_true, decide_eq_true_eq, filled, few, true_and,
    List.any_cons, Bool.or_eq_true, List.all_eq_true, List.contains_iff_mem]
  rcases letter with position | color
  · refine .inl fun c member => ?_
    have known := position c member
    simp only [List.mem_cons, List.not_mem_nil, or_false] at known
    rcases known with rfl | rfl | rfl | rfl <;> exact placed member rfl rfl
  · refine .inr (.inl fun c member => ?_)
    have known := color c member
    simp only [List.mem_cons, List.not_mem_nil, or_false] at known
    rcases known with rfl | rfl | rfl | rfl <;> exact placed member rfl rfl

/-- Components. -/
theorem Fits.select (fits : Fits scope running c e) {value : Option Json} {result : Running}
    (given : select running value = .ok result) : ∃ c, Fits scope result c (e.select value) := by
  have steady := fits.steady
  rw [fits.type] at steady
  have stays := (became_select given).1 steady
  obtain ⟨selected, same, reflects, single⟩ := fits.runs.reflects.select given
  unfold Composed.select at same
  dsimp only at same
  rw [fits.runs.reflects.type, ← fits.type] at same
  cases shape : e.type.vectorShape? with
  | none =>
    rw [shape] at same
    cases same
  | some pair =>
    obtain ⟨family, width⟩ := pair
    rw [shape] at same
    dsimp only at same
    split at same
    · rename_i letters
      cases found : DataType.vector? family (swizzleOf value).toList.length with
      | none =>
        rw [found] at same
        cases same
      | some type =>
        rw [found] at same
        obtain rfl := Except.ok.inj same
        obtain ⟨code, recorded, product⟩ := result
        obtain rfl : type = recorded := reflects.type
        obtain rfl : product = false := single
        obtain ⟨several, swizzle⟩ := Bool.and_eq_true_iff.1 letters
        have several : 2 ≤ width := of_decide_eq_true several
        have held := DataType.numeric?_of_vectorShape? shape
        have part : e.select value = ⟨type, e.own.map fun own =>
            ⟨own.family, .vector (swizzleOf value).toList.length⟩⟩ := by
          simp [Flow.select, held, found]
        have spells := reflects.sum.operand_of_isPrimary rfl
        have vector {own : Numeric} (known : e.own = some own) :
            own.rank = .vector width ∧ own.family.isFloating = true :=
          vector_of_suits (fits.suits own known) (by rw [held]; rfl) several
        rw [part]
        refine ⟨_, .of_operand spells rfl nofun stays ?_ ?_⟩
        · rw [Glsl.typeOf?_field (fits.settled (by rw [held]; rfl)), fits.typed]
          cases known : e.own with
          | none => rfl
          | some own =>
            simp [Numeric.select?, (vector known).1, several, isSelection_of_isSwizzle swizzle]
        · intro final is
          obtain ⟨own, known, rfl⟩ := Option.map_eq_some_iff.1 is
          have rank := DataType.numeric?_of_vectorShape? (DataType.vectorShape?_vector? found)
          exact ⟨by rw [rank]; rfl, .inr (vector known).2⟩
    · cases same

theorem exists_vector_of_matrixShape? {matrix : DataType} {family : Family}
    (shape : matrix.matrixShape? = some (family, dimension)) :
    ∃ type, DataType.vector? .float dimension = some type ∧
      type.numeric? = some ⟨.float, .vector dimension⟩ ∧ type.decay? = some type ∧
      2 ≤ dimension ∧ family.isFloating = true := by
  cases matrix <;> cases shape <;> exact ⟨_, rfl, rfl, rfl, by decide, rfl⟩

/-- What stands for a vector behind a matrix is one. -/
theorem suits_converted {source : DataType}
    (steady : source.decay? = some source) (suits : own.Suits source)
    (held : type.numeric? = some ⟨.float, .vector dimension⟩) (several : 2 ≤ dimension) :
    (own.converted source type).rank = .vector dimension ∧
      (own.converted source type).family.isFloating = true := by
  obtain ⟨ranked, floats⟩ := suits
  obtain ⟨old, numeric, rank⟩ := Option.map_eq_some_iff.1 ranked
  unfold Numeric.converted
  rw [DataType.declared?, steady, Option.bind_some, numeric, held]
  dsimp only
  split
  · rename_i kept
    refine ⟨rfl, floats.resolve_left fun scalar => ?_⟩
    rw [scalar] at rank
    rcases kept with rfl | ⟨-, leads⟩
    · cases rank
      omega
    · rw [rank] at leads
      have few : dimension ≤ 1 := of_decide_eq_true leads
      omega
  · exact ⟨rfl, rfl⟩

theorem converted_of_same (steady : type.decay? = some type)
    (suits : own.Suits type) : own.converted type type = own := by
  obtain ⟨old, numeric, rank⟩ := Option.map_eq_some_iff.1 suits.1
  simp [Numeric.converted, DataType.declared?, steady, numeric, rank]

/-- Products with a matrix. -/
theorem Fits.project (fits : Fits scope running c e)
    (operand : IsOperand scope right) {result : Running}
    (given : project running right = .ok result) :
    ∃ c, Fits scope result c (e.project right.type) := by
  obtain ⟨legible, own, -⟩ := operand
  have factor := reflects_of_legible legible
  unfold Emission.project at given
  cases shape : right.type.matrixShape? with
  | none =>
    rw [shape] at given
    cases given
  | some pair =>
    obtain ⟨family, dimension⟩ := pair
    obtain ⟨type, found, held, stays, several, floating⟩ := exists_vector_of_matrixShape? shape
    rw [shape] at given
    dsimp only at given
    rw [found, Option.getD_some] at given
    obtain ⟨vector, converted, given⟩ := eq_ok_of_bind given
    obtain rfl := Except.ok.inj given
    have matrix : typeOf? scope (Composed.ofExpression right).tree =
        some ⟨family, .matrix dimension⟩ := by
      rw [← Glsl.codeType?_of_spells factor.sum, own, DataType.numeric?_of_matrixShape? shape]
    have product : e.project right.type = ⟨type, (e.own.map (·.converted e.type type)).bind
        (Numeric.combine? .multiply ⟨family, .matrix dimension⟩)⟩ := by
      simp only [Flow.project, shape, Option.map_some, Option.getD_some, found,
        DataType.numeric?_of_matrixShape? shape, Option.bind_map]
      rfl
    have enclosed : s!"({Glsl.atom right.code} * {vector})".toList = '(' ::
        (Glsl.spaced (Glsl.atom right.code).toList .multiply vector.toList ++ [')']) := by
      simp [Glsl.spaced, Glsl.Operator.mark]
    have result {operator : Glsl.Operator} {left tree : Tree} (spells : Spells .sum
        (Glsl.spaced (Glsl.atom right.code).toList .multiply vector.toList)
          (.binary operator left tree))
        (typed : typeOf? scope (.binary operator left tree) =
          (e.own.map (·.converted e.type type)).bind
            (Numeric.combine? .multiply ⟨family, .matrix dimension⟩)) :
        ∃ c, Fits scope ⟨s!"({Glsl.atom right.code} * {vector})", type, false⟩ c
          (e.project right.type) := by
      have whole := Spells.group spells
      rw [← enclosed] at whole
      rw [product]
      refine ⟨_, .of_operand whole rfl (fun _ is => by cases is) stays typed ?_⟩
      intro final is
      obtain ⟨_, mapped, combined⟩ := Option.bind_eq_some_iff.1 is
      obtain ⟨own, known, rfl⟩ := Option.map_eq_some_iff.1 mapped
      obtain ⟨rank, float⟩ := suits_converted fits.steady (fits.suits own known) held several
      have ranks : Glsl.Operator.multiply.rank? (.matrix dimension)
          (own.converted e.type type).rank = some (.vector dimension) := by
        rw [rank, rank?_matrix several]
      rw [combine?_of_rank? ranks] at combined
      obtain ⟨joined, both, rfl⟩ := Option.map_eq_some_iff.1 combined
      exact ⟨by rw [held]; rfl, .inr (Family.isFloating_join? floating both)⟩
    have number : c.tree.isNumber = true → running.type.width = 1 := by
      rw [← fits.runs.reflects.type]
      exact fits.runs.reflects.number
    have steady := fits.steady
    obtain ⟨tree, made, ⟨alike, rfl, rfl⟩ | ⟨apart, spells⟩⟩ :=
      fits.runs.reflects.sum.convert_cases number converted
    · -- The text stays as it is, so that the matrix goes into its first product.
      rw [← fits.type, steady, stays] at alike
      obtain rfl : e.type = type := Option.some.inj alike
      obtain ⟨operator, left, inner, scaled, typed⟩ := fits.scales _ _ family dimension
        factor.sum.atom matrix floating several (by rw [held]; rfl)
      refine result ?_ (typed.trans ?_)
      · split at scaled
        · exact scaled.weaken (by decide)
        · exact scaled
      · cases known : e.own with
        | none => rfl
        | some own => rw [Option.map_some, converted_of_same steady (fits.suits own known)]
    · rw [← fits.type, steady, stays] at apart
      have other : e.type ≠ type := fun same => apart (congrArg some same)
      rw [← fits.type] at made
      have numeric : e.type.numeric?.isSome = true := by
        obtain ⟨decayed, decays, converts⟩ := Tree.convert_eq_ok made stays
        obtain rfl : e.type = decayed := Option.some.inj (steady.symm.trans decays)
        obtain ⟨old, -, known, -⟩ := converts.exists_numeric other
        rw [known]
        rfl
      refine result ((factor.sum.atom.product spells.operand).weaken (by decide)) ?_
      rw [typeOf?_product matrix, Glsl.typeOf?_convert made stays (fits.settled numeric),
        fits.typed]
      intro own known
      rw [fits.typed] at known
      rw [DataType.declared?, steady]
      exact (fits.suits own known).1

end Steps

end Emission

end GlslMaterial
