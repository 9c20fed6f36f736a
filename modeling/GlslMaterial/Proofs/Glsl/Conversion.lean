import GlslMaterial.Proofs.Glsl.Typing

/-!
Types of conversions and literals. A conversion gives an expression of the rank that it is asked
for, and of its family too, except that the first components of a vector keep the family that the
vector really has. A literal has its own type, whatever type it was written for.
-/

set_option autoImplicit false

namespace GlslMaterial

namespace Glsl

variable {scope : Scope} {tree result : Tree} {trees : List Tree} {function : String}

section Conversions

namespace Rank

@[simp] theorem total_nil : total [] = 0 := rfl

@[simp] theorem total_cons (rank : Rank) (given : List Rank) :
    total (rank :: given) = rank.components + total given := rfl

@[simp] theorem total_replicate (rank : Rank) (n : Nat) :
    total (List.replicate n rank) = n * rank.components := by
  induction n with
  | zero => simp
  | succ n ih => rw [List.replicate_succ, total_cons, ih, Nat.succ_mul, Nat.add_comm]

theorem constructs_of_fills (rank : Rank) {given : List Rank} (vectors : given.all isVector = true)
    (full : fills rank.components given = true) : rank.constructs given = true := by
  unfold constructs
  split
  · rfl
  · rfl
  · exact full
  · rw [vectors]
    exact full

theorem constructs_self {width : Nat} (some : 0 < width) :
    (vector width).constructs [vector width] = true :=
  constructs_of_fills _ rfl (by simp [fills, components, some])

theorem constructs_grown {count width : Nat} (grows : count < width) :
    (vector width).constructs (vector count :: List.replicate (width - count) scalar) = true := by
  obtain ⟨more, rfl⟩ : ∃ more, width = count + (more + 1) := ⟨width - count - 1, by omega⟩
  rw [Nat.add_sub_cancel_left]
  refine constructs_of_fills _ (by simp [isVector]) ?_
  have front : (vector count :: List.replicate (more + 1) scalar).dropLast =
      vector count :: List.replicate more scalar := by
    rw [List.replicate_succ', ← List.cons_append, List.dropLast_concat]
  simp [fills, front, components]

theorem constructs_scalars (rank : Rank) (some : 0 < rank.components) :
    rank.constructs (List.replicate rank.components scalar) = true := by
  refine constructs_of_fills _ (by simp [isVector]) ?_
  have one : scalar.components = 1 := rfl
  simp only [fills, List.dropLast_replicate, total_replicate, one, Nat.mul_one, Bool.and_eq_true,
    decide_eq_true_eq]
  omega

theorem constructs_columns {dimension : Nat} (some : 0 < dimension) :
    (matrix dimension).constructs (List.replicate dimension (vector dimension)) = true := by
  refine constructs_of_fills _ (by simp [isVector]) ?_
  have less : (dimension - 1) * dimension < dimension * dimension :=
    Nat.mul_lt_mul_of_pos_right (by omega) some
  simp [fills, components, List.dropLast_replicate, less]

end Rank

theorem select?_leading (family : Family) {count width : Nat} (less : width < count)
    (few : count ≤ 4) (pos : 0 < width) :
    (Numeric.mk family (.vector count)).select? (leading width) =
      some ⟨family, .vector width⟩ := by
  have letters : ∀ count < 5, ∀ width < count, 0 < width →
      isSelection count (['x', 'y', 'z', 'w'].take width) = true := by
    decide
  have several : 2 ≤ count := by omega
  have length : (['x', 'y', 'z', 'w'].take width).length = width := by
    rw [List.length_take, List.length_cons, List.length_cons]
    simp only [List.length_cons, List.length_nil]
    omega
  simp [Numeric.select?, leading, String.toList_ofList, several, length,
    letters count (by omega) width less pos]

theorem typeOf?_number_point {text : String} (point : text = "0.0" ∨ text = "1.0") :
    typeOf? scope (.number text) = some ⟨.float, .scalar⟩ := by
  rcases point with rfl | rfl <;> simp [typeOf?] <;> decide

/-- A vector in another type. What is left of a vector of the same family has the family of the
vector. -/
theorem typeOf?_convertVector {own : Family} {count : Nat}
    (typed : typeOf? scope tree = some ⟨own, .vector count⟩) {family other : Family} {width : Nat}
    (named : constructed? function = some ⟨other, .vector width⟩) (pos : 0 < width)
    (few : count ≤ 4) :
    typeOf? scope (tree.convertVector family count function other width) =
      some (if width < count ∧ family = other then ⟨own, .vector width⟩
        else ⟨other, .vector width⟩) := by
  have settled : Settled scope tree := fun untyped => by simp [typed] at untyped
  unfold Tree.convertVector
  by_cases shrinks : width < count
  · have less : typeOf? scope (.field tree (leading width)) = some ⟨own, .vector width⟩ := by
      rw [typeOf?_field settled, typed]
      exact select?_leading own shrinks few pos
    by_cases same : family = other
    · simp only [if_pos shrinks, if_pos same, if_pos (And.intro shrinks same), less]
    · simp only [if_pos shrinks, if_neg same, if_neg (fun both => same (And.right both))]
      exact typeOf?_constructor named (.cons less .nil) (by simp) (Rank.constructs_self pos)
  · rw [if_neg shrinks, if_neg fun both => shrinks (And.left both)]
    split
    · rename_i grows
      have numbers : ∀ t ∈ (padding count width "0.0").map Tree.number,
          typeOf? scope t = some ⟨.float, .scalar⟩ := by
        intro t member
        obtain ⟨text, listed, rfl⟩ := List.mem_map.1 member
        obtain ⟨i, -, rfl⟩ := List.mem_map.1 listed
        refine typeOf?_number_point ?_
        split
        · exact .inr rfl
        · exact .inl rfl
      refine typeOf?_constructor named (.cons typed (forall₂_replicate numbers)) (by simp) ?_
      simpa [padding] using Rank.constructs_grown grows
    · rename_i stays
      obtain rfl : count = width := by omega
      exact typeOf?_constructor named (.cons typed .nil) (by simp) (Rank.constructs_self pos)

theorem typeOf?_grownColumn {own : Family} {count width : Nat}
    (typed : typeOf? scope tree = some ⟨own, .matrix count⟩)
    (named : constructed? s!"vec{width}" = some ⟨.float, .vector width⟩) (grows : count < width)
    (column : Nat) :
    typeOf? scope (tree.grownColumn count width column) = some ⟨.float, .vector width⟩ := by
  unfold Tree.grownColumn
  split
  · have digits : ∀ c ∈ (toString column).toList, c.isDigit = true := fun _ => isDigit_of_mem_repr
    have place : typeOf? scope (.number (toString column)) = some ⟨.int, .scalar⟩ := by
      rw [typeOf?, numberFamily_of_digits digits]
    have old : typeOf? scope (.index tree (.number (toString column))) =
        some ⟨own, .vector count⟩ := by
      rw [typeOf?, typed, place]
      simp [Numeric.index?]
    have zeros : ∀ t ∈ List.replicate (width - count) (Tree.number "0.0"),
        typeOf? scope t = some ⟨.float, .scalar⟩ := by
      intro t member
      rw [List.eq_of_mem_replicate member]
      exact typeOf?_number_point (.inl rfl)
    refine typeOf?_constructor named (.cons old (forall₂_replicate zeros)) (by simp) ?_
    simpa using Rank.constructs_grown grows
  · have entries : ∀ t ∈ (List.range width).map fun row => Tree.number
        (if row ≠ column then "0.0" else if column = width - 1 then "1.0" else "0.0"),
        typeOf? scope t = some ⟨.float, .scalar⟩ := by
      intro t member
      obtain ⟨row, -, rfl⟩ := List.mem_map.1 member
      refine typeOf?_number_point ?_
      split
      · exact .inl rfl
      · split
        · exact .inr rfl
        · exact .inl rfl
    have some : 0 < width := Nat.zero_lt_of_lt grows
    refine typeOf?_constructor named (forall₂_replicate entries) (by simp; omega) ?_
    simpa [Rank.components] using Rank.constructs_scalars (.vector width) some

/-- The type of a value of type `source` that is asked for in the type `target`. A value that has
the type already stays as it is, and the first components of a vector stay in their family. -/
def Numeric.converted (own : Numeric) (source target : DataType) : Numeric :=
  match source.declared?, target.numeric? with
  | some old, some new =>
    if old = new ∨ old.family = new.family ∧ new.rank.leads old.rank then ⟨own.family, new.rank⟩
    else new
  | _, _ => own

theorem constructed?_vec {type : DataType} {family : Family} {dimension : Nat}
    (shape : type.matrixShape? = some (family, dimension)) :
    constructed? s!"vec{dimension}" = some ⟨.float, .vector dimension⟩ := by
  cases type <;> cases shape <;> decide

/-- The ways of a conversion. -/
inductive Tree.Converts (tree : Tree) (source target : DataType) : Tree → Prop
  | same (alike : source = target) : Converts tree source target tree
  | vector {family other : Family} {count width : Nat} {spelling : String}
    (apart : source ≠ target) (old : source.vectorShape? = some (family, count))
    (new : target.vectorShape? = some (other, width)) (spelled : target.spelling = .ok spelling) :
    Converts tree source target (tree.convertVector family count spelling other width)
  | shrink {family other : Family} {count width : Nat} {spelling : String}
    (apart : source ≠ target) (old : source.matrixShape? = some (family, count))
    (new : target.matrixShape? = some (other, width)) (spelled : target.spelling = .ok spelling) :
    Converts tree source target (.call spelling [tree])
  | grow {family other : Family} {count width : Nat} {spelling : String}
    (old : source.matrixShape? = some (family, count))
    (new : target.matrixShape? = some (other, width)) (spelled : target.spelling = .ok spelling)
    (grows : count < width) :
    Converts tree source target
      (.call spelling ((List.range width).map (tree.grownColumn count width)))

theorem Tree.convert_eq_ok {source target : DataType}
    (given : tree.convert source target = .ok result) (steady : target.decay? = some target) :
    ∃ decayed, source.decay? = some decayed ∧ tree.Converts decayed target result := by
  unfold Tree.convert at given
  by_cases same : source = target
  · rw [if_pos same] at given
    obtain rfl := Except.ok.inj given
    exact ⟨target, same ▸ steady, .same rfl⟩
  rw [if_neg same] at given
  obtain ⟨first, decays, given⟩ := eq_ok_of_bind given
  obtain ⟨second, decays_target, given⟩ := eq_ok_of_bind given
  obtain rfl : target = second :=
    Option.some.inj (steady.symm.trans (DataType.decay?_of_decayed decays_target))
  refine ⟨first, DataType.decay?_of_decayed decays, ?_⟩
  by_cases alike : first = target
  · rw [if_pos alike] at given
    obtain rfl := Except.ok.inj given
    exact .same alike
  rw [if_neg alike] at given
  split at given
  · rename_i old new
    obtain ⟨spelling, spelled, given⟩ := eq_ok_of_bind given
    obtain rfl := Except.ok.inj given
    exact .vector alike old new spelled
  · split at given
    · rename_i old new
      obtain ⟨spelling, spelled, given⟩ := eq_ok_of_bind given
      split at given
      · obtain rfl := Except.ok.inj given
        exact .shrink alike old new spelled
      · rename_i grows
        obtain rfl := Except.ok.inj given
        exact .grow old new spelled (Nat.lt_of_not_le grows)
    · cases given

/-- Nothing with a type is made of an expression without one. -/
theorem Tree.Converts.typeOf?_eq_none {source target : DataType}
    (converts : tree.Converts source target result) (settled : Settled scope tree)
    (untyped : typeOf? scope tree = none) : typeOf? scope result = none := by
  have first (function : String) (more : List Tree) :
      typeOf? scope (.call function (tree :: more)) = none :=
    typeOf?_call_eq_none List.mem_cons_self untyped
  have part (letters : String) : typeOf? scope (.field tree letters) = none := by
    rw [typeOf?_field settled, untyped, Option.bind_none]
  cases converts with
  | same alike => exact untyped
  | vector =>
    unfold Tree.convertVector
    split
    · split
      · exact part _
      · exact typeOf?_call_eq_none List.mem_cons_self (part _)
    · split <;> exact first _ _
  | shrink => exact first _ _
  | @grow family other count width spelling old new spelled grows =>
    have some := DataType.pos_of_matrixShape? old
    have column : typeOf? scope (tree.grownColumn count width 0) = none := by
      rw [Tree.grownColumn, if_pos some]
      refine typeOf?_call_eq_none List.mem_cons_self ?_
      rw [typeOf?, untyped]
      rfl
    have listed : tree.grownColumn count width 0 ∈
        (List.range width).map (tree.grownColumn count width) :=
      List.mem_map_of_mem (List.mem_range.2 (Nat.zero_lt_of_lt grows))
    exact typeOf?_call_eq_none listed column

theorem typeOf?_convert {source target : DataType}
    (given : tree.convert source target = .ok result) (steady : target.decay? = some target)
    (settled : Settled scope tree)
    (ranked : ∀ own, typeOf? scope tree = some own →
      source.declared?.map Numeric.rank = some own.rank) :
    typeOf? scope result = (typeOf? scope tree).map (·.converted source target) := by
  obtain ⟨decayed, decays, converts⟩ := Tree.convert_eq_ok given steady
  cases typed : typeOf? scope tree with
  | none => exact converts.typeOf?_eq_none settled typed
  | some own =>
    obtain ⟨family, rank⟩ := own
    have kept := ranked _ typed
    rw [DataType.declared?, decays, Option.bind_some] at kept
    rw [Option.map_some, Numeric.converted, DataType.declared?, decays, Option.bind_some]
    cases converts with
    | same alike =>
      subst alike
      obtain ⟨old, known, rfl⟩ := Option.map_eq_some_iff.1 kept
      rw [typed, known]
      simp
    | @vector first second count width spelling apart old new spelled =>
      have held := DataType.numeric?_of_vectorShape? old
      have asked := DataType.numeric?_of_vectorShape? new
      obtain rfl : rank = .vector count := by simpa [held] using kept.symm
      rw [typeOf?_convertVector typed ((constructed?_spelling spelled).trans asked)
        (DataType.width_of_vectorShape? new).2 (DataType.width_le_four old), held, asked]
      have differ : Numeric.mk first (.vector count) ≠ ⟨second, .vector width⟩ := fun same =>
        apart (DataType.eq_of_numeric? (held.trans (congrArg some same)) asked)
      have less : width < count ∧ first = second ↔
          Numeric.mk first (.vector count) = ⟨second, .vector width⟩ ∨
            first = second ∧ (Rank.vector width).leads (.vector count) = true := by
        simp only [Rank.leads, decide_eq_true_eq]
        constructor
        · rintro ⟨less, same⟩
          exact .inr ⟨same, Nat.le_of_lt less⟩
        · rintro (same | ⟨rfl, most⟩)
          · exact absurd same differ
          · refine ⟨Nat.lt_of_le_of_ne most fun same => differ (by rw [same]), rfl⟩
      simp only [less]
    | @shrink first second count width spelling apart old new spelled =>
      have held := DataType.numeric?_of_matrixShape? old
      have asked := DataType.numeric?_of_matrixShape? new
      obtain rfl : rank = .matrix count := by simpa [held] using kept.symm
      have differ : Numeric.mk first (.matrix count) ≠ ⟨second, .matrix width⟩ := fun same =>
        apart (DataType.eq_of_numeric? (held.trans (congrArg some same)) asked)
      rw [typeOf?_constructor ((constructed?_spelling spelled).trans asked) (.cons typed .nil)
        (by simp) rfl, held, asked]
      simp [differ, Rank.leads]
    | @grow first second count width spelling old new spelled grows =>
      have held := DataType.numeric?_of_matrixShape? old
      have asked := DataType.numeric?_of_matrixShape? new
      obtain rfl : rank = .matrix count := by simpa [held] using kept.symm
      have columns : ∀ t ∈ (List.range width).map (tree.grownColumn count width),
          typeOf? scope t = some ⟨.float, .vector width⟩ := by
        intro t member
        obtain ⟨column, -, rfl⟩ := List.mem_map.1 member
        exact typeOf?_grownColumn typed (constructed?_vec new) grows column
      have some := DataType.pos_of_matrixShape? new
      rw [typeOf?_constructor ((constructed?_spelling spelled).trans asked)
        (forall₂_replicate columns) (by simp; omega)
        (by simpa using Rank.constructs_columns some), held, asked]
      simp [Nat.ne_of_lt grows, Rank.leads]

theorem Tree.Converts.exists_numeric {source target : DataType}
    (converts : tree.Converts source target result) (apart : source ≠ target) :
    ∃ old new, source.numeric? = some old ∧ target.numeric? = some new := by
  cases converts with
  | same alike => exact absurd alike apart
  | vector _ old new =>
    exact ⟨_, _, DataType.numeric?_of_vectorShape? old, DataType.numeric?_of_vectorShape? new⟩
  | shrink _ old new | grow old new =>
    exact ⟨_, _, DataType.numeric?_of_matrixShape? old, DataType.numeric?_of_matrixShape? new⟩

/-- An expression that has the type for which it is taken is converted to the type that is asked
for. -/
theorem typeOf?_convert_of_typed {source target : DataType}
    (given : tree.convert source target = .ok result) (stays : source.decay? = some source)
    (steady : target.decay? = some target) (apart : source ≠ target)
    (typed : typeOf? scope tree = source.numeric?) : typeOf? scope result = target.numeric? := by
  obtain ⟨decayed, decays, converts⟩ := Tree.convert_eq_ok given steady
  obtain rfl : source = decayed := Option.some.inj (stays.symm.trans decays)
  obtain ⟨old, new, held, asked⟩ := converts.exists_numeric apart
  have declared : source.declared? = some old := by
    rw [DataType.declared?, stays, Option.bind_some, held]
  have settled : Settled scope tree := fun untyped => by
    rw [typed, held] at untyped
    cases untyped
  rw [typeOf?_convert given steady settled, typed, held, asked]
  · simp only [Option.map_some, Numeric.converted, declared, asked]
    split
    · rename_i kept
      rcases kept with rfl | ⟨same, -⟩
      · rfl
      · rw [same]
    · rfl
  · intro own is
    obtain rfl : old = own := Option.some.inj ((held.symm.trans typed.symm).trans is)
    rw [declared]
    rfl

end Conversions

section Literals

theorem numberFamily_withPoint {word : List Char}
    (numeric : ∀ c ∈ word, c.isDigit = true ∨ c = '.') :
    numberFamily (Decimal.withPoint word) = .float := by
  unfold Decimal.withPoint
  split
  · rename_i point
    rw [numberFamily_of_numeric numeric, if_pos point]
  · rw [numberFamily_of_numeric, if_pos (by simp)]
    intro c member
    rcases List.mem_append.1 member with early | late
    · exact numeric c early
    · have rest : ['.', '0'].all (fun c => c.isDigit || c == '.') = true := by decide
      simpa using List.all_eq_true.1 rest c late

/-- A number of a family, perhaps with a sign before it. -/
def IsNumber (family : Family) (text : List Char) : Prop :=
  ∃ negative word, isUnsigned word = true ∧ numberFamily word = family ∧
    text = Decimal.signed negative word

theorem isNumber_floatText (number : Bool × Decimal.Magnitude) :
    IsNumber .float (floatText number) := by
  obtain ⟨negative, magnitude⟩ := number
  cases magnitude with
  | infinite | undefined => exact ⟨false, ['0', '.', '0'], by decide, by decide, rfl⟩
  | zero =>
    refine ⟨negative, _, isUnsigned_withPoint (by decide), ?_, withPoint_signed negative ['0']⟩
    exact numberFamily_withPoint (by simp)
  | finite b =>
    exact ⟨negative, _, isUnsigned_withPoint (isUnsigned_positional _),
      numberFamily_withPoint fun _ => isDigit_or_point_of_positional, withPoint_signed negative _⟩

theorem isNumber_float64 (x : Float) : IsNumber .float (float64 x).toList := by
  simpa [float64] using isNumber_floatText (Decimal.decode64 x)

theorem isNumber_float32 (x : Float32) : IsNumber .float (float32 x).toList := by
  simpa [float32] using isNumber_floatText (Decimal.decode32 x)

theorem isNumber_int (i : Int) : IsNumber .int (toString i).toList := by
  have digits (n : Nat) : numberFamily (toString n).toList = .int :=
    numberFamily_of_digits fun _ => isDigit_of_mem_repr
  cases i with
  | ofNat n => exact ⟨false, _, isUnsigned_nat n, digits n, rfl⟩
  | negSucc n =>
    refine ⟨true, _, isUnsigned_nat (n + 1), digits (n + 1), ?_⟩
    show ("-" ++ toString (n + 1)).toList = _
    rw [String.toList_append]
    rfl

theorem IsNumber.append {family other : Family} {text suffix : List Char}
    (number : IsNumber family text) (letters : suffix.all Text.isIdentifierChar = true)
    (is : ∀ word, numberFamily (word ++ suffix) = other) : IsNumber other (text ++ suffix) := by
  obtain ⟨negative, word, numeric, -, rfl⟩ := number
  exact ⟨negative, word ++ suffix, isUnsigned_append numeric letters, is word,
    by cases negative <;> rfl⟩

/-- A text is an expression of a type. It has no operators outside of brackets, except for a sign
in front of it. -/
def IsTyped (scope : Scope) (text : String) (type : Option Numeric) : Prop :=
  ∃ tree, Spells .signed text.toList tree ∧ typeOf? scope tree = type

section Typed

variable {text : String} {type : Option Numeric}

theorem IsTyped.codeType? (typed : IsTyped scope text type) : codeType? scope text = type := by
  obtain ⟨tree, spells, typed⟩ := typed
  rw [codeType?_of_spells spells, typed]

theorem IsTyped.isLiteral {own : DataType} (typed : IsTyped scope text type)
    (single : ∀ family, type = some ⟨family, .scalar⟩ → own.width = 1) : IsLiteral text own := by
  obtain ⟨tree, spells, typed⟩ := typed
  refine ⟨tree, spells, fun number => ?_⟩
  cases tree with
  | number word => exact single _ (typed.symm.trans (by rw [typeOf?]))
  | _ => cases number

theorem IsNumber.isTyped {family : Family} (number : IsNumber family text.toList) (scope : Scope) :
    IsTyped scope text (some ⟨family, .scalar⟩) := by
  obtain ⟨negative, word, numeric, rfl, shape⟩ := number
  have typed : typeOf? scope (.number (String.ofList word)) =
      some ⟨numberFamily word, .scalar⟩ := by
    rw [typeOf?, String.toList_ofList]
  have arithmetic : numberFamily word ≠ .bool := by
    unfold numberFamily
    split
    · simp
    · split
      · simp
      · split <;> simp
  rw [IsTyped, shape]
  cases negative with
  | false => exact ⟨_, (Spells.number numeric).operand, typed⟩
  | true =>
    refine ⟨_, .negative numeric, ?_⟩
    rw [typeOf?, typed]
    simp [Option.filter, arithmetic]

/-- A constructor that takes numbers. -/
theorem exists_typed_call (named : isName function.toList = true) {arguments : List String}
    (numbers : ∀ a ∈ arguments, IsNumber .float a.toList) (filled : arguments ≠ [])
    (scope : Scope) :
    ∃ tree, Spells .operand (call function arguments).toList tree ∧ tree.isNumber = false ∧
      typeOf? scope tree =
        called? function (List.replicate arguments.length ⟨.float, .scalar⟩) := by
  have all : ∃ trees, List.Forall₂ (fun a tree => Spells (.upTo 12) a.toList tree) arguments trees ∧
      List.Forall₂ (fun tree type => typeOf? scope tree = some type) trees
        (List.replicate arguments.length ⟨.float, .scalar⟩) := by
    clear filled
    induction arguments with
    | nil => exact ⟨[], .nil, .nil⟩
    | cons a arguments ih =>
      obtain ⟨tree, spells, typed⟩ := (numbers a List.mem_cons_self).isTyped scope
      obtain ⟨trees, spelled, rest⟩ := ih fun a later => numbers a (List.mem_cons_of_mem _ later)
      exact ⟨tree :: trees, .cons (spells.weaken (by decide)) spelled, .cons typed rest⟩
  obtain ⟨trees, spelled, typed⟩ := all
  have some : trees ≠ [] := by
    rintro rfl
    exact filled (List.forall₂_nil_right_iff.1 spelled)
  refine ⟨_, .call named spelled filled, Tree.isNumber_call function trees, ?_⟩
  rw [typeOf?_call some, mapM_typeOf? typed, Option.bind_some]

theorem isTyped_call (named : isName function.toList = true) {values : List Float}
    (filled : values ≠ []) : IsTyped scope (call function (values.map float64))
      (called? function (List.replicate values.length ⟨.float, .scalar⟩)) := by
  obtain ⟨tree, spells, -, typed⟩ := exists_typed_call named
    (List.forall_mem_map.2 fun x _ => isNumber_float64 x) (by simpa using filled) scope
  exact ⟨tree, spells.operand, by rw [typed, List.length_map]⟩

theorem isTyped_truth (scope : Scope) (truth : Bool) :
    IsTyped scope (if truth then "true" else "false") (some ⟨.bool, .scalar⟩) := by
  cases truth <;> exact ⟨_, (Spells.name (by decide)).operand, rfl⟩

end Typed

/-- The type in which a literal of a type is written. Scalars keep it, and components are numbers
of the type to which it decays; a single component is just a number. -/
def literalType? (value : Json) (type : DataType) : Option DataType :=
  match value with
  | .array [_] => some .float
  | _ => if type.width = 1 then some type else type.decay?

theorem isTyped_ofNumber {x : Float} {type : DataType} {text : String}
    (given : ofNumber x type = .ok text) : IsTyped scope text
      ((if type.width = 1 then some type else type.decay?).bind DataType.numeric?) := by
  unfold ofNumber at given
  split at given
  · obtain rfl := Except.ok.inj given
    exact (isNumber_int _).isTyped scope
  · obtain rfl := Except.ok.inj given
    refine IsNumber.isTyped ?_ scope
    have suffixed := (isNumber_int (Decimal.truncate 0 (UInt64.size - 1) x)).append
      (show "u".toList.all Text.isIdentifierChar = true by decide) numberFamily_uint
    rw [← String.toList_append] at suffixed
    exact suffixed
  · obtain rfl := Except.ok.inj given
    split
    · exact isTyped_truth scope false
    · exact isTyped_truth scope true
  · obtain rfl := Except.ok.inj given
    refine IsNumber.isTyped ?_ scope
    rw [String.toList_append]
    exact (isNumber_float64 x).append (by decide) numberFamily_double
  · obtain rfl := Except.ok.inj given
    exact (isNumber_float64 x).isTyped scope
  · obtain ⟨decayed, decays, given⟩ := eq_ok_of_bind given
    obtain ⟨spelling, spelled, given⟩ := eq_ok_of_bind given
    obtain rfl := Except.ok.inj given
    have wide : type.width ≠ 1 := by
      cases type <;> simp_all [DataType.width, DataType.vectorShape?]
    have single : IsTyped scope (call spelling [float64 x])
        (called? spelling [⟨.float, .scalar⟩]) :=
      @isTyped_call scope spelling (isName_spelling spelled) [x] (by simp)
    rw [called?_spelling spelled] at single
    rw [if_neg wide, DataType.decay?_of_decayed decays, Option.bind_some]
    cases held : decayed.numeric? <;> rw [held] at single <;> exact single

theorem ofComponents_eq_ok {values : List Float} {type : DataType} {text : String}
    (given : ofComponents values type = .ok text) :
    ∃ made, type.numeric? = some made ∧ values.length = made.rank.components ∧
      (values.length = 1 ∧ (∃ x, text = float64 x) ∨
        values.length ≠ 1 ∧ ∃ spelling, type.spelling = .ok spelling ∧
          text = call spelling (values.map float64)) := by
  obtain ⟨expected, counted, given⟩ := eq_ok_of_bind given
  obtain ⟨made, held, components⟩ : ∃ made, type.numeric? = some made ∧
      made.rank.components = expected := by
    cases type <;> cases counted <;> exact ⟨_, rfl, rfl⟩
  dsimp only at given
  split at given
  · obtain ⟨_, impossible, -⟩ := eq_ok_of_bind given
    cases impossible
  · rename_i length
    have count : values.length = expected := by simpa using length
    refine ⟨made, held, count.trans components.symm, ?_⟩
    split at given
    · obtain rfl := Except.ok.inj given
      exact .inl ⟨rfl, _, rfl⟩
    · rename_i several
      obtain ⟨spelling, spelled, given⟩ := eq_ok_of_bind given
      obtain rfl := Except.ok.inj given
      refine .inr ⟨fun one => ?_, spelling, spelled, rfl⟩
      obtain ⟨x, rfl⟩ := List.length_eq_one_iff.1 one
      exact several x rfl

theorem isTyped_ofComponents {values : List Float} {type : DataType} {text : String}
    (given : ofComponents values type = .ok text) : IsTyped scope text
      (if values.length = 1 then some ⟨.float, .scalar⟩ else type.numeric?) := by
  obtain ⟨made, held, count, ⟨one, x, rfl⟩ | ⟨several, spelling, spelled, rfl⟩⟩ :=
    ofComponents_eq_ok given
  · rw [if_pos one]
    exact (isNumber_float64 x).isTyped scope
  · have some : 0 < made.rank.components := by
      cases type <;> cases held <;> decide
    have filled : values ≠ [] := List.ne_nil_of_length_pos (by omega)
    have takes := Rank.constructs_scalars made.rank some
    have typed := @isTyped_call scope _ (isName_spelling spelled) _ filled
    rw [← count] at takes
    rw [if_neg several, held]
    rwa [called?_spelling spelled, held, Option.filter_some, List.map_replicate,
      if_pos takes] at typed

theorem isTyped_ofJson {value : Json} {type : Option DataType} {literal : Expression}
    (scope : Scope) (given : ofJson value type = .ok literal) : IsTyped scope literal.code
      ((literalType? value literal.type).bind DataType.numeric?) := by
  unfold ofJson at given
  split at given
  · obtain rfl := Except.ok.inj given
    exact isTyped_truth scope _
  · obtain ⟨text, made, given⟩ := eq_ok_of_bind given
    obtain rfl := Except.ok.inj given
    exact isTyped_ofNumber made
  · rename_i items
    obtain ⟨values, listed, given⟩ := eq_ok_of_bind given
    have written {type : DataType} (steady : type.decay? = some type)
        (given : (do return ⟨← ofComponents values type, type⟩ : Except Failure Expression) =
          .ok literal) : IsTyped scope literal.code
          ((literalType? (.array items) literal.type).bind DataType.numeric?) := by
      obtain ⟨text, made, given⟩ := eq_ok_of_bind given
      obtain rfl := Except.ok.inj given
      obtain ⟨held, is, count, -⟩ := ofComponents_eq_ok made
      have length : values.length = items.length := (forall₂_of_mapM listed).length_eq.symm
      have typed := @isTyped_ofComponents scope _ _ _ made
      split at typed
      · rename_i one
        obtain ⟨item, rfl⟩ := List.length_eq_one_iff.1 (length.symm.trans one)
        exact typed
      · rename_i several
        have wide : type.width ≠ 1 := by
          intro single
          cases type <;> cases single <;> cases is <;> exact several count
        have many : literalType? (.array items) type =
            if type.width = 1 then some type else type.decay? := by
          unfold literalType?
          split
          · rename_i same
            cases same
            exact absurd length several
          · rfl
        rwa [many, if_neg wide, steady, Option.bind_some]
    dsimp only at given
    split at given
    all_goals
      obtain ⟨type, found, given⟩ := eq_ok_of_bind given
      refine written ?_ given
    · exact DataType.decay?_idem (DataType.decay?_of_decayed found)
    · unfold typeOfWidth at found
      split at found <;> cases found <;> rfl
  · cases given

/-- Literals of scalars are written as scalars, and all others in the type to which their own
decays. -/
theorem literalType?_cases {value : Json} {type : Option DataType} {literal : Expression}
    (given : ofJson value type = .ok literal) :
    (literal.type.width = 1 ∧
      ∃ written, literalType? value literal.type = some written ∧ written.width = 1) ∨
      literalType? value literal.type = literal.type.decay? := by
  unfold literalType?
  split
  · rename_i item
    refine .inl ⟨?_, _, rfl, rfl⟩
    obtain ⟨values, listed, given⟩ := eq_ok_of_bind given
    have written {type : DataType} (given : (do return ⟨← ofComponents values type, type⟩ :
        Except Failure Expression) = .ok literal) : literal.type.width = 1 := by
      obtain ⟨text, made, given⟩ := eq_ok_of_bind given
      obtain rfl := Except.ok.inj given
      obtain ⟨held, numeric, count, -⟩ := ofComponents_eq_ok made
      rw [← (forall₂_of_mapM listed).length_eq] at count
      dsimp only
      cases type <;> cases numeric <;> first | rfl | cases count
    dsimp only at given
    split at given
    all_goals
      obtain ⟨type, -, given⟩ := eq_ok_of_bind given
      exact written given
  · split
    · rename_i single
      exact .inl ⟨single, _, rfl, single⟩
    · exact .inr rfl

theorem isLiteral_ofJson {value : Json} {type : Option DataType} {literal : Expression}
    (given : ofJson value type = .ok literal) : IsLiteral literal.code literal.type := by
  refine (isTyped_ofJson ⟨fun _ => none, fun _ _ => none⟩ given).isLiteral fun family is => ?_
  rcases literalType?_cases given with ⟨single, -⟩ | same
  · exact single
  · rw [same] at is
    cases held : literal.type <;> rw [held] at is <;> first | rfl | cases is

theorem literalType?_of_ofJson {value : Json} {literal : Expression}
    (given : ofJson value none = .ok literal) :
    literalType? value literal.type = some literal.type ∧
      (literal.type = .bool ∨ literal.type.decay? = some literal.type) := by
  unfold ofJson at given
  split at given
  · obtain rfl := Except.ok.inj given
    exact ⟨rfl, .inl rfl⟩
  · obtain ⟨text, -, given⟩ := eq_ok_of_bind given
    obtain rfl := Except.ok.inj given
    exact ⟨rfl, .inr rfl⟩
  · rename_i items
    obtain ⟨values, listed, given⟩ := eq_ok_of_bind given
    obtain ⟨type, found, given⟩ := eq_ok_of_bind given
    obtain ⟨text, -, given⟩ := eq_ok_of_bind given
    obtain rfl := Except.ok.inj given
    have steady : type.decay? = some type := by
      unfold typeOfWidth at found
      split at found <;> cases found <;> rfl
    refine ⟨?_, .inr steady⟩
    unfold literalType?
    split
    · rename_i same
      cases same
      rw [← (forall₂_of_mapM listed).length_eq] at found
      cases found
      rfl
    · rw [steady, ite_self]
  · cases given

end Literals

end Glsl

end GlslMaterial
