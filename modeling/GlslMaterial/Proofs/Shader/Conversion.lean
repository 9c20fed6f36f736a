import GlslMaterial.Proofs.Glsl.Grouping
import GlslMaterial.Proofs.Shader.Denotation

/-!
What conversions denote. A vector keeps its first components, and what is missing is the filler,
except for the fourth component of a vector of four, which is one. A matrix keeps what both sizes
have; what is missing is zero beside the diagonal, the filler on it and one in its last place.

Constructors take an expression as an argument and put no parentheses around it, so that a comma
would make two arguments of it. Such an expression has to be one that can be an argument; all others
are put in parentheses where they need it.
-/

set_option autoImplicit false

namespace GlslMaterial.Shader

open Glsl (Derives isName isName_leading isName_numbered parse)

section Specification

def fitVector (width : Nat) (filler : ℚ) (components : List ℚ) : List ℚ :=
  (List.range width).map fun i => components.getD i (if width = 4 ∧ i = 3 then 1 else filler)

/-- An entry of a matrix in another dimension. -/
def fitEntry (dimension : Nat) (filler : ℚ) (columns : List (List ℚ)) (column row : Nat) : ℚ :=
  (columns[column]?.bind (·[row]?)).getD
    (if row ≠ column then 0 else if column = dimension - 1 then 1 else filler)

def fitMatrix (dimension : Nat) (filler : ℚ) (columns : List (List ℚ)) : List (List ℚ) :=
  square dimension (fitEntry dimension filler columns)

/-- The type that a conversion works with. -/
def decayOf (type : DataType) : DataType :=
  type.decay?.getD type

/-- Whether a value has as many components as a type, in columns where it is a matrix. -/
def Value.fits (value : Value) (type : DataType) : Bool :=
  match value, type.vectorShape?, type.matrixShape? with
  | .vector _ components, some (_, count), _ => components.length = count
  | .matrix _ columns, none, some (_, dimension) =>
    columns.length = dimension && columns.all (·.length = dimension)
  | _, none, none => true
  | _, _, _ => false

/-- Values that have the components of another value in the shape of a type. -/
def Value.Resized (type : DataType) (filler : ℚ) (value result : Value) : Prop :=
  match value, type.vectorShape?, type.matrixShape? with
  | .vector _ components, some (_, width), _ =>
    ∃ family, result = .vector family (fitVector width filler components)
  | .matrix _ columns, none, some (_, dimension) =>
    ∃ family, result = .matrix family (fitMatrix dimension filler columns)
  | _, _, _ => False

/-- Pairs of different types of which both are vectors, or both matrices. -/
def isResizing (source target : DataType) : Bool :=
  source ≠ target && (source.vectorShape?.isSome && target.vectorShape?.isSome ||
    source.matrixShape?.isSome && target.matrixShape?.isSome)

/-- Whether the converted expression is an argument as it is. -/
def isArgument (source target : DataType) : Bool :=
  isResizing source target &&
    match source.matrixShape?, target.matrixShape? with
    | some (_, count), some (_, dimension) => dimension ≤ count
    | _, _ => source.width ≤ target.width

/-- Whether there is a component for the filler. -/
def isFilled (source target : DataType) : Bool :=
  match source.matrixShape?, target.matrixShape? with
  | some (_, count), some (_, dimension) => count + 1 < dimension
  | _, _ => source.width < target.width && !(source.width = 3 && target.width = 4)

end Specification

section Constructors

variable {family : Family} {values : List Value} {given : List (List ℚ)} {components : List ℚ}

theorem flatten_singles {α : Type} (items : List α) (f : α → ℚ) :
    (items.map fun i => [f i]).flatten = items.map f := by
  induction items with
  | nil => rfl
  | cons first items ih => rw [List.map_cons, List.flatten_cons, ih, List.map_cons]; rfl

theorem filled?_of_length {count : Nat} (filled : given ≠ []) (last : ∀ part ∈ given, part ≠ [])
    (length : given.flatten.length = count) : filled? count given = some given.flatten := by
  obtain ⟨front, part, rfl⟩ : ∃ front part, given = front ++ [part] :=
    ⟨_, _, (List.dropLast_append_getLast filled).symm⟩
  have pos : 0 < part.length := List.length_pos_iff.2 (last part (by simp))
  have less : front.flatten.length < count := by
    rw [← length, List.flatten_append, List.length_append]
    simpa using pos
  rw [filled?, List.dropLast_concat, if_pos ⟨less, length.ge⟩, ← length, List.take_length]

theorem makeVector_of_filled {width : Nat} (parts : values.map Value.components = given)
    (full : filled? width given = some components) :
    makeVector family width values =
      .ok (.vector family (components.map (convertedTo family))) := by
  unfold makeVector
  split
  · rename_i own x
    obtain rfl : [[x]] = given := by simpa [Value.components] using parts
    simp only [filled?, List.dropLast_singleton, List.flatten_nil, List.length_nil,
      List.flatten_cons, List.append_nil, List.length_singleton] at full
    split at full
    · rename_i bounds
      obtain rfl : width = 1 := by omega
      obtain rfl : [x] = components := by simpa using full
      rfl
    · cases full
  · simp [parts, full]

variable {columns : List (List ℚ)} {dimension : Nat}

theorem getElem?_flatten {column row : Nat}
    (lengths : ∀ part ∈ columns, part.length = dimension) (bound : row < dimension) :
    columns.flatten[column * dimension + row]? = columns[column]?.bind (·[row]?) := by
  induction columns generalizing column with
  | nil => simp
  | cons first columns ih =>
    have length : first.length = dimension := lengths first List.mem_cons_self
    rw [List.flatten_cons]
    cases column with
    | zero =>
      rw [Nat.zero_mul, Nat.zero_add, List.getElem?_append_left (by omega)]
      rfl
    | succ column =>
      have next : (column + 1) * dimension + row = first.length + (column * dimension + row) := by
        rw [Nat.succ_mul, length]
        omega
      rw [next, List.getElem?_append_right (by omega), Nat.add_sub_cancel_left,
        ih fun part member => lengths part (.tail _ member), List.getElem?_cons_succ]

theorem square_eq {entry : Nat → Nat → ℚ}
    (count : columns.length = dimension) (lengths : ∀ part ∈ columns, part.length = dimension)
    (entries : ∀ column row, column < dimension → row < dimension →
      columns[column]?.bind (·[row]?) = some (entry column row)) :
    square dimension entry = columns := by
  refine List.ext_getElem (by simp [square, count]) fun column one two => ?_
  have length := lengths _ (List.getElem_mem two)
  refine List.ext_getElem (by simp [square, length]) fun row inner outer => ?_
  have found := entries column row (count ▸ two) (length ▸ outer)
  rw [List.getElem?_eq_getElem two, Option.bind_some, List.getElem?_eq_getElem outer] at found
  simpa [square] using (Option.some.inj found).symm

theorem makeMatrix_columns (several : 2 ≤ dimension)
    (exact : ∀ x, convertedTo family x = x) (own : Family) (count : columns.length = dimension)
    (lengths : ∀ part ∈ columns, part.length = dimension) :
    makeMatrix family dimension (columns.map (.vector own)) = .ok (.matrix family columns) := by
  have parts : (columns.map (Value.vector own)).map Value.components = columns := by
    rw [List.map_map]
    exact List.map_id columns
  have total : columns.flatten.length = dimension * dimension := by
    rw [List.length_flatten, List.map_congr_left lengths, List.map_const', List.sum_replicate_nat,
      count]
  have full : filled? (dimension * dimension) columns = some columns.flatten := by
    refine filled?_of_length ?_ (fun part member => ?_) total
    · rintro rfl
      simp at count
      omega
    · rintro rfl
      have := lengths [] member
      simp at this
      omega
  have made : makeMatrix family dimension (columns.map (.vector own)) =
      .ok (.matrix family (square dimension fun column row =>
        convertedTo family (columns.flatten.getD (column * dimension + row) 0))) := by
    obtain ⟨first, second, more, rfl⟩ : ∃ first second more, columns = first :: second :: more := by
      cases columns with
      | nil => simp at count; omega
      | cons first columns =>
        cases columns with
        | nil => simp at count; omega
        | cons second more => exact ⟨first, second, more, rfl⟩
    rw [makeMatrix, parts, full] <;> simp
  rw [made, square_eq count lengths]
  intro column row inColumns inRows
  have here : column < columns.length := by omega
  have found : row < columns[column].length := by
    rw [lengths _ (List.getElem_mem here)]
    exact inRows
  rw [exact, List.getD_eq_getElem?_getD, getElem?_flatten lengths inRows,
    List.getElem?_eq_getElem here, Option.bind_some, List.getElem?_eq_getElem found,
    Option.getD_some]

end Constructors

section Vectors

theorem fitVector_of_le {width : Nat} {components : List ℚ} (le : width ≤ components.length)
    (x : ℚ) : fitVector width x components = components.take width := by
  refine List.ext_getElem (by simp [fitVector, le]) fun i one two => ?_
  have bound : i < components.length := by
    rw [List.length_take] at two
    omega
  simp [fitVector, bound]

theorem fitVector_of_lt {width : Nat} {components : List ℚ} (less : components.length < width)
    (x : ℚ) : fitVector width x components = components ++
      (List.range' components.length (width - components.length)).map fun i =>
        if width = 4 ∧ i = 3 then 1 else x := by
  refine List.ext_getElem (by simp [fitVector]; omega) fun i one two => ?_
  rw [List.getElem_append]
  split
  · rename_i old
    simp [fitVector, old]
  · rename_i new
    have past : components.length ≤ i := by omega
    simp [fitVector, past]

theorem mapM_leading {width : Nat} {components : List ℚ} (le : width ≤ components.length)
    (pos : 0 < width) (few : width ≤ 4) :
    (Glsl.leading width).toList.mapM (component? components) = some (components.take width) := by
  obtain ⟨front, rest, rfl, rfl⟩ : ∃ front rest, front ++ rest = components ∧
      front.length = width :=
    ⟨components.take width, components.drop width, by simp, by simp [le]⟩
  rw [List.take_left, Glsl.leading, String.toList_ofList]
  rcases front with _ | ⟨a, _ | ⟨b, _ | ⟨c, _ | ⟨d, _ | ⟨e, more⟩⟩⟩⟩⟩
  · cases pos
  · rfl
  · rfl
  · rfl
  · rfl
  · simp only [List.length_cons] at few
    omega

variable {m : Meaning} {code filler target : String} {own other : Family} {components : List ℚ}
  {x : ℚ} {count width : Nat}

/-- A text that can be an argument has some components. -/
def Supplies (m : Meaning) (text : String) (part : List ℚ) : Prop :=
  ∃ value, Denotes m (.upTo 12) text value ∧ value.components = part

theorem Supplies.vector {kind : Family}
    (denotes : Denotes m (.upTo 12) code (.vector kind components)) : Supplies m code components :=
  ⟨_, denotes, rfl⟩

theorem supplies_replicate {part : List ℚ} (supplies : Supplies m code part) (n : Nat) :
    List.Forall₂ (Supplies m) (List.replicate n code) (List.replicate n part) := by
  induction n with
  | zero => exact .nil
  | succ n ih => exact .cons supplies ih

theorem exists_values {texts : List String} {given : List (List ℚ)}
    (all : List.Forall₂ (Supplies m) texts given) :
    ∃ values, List.Forall₂ (Denotes m (.upTo 12)) texts values ∧
      values.map Value.components = given := by
  induction all with
  | nil => exact ⟨[], .nil, rfl⟩
  | cons one _ ih =>
    obtain ⟨value, denotes, part⟩ := one
    obtain ⟨values, all, parts⟩ := ih
    exact ⟨value :: values, .cons denotes all, by simp [part, parts]⟩

theorem denotes_makeVector (named : isName target.toList = true)
    (makes : constructor? target = some (makeVector other width))
    (exact : ∀ x, convertedTo other x = x) {texts : List String} {given : List (List ℚ)}
    (filled : texts ≠ []) (all : List.Forall₂ (Supplies m) texts given)
    (last : ∀ part ∈ given, part ≠ []) (whole : given.flatten = components)
    (length : components.length = width) :
    Denotes m .operand (Glsl.call target texts) (.vector other components) := by
  obtain ⟨values, denotes, parts⟩ := exists_values all
  have some : given ≠ [] := by
    rintro rfl
    cases all
    exact filled rfl
  have made : makeVector other width values =
      .ok (.vector other (given.flatten.map (convertedTo other))) :=
    makeVector_of_filled parts (filled?_of_length some last (whole ▸ length))
  rw [List.map_congr_left fun x _ => exact x, List.map_id', whole] at made
  exact .call named filled denotes makes made

theorem supplies_padding (fill : ¬ (count = 3 ∧ width = 4) → Supplies m filler [x]) :
    List.Forall₂ (Supplies m) (Glsl.padding count width filler)
      ((List.range' count (width - count)).map fun i => [if width = 4 ∧ i = 3 then 1 else x]) := by
  rw [Glsl.padding, List.forall₂_map_left_iff, List.forall₂_map_right_iff, List.forall₂_same]
  intro i member
  obtain ⟨above, bound⟩ := List.mem_range'_1.1 member
  by_cases last : width = 4 ∧ i = 3
  · simp only [last.1, last.2, decide_true, Bool.and_self, if_true, and_self]
    exact .vector ((Denotes.one m).upTo 12)
  · have other : (decide (width = 4) && decide (i = 3)) = false := by simpa using last
    simp only [last, other, Bool.false_eq_true, if_false]
    exact fill fun edge => last (by omega)

theorem denotes_convertVector (named : isName target.toList = true)
    (makes : constructor? target = some (makeVector other width))
    (exact : ∀ x, convertedTo other x = x)
    (denotes : Denotes m (.upTo (if components.length ≤ width then 12 else 13)) code
      (.vector own components))
    (pos : 0 < width) (few : width ≤ 4) (some : components ≠ [])
    (fill : components.length < width → ¬ (components.length = 3 ∧ width = 4) →
      Supplies m filler [x])
    (family : Family) :
    ∃ kind, Denotes m .operand
      (Glsl.convertVector code family components.length target other width filler)
      (.vector kind (fitVector width x components)) := by
  have length : 0 < components.length := List.length_pos_iff.2 some
  unfold Glsl.convertVector
  by_cases shrinks : width < components.length
  · rw [if_neg (by omega)] at denotes
    rw [if_pos shrinks, fitVector_of_le shrinks.le]
    have part := denotes.atom.part (by omega) (isName_leading pos)
      (mapM_leading shrinks.le pos few)
    split
    · exact ⟨own, part⟩
    · exact ⟨other, denotes_makeVector named makes exact (by simp)
        (.cons (.vector (part.upTo 12)) .nil)
        (by simpa using ⟨pos.ne', some⟩) (by simp) (by simp [shrinks.le])⟩
  · rw [if_pos (by omega)] at denotes
    rw [if_neg shrinks]
    by_cases grows : components.length < width
    · rw [if_pos grows, fitVector_of_lt grows]
      refine ⟨other, denotes_makeVector named makes exact (by simp)
        (.cons (.vector denotes) (supplies_padding (fill grows))) ?_ ?_ ?_⟩
      · rintro part (_ | ⟨_, member⟩)
        · exact some
        · obtain ⟨i, -, rfl⟩ := List.mem_map.1 member
          simp
      · rw [List.flatten_cons, flatten_singles]
      · simp
        omega
    · rw [if_neg grows, fitVector_of_le (by omega), List.take_of_length_le (by omega)]
      exact ⟨other, denotes_makeVector named makes exact (by simp) (.cons (.vector denotes) .nil)
        (by simpa using some) (by simp) (by omega)⟩

end Vectors

section Matrices

variable {m : Meaning} {code filler target : String} {own other : Family} {columns : List (List ℚ)}
  {x : ℚ} {dimension : Nat}

theorem getElem?_entry {column row : Nat} (lengths : ∀ part ∈ columns, part.length = columns.length)
    (inColumns : column < columns.length) (inRows : row < columns.length) :
    ∃ entry, columns[column]?.bind (·[row]?) = some entry := by
  have found : row < columns[column].length := by
    rw [lengths _ (List.getElem_mem inColumns)]
    exact inRows
  exact ⟨_, by rw [List.getElem?_eq_getElem inColumns, Option.bind_some,
    List.getElem?_eq_getElem found]⟩

theorem denotes_shrunkMatrix (named : isName target.toList = true)
    (makes : constructor? target = some (makeMatrix other dimension))
    (exact : ∀ x, convertedTo other x = x)
    (denotes : Denotes m (.upTo 12) code (.matrix own columns))
    (lengths : ∀ part ∈ columns, part.length = columns.length) (le : dimension ≤ columns.length) :
    Denotes m .operand (Glsl.call target [code])
      (.matrix other (fitMatrix dimension x columns)) := by
  refine .call named (by simp) (.cons denotes .nil) makes ?_
  have same : square dimension (fun column row => convertedTo other (entryOf columns column row)) =
      fitMatrix dimension x columns := by
    refine List.map_congr_left fun column inColumns => List.map_congr_left fun row inRows => ?_
    rw [List.mem_range] at inColumns inRows
    obtain ⟨entry, found⟩ := getElem?_entry lengths (inColumns.trans_le le) (inRows.trans_le le)
    simp only [exact, entryOf, fitEntry, found, Option.getD_some]
  rw [← same]
  rfl

theorem denotes_grownColumn (denotes : Denotes m .operand code (.matrix own columns))
    (lengths : ∀ part ∈ columns, part.length = columns.length) (several : 2 ≤ columns.length)
    (grows : columns.length < dimension) (few : dimension ≤ 4)
    (fill : columns.length + 1 < dimension → Supplies m filler [x]) {column : Nat}
    (bound : column < dimension) :
    Denotes m .operand (Glsl.grownColumn code columns.length dimension filler column)
      (.vector .float ((List.range dimension).map (fitEntry dimension x columns column))) := by
  have known : dimension = 3 ∨ dimension = 4 := by omega
  have named : isName s!"vec{dimension}".toList = true := isName_numbered (by decide) dimension
  have makes : constructor? s!"vec{dimension}" = some (makeVector .float dimension) := by
    rcases known with rfl | rfl <;> rfl
  unfold Glsl.grownColumn
  by_cases old : column < columns.length
  · have item : (Value.matrix own columns).item column = .ok (.vector own columns[column]) := by
      simp [Value.item, old]
    have length := lengths _ (List.getElem_mem old)
    have zeros : List.Forall₂ (Supplies m) (List.replicate (dimension - columns.length) "0.0")
        (List.replicate (dimension - columns.length) [0]) :=
      supplies_replicate (.vector ((Denotes.zero m).upTo 12)) _
    rw [if_pos old]
    refine denotes_makeVector named makes (fun _ => rfl) (by simp)
      (.cons (.vector ((denotes.item item).upTo 12)) zeros) ?_ ?_ (by simp)
    · rintro part (_ | ⟨_, member⟩)
      · rw [← List.length_pos_iff, length]
        omega
      · rw [List.eq_of_mem_replicate member]
        simp
    · rw [List.flatten_cons, List.flatten_replicate_singleton]
      refine List.ext_getElem (by simp; omega) fun row one two => ?_
      rw [List.getElem_append]
      split
      · rename_i inside
        simp [fitEntry, old, inside]
      · rename_i beyond
        have outside : columns[column].length ≤ row := by omega
        have beside : row ≠ column := by omega
        simp [fitEntry, old, outside, beside]
  · rw [if_neg old]
    have entries : List.Forall₂ (Supplies m)
        ((List.range dimension).map fun row =>
          if row ≠ column then "0.0" else if column = dimension - 1 then "1.0" else filler)
        ((List.range dimension).map fun row => [fitEntry dimension x columns column row]) := by
      rw [List.forall₂_map_left_iff, List.forall₂_map_right_iff, List.forall₂_same]
      intro row _
      have entry : fitEntry dimension x columns column row =
          if row ≠ column then 0 else if column = dimension - 1 then 1 else x := by
        simp [fitEntry, Nat.le_of_not_lt old]
      rw [entry]
      split
      · exact .vector ((Denotes.zero m).upTo 12)
      · split
        · exact .vector ((Denotes.one m).upTo 12)
        · exact fill (by omega)
    refine denotes_makeVector named makes (fun _ => rfl) (by simp; omega) entries (by simp)
      (flatten_singles _ _) (by simp)

theorem denotes_growMatrix (named : isName target.toList = true)
    (makes : constructor? target = some (makeMatrix other dimension))
    (exact : ∀ x, convertedTo other x = x)
    (denotes : Denotes m (.upTo 13) code (.matrix own columns))
    (lengths : ∀ part ∈ columns, part.length = columns.length) (several : 2 ≤ columns.length)
    (grows : columns.length < dimension) (few : dimension ≤ 4)
    (fill : columns.length + 1 < dimension → Supplies m filler [x]) :
    Denotes m .operand (Glsl.growMatrix code target columns.length dimension filler)
      (.matrix other (fitMatrix dimension x columns)) := by
  refine .call named (by simp; omega) ?_ makes
    (makeMatrix_columns (by omega) exact .float (by simp [fitMatrix, square])
      (by simp [fitMatrix, square]))
  rw [fitMatrix, square, List.map_map, List.forall₂_map_left_iff, List.forall₂_map_right_iff,
    List.forall₂_same]
  intro column member
  have column := denotes_grownColumn denotes.atom lengths several grows few fill
    (List.mem_range.1 member)
  exact column.upTo 12

end Matrices

section Convert

variable {code filler : String} {source target first second : DataType} {family other : Family}
  {count width : Nat}

theorem DataType.exists_makeVector (shape : first.vectorShape? = some (family, width)) :
    ∃ spelling, first.spelling = .ok spelling ∧ isName spelling.toList = true ∧
      constructor? spelling = some (makeVector family width) ∧ 0 < width ∧ width ≤ 4 := by
  cases first <;> cases shape <;> exact ⟨_, rfl, by decide, rfl, by decide, by decide⟩

theorem DataType.exists_makeMatrix (shape : first.matrixShape? = some (family, width)) :
    ∃ spelling, first.spelling = .ok spelling ∧ isName spelling.toList = true ∧
      constructor? spelling = some (makeMatrix family width) ∧ 2 ≤ width ∧ width ≤ 4 := by
  cases first <;> cases shape <;> exact ⟨_, rfl, by decide, rfl, by decide, by decide⟩

/-- What can cross a stage boundary has numbers with fractions. -/
theorem convertedTo_of_decay? (decays : source.decay? = some first)
    (shape : first.vectorShape? = some (family, width) ∨ first.matrixShape? = some (family, width))
    (x : ℚ) : convertedTo family x = x := by
  cases source <;> cases decays <;> rcases shape with shape | shape <;> cases shape <;> rfl

theorem matrixShape?_of_vectorShape? (shape : first.vectorShape? = some (family, width)) :
    first.matrixShape? = none := by
  cases first <;> first | rfl | cases shape

/-- Types between which there is a conversion. -/
def Convertible (source target : DataType) : Prop :=
  source = target ∨ ∃ first second, source.decay? = some first ∧ target.decay? = some second ∧
    (first = second ∨ first.vectorShape?.isSome ∧ second.vectorShape?.isSome ∨
      first.matrixShape?.isSome ∧ second.matrixShape?.isSome)

section Decayed

variable (unlike : source ≠ target) (decays : source.decay? = some first)
  (decaysTo : target.decay? = some second)
include unlike decays decaysTo

theorem convert_of_alike (alike : first = second) :
    Glsl.convert code source target filler = .ok code := by
  simp [Glsl.convert, unlike, DataType.decayed, decays, decaysTo, alike, bind, Except.bind, pure,
    Except.pure]

theorem convert_vectors (apart : first ≠ second) (shape : first.vectorShape? = some (family, count))
    (shapeTo : second.vectorShape? = some (other, width)) {spelling : String}
    (spelled : second.spelling = .ok spelling) : Glsl.convert code source target filler =
      .ok (Glsl.convertVector code family count spelling other width filler) := by
  simp [Glsl.convert, unlike, DataType.decayed, decays, decaysTo, apart, shape, shapeTo, spelled,
    bind, Except.bind, pure, Except.pure]

theorem convert_matrices (apart : first ≠ second)
    (shape : first.matrixShape? = some (family, count))
    (shapeTo : second.matrixShape? = some (other, width)) {spelling : String}
    (spelled : second.spelling = .ok spelling) : Glsl.convert code source target filler =
      .ok (if width ≤ count then Glsl.call spelling [code]
        else Glsl.growMatrix code spelling count width filler) := by
  have flat : first.vectorShape? = none := by
    cases first <;> first | rfl | cases shape
  simp only [Glsl.convert, unlike, DataType.decayed, decays, decaysTo, apart, shape, shapeTo,
    spelled, flat, bind, Except.bind, pure, Except.pure, if_false]
  split <;> rfl

end Decayed

theorem convertible_of_convert {result : String}
    (given : Glsl.convert code source target filler = .ok result) : Convertible source target := by
  by_cases alike : source = target
  · exact .inl alike
  simp only [Glsl.convert, alike, if_false] at given
  obtain ⟨first, decays, given⟩ := eq_ok_of_bind given
  obtain ⟨second, decaysTo, given⟩ := eq_ok_of_bind given
  refine .inr ⟨first, second, DataType.decay?_of_decayed decays,
    DataType.decay?_of_decayed decaysTo, ?_⟩
  by_cases same : first = second
  · exact .inl same
  refine .inr ?_
  rw [if_neg same] at given
  cases vector : first.vectorShape? with
  | some shape =>
    cases vectorTo : second.vectorShape? with
    | some shapeTo => exact .inl ⟨rfl, rfl⟩
    | none =>
      have flat := matrixShape?_of_vectorShape? vector
      simp only [vector, vectorTo, flat] at given
      cases given
  | none =>
    cases matrix : first.matrixShape? with
    | none =>
      simp only [vector, matrix] at given
      cases given
    | some shape =>
      cases matrixTo : second.matrixShape? with
      | none =>
        simp only [vector, matrix, matrixTo] at given
        cases given
      | some shapeTo => exact .inr ⟨rfl, rfl⟩

theorem exists_convert (conversion : Convertible source target) :
    ∃ result, Glsl.convert code source target filler = .ok result := by
  by_cases unlike : source = target
  · exact ⟨code, by simp [Glsl.convert, unlike, pure, Except.pure]⟩
  obtain alike | ⟨first, second, decays, decaysTo, kinds⟩ := conversion
  · exact absurd alike unlike
  by_cases apart : first = second
  · exact ⟨code, convert_of_alike unlike decays decaysTo apart⟩
  obtain alike | ⟨vector, vectorTo⟩ | ⟨matrix, matrixTo⟩ := kinds
  · exact absurd alike apart
  · obtain ⟨⟨family, count⟩, shape⟩ := Option.isSome_iff_exists.1 vector
    obtain ⟨⟨other, width⟩, shapeTo⟩ := Option.isSome_iff_exists.1 vectorTo
    obtain ⟨spelling, spelled, -⟩ := DataType.exists_makeVector shapeTo
    exact ⟨_, convert_vectors unlike decays decaysTo apart shape shapeTo spelled⟩
  · obtain ⟨⟨family, count⟩, shape⟩ := Option.isSome_iff_exists.1 matrix
    obtain ⟨⟨other, width⟩, shapeTo⟩ := Option.isSome_iff_exists.1 matrixTo
    obtain ⟨spelling, spelled, -⟩ := DataType.exists_makeMatrix shapeTo
    exact ⟨_, convert_matrices unlike decays decaysTo apart shape shapeTo spelled⟩

variable {value : Value} {m : Meaning} {x : ℚ}

theorem Value.vector_of_fits (fits : value.fits first = true)
    (shape : first.vectorShape? = some (family, count)) :
    ∃ own components, value = .vector own components ∧ components.length = count := by
  cases value with
  | vector own components => exact ⟨own, components, rfl, by simpa [Value.fits, shape] using fits⟩
  | matrix => simp [Value.fits, shape] at fits

theorem Value.matrix_of_fits (fits : value.fits first = true)
    (shape : first.matrixShape? = some (family, count)) :
    ∃ own columns, value = .matrix own columns ∧ columns.length = count ∧
      ∀ part ∈ columns, part.length = columns.length := by
  have flat : first.vectorShape? = none := by
    cases first <;> first | rfl | cases shape
  cases value with
  | vector => simp [Value.fits, shape, flat] at fits
  | matrix own columns =>
    simp only [Value.fits, shape, flat, Bool.and_eq_true, decide_eq_true_eq,
      List.all_eq_true] at fits
    exact ⟨own, columns, rfl, fits.1, fun part member => (fits.2 part member).trans fits.1.symm⟩

theorem resized_vector (decays : target.decay? = some second)
    (apart : first ≠ second) (shape : first.vectorShape? = some (family, count))
    (shapeTo : second.vectorShape? = some (other, width)) (fits : value.fits first = true)
    (denotes : Denotes m (.upTo (if isArgument first second then 12 else 13)) code value)
    (fill : isFilled first second = true → Supplies m filler [x]) {spelling : String}
    (spelled : second.spelling = .ok spelling) :
    ∃ denoted, value.Resized second x denoted ∧ Denotes m .operand
      (Glsl.convertVector code family count spelling other width filler) denoted := by
  obtain ⟨own, components, rfl, rfl⟩ := value.vector_of_fits fits shape
  obtain ⟨_, known, named, makes, pos, few⟩ := DataType.exists_makeVector shapeTo
  obtain rfl := Except.ok.inj (spelled.symm.trans known)
  have exact := convertedTo_of_decay? decays (.inl shapeTo)
  have widths : first.width = components.length ∧ second.width = width := by
    simp [DataType.width, shape, shapeTo]
  have level : isArgument first second = decide (components.length ≤ width) := by
    simp [isArgument, isResizing, apart, shape, shapeTo, matrixShape?_of_vectorShape? shape, widths]
  have filling : isFilled first second =
      (decide (components.length < width) && !(components.length = 3 && width = 4)) := by
    simp [isFilled, matrixShape?_of_vectorShape? shape, widths]
  obtain ⟨_, _, _, _, some, _⟩ := DataType.exists_makeVector shape
  rw [level] at denotes
  obtain ⟨kind, denoted⟩ :=
    denotes_convertVector (x := x) named makes exact (by simpa using denotes)
    pos few (List.length_pos_iff.1 some)
    (fun grows open_ => fill (by simp only [filling]; simp; omega)) family
  refine ⟨_, ?_, denoted⟩
  simp [Value.Resized, shapeTo]

theorem resized_matrix (decays : target.decay? = some second)
    (apart : first ≠ second) (shape : first.matrixShape? = some (family, count))
    (shapeTo : second.matrixShape? = some (other, width)) (fits : value.fits first = true)
    (denotes : Denotes m (.upTo (if isArgument first second then 12 else 13)) code value)
    (fill : isFilled first second = true → Supplies m filler [x]) {spelling : String}
    (spelled : second.spelling = .ok spelling) :
    ∃ denoted, value.Resized second x denoted ∧ Denotes m .operand
      (if width ≤ count then Glsl.call spelling [code]
        else Glsl.growMatrix code spelling count width filler) denoted := by
  obtain ⟨own, columns, rfl, rfl, lengths⟩ := value.matrix_of_fits fits shape
  obtain ⟨_, known, named, makes, -, few⟩ := DataType.exists_makeMatrix shapeTo
  obtain rfl := Except.ok.inj (spelled.symm.trans known)
  have exact := convertedTo_of_decay? decays (.inr shapeTo)
  have flat : second.vectorShape? = none := by
    cases second <;> first | rfl | cases shapeTo
  have level : isArgument first second = decide (width ≤ columns.length) := by
    simp [isArgument, isResizing, apart, shape, shapeTo]
  have filling : isFilled first second = decide (columns.length + 1 < width) := by
    simp [isFilled, shape, shapeTo]
  obtain ⟨_, _, _, _, several, _⟩ := DataType.exists_makeMatrix shape
  refine ⟨.matrix other (fitMatrix width x columns), by simp [Value.Resized, flat, shapeTo], ?_⟩
  rw [level] at denotes
  by_cases shrinks : width ≤ columns.length
  · rw [if_pos shrinks]
    simp only [shrinks, decide_true, if_true] at denotes
    exact denotes_shrunkMatrix named makes exact denotes lengths shrinks
  · rw [if_neg shrinks]
    simp only [shrinks, decide_false, Bool.false_eq_true, if_false] at denotes
    exact denotes_growMatrix named makes exact denotes lengths several (by omega) few
      fun open_ => fill (by simpa [filling] using open_)

/-- What a conversion denotes: the value as it is where the types become the same, and the value in
another shape otherwise. -/
theorem exists_denoted {result : String}
    (given : Glsl.convert code source target filler = .ok result)
    (fits : value.fits (decayOf source) = true)
    (denotes : Denotes m (.upTo (if isArgument (decayOf source) (decayOf target) then 12 else 13))
      code value)
    (fill : isFilled (decayOf source) (decayOf target) = true → Supplies m filler [x]) :
    ∃ denoted, Denotes m (.upTo 13) result denoted ∧
      if decayOf source = decayOf target then denoted = value
      else value.Resized (decayOf target) x denoted := by
  have whole := denotes.weaken
    (show (if isArgument (decayOf source) (decayOf target) then 12 else 13) ≤ 13
    by split <;> decide)
  by_cases unlike : source = target
  · subst unlike
    obtain rfl : code = result := by simpa [Glsl.convert, pure, Except.pure] using given
    exact ⟨value, whole, by rw [if_pos rfl]⟩
  obtain alike | ⟨first, second, decays, decaysTo, kinds⟩ := convertible_of_convert given
  · exact absurd alike unlike
  have becomes : decayOf source = first ∧ decayOf target = second := by
    simp [decayOf, decays, decaysTo]
  rw [becomes.1, becomes.2] at denotes fill ⊢
  rw [becomes.1] at fits
  by_cases apart : first = second
  · rw [convert_of_alike unlike decays decaysTo apart] at given
    obtain rfl := Except.ok.inj given
    exact ⟨value, whole, by rw [if_pos apart]⟩
  simp only [if_neg apart]
  obtain alike | ⟨vector, vectorTo⟩ | ⟨matrix, matrixTo⟩ := kinds
  · exact absurd alike apart
  · obtain ⟨⟨family, count⟩, shape⟩ := Option.isSome_iff_exists.1 vector
    obtain ⟨⟨other, width⟩, shapeTo⟩ := Option.isSome_iff_exists.1 vectorTo
    obtain ⟨spelling, spelled, -⟩ := DataType.exists_makeVector shapeTo
    rw [convert_vectors unlike decays decaysTo apart shape shapeTo spelled] at given
    obtain rfl := Except.ok.inj given
    obtain ⟨denoted, resized, operand⟩ :=
      resized_vector decaysTo apart shape shapeTo fits denotes fill spelled
    exact ⟨denoted, operand.upTo 13, resized⟩
  · obtain ⟨⟨family, count⟩, shape⟩ := Option.isSome_iff_exists.1 matrix
    obtain ⟨⟨other, width⟩, shapeTo⟩ := Option.isSome_iff_exists.1 matrixTo
    obtain ⟨spelling, spelled, -⟩ := DataType.exists_makeMatrix shapeTo
    rw [convert_matrices unlike decays decaysTo apart shape shapeTo spelled] at given
    obtain rfl := Except.ok.inj given
    obtain ⟨denoted, resized, operand⟩ :=
      resized_matrix decaysTo apart shape shapeTo fits denotes fill spelled
    exact ⟨denoted, operand.upTo 13, resized⟩

end Convert

/-- There is a conversion exactly between types that become the same, between vectors and between
matrices. Read with the precedence of operators, the converted expression has the value of the whole
expression where the types become the same, and otherwise that value in the new shape. Where the
expression or the filler is an argument of a constructor as it is, it has to be one without a comma.
-/
theorem convert_denotes (code filler : String) (source target : DataType) :
    ((∃ result, Glsl.convert code source target filler = .ok result) ↔
      source = target ∨ ∃ first second, source.decay? = some first ∧ target.decay? = some second ∧
        (first = second ∨ first.vectorShape?.isSome ∧ second.vectorShape?.isSome ∨
          first.matrixShape?.isSome ∧ second.matrixShape?.isSome)) ∧
    ∀ (m : Meaning) (value : Value) (x : ℚ) (result : String),
      Glsl.convert code source target filler = .ok result →
      value.fits (decayOf source) = true →
      Denotes m (.upTo (if isArgument (decayOf source) (decayOf target) then 12 else 13)) code
        value →
      (isFilled (decayOf source) (decayOf target) = true →
        ∃ family, Denotes m (.upTo 12) filler (.scalar family x)) →
      ∃ tree denoted, parse result = some tree ∧ evaluate m tree = .ok denoted ∧
        if decayOf source = decayOf target then denoted = value
        else value.Resized (decayOf target) x denoted := by
  refine ⟨⟨fun given => ?_, exists_convert⟩, fun m value x result given fits denotes fill => ?_⟩
  · obtain ⟨result, given⟩ := given
    exact convertible_of_convert given
  · have filling (used : isFilled (decayOf source) (decayOf target) = true) :
        Supplies m filler [x] := by
      obtain ⟨family, supplied⟩ := fill used
      exact .vector supplied
    obtain ⟨denoted, expression, relation⟩ := exists_denoted given fits denotes filling
    obtain ⟨tree, read, valued⟩ := expression.exists_parse
    exact ⟨tree, denoted, read, valued, relation⟩

def Meaning.ofNames (names : List (String × Value)) : Meaning where
  named name := names.lookup name
  member _ _ := none
  number _ := none
  unary _ _ := .error .stuck
  binary _ _ _ := .error .stuck
  function _ _ := .error .stuck

/-- A matrix that is chosen grows as a whole. -/
theorem convert_denotes_choice :
    ∃ tree family, parse ("mat4(vec4((c ? m : n)[0], 0.0, 0.0), vec4((c ? m : n)[1], 0.0, 0.0), " ++
        "vec4(0.0, 0.0, x, 0.0), vec4(0.0, 0.0, 0.0, 1.0))") = some tree ∧
      evaluate (.ofNames [("c", .truth true), ("m", .matrix .float [[2, 3], [5, 7]]),
        ("x", .scalar .float 9)]) tree =
        .ok (.matrix family [[2, 3, 0, 0], [5, 7, 0, 0], [0, 0, 9, 0], [0, 0, 0, 1]]) := by
  have name {strength : Nat} (word : String) (named : isName word.toList = true) :
      Derives (.upTo strength) [word] (.name word) := .operand (.name named)
  have choice : Derives (.upTo 12) (["c"] ++ "?" :: (["m"] ++ ":" :: ["n"]))
      (.choice (.name "c") (.name "m") (.name "n")) :=
    .choice (name "c" rfl) (name "m" rfl) (name "n" rfl)
  obtain ⟨tree, denoted, read, valued, resized⟩ := (convert_denotes "c ? m : n" "x" .mat2 .mat4).2
    (.ofNames [("c", .truth true), ("m", .matrix .float [[2, 3], [5, 7]]), ("x", .scalar .float 9)])
    (.matrix .float [[2, 3], [5, 7]]) 9 _ rfl rfl ⟨_, choice.weaken (by decide), rfl⟩
    (fun _ => ⟨.float, _, name "x" rfl, rfl⟩)
  obtain ⟨family, rfl⟩ := resized
  exact ⟨tree, family, read, valued⟩

/-- A comma makes two arguments of an expression, so that its first part counts as well. -/
theorem convert_comma :
    Glsl.convert "a, b" .dvec2 .vec2 "0.0" = .ok "vec2(a, b)" ∧
      Denotes (.ofNames [("a", .scalar .double 1), ("b", .vector .double [3, 4])]) (.upTo 13) "a, b"
        (.vector .double [3, 4]) ∧
      (parse "vec2(a, b)").map
          (evaluate (.ofNames [("a", .scalar .double 1), ("b", .vector .double [3, 4])])) =
        some (.ok (.vector .float [1, 3])) := by
  have both : Derives (.upTo 13) (["a"] ++ "," :: ["b"]) (.sequence (.name "a") (.name "b")) :=
    .sequence (.operand (.name rfl)) (.operand (.name rfl))
  exact ⟨rfl, ⟨_, both, rfl⟩, by decide +kernel⟩

end GlslMaterial.Shader
