import GlslMaterial.Proofs.Glsl.Grouping
import GlslMaterial.Proofs.Interface.Declaration
import Mathlib.Data.List.Induction

/-!
Types of expressions. Numbers come in families, alone, as vectors or as square matrices. Integers
stand for floating point numbers, and single for double precision, without a constructor; nothing
else is converted by itself.

Main statement: a text that spells an expression has the type of this expression, and a call of a
constructor has the type of its name.
-/

set_option autoImplicit false

namespace GlslMaterial

namespace Family

/-- Whether numbers of a family stand for those of another one by themselves. -/
def converts : Family → Family → Bool
  | int, float | uint, float | int, double | uint, double | float, double => true
  | source, target => source = target

/-- The family in which an operator combines numbers of two families. -/
def join? : Family → Family → Option Family
  | bool, _ | _, bool => none
  | a, b => if a.converts b then some b else if b.converts a then some a else none

/-- The family in which a function of floating point numbers takes two numbers. -/
def precision? (a b : Family) : Option Family :=
  [float, double].find? fun family => a.converts family && b.converts family

end Family

namespace Glsl

/-- How the components of a value are arranged. A scalar is a vector of one component. -/
inductive Rank where
  | vector (width : Nat)
  | matrix (dimension : Nat)
deriving DecidableEq, Repr

namespace Rank

abbrev scalar : Rank := vector 1

def components : Rank → Nat
  | vector width => width
  | matrix dimension => dimension * dimension

def isVector : Rank → Bool
  | vector _ => true
  | matrix _ => false

/-- Whether a vector has the first components of another one. -/
def leads : Rank → Rank → Bool
  | vector width, vector count => width ≤ count
  | _, _ => false

/-- The number of components that arguments give. -/
def total (given : List Rank) : Nat :=
  given.foldr (fun rank count => rank.components + count) 0

/-- Whether arguments give a number of components, and all of them are needed. -/
def fills (count : Nat) (given : List Rank) : Bool :=
  total given.dropLast < count && count ≤ total given

/-- Whether a constructor takes arguments of these ranks. A scalar goes into all components or into
the diagonal, and a matrix into a matrix of any dimension. -/
def constructs : Rank → List Rank → Bool
  | _, [vector 1] | matrix _, [matrix _] => true
  | vector width, given => fills width given
  | matrix dimension, given => given.all isVector && fills (dimension * dimension) given

end Rank

/-- The rank of what an arithmetic operator gives. Only products take a matrix together with a
vector. -/
def Operator.rank? (operator : Operator) : Rank → Rank → Option Rank
  | .vector 1, rank | rank, .vector 1 => some rank
  | .matrix dimension, .vector width | .vector width, .matrix dimension =>
    if operator = multiply ∧ dimension = width then some (.vector width) else none
  | one, other => if one = other then some one else none

/-- The type of a number, a vector or a matrix. -/
structure Numeric where
  family : Family
  rank : Rank
deriving DecidableEq, Repr

/-- Whether letters name components of a vector, all in the same way. -/
def isSelection (width : Nat) (letters : List Char) : Bool :=
  1 ≤ letters.length && letters.length ≤ 4 &&
    [['x', 'y', 'z', 'w'], ['r', 'g', 'b', 'a'], ['s', 't', 'p', 'q']].any fun names =>
      letters.all (names.take width).contains

namespace Numeric

/-- Whether a value can be assigned to a variable of another type. -/
def converts (source target : Numeric) : Bool :=
  source.rank = target.rank && source.family.converts target.family

def combine? (operator : Operator) (a b : Numeric) : Option Numeric := do
  return ⟨← a.family.join? b.family, ← operator.rank? a.rank b.rank⟩

/-- The type of components that are picked by letters. -/
def select? (numeric : Numeric) (letters : String) : Option Numeric :=
  match numeric.rank with
  | .vector width =>
    if 2 ≤ width && isSelection width letters.toList then
      some ⟨numeric.family, .vector letters.toList.length⟩
    else none
  | .matrix _ => none

/-- The type of a column of a matrix or a component of a vector. -/
def index? (numeric place : Numeric) : Option Numeric :=
  if place = ⟨.int, .scalar⟩ ∨ place = ⟨.uint, .scalar⟩ then
    match numeric.rank with
    | .vector _ => some ⟨numeric.family, .scalar⟩
    | .matrix dimension => some ⟨numeric.family, .vector dimension⟩
  else none

/-- The type of a remainder, by a vector of the same width or by a scalar. -/
def modulo? (a b : Numeric) : Option Numeric :=
  if a.rank.isVector ∧ (b.rank = a.rank ∨ b.rank = .scalar) then
    (a.family.precision? b.family).map (⟨·, a.rank⟩)
  else none

/-- The type of a power, which is not there for matrices or in double precision. -/
def power? (a b : Numeric) : Option Numeric :=
  if a.rank.isVector ∧ b.rank = a.rank ∧ a.family.converts .float ∧ b.family.converts .float then
    some ⟨.float, a.rank⟩
  else none

/-- The type of noise at a point of some dimensions. -/
def noise? (dimensions : Nat) (point : Numeric) : Option Numeric :=
  if point.converts ⟨.float, .vector dimensions⟩ then some ⟨.float, .scalar⟩ else none

end Numeric

end Glsl

/-- The type of a value, where it is made of numbers. -/
def DataType.numeric? (type : DataType) : Option Glsl.Numeric :=
  match type.vectorShape?, type.matrixShape? with
  | some (family, width), _ => some ⟨family, .vector width⟩
  | none, some (family, dimension) => some ⟨family, .matrix dimension⟩
  | none, none => none

/-- The type of a variable that holds a value. -/
def DataType.declared? (type : DataType) : Option Glsl.Numeric :=
  type.decay?.bind DataType.numeric?

namespace DataType

variable {type : DataType} {family : Family}

theorem numeric?_of_vectorShape? {width : Nat} (shape : type.vectorShape? = some (family, width)) :
    type.numeric? = some ⟨family, .vector width⟩ := by
  rw [numeric?, shape]

theorem numeric?_of_matrixShape? {dimension : Nat}
    (shape : type.matrixShape? = some (family, dimension)) :
    type.numeric? = some ⟨family, .matrix dimension⟩ := by
  cases type <;> cases shape <;> rfl

theorem numeric?_of_width (pos : 0 < type.width) :
    ∃ family, type.numeric? = some ⟨family, .vector type.width⟩ := by
  unfold width at pos ⊢
  cases shape : type.vectorShape? with
  | none =>
    rw [shape] at pos
    cases pos
  | some pair => exact ⟨pair.1, numeric?_of_vectorShape? shape⟩

/-- Types of numbers differ in their families or ranks. -/
theorem eq_of_numeric? {one other : DataType} {numeric : Glsl.Numeric}
    (held : one.numeric? = some numeric) (same : other.numeric? = some numeric) : one = other := by
  have found (type : DataType) (held : type.numeric? = some numeric) :
      all.find? (fun type => type.numeric? = some numeric) = some type := by
    cases type <;> cases held <;> rfl
  exact Option.some.inj ((found one held).symm.trans (found other same))

theorem width_le_four {width : Nat}
    (shape : type.vectorShape? = some (family, width)) : width ≤ 4 := by
  cases type <;> cases shape <;> decide

end DataType

namespace Glsl

/-- The type of what a constructor makes. -/
def constructed? (name : String) : Option Numeric :=
  (DataType.ofWord? name).bind DataType.numeric?

/-- The type of what a function gives, for arguments of these types. -/
def result? : String → List Numeric → Option Numeric
  | "mod", [a, b] => a.modulo? b
  | "pow", [a, b] => a.power? b
  | "SimplexNoise2D", [point] => point.noise? 2
  | "SimplexNoise3D", [point] => point.noise? 3
  | _, _ => none

/-- The type of a call of a constructor or of any other function. -/
def called? (function : String) (arguments : List Numeric) : Option Numeric :=
  match constructed? function with
  | some made => if made.rank.constructs (arguments.map Numeric.rank) then some made else none
  | none => result? function arguments

/-- The family of a number, by the letters behind it and by its point. -/
def numberFamily (word : List Char) : Family :=
  if ['l', 'f'].isSuffixOf word then .double
  else if ['u'].isSuffixOf word then .uint
  else if word.contains '.' then .float
  else .int

/-- The types of variables, and of the members of blocks and structures. -/
structure Scope where
  value : String → Option Numeric
  member : String → String → Option Numeric

/-- Only names have members. -/
def Scope.memberOf (scope : Scope) : Tree → String → Option Numeric
  | .name block, part => scope.member block part
  | _, _ => none

mutual

/-- The type of an arithmetic expression, if it has one. -/
def typeOf? (scope : Scope) : Tree → Option Numeric
  | .name text =>
    if text = "true" ∨ text = "false" then some ⟨.bool, .scalar⟩ else scope.value text
  | .number text => some ⟨numberFamily text.toList, .scalar⟩
  | .field of part =>
    match typeOf? scope of with
    | some own => own.select? part
    | none => scope.memberOf of part
  | .index of place => do (← typeOf? scope of).index? (← typeOf? scope place)
  | .argument call value => do
    let (function, arguments) ← signature? scope call
    called? function (arguments ++ [← typeOf? scope value])
  | .unary .minus of => (typeOf? scope of).filter (·.family != .bool)
  | .binary operator left right =>
    if operator.isArithmetic then do
      (← typeOf? scope left).combine? operator (← typeOf? scope right)
    else none
  | _ => none

/-- The function of a call and the types of its arguments so far. -/
def signature? (scope : Scope) : Tree → Option (String × List Numeric)
  | .callee (.name function) => some (function, [])
  | .argument call value => do
    let (function, arguments) ← signature? scope call
    return (function, arguments ++ [← typeOf? scope value])
  | _ => none

end

/-- The type of a text, if it can be read and has one. -/
def codeType? (scope : Scope) (code : String) : Option Numeric :=
  (parse code).bind (typeOf? scope)


variable {scope : Scope} {tree result : Tree} {trees : List Tree} {function : String}

theorem codeType?_of_spells {strength : Nat} {code : String}
    (spells : Spells (.upTo strength) code.toList tree) :
    codeType? scope code = typeOf? scope tree := by
  rw [codeType?, spells.parse_eq, Option.bind_some]

theorem typeOf?_binary {operator : Operator} (arithmetic : operator.isArithmetic = true)
    (left right : Tree) : typeOf? scope (.binary operator left right) =
      (typeOf? scope left).bind fun one => (typeOf? scope right).bind (one.combine? operator) := by
  rw [typeOf?, if_pos arithmetic]
  rfl

/-- An expression without a type is no single name, so that it has no members either. -/
def Settled (scope : Scope) (tree : Tree) : Prop :=
  typeOf? scope tree = none → ∀ text, tree ≠ .name text

theorem typeOf?_field (settled : Settled scope tree) (part : String) :
    typeOf? scope (.field tree part) = (typeOf? scope tree).bind (·.select? part) := by
  rw [typeOf?]
  cases typed : typeOf? scope tree with
  | some own => rfl
  | none =>
    have plain := settled typed
    cases tree with
    | name text => exact absurd rfl (plain text)
    | _ => rfl

section Calls

theorem signature?_call (function : String) (trees : List Tree) :
    signature? scope (.call function trees) =
      (trees.mapM (typeOf? scope)).map fun arguments => (function, arguments) := by
  induction trees using List.reverseRecOn with
  | nil => rfl
  | append_singleton trees last ih =>
    have split : Tree.call function (trees ++ [last]) = .argument (.call function trees) last := by
      simp [Tree.call]
    rw [split, signature?, ih]
    cases front : trees.mapM (typeOf? scope) with
    | none => simp [front]
    | some types => cases typed : typeOf? scope last <;> simp [front, typed]

theorem typeOf?_call (filled : trees ≠ []) :
    typeOf? scope (.call function trees) =
      (trees.mapM (typeOf? scope)).bind (called? function) := by
  obtain ⟨front, last, rfl⟩ := (List.eq_nil_or_concat trees).resolve_left filled
  have split : Tree.call function (front.concat last) = .argument (.call function front) last := by
    simp [Tree.call]
  rw [split, typeOf?, signature?_call]
  cases early : front.mapM (typeOf? scope) with
  | none => simp [early]
  | some types => cases typed : typeOf? scope last <;> simp [early, typed]

theorem typeOf?_call_eq_none (member : tree ∈ trees) (untyped : typeOf? scope tree = none) :
    typeOf? scope (.call function trees) = none := by
  have none : trees.mapM (typeOf? scope) = none := by
    induction trees with
    | nil => cases member
    | cons first rest ih =>
      rcases List.mem_cons.1 member with rfl | later
      · simp [untyped]
      · simp [ih later]
  rw [typeOf?_call (List.ne_nil_of_mem member), none, Option.bind_none]

theorem mapM_typeOf? {types : List Numeric}
    (all : List.Forall₂ (fun tree type => typeOf? scope tree = some type) trees types) :
    trees.mapM (typeOf? scope) = some types := by
  induction all with
  | nil => rfl
  | cons first _ ih => simp [first, ih]

theorem forall₂_replicate {type : Numeric} (all : ∀ tree ∈ trees, typeOf? scope tree = some type) :
    List.Forall₂ (fun tree type => typeOf? scope tree = some type) trees
      (List.replicate trees.length type) := by
  induction trees with
  | nil => exact .nil
  | cons first rest ih =>
    have others := ih fun t later => all t (List.mem_cons_of_mem _ later)
    exact .cons (all first List.mem_cons_self) others

theorem constructed?_spelling {type : DataType} {spelling : String}
    (spelled : type.spelling = .ok spelling) : constructed? spelling = type.numeric? := by
  cases type <;> cases spelled <;> decide

theorem called?_spelling {type : DataType} {spelling : String}
    (spelled : type.spelling = .ok spelling) (arguments : List Numeric) :
    called? spelling arguments =
      type.numeric?.filter fun made => made.rank.constructs (arguments.map Numeric.rank) := by
  unfold called?
  rw [constructed?_spelling spelled]
  cases held : type.numeric? with
  | some made => rfl
  | none =>
    obtain rfl : type = .sampler2D := by
      cases type <;> cases held <;> first | rfl | cases spelled
    cases spelled
    simp [result?]

theorem typeOf?_constructor {made : Numeric} (named : constructed? function = some made)
    {types : List Numeric}
    (all : List.Forall₂ (fun tree type => typeOf? scope tree = some type) trees types)
    (filled : trees ≠ []) (takes : made.rank.constructs (types.map Numeric.rank) = true) :
    typeOf? scope (.call function trees) = some made := by
  rw [typeOf?_call filled, mapM_typeOf? all, Option.bind_some]
  unfold called?
  rw [named]
  exact if_pos takes

end Calls

section Numbers

theorem not_suffix_of_numeric {word ending : List Char} {c : Char}
    (numeric : ∀ c ∈ word, c.isDigit = true ∨ c = '.') (member : c ∈ ending)
    (letter : (c.isDigit || c == '.') = false) : ending.isSuffixOf word = false := by
  refine Bool.eq_false_iff.2 fun suffix => ?_
  rcases numeric c ((List.isSuffixOf_iff_suffix.1 suffix).subset member) with digit | rfl
  · simp [digit] at letter
  · simp at letter

/-- Without letters, the point decides. -/
theorem numberFamily_of_numeric {word : List Char}
    (numeric : ∀ c ∈ word, c.isDigit = true ∨ c = '.') :
    numberFamily word = if word.contains '.' then .float else .int := by
  unfold numberFamily
  rw [not_suffix_of_numeric numeric (List.mem_cons_self (a := 'l')) (by decide),
    not_suffix_of_numeric numeric (List.mem_cons_self (a := 'u')) (by decide)]
  rfl

theorem numberFamily_of_digits {word : List Char} (digits : ∀ c ∈ word, c.isDigit = true) :
    numberFamily word = .int := by
  have pointless : '.' ∉ word := fun member => absurd (digits '.' member) (by decide)
  rw [numberFamily_of_numeric fun c member => .inl (digits c member)]
  simp [pointless]

theorem numberFamily_double (word : List Char) :
    numberFamily (word ++ ['l', 'f']) = .double := by
  have suffix : ['l', 'f'].isSuffixOf (word ++ ['l', 'f']) = true :=
    List.isSuffixOf_iff_suffix.2 (List.suffix_append _ _)
  rw [numberFamily, if_pos suffix]

theorem numberFamily_uint (word : List Char) : numberFamily (word ++ ['u']) = .uint := by
  have suffix : ['u'].isSuffixOf (word ++ ['u']) = true :=
    List.isSuffixOf_iff_suffix.2 (List.suffix_append _ _)
  have other : ['l', 'f'].isSuffixOf (word ++ ['u']) = false := by
    refine Bool.eq_false_iff.2 fun ends => ?_
    obtain ⟨front, same⟩ := List.isSuffixOf_iff_suffix.1 ends
    have last := congrArg List.getLast? same
    simp at last
  rw [numberFamily, other, if_pos suffix]
  rfl

end Numbers

end Glsl

end GlslMaterial
