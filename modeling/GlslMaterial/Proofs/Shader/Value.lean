import GlslMaterial.DataType
import GlslMaterial.Proofs.Glsl.Syntax
import Mathlib.Algebra.Order.Field.Rat
import Mathlib.Data.List.Forall2
import Mathlib.Data.List.Induction
import Mathlib.Data.Rat.Floor

/-!
Values of expressions in exact arithmetic. Numbers are rational, and a value is a vector of them
(with a scalar as a vector of one component) or a matrix. Constructors, selections, indices and
decimals have their meaning; that of names, operators and functions is given from outside.
-/

set_option autoImplicit false

namespace GlslMaterial.Shader

open Glsl (Operator Sign Tree)

/-- Why there is no value. -/
inductive Fault where
  | outOfBounds
  | divisionByZero
  | stuck
deriving DecidableEq, Repr

/-- Matrices are given by their columns. -/
inductive Value where
  | vector (family : Family) (components : List ℚ)
  | matrix (family : Family) (columns : List (List ℚ))
deriving DecidableEq, Repr

namespace Value

abbrev scalar (family : Family) (x : ℚ) : Value := vector family [x]

abbrev truth (b : Bool) : Value := scalar .bool (if b then 1 else 0)

def isTrue : Value → Except Fault Bool
  | vector .bool [x] => .ok (x ≠ 0)
  | _ => .error .stuck

/-- The components of a value in the order in which constructors take them. -/
def components : Value → List ℚ
  | vector _ components => components
  | matrix _ columns => columns.flatten

end Value

/-- The value of a rational number that is whole and not below zero. -/
def natural? (x : ℚ) : Option Nat :=
  if x.den = 1 ∧ 0 ≤ x.num then some x.num.toNat else none

@[simp] theorem natural?_natCast (n : Nat) : natural? (n : ℚ) = some n := by
  simp [natural?]

section Numbers

/-- The value of digits with at most one point between them. -/
def decimal? (text : List Char) : Option ℚ :=
  let whole := text.takeWhile Char.isDigit
  match text.dropWhile Char.isDigit with
  | [] => some (Nat.ofDigitChars 10 whole 0 : Nat)
  | c :: fraction =>
    if c = '.' ∧ fraction.all Char.isDigit = true then
      some ((Nat.ofDigitChars 10 (whole ++ fraction) 0 : Nat) / 10 ^ fraction.length)
    else none

theorem decimal?_digits {whole : List Char} (digits : ∀ c ∈ whole, c.isDigit = true) :
    decimal? whole = some ((Nat.ofDigitChars 10 whole 0 : Nat) : ℚ) := by
  have front : (whole ++ []).takeWhile Char.isDigit = whole ++ [] :=
    List.takeWhile_append_of_pos digits
  have rest : (whole ++ []).dropWhile Char.isDigit = [] := List.dropWhile_append_of_pos digits
  rw [List.append_nil] at front rest
  simp only [decimal?, front, rest]

/-- A decimal is an integer unless it has a point. -/
def literal? (word : List Char) : Option (Family × ℚ) :=
  (decimal? word).map fun x => (if word.contains '.' then .float else .int, x)

end Numbers

section Access

/-- The component that a letter names. -/
def component? (components : List ℚ) (c : Char) : Option ℚ := do
  let place ← [['x', 'y', 'z', 'w'], ['r', 'g', 'b', 'a'], ['s', 't', 'p', 'q']].findSome?
    (·.idxOf? c)
  components[place]?

/-- The components that letters name. -/
def Value.select : Value → String → Except Fault Value
  | vector family components, letters =>
    match letters.toList.mapM (component? components) with
    | some picked => .ok (.vector family picked)
    | none => .error .stuck
  | _, _ => .error .stuck

/-- The place that an index names. -/
def Value.place : Value → Except Fault Nat
  | vector .int [x] | vector .uint [x] =>
    match natural? x with
    | some n => .ok n
    | none => .error .outOfBounds
  | _ => .error .stuck

/-- A component of a vector or a column of a matrix. -/
def Value.item (value : Value) (place : Nat) : Except Fault Value :=
  let found := match value with
    | vector family components => components[place]?.map (Value.scalar family)
    | matrix family columns => columns[place]?.map (Value.vector family)
  match found with
  | some item => .ok item
  | none => .error .outOfBounds

end Access

section Constructors

/-- A number in another family: fractions are cut off, and all but zero is true. -/
def convertedTo : Family → ℚ → ℚ
  | .float, x | .double, x => x
  | .int, x | .uint, x => if 0 ≤ x then ⌊x⌋ else ⌈x⌉
  | .bool, x => if x = 0 then 0 else 1

/-- The first components of arguments, if there are enough and the last argument is needed. -/
def filled? (count : Nat) (given : List (List ℚ)) : Option (List ℚ) :=
  if given.dropLast.flatten.length < count ∧ count ≤ given.flatten.length then
    some (given.flatten.take count)
  else none

/-- A scalar goes into all components. -/
def makeVector (family : Family) (width : Nat) : List Value → Except Fault Value
  | [.vector _ [x]] => .ok (.vector family (List.replicate width (convertedTo family x)))
  | given =>
    match filled? width (given.map Value.components) with
    | some components => .ok (.vector family (components.map (convertedTo family)))
    | none => .error .stuck

/-- The entries of a square matrix, column by column. -/
def square (dimension : Nat) (entry : Nat → Nat → ℚ) : List (List ℚ) :=
  (List.range dimension).map fun column => (List.range dimension).map (entry column)

/-- An entry of a matrix, where a matrix that is too small is extended by the diagonal of ones. -/
def entryOf (columns : List (List ℚ)) (column row : Nat) : ℚ :=
  (columns[column]?.bind (·[row]?)).getD (if row = column then 1 else 0)

/-- A scalar goes into the diagonal. -/
def makeMatrix (family : Family) (dimension : Nat) : List Value → Except Fault Value
  | [.vector _ [x]] => .ok (.matrix family (square dimension fun column row =>
      if row = column then convertedTo family x else 0))
  | [.matrix _ columns] => .ok (.matrix family (square dimension fun column row =>
      convertedTo family (entryOf columns column row)))
  | given =>
    match filled? (dimension * dimension) (given.map Value.components) with
    | some components => .ok (.matrix family (square dimension fun column row =>
        convertedTo family (components.getD (column * dimension + row) 0)))
    | none => .error .stuck

/-- What the constructor of a type makes of its arguments. -/
def constructor? (name : String) : Option (List Value → Except Fault Value) :=
  (DataType.ofWord? name).bind fun type =>
    match type.vectorShape?, type.matrixShape? with
    | some (family, width), _ => some (makeVector family width)
    | none, some (family, dimension) => some (makeMatrix family dimension)
    | none, none => none

end Constructors

/-- The meaning of names, numbers that are no decimals, operators and functions. -/
structure Meaning where
  named : String → Option Value
  member : String → String → Option Value
  number : String → Option (Family × ℚ)
  unary : Sign → Value → Except Fault Value
  binary : Operator → Value → Value → Except Fault Value
  function : String → List Value → Except Fault Value

namespace Meaning

def memberOf (m : Meaning) : Tree → String → Option Value
  | .name block, part => if (m.named block).isNone then m.member block part else none
  | _, _ => none

/-- The value of a call of a constructor or of any other function. -/
def call (m : Meaning) (function : Tree) (given : List Value) : Except Fault Value :=
  match function with
  | .name name =>
    match constructor? name with
    | some make => make given
    | none => m.function name given
  | _ => .error .stuck

end Meaning

mutual

/-- The value of an expression. Of a choice only the branch that is taken is evaluated. -/
def evaluate (m : Meaning) : Tree → Except Fault Value
  | .name text =>
    match m.named text with
    | some value => .ok value
    | none => .error .stuck
  | .number text =>
    match (literal? text.toList).or (m.number text) with
    | some (family, x) => .ok (.scalar family x)
    | none => .error .stuck
  | .field of part =>
    match m.memberOf of part with
    | some value => .ok value
    | none => do (← evaluate m of).select part
  | .index of place => do
    let value ← evaluate m of
    value.item (← (← evaluate m place).place)
  | .callee function => m.call function []
  | .argument call value => do
    let (function, given) ← signature m call
    m.call function (given ++ [← evaluate m value])
  | .unary sign of => do m.unary sign (← evaluate m of)
  | .binary .and left right => do
    if ← (← evaluate m left).isTrue then evaluate m right else return .truth false
  | .binary .or left right => do
    if ← (← evaluate m left).isTrue then return .truth true else evaluate m right
  | .binary operator left right => do
    let one ← evaluate m left
    m.binary operator one (← evaluate m right)
  | .choice test one other => do
    if ← (← evaluate m test).isTrue then evaluate m one else evaluate m other
  | .sequence first second => do
    let _ ← evaluate m first
    evaluate m second

/-- The function of a call and the values of its arguments so far. -/
def signature (m : Meaning) : Tree → Except Fault (Tree × List Value)
  | .callee function => .ok (function, [])
  | .argument call value => do
    let (function, given) ← signature m call
    return (function, given ++ [← evaluate m value])
  | _ => .error .stuck

end

section Calls

variable {m : Meaning} {function : String} {trees : List Tree}

theorem evaluate_foldl {call : Tree}
    (known : evaluate m call = signature m call >>= fun found => m.call found.1 found.2) :
    evaluate m (trees.foldl .argument call) = (signature m call >>= fun found =>
      trees.mapM (evaluate m) >>= fun values => m.call found.1 (found.2 ++ values)) := by
  induction trees generalizing call with
  | nil =>
    rw [List.foldl_nil, known]
    simp
  | cons tree trees ih =>
    rw [List.foldl_cons, ih, signature, List.mapM_cons]
    · cases signature m call <;> cases evaluate m tree <;>
        simp only [bind, Except.bind, pure, Except.pure]
      cases trees.mapM (evaluate m) <;> simp
    · rw [evaluate, signature]
      cases signature m call <;> cases evaluate m tree <;>
        simp only [bind, Except.bind, pure, Except.pure]

theorem evaluate_call : evaluate m (.call function trees) =
    trees.mapM (evaluate m) >>= m.call (.name function) := by
  have start : evaluate m (.callee (.name function)) =
      signature m (.callee (.name function)) >>= fun found => m.call found.1 found.2 := by
    rw [evaluate, signature]
    rfl
  rw [Tree.call, evaluate_foldl start, signature]
  rfl

theorem mapM_evaluate {values : List Value}
    (all : List.Forall₂ (fun tree value => evaluate m tree = .ok value) trees values) :
    trees.mapM (evaluate m) = .ok values := by
  induction all with
  | nil => rfl
  | cons one _ ih =>
    rw [List.mapM_cons, one, ih]
    rfl

theorem evaluate_call_of_forall₂ {values : List Value}
    (all : List.Forall₂ (fun tree value => evaluate m tree = .ok value) trees values) :
    evaluate m (.call function trees) = m.call (.name function) values := by
  rw [evaluate_call, mapM_evaluate all]
  rfl

end Calls

end GlslMaterial.Shader
