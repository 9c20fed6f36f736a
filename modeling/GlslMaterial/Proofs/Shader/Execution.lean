import GlslMaterial.Proofs.Shader.Denotation

/-!
Execution of statements in exact arithmetic. Expressions are read from their texts and evaluated,
declarations put a variable before the others, and a loop counts up to a number.
-/

set_option autoImplicit false

namespace GlslMaterial.Shader

open Glsl (Operator Spells Tree parse)

/-- Operators on two scalars of one family. -/
def operate (operator : Operator) : Value → Value → Except Fault Value
  | .vector one [x], .vector other [y] =>
    if one ≠ other then .error .stuck
    else match operator with
      | .add => .ok (.scalar one (x + y))
      | .subtract => .ok (.scalar one (x - y))
      | .multiply => .ok (.scalar one (x * y))
      | .divide =>
        if y = 0 then .error .divisionByZero else .ok (.scalar one (convertedTo one (x / y)))
      | .less => .ok (.truth (x < y))
      | .greater => .ok (.truth (y < x))
      | .atMost => .ok (.truth (x ≤ y))
      | .atLeast => .ok (.truth (y ≤ x))
      | .equal => .ok (.truth (x = y))
      | .unequal => .ok (.truth (x ≠ y))
      | _ => .error .stuck
  | _, _ => .error .stuck

/-- Functions that choose among scalars. -/
def choose (name : String) (given : List Value) : Except Fault Value :=
  match name, given with
  | "min", [.vector family [x], .vector _ [y]] => .ok (.scalar family (min x y))
  | "max", [.vector family [x], .vector _ [y]] => .ok (.scalar family (max x y))
  | "clamp", [.vector family [x], .vector _ [low], .vector _ [high]] =>
    .ok (.scalar family (min (max x low) high))
  | _, _ => .error .stuck

/-- Variables, the latest first. -/
abbrev Locals := List (String × Value)

/-- The meaning of expressions among variables, which hide other names. -/
def Meaning.within (m : Meaning) (locals : Locals) : Meaning :=
  { m with
    named := fun name => (locals.lookup name).or (m.named name)
    binary := operate
    function := choose }

/-- The value of a text that is an expression. -/
def Meaning.value (m : Meaning) (code : String) : Except Fault Value :=
  match parse code with
  | some tree => evaluate m tree
  | none => .error .stuck

/-- Gives the latest variable of a name another value. -/
def assign (name : String) (value : Value) : Locals → Except Fault Locals
  | [] => .error .stuck
  | (first, old) :: rest =>
    if first = name then .ok ((first, value) :: rest)
    else do return (first, old) :: (← assign name value rest)

/-- Declarations, assignments on a condition, and loops that count. -/
inductive Statement where
  | declare (type name code : String)
  | check (test name code : String)
  | count (name : String) (limit : Nat) (body : Statement)
deriving DecidableEq, Repr

namespace Statement

def lines : Statement → List String
  | declare type name code => [s!"{type} {name} = {code};"]
  | check test name code => [s!"if ({test}) {name} = {code};"]
  | count name limit body =>
    [s!"for (int {name} = 0; {name} < {limit}; {name}++) \x7b"] ++ body.lines.map ("    " ++ ·) ++
      ["\x7d"]

/-- Runs a statement. Variables of a loop are gone behind it. -/
def run (m : Meaning) : Statement → Locals → Except Fault Locals
  | declare _ name code, locals => do return (name, ← (m.within locals).value code) :: locals
  | check test name code, locals => do
    if ← (← (m.within locals).value test).isTrue then
      assign name (← (m.within locals).value code) locals
    else return locals
  | count name limit body, locals =>
    (List.range limit).foldlM (fun locals (k : Nat) => do
      let inner ← body.run m ((name, .scalar .int k) :: locals)
      return inner.drop (inner.length - locals.length)) locals

end Statement

def runAll (m : Meaning) (program : List Statement) (locals : Locals) : Except Fault Locals :=
  program.foldlM (fun locals statement => statement.run m locals) locals

section Evaluation

variable {m : Meaning} {locals : Locals} {name : String} {value : Value}

theorem lookup_cons (name other : String) (value : Value) (locals : Locals) :
    ((other, value) :: locals : Locals).lookup name =
      if name = other then some value else locals.lookup name := by
  rw [List.lookup_cons]
  by_cases same : name = other
  · rw [if_pos same, same, beq_self_eq_true]
  · rw [if_neg same, beq_false_of_ne same]

theorem evaluate_operate {operator : Operator} (strict : operator.strength < 9) {left right : Tree}
    {one other : Value} (first : evaluate (m.within locals) left = .ok one)
    (second : evaluate (m.within locals) right = .ok other) :
    evaluate (m.within locals) (.binary operator left right) = operate operator one other := by
  cases operator with
  | and | xor | or => exact absurd strict (by decide)
  | _ =>
    rw [evaluate, first, second]
    · rfl
    all_goals simp

theorem call_within {function : String} (free : constructor? function = none) (given : List Value) :
    (m.within locals).call (.name function) given = choose function given := by
  rw [Meaning.call, free]
  rfl

theorem value_of_spells {strength : Nat} {code : String} {tree : Tree}
    (spells : Spells (.upTo strength) code.toList tree) : m.value code = evaluate m tree := by
  rw [Meaning.value, spells.parse_eq]

namespace Denotes

variable {code : String} {one other : Value}

theorem value_eq {strength : Nat} (denotes : Denotes m (.upTo strength) code value) :
    m.value code = .ok value := by
  obtain ⟨tree, spells, valued⟩ := denotes
  rw [value_of_spells spells, valued]

theorem ofLookup (named : Glsl.isName name.toList = true)
    (found : locals.lookup name = some value) :
    Denotes (m.within locals) .operand name value :=
  ⟨_, .name named, by simp [evaluate, Meaning.within, found]⟩

theorem operation {first second : String} (operator : Operator) (strict : operator.strength < 9)
    (left : Denotes (m.within locals) .operand first one)
    (right : Denotes (m.within locals) .operand second other)
    (shape : code.toList = Glsl.spaced first.toList operator second.toList)
    (made : operate operator one other = .ok value) :
    Denotes (m.within locals) (.upTo operator.strength) code value := by
  obtain ⟨one, spells, valued⟩ := left
  obtain ⟨other, also, known⟩ := right
  rw [Denotes, shape]
  exact ⟨_, .binary operator spells.operand also.operand,
    (evaluate_operate strict valued known).trans made⟩

end Denotes

end Evaluation

section Running

variable {m : Meaning} {locals : Locals} {type name code : String}

theorem runAll_of_run {statement : Statement} {after : Locals}
    (ran : statement.run m locals = .ok after) (rest : List Statement) :
    runAll m (statement :: rest) locals = runAll m rest after := by
  rw [runAll, List.foldlM_cons, ran]
  rfl

theorem run_declare {result : Except Fault Value} (valued : (m.within locals).value code = result) :
    (Statement.declare type name code).run m locals =
      result.map fun value => (name, value) :: locals := by
  rw [Statement.run, valued]
  cases result <;> rfl

/-- A loop whose rounds are known. -/
theorem run_count {limit : Nat} {body : Statement} (state : Nat → Locals)
    (rounds : ∀ k < limit, ∃ counter, body.run m ((name, .scalar .int k) :: state k) =
      .ok (counter :: state (k + 1)) ∧ (state (k + 1)).length = (state k).length) :
    (Statement.count name limit body).run m (state 0) = .ok (state limit) := by
  have runs : ∀ k ≤ limit, (List.range k).foldlM (fun locals (k : Nat) => do
      let inner ← body.run m ((name, .scalar .int k) :: locals)
      return inner.drop (inner.length - locals.length)) (state 0) = .ok (state k) := by
    intro k le
    induction k with
    | zero => rfl
    | succ k ih =>
      obtain ⟨counter, round, length⟩ := rounds k le
      rw [List.range_succ, List.foldlM_append, ih (by omega)]
      simp only [bind, Except.bind, List.foldlM_cons, List.foldlM_nil, round]
      simp [length, pure, Except.pure]
  exact runs limit (Nat.le_refl _)

end Running

end GlslMaterial.Shader
