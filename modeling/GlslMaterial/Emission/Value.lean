import GlslMaterial.Emission.Scene
import GlslMaterial.Glsl.Value
import GlslMaterial.Node.Noise

/-! What a value node writes: its expression after all verbs, each applied to what came before. -/

set_option autoImplicit false

namespace GlslMaterial.Emission

open GlslMaterial.Action (perform fail ofExcept)
open Material

/-- The expression so far. A product takes more factors without parentheses. -/
structure Running where
  code : String
  type : DataType
  product : Bool
deriving DecidableEq, Repr

/-- Writes the noise function of a dimension with all that it calls, and gives its name. -/
def ensureSimplex (stage : Stage) (dimensions : Nat) : Action String := do
  let (helpers, name) ← ofExcept (Noise.functions dimensions)
  ensureFunctions stage helpers
  return name

/-- The operand of a verb: a trait that is looked up, or a literal. -/
def operand (n : NodeId) (rate : Rate) (entry : VerbEntry) : Action Expression := do
  match entry.operand, entry.value with
  | some id, _ =>
    let symbol ← symbolOrInput n (.ofId id) rate
    return ⟨symbol.expr, ← ofExcept symbol.type.decayed⟩
  | none, some value => ofExcept (Glsl.ofJson value none)
  | none, none => fail (.misuse (.noOperand entry.verb))

/-- An operand in the rank of the running expression; a scalar goes with every rank. -/
def align (e : Expression) (type : DataType) : Except Failure String :=
  if e.type.width = 1 || e.type = type then .ok (Glsl.atom e.code)
  else (Glsl.convert e.code e.type type "0.0").map Glsl.atom

def leftOperand (e : Running) (product : Bool) : String :=
  if product && e.product then e.code else Glsl.atom e.code

def applyOperator (operator : String) (product : Bool) (e : Running) (right : String) : Running :=
  ⟨s!"{leftOperand e product} {operator} {right}", e.type, product⟩

/-- Powers need both operands in the same rank. -/
def powerOperand (e : Running) (right : Expression) : Except Failure String := do
  if right.type.width = 1 && 1 < e.type.width then
    return Glsl.call (← e.type.spelling) [right.code]
  align right e.type

/-- The components that a selection names, by letters or by the index of one. -/
def swizzleOf (value : Option Json) : String :=
  match value with
  | some (.string text) => text
  | some value =>
    match value.toNat? with
    | some index => (["x", "y", "z", "w"][index]?).getD ""
    | none => ""
  | none => ""

/-- The place of a component letter. -/
def componentIndex? (c : Char) : Option Nat :=
  (['x', 'y', 'z', 'w'].idxOf? c).or (['r', 'g', 'b', 'a'].idxOf? c)

/-- One to four letters of one kind, all within a vector of `width` components. -/
def isSwizzle (width : Nat) (letters : List Char) : Bool :=
  1 ≤ letters.length && letters.length ≤ 4 &&
    (letters.all ['x', 'y', 'z', 'w'].contains || letters.all ['r', 'g', 'b', 'a'].contains) &&
    letters.all fun c => match componentIndex? c with
      | some i => i < width
      | none => false

def select (e : Running) (value : Option Json) : Except Failure Running := do
  let swizzle := swizzleOf value
  let letters := swizzle.toList
  match e.type.vectorShape? with
  | some (family, width) =>
    if 2 ≤ width && isSwizzle width letters then
      match DataType.vector? family letters.length with
      | some type => return ⟨s!"{Glsl.atom e.code}.{swizzle}", type, false⟩
      | none => throw (.misuse (.noVector family letters.length))
    else throw (.misuse (.noSelection swizzle e.type))
  | none => throw (.misuse (.noSelection swizzle e.type))

/-- The product of a matrix and the running expression in its rank. -/
def project (e : Running) (matrix : Expression) : Except Failure Running := do
  match matrix.type.matrixShape? with
  | some (_, dimension) =>
    let type := (DataType.vector? .float dimension).getD .vec4
    let vector ← Glsl.convert e.code e.type type "0.0"
    return ⟨s!"({Glsl.atom matrix.code} * {vector})", type, false⟩
  | none => throw (.misuse (.projectNeedsMatrix matrix.type))

/-- The point at which noise is taken, and its dimension. -/
def noisePoint (e : Running) : Except Failure (Nat × String) :=
  match e.type.width with
  | 1 => .ok (2, s!"vec2({e.code}, 0.0)")
  | 2 => .ok (2, e.code)
  | 3 => .ok (3, e.code)
  | 4 => .ok (3, s!"{Glsl.atom e.code}.xyz")
  | _ => .error (.misuse (.noRandomness e.type))

def randomize (stage : Stage) (e : Running) (seed : Option Expression) : Action Running := do
  let (dimensions, point) ← ofExcept (noisePoint e)
  let point := match seed with
    | some seed => s!"{point} + {Glsl.atom seed.code}"
    | none => point
  let function ← ensureSimplex stage dimensions
  return ⟨s!"{function}({point})", .float, false⟩

/-- Applies one verb to the running expression. -/
def applyVerb (n : NodeId) (stage : Stage) (e : Running) (entry : VerbEntry) : Action Running := do
  let rate := Rate.stage stage
  let aligned : Action String := do ofExcept (align (← operand n rate entry) e.type)
  match entry.verb with
  | .add => return applyOperator "+" false e (← aligned)
  | .subtract => return applyOperator "-" false e (← aligned)
  | .multiply => return applyOperator "*" true e (← aligned)
  | .divide => return applyOperator "/" true e (← aligned)
  | .modulate => return ⟨Glsl.call "mod" [e.code, ← aligned], e.type, false⟩
  | .exponent =>
    let right ← ofExcept (powerOperand e (← operand n rate entry))
    return ⟨Glsl.call "pow" [e.code, right], e.type, false⟩
  | .randomize =>
    let seed ← if entry.value.isNone && entry.operand.isNone then pure none
      else some <$> operand n rate entry
    randomize stage e seed
  | .select => ofExcept (select e entry.value)
  | .project =>
    let matrix ← operand n rate entry
    ofExcept (project e matrix)

/-- The wrapped value before any verb: a literal, or a symbol that is looked up. -/
def wrappedValue (n : NodeId) (rate : Rate) (key : Trait) : Action Expression := do
  match key.value with
  | some value =>
    let type := key.type.or key.id.defaultType?
    ofExcept (withContext (.valueOf key.id) (Glsl.ofJson value type))
  | none =>
    let symbol ← symbolOrInput n key rate
    return ⟨symbol.expr, symbol.type⟩

def emitValue (n : NodeId) (wrapped : Wrapped) : Action Unit := do
  let stage ← ofExcept ((← read).stageOf n)
  let rate := Rate.stage stage
  let value ← wrappedValue n rate wrapped.key
  let type ← ofExcept value.type.decayed
  let result ← wrapped.verbs.foldlM (applyVerb n stage) ⟨value.code, type, false⟩
  let spelling ← ofExcept result.type.spelling
  commit stage (.mainBody stage) s!"{spelling} value{n} = {result.code};"
  expose n wrapped.key.id result.type s!"value{n}" rate

end GlslMaterial.Emission
