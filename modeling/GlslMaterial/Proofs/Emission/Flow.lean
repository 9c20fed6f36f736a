import GlslMaterial.Proofs.Emission.Projection
import GlslMaterial.Proofs.Lookup.Declared

/-!
The reckoning of types. While its verbs are applied, a value keeps a record of the type of its
expression. What the code really is follows from the types of the operands alone. Here the verbs are
read as operations on these two types, and the lookups that a reckoning makes are those of the code.

Main statement: an operand has the type that it is recorded with, and is aligned to the rank of the
expression.
-/

set_option autoImplicit false

namespace GlslMaterial

/-- Whether numbers of a family have a fraction. -/
def Family.isFloating : Family → Bool
  | float | double => true
  | _ => false

theorem Family.join?_assoc {a b c : Family} (one : a.isFloating = true) (two : b.isFloating = true)
    (three : c = .bool ∨ c.isFloating = true) :
    (a.join? b).bind (·.join? c) = (b.join? c).bind a.join? := by
  rcases three with rfl | three
  · cases a <;> cases one <;> cases b <;> cases two <;> rfl
  · cases a <;> cases one <;> cases b <;> cases two <;> cases c <;> cases three <;> rfl

theorem Family.isFloating_join? {a b c : Family} (one : a.isFloating = true)
    (joined : a.join? b = some c) : c.isFloating = true := by
  cases a <;> cases one <;> cases b <;> cases joined <;> rfl

theorem Family.isFloating_precision? {a b c : Family} (found : a.precision? b = some c) :
    c.isFloating = true := by
  have listed := List.mem_of_find?_eq_some found
  simp only [List.mem_cons, List.not_mem_nil, or_false] at listed
  rcases listed with rfl | rfl <;> rfl

namespace Glsl

/-- Whether a variable of a type can be declared with a text for its value. -/
def Accepts (scope : Scope) (type : DataType) (code : String) : Prop :=
  ∃ own declared, codeType? scope code = some own ∧ type.numeric? = some declared ∧
    own.converts declared = true

/-- What is recorded of a type is right up to its family, and scalars apart the family is one of
floating point numbers. -/
def Numeric.Suits (own : Numeric) (type : DataType) : Prop :=
  type.numeric?.map Numeric.rank = some own.rank ∧
    (own.rank = .scalar ∨ own.family.isFloating = true)

end Glsl

namespace Emission

open GlslMaterial.Action (Keeps ok_of_bind bind_of_ok ok_of_read ok_of_ofExcept ofExcept)
open GlslMaterial.Glsl (Tree Spells Scope Numeric Rank codeType? typeOf? Settled)
open Material

/-- A value by its types alone: the recorded type, and the type of the code, if it has one. -/
structure Flow where
  type : DataType
  own : Option Numeric
deriving DecidableEq, Repr

namespace Flow

/-- The type of an operand in the rank of an expression. -/
def align (type right : DataType) : Option Numeric :=
  if right.width = 1 || right = type then right.numeric? else type.numeric?

def operator (e : Flow) (operator : Glsl.Operator) (right : DataType) : Flow :=
  { e with own := do (← e.own).combine? operator (← align e.type right) }

def modulate (e : Flow) (right : DataType) : Flow :=
  { e with own := do (← e.own).modulo? (← align e.type right) }

/-- Scalar powers go through the constructor of the recorded type. -/
def exponent (e : Flow) (right : DataType) : Flow :=
  let power := if right.width = 1 && 1 < e.type.width then e.type.numeric? else align e.type right
  { e with own := do (← e.own).power? (← power) }

/-- The dimension of noise. -/
def dimensions (e : Flow) : Nat :=
  if e.type.width ≤ 2 then 2 else 3

/-- The point at which noise is taken. A scalar becomes a vector of two components, and a fourth
component is left out. -/
def point (e : Flow) : Option Numeric :=
  e.own.map fun own => ⟨if e.type.width = 1 then .float else own.family, .vector e.dimensions⟩

/-- Seeds are added as they are. -/
def seeded (point : Option Numeric) : Option DataType → Option Numeric
  | some seed => do (← point).combine? .add (← seed.numeric?)
  | none => point

def randomize (e : Flow) (seed : Option DataType) : Flow :=
  ⟨.float, (seeded e.point seed).bind (·.noise? e.dimensions)⟩

/-- Components stay in the family of their vector. -/
def select (e : Flow) (value : Option Json) : Flow :=
  let count := (swizzleOf value).toList.length
  ⟨(e.type.numeric?.bind fun held => DataType.vector? held.family count).getD .float,
    e.own.map fun own => ⟨own.family, .vector count⟩⟩

def project (e : Flow) (matrix : DataType) : Flow :=
  let dimension := (matrix.matrixShape?.map Prod.snd).getD 4
  let type := (DataType.vector? .float dimension).getD .vec4
  ⟨type, do (← matrix.numeric?).combine? .multiply ((← e.own).converted e.type type)⟩

/-- Whether a variable of the recorded type takes the code. -/
def isAccepted (e : Flow) : Bool :=
  e.own.any fun own => e.type.numeric?.any fun declared => own.family.converts declared.family

end Flow

/-- Applies one verb to the types. -/
def flow (n : NodeId) (stage : Stage) (e : Flow) (entry : VerbEntry) : Action Flow := do
  let right : Action DataType := do return (← operand n (.stage stage) entry).type
  match entry.verb with
  | .add => return e.operator .add (← right)
  | .subtract => return e.operator .subtract (← right)
  | .multiply => return e.operator .multiply (← right)
  | .divide => return e.operator .divide (← right)
  | .modulate => return e.modulate (← right)
  | .exponent => return e.exponent (← right)
  | .randomize =>
    let seed ← if entry.value.isNone && entry.operand.isNone then pure none else some <$> right
    discard (ensureSimplex stage e.dimensions)
    return e.randomize seed
  | .select => return e.select entry.value
  | .project => return e.project (← right)

/-- The type of a wrapped value: a literal is what it is written as, and a symbol is declared. -/
def wrappedType? (value : Option Json) (type : DataType) : Option DataType :=
  match value with
  | some value => Glsl.literalType? value type
  | none => type.decay?

/-- A wrapped value and its verbs, by their types. -/
def flowValue (n : NodeId) (stage : Stage) (wrapped : Wrapped) : Action Flow := do
  let value ← wrappedValue n (.stage stage) wrapped.key
  let type ← ofExcept value.type.decayed
  wrapped.verbs.foldlM (flow n stage)
    ⟨type, (wrappedType? wrapped.key.value value.type).bind DataType.numeric?⟩

/-- If the first action ends well on a material, in a scope with the right types, the second one
does the same with a value that is related. -/
def FollowsAt {α β : Type} (scope : Scope) (stage : Stage) (m : Material) (first : Action α)
    (second : Action β) (related : α → β → Prop) : Prop :=
  ∀ a after, first m = .ok a after → DeclaresInputs scope stage after →
    Ready scope stage after ∧
      ∃ b, second m = .ok b after ∧ second.events m = first.events m ∧ related a b

def Follows {α β : Type} (scope : Scope) (stage : Stage) (first : Action α) (second : Action β)
    (related : α → β → Prop) : Prop :=
  ∀ m, Ready scope stage m → FollowsAt scope stage m first second related

theorem FollowsAt.bind {α β γ δ : Type} {scope : Scope} {stage : Stage} {related : α → β → Prop}
    {alike : γ → δ → Prop} {m : Material} {first : Action α} {second : Action β}
    {next : α → Action γ} {other : β → Action δ}
    (begins : FollowsAt scope stage m first second related)
    (goes : ∀ a b, related a b → Follows scope stage (next a) (other b) alike) :
    FollowsAt scope stage m (first >>= next) (second >>= other) alike := by
  intro c after ended declares
  obtain ⟨a, middle, one, two, happened⟩ := ok_of_bind ended
  obtain ⟨kept, b, same, events, is⟩ := begins a middle one (declares.before two)
  obtain ⟨last, d, ends, later, fits⟩ := goes a b is middle kept c after two declares
  obtain ⟨whole, both⟩ := bind_of_ok same ends
  exact ⟨last, d, whole, by rw [both, happened, events, later], fits⟩

namespace Follows

variable {α β γ δ : Type} {scope : Scope} {stage : Stage} {related : α → β → Prop}
  {alike : γ → δ → Prop}

theorem pure {a : α} {b : β} (is : related a b) :
    Follows scope stage (Pure.pure a) (Pure.pure b) related := by
  rintro m ready _ _ ⟨⟩ -
  exact ⟨ready, b, rfl, rfl, is⟩

theorem bind {first : Action α} {second : Action β} {next : α → Action γ} {other : β → Action δ}
    (begins : Follows scope stage first second related)
    (goes : ∀ a b, related a b → Follows scope stage (next a) (other b) alike) :
    Follows scope stage (first >>= next) (second >>= other) alike :=
  fun m ready => (begins m ready).bind goes

theorem compute {value : Except Failure α} {next : α → Action γ} {second : Action δ}
    (goes : ∀ a, value = .ok a → Follows scope stage (next a) second alike) :
    Follows scope stage (Action.ofExcept value >>= next) second alike := by
  intro m ready c after ended declares
  obtain ⟨a, _, passed, ended, happened⟩ := ok_of_bind ended
  obtain ⟨given, rfl⟩ := ok_of_ofExcept passed
  obtain ⟨kept, d, same, events, is⟩ := goes a given m ready c after ended declares
  refine ⟨kept, d, same, ?_, is⟩
  rw [events, happened, given]
  rfl

theorem ofExcept {value : Except Failure α} {other : Except Failure β}
    (is : ∀ a, value = .ok a → ∃ b, other = .ok b ∧ related a b) :
    Follows scope stage (Action.ofExcept value) (Action.ofExcept other) related := by
  intro m ready a after ended _
  obtain ⟨given, rfl⟩ := ok_of_ofExcept ended
  obtain ⟨b, same, fits⟩ := is a given
  rw [given, same]
  exact ⟨ready, b, rfl, rfl, fits⟩

theorem foldlM {ι : Type} {step : α → ι → Action α} {other : β → ι → Action β} {items : List ι}
    (each : ∀ item ∈ items, ∀ a b, related a b →
      Follows scope stage (step a item) (other b item) related)
    {a : α} {b : β} (is : related a b) :
    Follows scope stage (items.foldlM step a) (items.foldlM other b) related := by
  induction items generalizing a b with
  | nil => exact .pure is
  | cons item items ih =>
    rw [List.foldlM_cons, List.foldlM_cons]
    refine .bind (each item List.mem_cons_self a b is) fun a b is => ?_
    exact ih (fun item member => each item (List.mem_cons_of_mem _ member)) is

end Follows

/-- Truth values apart, operands have types that stay what they are. -/
def IsOperand (scope : Scope) (right : Expression) : Prop :=
  Glsl.Legible right.code right.type ∧ codeType? scope right.code = right.type.numeric? ∧
    (right.type = .bool ∨ right.type.decay? = some right.type)

theorem isOperand_of_ofJson {scope : Scope} {value : Json} {literal : Expression}
    (given : Glsl.ofJson value none = .ok literal) : IsOperand scope literal := by
  obtain ⟨written, plain⟩ := Glsl.literalType?_of_ofJson given
  refine ⟨(Glsl.isLiteral_ofJson given).legible, ?_, plain⟩
  rw [(Glsl.isTyped_ofJson scope given).codeType?, written, Option.bind_some]

theorem follows_operand (scope : Scope) (n : NodeId) (stage : Stage) (entry : VerbEntry) :
    Follows scope stage (operand n (.stage stage) entry)
      (do return (← operand n (.stage stage) entry).type)
      fun right type => type = right.type ∧ IsOperand scope right := by
  intro m ready right after ended declares
  have kept : Ready scope stage after :=
    ready.kept (reads_operand n _ entry) (fun base =>
      heeds_operand (lenient_showing _ base) n _ entry) ended
  obtain ⟨whole, events⟩ := @bind_of_ok _ _ _ _ _ _ (fun e => pure e.type) _ _ ended rfl
  refine ⟨kept, _, whole, events.trans (List.append_nil _), rfl, ?_⟩
  have legible := (reads_operand n (.stage stage) entry m ready.legible right after ended).2
  unfold operand at ended
  split at ended
  · obtain ⟨symbol, _, found, ended, -⟩ := ok_of_bind ended
    obtain ⟨type, _, passed, ended, -⟩ := ok_of_bind ended
    obtain ⟨decays, rfl⟩ := ok_of_ofExcept passed
    cases ended
    have decays := DataType.decay?_of_decayed decays
    refine ⟨legible, ?_, .inr (DataType.decay?_idem decays)⟩
    rw [codeType?_of_symbolOrInput ready found declares, DataType.declared?, decays]
    rfl
  · exact isOperand_of_ofJson (ok_of_ofExcept ended).1
  · cases ended

theorem isFloating_of_steady {type : DataType} {held : Numeric} (steady : type.decay? = some type)
    (numeric : type.numeric? = some held) : held.family.isFloating = true := by
  cases type <;> cases numeric <;> first | rfl | cases steady

theorem rank_of_width {type : DataType} {width : Nat} {held : Numeric} (is : type.width = width + 1)
    (numeric : type.numeric? = some held) : held.rank = .vector (width + 1) := by
  obtain ⟨family, known⟩ := @DataType.numeric?_of_width type (by omega)
  rw [known, is] at numeric
  cases numeric
  rfl

section Operands

variable {scope : Scope} {right : Expression} {type : DataType}

theorem Flow.align_eq_some {own : Numeric} (steady : type.decay? = some type)
    (plain : right.type = .bool ∨ right.type.decay? = some right.type)
    (aligned : Flow.align type right.type = some own) :
    (own.rank = .scalar ∨ type.numeric?.map Numeric.rank = some own.rank) ∧
      (own.family = .bool ∨ own.family.isFloating = true) := by
  unfold Flow.align at aligned
  split at aligned
  · rename_i easy
    constructor
    · rcases Bool.or_eq_true_iff.1 easy with single | same
      · exact .inl (rank_of_width (of_decide_eq_true single) aligned)
      · rw [of_decide_eq_true same] at aligned
        exact .inr (by rw [aligned]; rfl)
    · rcases plain with truth | stays
      · rw [truth] at aligned
        cases aligned
        exact .inl rfl
      · exact .inr (isFloating_of_steady stays aligned)
  · exact ⟨.inr (by rw [aligned]; rfl), .inr (isFloating_of_steady steady aligned)⟩

theorem exists_aligned (operand : IsOperand scope right) (steady : type.decay? = some type)
    {text : String} (given : align right type = .ok text) :
    ∃ tree, Spells .operand text.toList tree ∧ typeOf? scope tree = Flow.align type right.type := by
  obtain ⟨legible, typed, plain⟩ := operand
  have reflects := reflects_of_legible legible
  have own : typeOf? scope (Composed.ofExpression right).tree = right.type.numeric? := by
    rw [← typed, Glsl.codeType?_of_spells reflects.sum]
  obtain ⟨tree, aligned, spells⟩ := reflects.align given
  refine ⟨tree, spells, ?_⟩
  unfold Composed.align at aligned
  unfold Flow.align
  split at aligned
  · rename_i easy
    rw [if_pos (by exact easy)]
    obtain rfl := Except.ok.inj aligned
    exact own
  · rename_i hard
    rw [if_neg (by exact hard)]
    simp only [Bool.or_eq_true, decide_eq_true_eq, not_or] at hard
    have stays : right.type.decay? = some right.type := by
      rcases plain with truth | stays
      · exact absurd (congrArg DataType.width truth) hard.1
      · exact stays
    exact Glsl.typeOf?_convert_of_typed aligned stays steady hard.2 own

end Operands

section Products

variable {family : Family} {dimension : Nat} {own right : Numeric}

theorem combine?_of_rank? {operator : Glsl.Operator} {a b : Numeric} {rank : Rank}
    (ranked : operator.rank? a.rank b.rank = some rank) :
    a.combine? operator b = (a.family.join? b.family).map (⟨·, rank⟩) := by
  unfold Numeric.combine?
  rw [ranked]
  cases a.family.join? b.family <;> rfl

theorem rank?_of_fits (operator : Glsl.Operator) {rank other : Rank}
    (fits : other = .scalar ∨ other = rank) : operator.rank? rank other = some rank := by
  unfold Glsl.Operator.rank?
  rcases fits with rfl | rfl
  · split <;> simp_all
  · split <;> simp_all

theorem rank?_matrix (several : 2 ≤ dimension) :
    Glsl.Operator.multiply.rank? (.matrix dimension) (.vector dimension) =
      some (.vector dimension) := by
  obtain ⟨more, rfl⟩ := Nat.exists_eq_add_of_le' several
  simp [Glsl.Operator.rank?]

theorem combine?_scaled (operator : Glsl.Operator) (several : 2 ≤ dimension)
    (matrix : family.isFloating = true) (rank : own.rank = .vector dimension)
    (floating : own.family.isFloating = true)
    (fits : right.rank = .scalar ∨ right.rank = own.rank)
    (plain : right.family = .bool ∨ right.family.isFloating = true) :
    (Numeric.combine? .multiply ⟨family, .matrix dimension⟩ own).bind (·.combine? operator right) =
      (own.combine? operator right).bind
        (Numeric.combine? .multiply ⟨family, .matrix dimension⟩) := by
  have product (other : Family) :
      Numeric.combine? .multiply ⟨family, .matrix dimension⟩ ⟨other, .vector dimension⟩ =
        (family.join? other).map (⟨·, .vector dimension⟩) :=
    combine?_of_rank? (rank?_matrix several)
  have applied (other : Family) :
      Numeric.combine? operator ⟨other, .vector dimension⟩ right =
        (other.join? right.family).map (⟨·, .vector dimension⟩) :=
    combine?_of_rank? (rank?_of_fits operator (rank ▸ fits))
  obtain ⟨other, _⟩ := own
  subst rank
  rw [product, applied]
  have assoc := congrArg (Option.map (Numeric.mk · (.vector dimension)))
    (Family.join?_assoc matrix floating plain)
  simpa [Option.bind_map, Option.map_bind, Function.comp_def, product, applied] using assoc

end Products

end Emission

end GlslMaterial
