import GlslMaterial.Proofs.Lookup.Legible

/-!
Composition of verbs. A value applies its verbs to trees: each takes the whole expression so far for
its first operand and its own operand, in the rank of that expression, as a whole for its second.
Main statement: the code that a value writes is read as this tree.
-/

set_option autoImplicit false

namespace GlslMaterial.Emission

open GlslMaterial.Action (ok_of_bind bind_of_ok ok_of_read ok_of_ofExcept ofExcept)
open GlslMaterial.Glsl (Tree Spells)
open Material

/-- An expression as a tree, with the type of its value. -/
structure Composed where
  tree : Tree
  type : DataType
deriving DecidableEq, Repr

namespace Composed

/-- Code as it is read. What cannot be read stands for itself. -/
def ofExpression (e : Expression) : Composed :=
  ⟨(Glsl.parse e.code).getD (.name e.code), e.type⟩

/-- An operand in the rank of an expression; a scalar goes with every rank. -/
def align (e : Composed) (type : DataType) : Except Failure Tree :=
  if e.type.width = 1 || e.type = type then .ok e.tree else e.tree.convert e.type type

/-- Powers need both operands in the same rank. -/
def powerOperand (e right : Composed) : Except Failure Tree := do
  if right.type.width = 1 && 1 < e.type.width then
    return .call (← e.type.spelling) [right.tree]
  right.align e.type

def select (e : Composed) (value : Option Json) : Except Failure Composed := do
  let swizzle := swizzleOf value
  match e.type.vectorShape? with
  | some (family, width) =>
    if 2 ≤ width && isSwizzle width swizzle.toList then
      match DataType.vector? family swizzle.toList.length with
      | some type => return ⟨.field e.tree swizzle, type⟩
      | none => throw (.misuse (.noVector family swizzle.toList.length))
    else throw (.misuse (.noSelection swizzle e.type))
  | none => throw (.misuse (.noSelection swizzle e.type))

def project (e matrix : Composed) : Except Failure Composed := do
  match matrix.type.matrixShape? with
  | some (_, dimension) =>
    let type := (DataType.vector? .float dimension).getD .vec4
    return ⟨.binary .multiply matrix.tree (← e.tree.convert e.type type), type⟩
  | none => throw (.misuse (.projectNeedsMatrix matrix.type))

/-- The point at which noise is taken, and its dimension. -/
def noisePoint (e : Composed) : Except Failure (Nat × Tree) :=
  match e.type.width with
  | 1 => .ok (2, .call "vec2" [e.tree, .number "0.0"])
  | 2 => .ok (2, e.tree)
  | 3 => .ok (3, e.tree)
  | 4 => .ok (3, .field e.tree "xyz")
  | _ => .error (.misuse (.noRandomness e.type))

def seeded (point : Tree) : Option Composed → Tree
  | some seed => .binary .add point seed.tree
  | none => point

def randomize (e : Composed) (stage : Stage) (seed : Option Composed) : Action Composed := do
  let (dimensions, point) ← ofExcept e.noisePoint
  let function ← ensureSimplex stage dimensions
  return ⟨.call function [seeded point seed], .float⟩

end Composed

/-- Applies one verb to an expression. -/
def compose (n : NodeId) (stage : Stage) (e : Composed) (entry : VerbEntry) : Action Composed := do
  let right : Action Composed := do return .ofExpression (← operand n (.stage stage) entry)
  let aligned : Action Tree := do ofExcept ((← right).align e.type)
  match entry.verb with
  | .add => return ⟨.binary .add e.tree (← aligned), e.type⟩
  | .subtract => return ⟨.binary .subtract e.tree (← aligned), e.type⟩
  | .multiply => return ⟨.binary .multiply e.tree (← aligned), e.type⟩
  | .divide => return ⟨.binary .divide e.tree (← aligned), e.type⟩
  | .modulate => return ⟨.call "mod" [e.tree, ← aligned], e.type⟩
  | .exponent =>
    let power ← ofExcept (e.powerOperand (← right))
    return ⟨.call "pow" [e.tree, power], e.type⟩
  | .randomize =>
    let seed ← if entry.value.isNone && entry.operand.isNone then pure none else some <$> right
    e.randomize stage seed
  | .select => ofExcept (e.select entry.value)
  | .project => ofExcept (e.project (← right))

/-- A wrapped value and its verbs, one after the other. -/
def composeValue (n : NodeId) (stage : Stage) (wrapped : Wrapped) : Action Composed := do
  let value ← wrappedValue n (.stage stage) wrapped.key
  let type ← ofExcept value.type.decayed
  wrapped.verbs.foldlM (compose n stage) ⟨(Composed.ofExpression value).tree, type⟩

/-- Wherever the first action ends well on a legible material, it leaves one, and the second action
does the same with a value that is related. -/
def Mirrors {α β : Type} (first : Action α) (second : Action β) (related : α → β → Prop) : Prop :=
  ∀ m, m.Legible → ∀ a after, first m = .ok a after →
    after.Legible ∧ ∃ b, second m = .ok b after ∧ second.events m = first.events m ∧ related a b

namespace Mirrors

variable {α β γ δ : Type} {related : α → β → Prop} {alike : γ → δ → Prop}

theorem pure {a : α} {b : β} (is : related a b) :
    Mirrors (Pure.pure a) (Pure.pure b) related := by
  rintro m legible _ _ ⟨⟩
  exact ⟨legible, b, rfl, rfl, is⟩

theorem bind {first : Action α} {second : Action β} {next : α → Action γ} {other : β → Action δ}
    (begins : Mirrors first second related)
    (goes : ∀ a b, related a b → Mirrors (next a) (other b) alike) :
    Mirrors (first >>= next) (second >>= other) alike := by
  intro m legible c after ended
  obtain ⟨a, middle, one, two, happened⟩ := ok_of_bind ended
  obtain ⟨kept, b, same, events, is⟩ := begins m legible a middle one
  obtain ⟨last, d, ends, later, fits⟩ := goes a b is middle kept c after two
  obtain ⟨whole, both⟩ := bind_of_ok same ends
  exact ⟨last, d, whole, by rw [both, happened, events, later], fits⟩

theorem ofExcept {value : Except Failure α} {other : Except Failure β}
    (is : ∀ a, value = .ok a → ∃ b, other = .ok b ∧ related a b) :
    Mirrors (Action.ofExcept value) (Action.ofExcept other) related := by
  intro m legible a after ended
  obtain ⟨given, rfl⟩ := ok_of_ofExcept ended
  obtain ⟨b, same, fits⟩ := is a given
  rw [given, same]
  exact ⟨legible, b, rfl, rfl, fits⟩

theorem both {action : Action α} {good : α → Prop} (reads : Reads action good) :
    Mirrors action action fun a b => b = a ∧ good a := by
  intro m legible a after ended
  obtain ⟨kept, is⟩ := reads m legible a after ended
  exact ⟨kept, a, ended, rfl, rfl, is⟩

theorem map {first : Action α} {second : Action β} (mirrors : Mirrors first second related) :
    Mirrors (some <$> first) (some <$> second) (Option.Rel related) :=
  .bind mirrors fun _ _ is => .pure (.some is)

theorem foldlM {ι : Type} {step : α → ι → Action α} {other : β → ι → Action β} {items : List ι}
    (each : ∀ item ∈ items, ∀ a b, related a b → Mirrors (step a item) (other b item) related)
    {a : α} {b : β} (is : related a b) :
    Mirrors (items.foldlM step a) (items.foldlM other b) related := by
  induction items generalizing a b with
  | nil => exact .pure is
  | cons item items ih =>
    rw [List.foldlM_cons, List.foldlM_cons]
    refine .bind (each item List.mem_cons_self a b is) fun a b is => ?_
    exact ih (fun item member => each item (List.mem_cons_of_mem _ member)) is

end Mirrors

/-- Code of a type is read as a tree, which is a number only where it is a scalar. -/
structure Reflects (code : String) (type : DataType) (e : Composed) : Prop where
  type : e.type = type
  sum : Spells .sum code.toList e.tree
  number : e.tree.isNumber = true → e.type.width = 1

theorem reflects_of_legible {e : Expression} (legible : Glsl.Legible e.code e.type) :
    Reflects e.code e.type (.ofExpression e) := by
  obtain ⟨tree, spells, number⟩ := legible
  have same : (Composed.ofExpression e).tree = tree := by
    simp [Composed.ofExpression, spells.parse_eq]
  exact ⟨rfl, same ▸ spells, same ▸ number⟩

namespace Reflects

variable {code other : String} {type second : DataType} {e right : Composed}

theorem of_operand {tree : Tree} (spells : Spells .operand code.toList tree)
    (plain : tree.isNumber = false) : Reflects code type ⟨tree, type⟩ :=
  ⟨rfl, spells.operand, by simp [plain]⟩

theorem argument (reflects : Reflects code type e) : Spells (.upTo 12) code.toList e.tree :=
  reflects.sum.weaken (by decide)

theorem call {function : String} (named : Glsl.isName function.toList = true)
    {arguments : List String} {trees : List Tree}
    (all : List.Forall₂ (fun a tree => Spells (.upTo 12) a.toList tree) arguments trees)
    (filled : arguments ≠ []) :
    Reflects (Glsl.call function arguments) type ⟨.call function trees, type⟩ :=
  of_operand (.call named all filled) (Tree.isNumber_call function trees)

theorem align (reflects : Reflects other second right) {aligned : String}
    (given : Emission.align ⟨other, second⟩ type = .ok aligned) :
    ∃ tree, right.align type = .ok tree ∧ Spells .operand aligned.toList tree := by
  obtain ⟨rfl, spells, number⟩ := reflects
  unfold Emission.align at given
  unfold Composed.align
  split at given
  · rename_i easy
    rw [if_pos easy]
    obtain rfl := Except.ok.inj given
    exact ⟨_, rfl, spells.atom⟩
  · rename_i hard
    rw [if_neg hard]
    cases converted : Glsl.convert other right.type type "0.0" with
    | error failure =>
      rw [converted] at given
      cases given
    | ok text =>
      rw [converted] at given
      obtain rfl := Except.ok.inj given
      obtain ⟨tree, same, spells⟩ := spells.convert number converted
      exact ⟨tree, same, spells.atom⟩

variable {running : Running}

theorem powerOperand (reflects : Reflects running.code running.type e)
    (operand : Reflects other second right) {power : String}
    (given : Emission.powerOperand running ⟨other, second⟩ = .ok power) :
    ∃ tree, e.powerOperand right = .ok tree ∧ Spells .sum power.toList tree := by
  unfold Emission.powerOperand at given
  unfold Composed.powerOperand
  rw [reflects.type, operand.type]
  split at given
  · rename_i spread
    rw [if_pos spread]
    obtain ⟨spelling, spelled, given⟩ := eq_ok_of_bind given
    obtain rfl := Except.ok.inj given
    have named := Glsl.isName_spelling spelled
    rw [spelled]
    exact ⟨_, rfl, (Spells.call named (.cons operand.argument .nil) (by simp)).operand⟩
  · rename_i same
    rw [if_neg same]
    obtain ⟨tree, aligned, spells⟩ := operand.align given
    exact ⟨tree, aligned, spells.operand⟩

theorem isName_of_isSwizzle {width : Nat} {letters : List Char}
    (swizzle : isSwizzle width letters = true) : Glsl.isName letters = true := by
  simp only [isSwizzle, Bool.and_eq_true, Bool.or_eq_true, decide_eq_true_eq, List.all_eq_true,
    List.contains_iff_mem] at swizzle
  obtain ⟨⟨⟨filled, -⟩, letter⟩, -⟩ := swizzle
  have positions : ['x', 'y', 'z', 'w'].all Char.isAlpha = true := by decide
  have colors : ['r', 'g', 'b', 'a'].all Char.isAlpha = true := by decide
  have alpha : ∀ c ∈ letters, c.isAlpha = true := by
    intro c member
    rcases letter with position | color
    · exact List.all_eq_true.1 positions c (position c member)
    · exact List.all_eq_true.1 colors c (color c member)
  have nonempty : letters ≠ [] := by
    rintro rfl
    cases filled
  simpa using @Glsl.isName_of_alpha letters [] nonempty alpha (by simp)

theorem select {result : Running} (reflects : Reflects running.code running.type e)
    {value : Option Json} (given : Emission.select running value = .ok result) :
    ∃ c, e.select value = .ok c ∧ Reflects result.code result.type c ∧ result.product = false := by
  unfold Emission.select at given
  unfold Composed.select
  dsimp only at given ⊢
  rw [reflects.type]
  cases shape : running.type.vectorShape? with
  | none =>
    rw [shape] at given
    cases given
  | some pair =>
    obtain ⟨family, width⟩ := pair
    rw [shape] at given
    dsimp only at given ⊢
    split at given
    · rename_i fits
      rw [if_pos fits]
      obtain ⟨several, swizzle⟩ := Bool.and_eq_true_iff.1 fits
      cases found : DataType.vector? family (swizzleOf value).toList.length with
      | none =>
        rw [found] at given
        cases given
      | some type =>
        rw [found] at given
        obtain rfl := Except.ok.inj given
        have plain : e.tree.isNumber = false := by
          refine Bool.eq_false_iff.2 fun number => ?_
          have one := reflects.number number
          rw [reflects.type, (DataType.width_of_vectorShape? shape).1] at one
          have two : 2 ≤ width := of_decide_eq_true several
          omega
        refine ⟨_, rfl, of_operand (.part reflects.sum.atom plain ?_) rfl, rfl⟩
        exact isName_of_isSwizzle swizzle
    · cases given

/-- Noise is taken of at most four components. -/
theorem width_of_noisePoint {pair : Nat × String} (given : Emission.noisePoint running = .ok pair) :
    running.type.width = 1 ∨ running.type.width = 2 ∨ running.type.width = 3 ∨
      running.type.width = 4 := by
  unfold Emission.noisePoint at given
  split at given
  · omega
  · omega
  · omega
  · omega
  · cases given

theorem noisePoint (reflects : Reflects running.code running.type e)
    {dimensions : Nat} {point : String}
    (given : Emission.noisePoint running = .ok (dimensions, point)) :
    ∃ tree, e.noisePoint = .ok (dimensions, tree) ∧ Spells .sum point.toList tree := by
  have small := width_of_noisePoint given
  unfold Emission.noisePoint at given
  unfold Composed.noisePoint
  rw [reflects.type]
  rcases small with width | width | width | width
  · rw [width] at given ⊢
    cases given
    have named : Glsl.isName "vec2".toList = true := by decide
    have zero : Spells .operand "0.0".toList (.number "0.0") := .unsigned (by decide)
    have spells := Spells.call named (.cons reflects.argument (.cons zero.operand .nil)) (by simp)
    have shape : Glsl.call "vec2" [running.code, "0.0"] = s!"vec2({running.code}, 0.0)" :=
      String.toList_inj.1 (by simp [Glsl.call])
    exact ⟨_, rfl, shape ▸ spells.operand⟩
  · rw [width] at given ⊢
    cases given
    exact ⟨_, rfl, reflects.sum⟩
  · rw [width] at given ⊢
    cases given
    exact ⟨_, rfl, reflects.sum⟩
  · rw [width] at given ⊢
    cases given
    have plain : e.tree.isNumber = false := by
      refine Bool.eq_false_iff.2 fun number => ?_
      have one := reflects.number number
      rw [reflects.type, width] at one
      cases one
    let letters := "xyz"
    have spells := reflects.sum.atom.part plain (show Glsl.isName letters.toList = true by decide)
    have shape : s!"{Glsl.atom running.code}.xyz".toList =
        s!"{Glsl.atom running.code}.{letters}".toList := by
      simp [letters]
    exact ⟨_, rfl, shape ▸ spells.operand⟩

end Reflects

/-- The running expression is read as a tree, and as a product where it takes more factors. -/
structure Runs (running : Running) (e : Composed) : Prop where
  reflects : Reflects running.code running.type e
  product : running.product = true → Spells .product running.code.toList e.tree

namespace Runs

variable {running : Running} {e : Composed}

theorem of_reflects {code : String} {type : DataType} (reflects : Reflects code type e) :
    Runs ⟨code, type, false⟩ e :=
  ⟨reflects, nofun⟩

theorem leftOperand (runs : Runs running e) (product : Bool) :
    Spells .product (Emission.leftOperand running product).toList e.tree := by
  unfold Emission.leftOperand
  split
  · rename_i more
    exact runs.product (Bool.and_eq_true_iff.1 more).2
  · exact runs.reflects.sum.atom.operand

theorem applyOperator (runs : Runs running e) {right : String} {tree : Tree}
    (spells : Spells .operand right.toList tree) (operator : Glsl.Operator)
    (arithmetic : operator.isArithmetic = true) :
    Runs (Emission.applyOperator operator.mark operator.isProduct running right)
      ⟨.binary operator e.tree tree, e.type⟩ := by
  have whole := Spells.binary operator
    ((runs.leftOperand operator.isProduct).weaken operator.strength_bounds.1) spells.operand
  have shape : (Emission.applyOperator operator.mark operator.isProduct running right).code.toList =
      Glsl.spaced (Emission.leftOperand running operator.isProduct).toList operator
        right.toList := by
    simp [Emission.applyOperator, Glsl.spaced]
  rw [← shape] at whole
  refine ⟨⟨runs.reflects.type, ?_, fun is => by cases is⟩, fun product => ?_⟩
  · exact whole.weaken (Glsl.Operator.strength_of_isArithmetic arithmetic)
  · exact whole.weaken (Nat.le_of_eq (Glsl.Operator.strength_of_isProduct product))

end Runs

theorem legible_decayed {code : String} {type decayed : DataType} (legible : Glsl.Legible code type)
    (decays : type.decayed = .ok decayed) : Glsl.Legible code decayed := by
  obtain ⟨tree, spells, number⟩ := legible
  exact ⟨tree, spells, fun is => DataType.width_of_decayed decays (number is)⟩

theorem reads_operand (n : NodeId) (rate : Rate) (entry : VerbEntry) :
    Reads (operand n rate entry) fun e => Glsl.Legible e.code e.type := by
  unfold operand
  split
  · refine .bind (reads_symbolOrInput n _ rate) fun symbol legible => ?_
    refine .bind (.ofExcept fun _ decays => decays) fun type decays => ?_
    exact .pure (legible_decayed legible decays)
  · exact .ofExcept fun _ given => (Glsl.isLiteral_ofJson given).legible
  · exact fun m _ e after ended => by cases ended

theorem reads_wrappedValue (n : NodeId) (rate : Rate) (key : Trait) :
    Reads (wrappedValue n rate key) fun e => Glsl.Legible e.code e.type := by
  unfold wrappedValue
  split
  · exact .ofExcept fun _ given => (Glsl.isLiteral_ofJson (eq_ok_of_withContext given)).legible
  · exact .bind (reads_symbolOrInput n key rate) fun symbol legible => .pure legible

theorem mirrors_operand (n : NodeId) (rate : Rate) (entry : VerbEntry) :
    Mirrors (operand n rate entry) (do return Composed.ofExpression (← operand n rate entry))
      fun e right => Reflects e.code e.type right := by
  intro m legible e after ended
  obtain ⟨kept, is⟩ := reads_operand n rate entry m legible e after ended
  obtain ⟨whole, events⟩ := @bind_of_ok _ _ _ _ _ _ (fun e => pure (Composed.ofExpression e)) _ _
    ended rfl
  exact ⟨kept, _, whole, events.trans (List.append_nil _), reflects_of_legible is⟩

theorem isName_of_functions {dimensions : Nat} {helpers : List (String × String)} {name : String}
    (given : Noise.functions dimensions = .ok (helpers, name)) :
    Glsl.isName name.toList = true := by
  unfold Noise.functions at given
  split at given
  · cases given
    decide
  · cases given
    decide
  · cases given

theorem reads_ensureSimplex (stage : Stage) (dimensions : Nat) :
    Reads (ensureSimplex stage dimensions) fun name => Glsl.isName name.toList = true := by
  refine .bind (.ofExcept fun _ given => given) fun pair given => ?_
  obtain ⟨helpers, name⟩ := pair
  refine .bind (.of_heeds fun base => ?_) fun _ _ => .pure (isName_of_functions given)
  exact heeds_ensureFunctions (lenient_showing _ base) fun _ _ _ => trivial

theorem spells_seeded {point : String} {tree : Tree} (spells : Spells .sum point.toList tree)
    {seed : Expression} {right : Composed} (reflects : Reflects seed.code seed.type right) :
    Spells .sum s!"{point} + {Glsl.atom seed.code}".toList (Composed.seeded tree (some right)) := by
  have shape : s!"{point} + {Glsl.atom seed.code}".toList =
      Glsl.spaced point.toList .add (Glsl.atom seed.code).toList := by
    simp [Glsl.spaced, Glsl.Operator.mark]
  rw [shape]
  exact .binary .add spells reflects.sum.atom.operand

theorem mirrors_randomize (stage : Stage) {running : Running} {e : Composed}
    (reflects : Reflects running.code running.type e) {seed : Option Expression}
    {right : Option Composed}
    (seeds : Option.Rel (fun e right => Reflects e.code e.type right) seed right) :
    Mirrors (randomize stage running seed) (e.randomize stage right) Runs := by
  have points : Mirrors (ofExcept (noisePoint running)) (ofExcept e.noisePoint) fun pair other =>
      pair.1 = other.1 ∧ Spells .sum pair.2.toList other.2 := by
    refine .ofExcept fun pair given => ?_
    obtain ⟨tree, same, spells⟩ := reflects.noisePoint given
    exact ⟨(pair.1, tree), same, rfl, spells⟩
  refine .bind points fun pair other both => ?_
  obtain ⟨dimensions, point⟩ := pair
  obtain ⟨others, tree⟩ := other
  obtain ⟨rfl, spells⟩ : dimensions = others ∧ Spells .sum point.toList tree := both
  refine .bind (.both (reads_ensureSimplex stage dimensions)) fun function again named => ?_
  obtain ⟨rfl, named⟩ := named
  have called (argument : String) (tree : Tree) (spells : Spells .sum argument.toList tree) :
      Mirrors (pure ⟨s!"{again}({argument})", .float, false⟩)
        (pure ⟨.call again [tree], .float⟩) Runs := by
    have reflects : Reflects (Glsl.call again [argument]) .float ⟨.call again [tree], .float⟩ :=
      .call named (.cons (spells.weaken (by decide)) .nil) (by simp)
    exact .pure (.of_reflects reflects)
  cases seeds with
  | none => exact called point tree spells
  | some reflects => exact called _ _ (spells_seeded spells reflects)

theorem mirrors_applyVerb (n : NodeId) (stage : Stage) {running : Running} {e : Composed}
    (runs : Runs running e) {entry : VerbEntry} (plain : entry.verb ≠ .project) :
    Mirrors (applyVerb n stage running entry) (compose n stage e entry) Runs := by
  have right := mirrors_operand n (.stage stage) entry
  have type : e.type = running.type := runs.reflects.type
  have aligned : Mirrors
      (do ofExcept (align (← operand n (.stage stage) entry) running.type))
      (do ofExcept ((← (do return Composed.ofExpression (← operand n (.stage stage) entry))
        ).align e.type))
      fun text tree => Spells .operand text.toList tree := by
    refine .bind right fun text operand reflects => .ofExcept fun aligned given => ?_
    rw [type]
    exact reflects.align given
  unfold applyVerb compose
  cases verb : entry.verb with
  | add => exact .bind aligned fun _ _ right => .pure (runs.applyOperator right .add rfl)
  | subtract => exact .bind aligned fun _ _ right => .pure (runs.applyOperator right .subtract rfl)
  | multiply => exact .bind aligned fun _ _ right => .pure (runs.applyOperator right .multiply rfl)
  | divide => exact .bind aligned fun _ _ right => .pure (runs.applyOperator right .divide rfl)
  | modulate =>
    refine .bind aligned fun text tree spells => .pure ?_
    rw [type]
    refine .of_reflects (.call (by decide) (.cons runs.reflects.argument ?_) (by simp))
    exact .cons spells.operand .nil
  | exponent =>
    refine .bind right fun text operand reflects => ?_
    refine .bind (.ofExcept fun _ => runs.reflects.powerOperand reflects) fun _ tree spells =>
      .pure ?_
    rw [type]
    have power : Spells (.upTo 12) _ tree := spells.weaken (by decide)
    exact .of_reflects
      (.call (by decide) (.cons runs.reflects.argument (.cons power .nil)) (by simp))
  | randomize =>
    dsimp only
    split
    · have unseeded : Mirrors (pure none) (pure none)
          (Option.Rel fun (e : Expression) right => Reflects e.code e.type right) := .pure .none
      exact .bind unseeded fun seed other seeds => mirrors_randomize stage runs.reflects seeds
    · refine .bind (.map right) fun seed other seeds => ?_
      exact mirrors_randomize stage runs.reflects seeds
  | select =>
    refine .ofExcept fun result given => ?_
    obtain ⟨c, same, reflects, single⟩ := runs.reflects.select given
    exact ⟨c, same, reflects, by simp [single]⟩
  | project => exact absurd verb plain

/-- The expression of a value as code. -/
def runningValue (n : NodeId) (stage : Stage) (wrapped : Wrapped) : Action Running := do
  let value ← wrappedValue n (.stage stage) wrapped.key
  let type ← ofExcept value.type.decayed
  wrapped.verbs.foldlM (applyVerb n stage) ⟨value.code, type, false⟩

theorem emitValue_eq (n : NodeId) (wrapped : Wrapped) :
    emitValue n wrapped = (do
      let stage ← ofExcept ((← read).stageOf n)
      let result ← runningValue n stage wrapped
      let spelling ← ofExcept result.type.spelling
      commit stage (.mainBody stage) s!"{spelling} value{n} = {result.code};"
      expose n wrapped.key.id result.type s!"value{n}" (.stage stage)) := by
  simp only [emitValue, runningValue, bind_assoc]

theorem mirrors_runningValue (n : NodeId) (stage : Stage) {wrapped : Wrapped}
    (plain : ∀ entry ∈ wrapped.verbs, entry.verb ≠ .project) :
    Mirrors (runningValue n stage wrapped) (composeValue n stage wrapped) Runs := by
  refine .bind (.both (reads_wrappedValue n (.stage stage) wrapped.key)) fun value again is => ?_
  obtain ⟨rfl, legible⟩ := is
  refine .bind (.both (.ofExcept fun type decays => legible_decayed legible decays))
    fun type same is => ?_
  obtain ⟨rfl, legible⟩ := is
  refine .foldlM (fun entry member running e runs => mirrors_applyVerb n stage runs ?_) ?_
  · exact plain entry member
  · exact .of_reflects (@reflects_of_legible ⟨again.code, same⟩ legible)

/-- What a value does: it finds its expression and declares a variable with it, which it shows. -/
theorem emitValue_eq_ok {m after : Material} {n : NodeId} {wrapped : Wrapped}
    (ended : emitValue n wrapped m = .ok () after) :
    ∃ stage result middle spelling, m.stageOf n = .ok stage ∧
      runningValue n stage wrapped m = .ok result middle ∧
      result.type.spelling = .ok spelling ∧
      (emitValue n wrapped).events m = (runningValue n stage wrapped).events m ++
        [.start stage, .write stage (.mainBody stage) s!"{spelling} value{n} = {result.code};",
          .expose n (.typed wrapped.key.id result.type)
            ⟨s!"value{n}", result.type, .stage stage⟩] := by
  rw [emitValue_eq] at ended ⊢
  obtain ⟨_, _, read, ended, whole⟩ := ok_of_bind ended
  obtain ⟨rfl, rfl⟩ := ok_of_read read
  obtain ⟨stage, _, passed, ended, events⟩ := ok_of_bind ended
  obtain ⟨staged, rfl⟩ := ok_of_ofExcept passed
  obtain ⟨result, middle, ran, ended, later⟩ := ok_of_bind ended
  obtain ⟨spelling, _, passed, ended, last⟩ := ok_of_bind ended
  obtain ⟨spelled, rfl⟩ := ok_of_ofExcept passed
  obtain ⟨_, written, committed, ended, final⟩ := ok_of_bind ended
  refine ⟨stage, result, middle, spelling, staged, ran, spelled, ?_⟩
  rw [whole, events, later, last, final, events_commit committed, staged, spelled]
  rfl

/-- A value declares its variable with code that is read as its expression and its verbs, each
applied as a whole to what came before. -/
theorem emitValue_composes {m after : Material} {n : NodeId} {wrapped : Wrapped}
    (legible : m.Legible) (plain : ∀ entry ∈ wrapped.verbs, entry.verb ≠ .project)
    (ended : emitValue n wrapped m = .ok () after) :
    ∃ stage result middle spelling code, m.stageOf n = .ok stage ∧
      composeValue n stage wrapped m = .ok result middle ∧
      result.type.spelling = .ok spelling ∧ Glsl.parse code = some result.tree ∧
      (emitValue n wrapped).events m = (composeValue n stage wrapped).events m ++
        [.start stage, .write stage (.mainBody stage) s!"{spelling} value{n} = {code};",
          .expose n (.typed wrapped.key.id result.type)
            ⟨s!"value{n}", result.type, .stage stage⟩] := by
  obtain ⟨stage, running, middle, spelling, staged, ran, spelled, events⟩ := emitValue_eq_ok ended
  obtain ⟨-, e, composed, same, runs⟩ := mirrors_runningValue n stage plain m legible _ _ ran
  refine ⟨stage, e, middle, spelling, running.code, staged, composed, ?_,
    runs.reflects.sum.parse_eq, ?_⟩
  · rw [runs.reflects.type, spelled]
  · rw [events, same, runs.reflects.type]

/-- A value in four steps from another value. -/
theorem emitValue_composes_of_four :
    let wrapped : Wrapped := ⟨.ofId .resolution, [⟨.add, none, some .time⟩,
      ⟨.divide, none, some .time⟩, ⟨.multiply, none, some .resolution⟩,
      ⟨.subtract, none, some .time⟩]⟩
    let time : Tree := .field (.name "Tick") "Time"
    ∃ base past after code,
      ofConstruct ⟨.material, none, [], [],
        [⟨.value, none, [.ofId .resolution], [⟨.multiply, none, some .time⟩], []⟩,
          ⟨.value, none, [wrapped.key], wrapped.verbs, []⟩]⟩ = .ok base ∧
      Reached base past ∧ emitValue 2 wrapped (base.replay past) = .ok () after ∧
      Glsl.parse code = some (.binary .subtract (.binary .multiply (.binary .divide
        (.binary .add (.name "value1") time) time) (.name "value1")) time) ∧
      .write .pixel (.mainBody .pixel) s!"vec2 value2 = {code};" ∈
        (emitValue 2 wrapped).events (base.replay past) := by
  intro wrapped time
  let tree : Tree := .binary .subtract (.binary .multiply (.binary .divide
    (.binary .add (.name "value1") time) time) (.name "value1")) time
  have evaluated : (ofConstruct ⟨.material, none, [], [],
      [⟨.value, none, [.ofId .resolution], [⟨.multiply, none, some .time⟩], []⟩,
        ⟨.value, none, [wrapped.key], wrapped.verbs, []⟩]⟩).toOption.any (fun base =>
          let m := base.replay ((generateNode 1).events base)
          ((emitValue 2 wrapped).ended? m).any (fun _ => true) &&
            ((composeValue 2 .pixel wrapped).ended? m).any (·.1 = ⟨tree, .vec2⟩) &&
            m.stage? 2 = some .pixel) = true := by
    decide +kernel
  obtain ⟨base, built, evaluated⟩ := exists_ok_of_any evaluated
  simp only [Bool.and_eq_true, decide_eq_true_eq] at evaluated
  obtain ⟨⟨ends, composes⟩, staged⟩ := evaluated
  obtain ⟨_, after, ended, -⟩ := Action.exists_ok_of_any ends
  obtain ⟨e, middle, composed, same⟩ := Action.exists_ok_of_any composes
  obtain rfl := of_decide_eq_true same
  have reached : Reached base ((generateNode 1).events base) := .node .start 1 (List.prefix_refl _)
  obtain ⟨stage, result, _, spelling, code, at_stage, again, spelled, parsed, events⟩ :=
    emitValue_composes (reached.legible (fresh_ofConstruct built)) (by decide) ended
  rw [stageOf, staged] at at_stage
  obtain rfl := Except.ok.inj at_stage
  have both := composed.symm.trans again
  cases both
  cases spelled
  refine ⟨base, _, after, code, built, reached, ended, parsed, ?_⟩
  rw [events]
  exact List.mem_append_right _ (List.mem_cons_of_mem _ List.mem_cons_self)

end GlslMaterial.Emission
