import GlslMaterial.Proofs.Emission.Composition
import GlslMaterial.Proofs.Lookup.Splice

/-!
Projections. The product of a matrix and the running expression is written as text, in which the
expression stands as it is where it has the type of the vector already. Behind the factor it is then
read as a whole only if no operator stands in it outside of brackets.

Main statement: the product takes the whole expression, unless the expression is already of the
vector's type and the verb before was an operator.
-/

set_option autoImplicit false

namespace GlslMaterial

namespace Glsl

variable {factor tree : Tree} {text : List Char}

theorem Spells.product {front : List Char} (one : Spells .operand front factor)
    (two : Spells .signed text tree) :
    Spells .product (spaced front .multiply text) (.binary .multiply factor tree) :=
  .binary .multiply one.operand two

/-- Behind a factor, an expression is read as another one: the factor goes to its first operand. -/
theorem Derives.exists_scaled {front ts : List String} (one : Derives .operand front factor)
    {strength limit : Nat} (derives : Derives (.upTo strength) ts tree) (le : strength ≤ limit)
    (pos : 1 ≤ limit) :
    ∃ whole, Derives (.upTo limit) (front ++ "*" :: ts) whole ∧ whole.isNumber = false := by
  have product {limit : Nat} {ts : List String} {tree : Tree} (two : Derives .signed ts tree)
      (pos : 1 ≤ limit) :
      ∃ whole, Derives (.upTo limit) (front ++ "*" :: ts) whole ∧ whole.isNumber = false :=
    ⟨_, .weaken (@Derives.binary .multiply _ _ _ _ one.operand two) pos, rfl⟩
  generalize level : Level.upTo strength = any at derives
  induction derives generalizing strength limit with
  | name | number | group | field | index | empty | called | callee | next => cases level
  | signed inner _ => exact product (.signed inner) pos
  | @binary operator _ _ _ _ _ two ih _ =>
    obtain rfl := Level.upTo.inj level
    obtain ⟨whole, scaled, -⟩ := ih (Nat.le_refl _) operator.strength_bounds.1 rfl
    exact ⟨_, .weaken (by simpa using Derives.binary scaled two) le, rfl⟩
  | choice _ yes no ih _ _ =>
    obtain rfl := Level.upTo.inj level
    obtain ⟨whole, scaled, -⟩ := ih (Nat.le_refl 11) (by decide) rfl
    exact ⟨_, .weaken (by simpa using Derives.choice scaled yes no) le, rfl⟩
  | sequence _ last ih _ =>
    obtain rfl := Level.upTo.inj level
    obtain ⟨whole, scaled, -⟩ := ih (Nat.le_refl 13) (by decide) rfl
    exact ⟨_, .weaken (by simpa using Derives.sequence scaled last) le, rfl⟩
  | operand inner _ => exact product inner.operand pos
  | weaken _ more ih =>
    obtain rfl := Level.upTo.inj level
    exact ih (Nat.le_trans more le) pos rfl

theorem Spells.exists_scaled {front : List Char} (one : Spells .operand front factor)
    {strength : Nat} (pos : 1 ≤ strength) (spells : Spells (.upTo strength) text tree) :
    ∃ whole, Spells (.upTo strength) (spaced front .multiply text) whole ∧
      whole.isNumber = false := by
  unfold Spells
  rw [tokens_spaced]
  exact Derives.exists_scaled one spells (Nat.le_refl _) pos

/-- A text that ends in an operator with its right operand, outside of brackets. -/
def Open (text : List Char) : Prop :=
  ∃ (operator : Operator) (first second : List Char) (left right : Tree),
    text = spaced first operator second ∧ Spells .product first left ∧
      Spells .operand second right

/-- Behind a factor, the last operator of a text is applied to the product of the factor and what
stands before the operator. -/
theorem Open.scaled {front : List Char} (ends : Open text)
    (spells : Spells .sum text tree) (one : Spells .operand front factor) :
    ∃ operator left right other, tree = .binary operator left right ∧
      Spells (.upTo operator.strength) (spaced front .multiply text)
        (.binary operator other right) := by
  obtain ⟨operator, first, second, left, right, rfl, product, operand⟩ := ends
  obtain ⟨other, scaled, -⟩ := Spells.exists_scaled one (Nat.le_refl 1) product
  have pos := operator.strength_bounds.1
  have own := Spells.binary operator (product.weaken pos) operand.operand
  refine ⟨operator, left, right, other, spells.unique own, ?_⟩
  have shape : spaced front .multiply (spaced first operator second) =
      spaced (spaced front .multiply first) operator second := by
    simp [spaced]
  rw [shape]
  exact .binary operator (scaled.weaken pos) operand.operand

/-- Whether a tree is neither a sign nor an operator with what it is applied to. -/
def Tree.isPrimary : Tree → Bool
  | unary _ _ | binary _ _ _ | choice _ _ _ | sequence _ _ => false
  | _ => true

theorem Spells.operand_of_isPrimary {strength : Nat} (spells : Spells (.upTo strength) text tree)
    (primary : tree.isPrimary = true) : Spells .operand text tree := by
  unfold Spells at spells ⊢
  generalize level : Level.upTo strength = any at spells
  generalize tokens text = ts at spells ⊢
  induction spells generalizing strength with
  | name | number | group | field | index | empty | called | callee | next => cases level
  | signed | binary | choice | sequence => cases primary
  | operand inner => exact inner
  | weaken _ _ ih => exact ih primary rfl

theorem Tree.binary_ne_of_right {operator inner again : Operator} {other left right : Tree} :
    binary operator other right ≠ binary inner factor (binary again left right) := by
  intro same
  have size := congrArg sizeOf (Tree.binary.inj same).2.2
  simp at size

end Glsl

/-- Whether a verb writes an operator. -/
def Verb.isOperator : Verb → Bool
  | add | subtract | multiply | divide => true
  | _ => false

namespace Emission

open GlslMaterial.Action (ok_of_bind bind_of_ok ok_of_read ok_of_ofExcept ofExcept)
open GlslMaterial.Glsl (Tree Spells Open)
open Material

theorem reads_applyOperator {running : Running} {e : Composed} (runs : Runs running e)
    {action : Action String}
    (aligned : Reads action fun text => ∃ tree, Spells .operand text.toList tree)
    (operator : Glsl.Operator) :
    Reads (do return applyOperator operator.mark operator.isProduct running (← action))
      fun result => Open result.code.toList := by
  refine .bind aligned fun right spelled => .pure ?_
  obtain ⟨tree, spells⟩ := spelled
  refine ⟨operator, _, right.toList, e.tree, tree, ?_, runs.leftOperand operator.isProduct, spells⟩
  simp [applyOperator, Glsl.spaced]

theorem reads_aligned (n : NodeId) (rate : Rate) (entry : VerbEntry) (type : DataType) :
    Reads (do ofExcept (align (← operand n rate entry) type)) fun text =>
      ∃ tree, Spells .operand text.toList tree := by
  refine .bind (reads_operand n rate entry) fun e legible => .ofExcept fun text given => ?_
  obtain ⟨tree, -, spells⟩ := (reflects_of_legible legible).align given
  exact ⟨tree, spells⟩

/-- Operators stand at the end of what they write. -/
theorem reads_open (n : NodeId) (stage : Stage) {running : Running} {e : Composed}
    (runs : Runs running e) {entry : VerbEntry} (operator : entry.verb.isOperator = true) :
    Reads (applyVerb n stage running entry) fun result => Open result.code.toList := by
  have opens := reads_applyOperator runs (reads_aligned n (.stage stage) entry running.type)
  unfold applyVerb
  cases verb : entry.verb with
  | add => exact opens .add
  | subtract => exact opens .subtract
  | multiply => exact opens .multiply
  | divide => exact opens .divide
  | _ =>
    rw [verb] at operator
    cases operator

theorem isPrimary_of_compose {n : NodeId} {stage : Stage} {e c : Composed} {entry : VerbEntry}
    {m after : Material} (other : entry.verb.isOperator = false) (plain : entry.verb ≠ .project)
    (ended : compose n stage e entry m = .ok c after) : c.tree.isPrimary = true := by
  unfold compose at ended
  cases verb : entry.verb with
  | modulate =>
    simp only [verb] at ended
    obtain ⟨tree, _, -, ended, -⟩ := ok_of_bind ended
    cases ended
    rfl
  | exponent =>
    simp only [verb] at ended
    obtain ⟨right, _, -, ended, -⟩ := ok_of_bind ended
    obtain ⟨power, _, -, ended, -⟩ := ok_of_bind ended
    cases ended
    rfl
  | randomize =>
    have called {seed : Option Composed} {m : Material}
        (ended : e.randomize stage seed m = .ok c after) : c.tree.isPrimary = true := by
      obtain ⟨point, _, -, ended, -⟩ := ok_of_bind ended
      obtain ⟨function, _, -, ended, -⟩ := ok_of_bind ended
      cases ended
      rfl
    simp only [verb] at ended
    split at ended
    all_goals
      obtain ⟨seed, _, -, ended, -⟩ := ok_of_bind ended
      exact called ended
  | select =>
    simp only [verb] at ended
    obtain ⟨given, -⟩ := ok_of_ofExcept ended
    unfold Composed.select at given
    dsimp only at given
    cases shape : e.type.vectorShape? with
    | none =>
      rw [shape] at given
      cases given
    | some pair =>
      rw [shape] at given
      dsimp only at given
      split at given
      · split at given
        · cases given
          rfl
        · cases given
      · cases given
  | project => exact absurd verb plain
  | _ =>
    rw [verb] at other
    cases other

theorem exists_projected {running result : Running} {e matrix : Composed}
    (reflects : Reflects running.code running.type e) {right : Expression}
    (factor : Reflects right.code right.type matrix) (given : project running right = .ok result) :
    ∃ whole tree, e.project matrix = .ok whole ∧ result.type = whole.type ∧
      result.product = false ∧ Spells .operand result.code.toList tree ∧ tree.isNumber = false ∧
      (running.type.decay? = some whole.type → Open running.code.toList →
        tree ≠ whole.tree) ∧
      (running.type.decay? ≠ some whole.type ∨ Spells .signed running.code.toList e.tree →
        tree = whole.tree) := by
  unfold Emission.project at given
  unfold Composed.project
  rw [factor.type, reflects.type]
  cases shape : right.type.matrixShape? with
  | none =>
    rw [shape] at given
    cases given
  | some pair =>
    obtain ⟨family, dimension⟩ := pair
    rw [shape] at given
    let type := (DataType.vector? .float dimension).getD .vec4
    obtain ⟨vector, converted, given⟩ := eq_ok_of_bind given
    obtain rfl := Except.ok.inj given
    have steady : type.decay? = some type := by
      revert shape
      cases right.type <;> rintro ⟨⟩ <;> rfl
    have single : e.tree.isNumber = true → running.type.width = 1 := by
      rw [← reflects.type]
      exact reflects.number
    obtain ⟨tree, same, kept⟩ := reflects.sum.convert_cases single converted
    have enclosed : s!"({Glsl.atom right.code} * {vector})".toList = '(' ::
        (Glsl.spaced (Glsl.atom right.code).toList .multiply vector.toList ++ [')']) := by
      simp [Glsl.spaced, Glsl.Operator.mark]
    dsimp only
    rw [same, enclosed]
    rcases kept with ⟨alike, rfl, rfl⟩ | ⟨apart, operand⟩
    · obtain ⟨whole, spells, plain⟩ := Spells.exists_scaled factor.sum.atom (by decide) reflects.sum
      refine ⟨_, whole, rfl, rfl, rfl, .group spells, plain, fun _ ends => ?_, ?_⟩
      · obtain ⟨operator, left, right, other, split, scaled⟩ :=
          ends.scaled reflects.sum factor.sum.atom
        rw [spells.unique scaled, split]
        exact Tree.binary_ne_of_right
      · rintro (apart | signed)
        · exact absurd (alike.trans steady) apart
        · exact spells.unique (factor.sum.atom.product signed)
    · refine ⟨_, _, rfl, rfl, rfl, .group (factor.sum.atom.product operand.operand), rfl,
        fun alike _ => ?_, fun _ => rfl⟩
      exact absurd (alike.trans steady.symm) apart

/-- What a verb leaves can be read. It ends in an operator if the verb is one, and else it is an
operand. -/
theorem reads_applyVerb (n : NodeId) (stage : Stage) {running : Running} {e : Composed}
    (runs : Runs running e) (entry : VerbEntry) :
    Reads (applyVerb n stage running entry) fun result => ∃ e, Runs result e ∧
      (entry.verb.isOperator = true → Open result.code.toList) ∧
      (entry.verb.isOperator = false → Spells .operand result.code.toList e.tree) := by
  intro m legible result after ended
  by_cases projects : entry.verb = .project
  · simp only [applyVerb, projects] at ended
    obtain ⟨matrix, middle, found, ended, -⟩ := ok_of_bind ended
    obtain ⟨given, rfl⟩ := ok_of_ofExcept ended
    obtain ⟨kept, factor⟩ := reads_operand n (.stage stage) entry m legible matrix middle found
    obtain ⟨whole, tree, -, -, plain, spells, number, -⟩ :=
      exists_projected runs.reflects (reflects_of_legible factor) given
    refine ⟨kept, ⟨tree, result.type⟩, ⟨⟨rfl, spells.operand, by simp [number]⟩,
      by simp [plain]⟩, ?_, fun _ => spells⟩
    simp [projects, Verb.isOperator]
  · obtain ⟨kept, c, composed, -, after⟩ :=
      mirrors_applyVerb n stage runs projects m legible result after ended
    refine ⟨kept, c, after, fun operator => ?_, fun other => ?_⟩
    · exact (reads_open n stage runs operator m legible result _ ended).2
    · exact after.reflects.sum.operand_of_isPrimary (isPrimary_of_compose other projects composed)

theorem reads_foldlM (n : NodeId) (stage : Stage) (verbs : List VerbEntry) {running : Running}
    (runs : ∃ e, Runs running e) :
    Reads (verbs.foldlM (applyVerb n stage) running) fun result => ∃ e, Runs result e := by
  induction verbs generalizing running with
  | nil => exact .pure runs
  | cons entry verbs ih =>
    obtain ⟨e, runs⟩ := runs
    rw [List.foldlM_cons]
    refine .bind (reads_applyVerb n stage runs entry) fun result kept => ih ?_
    obtain ⟨c, after, -⟩ := kept
    exact ⟨c, after⟩

theorem runningValue_concat (n : NodeId) (stage : Stage) (key : Trait) (verbs : List VerbEntry)
    (last : VerbEntry) :
    runningValue n stage ⟨key, verbs ++ [last]⟩ = (do
      applyVerb n stage (← runningValue n stage ⟨key, verbs⟩) last) := by
  simp [runningValue, List.foldlM_append]

theorem reads_runningValue (n : NodeId) (stage : Stage) (wrapped : Wrapped) :
    Reads (runningValue n stage wrapped) fun result => ∃ e, Runs result e := by
  refine .bind (reads_wrappedValue n (.stage stage) wrapped.key) fun value legible => ?_
  refine .bind (.ofExcept fun type decays => legible_decayed legible decays) fun type legible => ?_
  exact reads_foldlM n stage wrapped.verbs
    ⟨_, .of_reflects (@reflects_of_legible ⟨value.code, type⟩ legible)⟩

variable {c : Construct} {base middle : Material} {past : List Event} {n : NodeId} {stage : Stage}
  {key : Trait} {verbs : List VerbEntry} {running : Running}

theorem isLiteral_of_wrappedValue (built : ofConstruct c = .ok base)
    (early : past <+: generate.events base) {value : Expression}
    (found : wrappedValue n (.stage stage) key (base.replay past) = .ok value middle) :
    Glsl.IsLiteral value.code value.type := by
  have legible := (Reached.all .start early).legible (fresh_ofConstruct built)
  unfold wrappedValue at found
  split at found
  · obtain ⟨given, -⟩ := ok_of_ofExcept found
    exact Glsl.isLiteral_ofJson (eq_ok_of_withContext given)
  · obtain ⟨symbol, _, found, ended, -⟩ := ok_of_bind found
    cases ended
    obtain ⟨-, tree, spells, number⟩ := reads_symbolOrInput n key _ _ legible symbol _ found
    have looked : lookup n key (.stage stage) .input (base.replay past) =
        .ok (some symbol) middle := (bind_of_ok found rfl).1
    exact ⟨tree, .operand (spells.operand_of_isAtom (isAtom_of_lookup built early looked)), number⟩

theorem shape_of_runningValue (built : ofConstruct c = .ok base)
    (early : past <+: generate.events base)
    (ran : runningValue n stage ⟨key, verbs⟩ (base.replay past) = .ok running middle) :
    ∃ e, Runs running e ∧
      (verbs.getLast?.any (·.verb.isOperator) = true → Open running.code.toList) ∧
      (verbs.getLast?.any (·.verb.isOperator) = false →
        Spells .signed running.code.toList e.tree) := by
  have legible := (Reached.all .start early).legible (fresh_ofConstruct built)
  rcases List.eq_nil_or_concat verbs with rfl | ⟨front, last, rfl⟩
  · obtain ⟨value, _, found, ended, -⟩ := ok_of_bind ran
    obtain ⟨type, _, passed, ended, -⟩ := ok_of_bind ended
    obtain ⟨decays, -⟩ := ok_of_ofExcept passed
    cases ended
    obtain ⟨tree, spells, number⟩ := isLiteral_of_wrappedValue built early found
    refine ⟨⟨tree, type⟩, .of_reflects ⟨rfl, spells.weaken (by decide), fun is => ?_⟩, nofun,
      fun _ => spells⟩
    exact DataType.width_of_decayed decays (number is)
  · rw [List.concat_eq_append] at ran ⊢
    rw [runningValue_concat] at ran
    obtain ⟨before, between, ran, ended, -⟩ := ok_of_bind ran
    obtain ⟨kept, _, runs⟩ := reads_runningValue n stage ⟨key, front⟩ _ legible _ _ ran
    obtain ⟨-, e, after, ends, closed⟩ :=
      reads_applyVerb n stage runs last between kept running middle ended
    refine ⟨e, after, fun operator => ends (by simpa using operator), fun other => ?_⟩
    exact .operand (closed (by simpa using other))

/-- A value that ends in a projection. What is written is read as the product of the matrix and the
whole expression before it, unless that expression has the type of the vector already and ends in an
operator. -/
theorem emitValue_projects_iff (built : ofConstruct c = .ok base)
    (early : past <+: generate.events base) {entry : VerbEntry} (projects : entry.verb = .project)
    {after : Material}
    (ended : emitValue n ⟨key, verbs ++ [entry]⟩ (base.replay past) = .ok () after) :
    ∃ stage running middle matrix later whole spelling code tree,
      (base.replay past).stageOf n = .ok stage ∧
      runningValue n stage ⟨key, verbs⟩ (base.replay past) = .ok running middle ∧
      operand n (.stage stage) entry middle = .ok matrix later ∧
      (Composed.ofExpression ⟨running.code, running.type⟩).project (.ofExpression matrix) =
        .ok whole ∧
      whole.type.spelling = .ok spelling ∧
      .write stage (.mainBody stage) s!"{spelling} value{n} = {code};" ∈
        (emitValue n ⟨key, verbs ++ [entry]⟩).events (base.replay past) ∧
      Glsl.parse code = some tree ∧
      (tree = whole.tree ↔ ¬ (running.type.decay? = some whole.type ∧
        verbs.getLast?.any (·.verb.isOperator) = true)) := by
  have legible := (Reached.all .start early).legible (fresh_ofConstruct built)
  obtain ⟨stage, result, last, spelling, staged, ran, spelled, events⟩ := emitValue_eq_ok ended
  rw [runningValue_concat] at ran
  obtain ⟨running, middle, begun, applied, -⟩ := ok_of_bind ran
  simp only [applyVerb, projects] at applied
  obtain ⟨matrix, later, found, applied, -⟩ := ok_of_bind applied
  obtain ⟨given, rfl⟩ := ok_of_ofExcept applied
  obtain ⟨e, runs, ends, closed⟩ := shape_of_runningValue built early begun
  obtain ⟨kept, -⟩ := reads_runningValue n stage ⟨key, verbs⟩ _ legible _ _ begun
  obtain ⟨-, factor⟩ := reads_operand n (.stage stage) entry _ kept _ _ found
  obtain ⟨whole, tree, product, type, -, spells, -, apart, same⟩ :=
    exists_projected runs.reflects (reflects_of_legible factor) given
  have own : Composed.ofExpression ⟨running.code, running.type⟩ = e := by
    simp [Composed.ofExpression, runs.reflects.sum.parse_eq, ← runs.reflects.type]
  have sum : Spells .sum result.code.toList tree := spells.operand
  refine ⟨stage, running, middle, matrix, later, whole, spelling, result.code, tree, staged, begun,
    found, own ▸ product, type ▸ spelled, ?_, sum.parse_eq, ?_⟩
  · rw [events]
    exact List.mem_append_right _ (List.mem_cons_of_mem _ List.mem_cons_self)
  · constructor
    · rintro equal ⟨alike, operator⟩
      exact apart alike (ends operator) equal
    · intro fine
      apply same
      by_cases alike : running.type.decay? = some whole.type
      · refine .inr (closed (Bool.eq_false_iff.2 fun operator => fine ⟨alike, operator⟩))
      · exact .inl alike

/-- A sum of two components is projected as a whole, since it is converted. -/
theorem emitValue_projects_iff_of_place :
    let verbs : List VerbEntry := [⟨.add, none, some .time⟩]
    let entry : VerbEntry := ⟨.project, none, some .view⟩
    let place : Tree := .binary .add (.field (.name "Camera") "Resolution")
      (.field (.name "Tick") "Time")
    ∃ base after code,
      ofConstruct ⟨.material, none, [], [],
        [⟨.value, none, [.ofId .resolution], verbs ++ [entry], []⟩]⟩ = .ok base ∧
      emitValue 1 ⟨.ofId .resolution, verbs ++ [entry]⟩ base = .ok () after ∧
      .write .pixel (.mainBody .pixel) s!"vec4 value1 = {code};" ∈
        (emitValue 1 ⟨.ofId .resolution, verbs ++ [entry]⟩).events base ∧
      Glsl.parse code = some (.binary .multiply (.field (.name "Camera") "View")
        (.call "vec4" [place, .number "0.0", .number "1.0"])) := by
  intro verbs entry place
  let product : Tree := .binary .multiply (.field (.name "Camera") "View")
    (.call "vec4" [place, .number "0.0", .number "1.0"])
  have evaluated : (ofConstruct ⟨.material, none, [], [],
      [⟨.value, none, [.ofId .resolution], verbs ++ [entry], []⟩]⟩).toOption.any (fun base =>
        ((emitValue 1 ⟨.ofId .resolution, verbs ++ [entry]⟩).ended? base).any (fun _ => true) &&
          base.stage? 1 = some .pixel &&
          ((runningValue 1 .pixel ⟨.ofId .resolution, verbs⟩).ended? base).any fun out =>
            out.1.type = .vec2 && ((operand 1 (.stage .pixel) entry).ended? out.2).any fun found =>
              ((Composed.ofExpression ⟨out.1.code, out.1.type⟩).project
                (.ofExpression found.1)).toOption = some ⟨product, .vec4⟩) = true := by
    decide +kernel
  obtain ⟨base, built, evaluated⟩ := exists_ok_of_any evaluated
  simp only [Bool.and_eq_true, decide_eq_true_eq] at evaluated
  obtain ⟨⟨ends, staged⟩, runs⟩ := evaluated
  obtain ⟨_, after, ended, -⟩ := Action.exists_ok_of_any ends
  obtain ⟨running, middle, ran, evaluated⟩ := Action.exists_ok_of_any runs
  simp only [Bool.and_eq_true, decide_eq_true_eq] at evaluated
  obtain ⟨type, finds⟩ := evaluated
  obtain ⟨matrix, later, found, projected⟩ := Action.exists_ok_of_any finds
  obtain ⟨stage, _, _, _, _, whole, spelling, code, tree, at_stage, again, given, same, spelled,
    written, parsed, grouped⟩ :=
    emitValue_projects_iff built List.nil_prefix (show entry.verb = .project from rfl) ended
  rw [replay_nil] at at_stage again
  rw [stageOf, staged] at at_stage
  obtain rfl := Except.ok.inj at_stage
  cases ran.symm.trans again
  cases found.symm.trans given
  rw [same] at projected
  obtain rfl : whole = ⟨product, .vec4⟩ := by simpa [Except.toOption] using projected
  cases spelled
  refine ⟨base, after, code, built, ended, written, ?_⟩
  rw [parsed, grouped.2]
  rw [type]
  decide

/-- A material of one value, of which it is known what is found. -/
theorem exists_written {wrapped : Wrapped} {running : Running} {spelling : String}
    (spelled : running.type.spelling = .ok spelling)
    (evaluated : (ofConstruct ⟨.material, none, [], [],
      [⟨.value, none, [wrapped.key], wrapped.verbs, []⟩]⟩).toOption.any (fun base =>
        ((emitValue 1 wrapped).ended? base).any (fun _ => true) && base.stage? 1 = some .pixel &&
          ((runningValue 1 .pixel wrapped).ended? base).any (·.1 = running)) = true) :
    ∃ base after, ofConstruct ⟨.material, none, [], [],
        [⟨.value, none, [wrapped.key], wrapped.verbs, []⟩]⟩ = .ok base ∧
      emitValue 1 wrapped base = .ok () after ∧
      .write .pixel (.mainBody .pixel) s!"{spelling} value{1} = {running.code};" ∈
        (emitValue 1 wrapped).events base := by
  obtain ⟨base, built, evaluated⟩ := exists_ok_of_any evaluated
  simp only [Bool.and_eq_true, decide_eq_true_eq] at evaluated
  obtain ⟨⟨ends, staged⟩, runs⟩ := evaluated
  obtain ⟨_, after, ended, -⟩ := Action.exists_ok_of_any ends
  obtain ⟨running, middle, ran, same⟩ := Action.exists_ok_of_any runs
  obtain rfl := of_decide_eq_true same
  obtain ⟨stage, _, _, _, at_stage, again, spelt, events⟩ := emitValue_eq_ok ended
  rw [stageOf, staged] at at_stage
  obtain rfl := Except.ok.inj at_stage
  cases ran.symm.trans again
  cases spelled.symm.trans spelt
  refine ⟨base, after, built, ended, ?_⟩
  rw [events]
  exact List.mem_append_right _ (List.mem_cons_of_mem _ List.mem_cons_self)

/-- A sum of four components is not: behind the matrix it is read as two summands. -/
theorem emitValue_not_projects :
    let wrapped : Wrapped := ⟨.typed .color .vec4, [⟨.add, none, some .time⟩,
      ⟨.project, none, some .view⟩]⟩
    let view : Tree := .field (.name "Camera") "View"
    let time : Tree := .field (.name "Tick") "Time"
    ∃ base after code,
      ofConstruct ⟨.material, none, [], [],
        [⟨.value, none, [wrapped.key], wrapped.verbs, []⟩]⟩ = .ok base ∧
      emitValue 1 wrapped base = .ok () after ∧
      .write .pixel (.mainBody .pixel) s!"vec4 value1 = {code};" ∈
        (emitValue 1 wrapped).events base ∧
      Glsl.parse code = some (.binary .add (.binary .multiply view (.name "inColor")) time) ∧
      Glsl.parse code ≠ some (.binary .multiply view (.binary .add (.name "inColor") time)) := by
  intro wrapped view time
  obtain ⟨base, after, built, ended, written⟩ := @exists_written wrapped
    ⟨"(Camera.View * inColor + Tick.Time)", .vec4, false⟩ "vec4" rfl (by decide +kernel)
  exact ⟨base, after, _, built, ended, written, by decide, by decide⟩

end Emission

end GlslMaterial
