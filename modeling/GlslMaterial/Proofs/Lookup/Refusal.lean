import GlslMaterial.Proofs.Interface.Handles
import GlslMaterial.Proofs.Lookup.Bridge

/-!
Refusals: what an operation that fails leaves behind. Most operations look before they act and leave
nothing. Writing starts the stage before it looks for the marker, and a lookup that falls back to an
input of an earlier stage declares it before it looks whether the type can leave that stage.
-/

set_option autoImplicit false

namespace GlslMaterial

theorem Rate.eq_of_stage? {rate : Rate} {stage : Stage} (staged : rate.stage? = some stage) :
    rate = .stage stage := by
  cases rate with
  | stage own => rw [Option.some.inj staged]
  | _ => cases staged

theorem TraitId.defaultRate_ne_auto (id : TraitId) : id.defaultRate? ≠ some .auto := by
  cases id <;> decide

namespace Action

variable {α β : Type} {m after : Material} {failure : Failure}

theorem error_of_map {action : Action α} {change : α → β}
    (failed : (change <$> action) m = .error failure after) : action m = .error failure after := by
  rw [← bind_pure_comp] at failed
  rcases error_of_bind failed with ⟨early, -⟩ | ⟨_, _, -, late, -⟩
  · exact early
  · cases late

/-- What fails after a step that does not fail. -/
theorem error_of_done {first : Action α} {next : α → Action β} {a : α} {middle : Material}
    (done : first m = .ok a middle) (failed : (first >>= next) m = .error failure after) :
    next a middle = .error failure after := by
  rcases error_of_bind failed with ⟨other, -⟩ | ⟨_, _, same, late, -⟩
  · cases done.symm.trans other
  · cases done.symm.trans same
    exact late

theorem error_of_ofExcept {result : Except Failure α}
    (failed : ofExcept result m = .error failure after) : result = .error failure ∧ after = m := by
  cases result with
  | ok a => cases failed
  | error other =>
    cases failed
    exact ⟨rfl, rfl⟩

end Action

namespace Material

open GlslMaterial.Action (error_of_bind error_of_done error_of_map error_of_ofExcept ok_of_bind
  ok_of_read ok_of_ofExcept)

variable {m after : Material} {failure : Failure}

variable {rate : Rate} {key : Trait} {duplicates : Bool} {viewer : NodeId}

/-- What is not found is not asked for. -/
theorem error_of_asking {α : Type} {search : Material → Except Failure (α × Material)}
    {event : Event} (failed : (do
      let found ← Action.ofExcept (search (← read))
      Action.perform event
      return found.1) m = .error failure after) : search m = .error failure ∧ after = m := by
  replace failed := error_of_done rfl failed
  rcases error_of_bind failed with ⟨refused, -⟩ | ⟨_, _, -, late, -⟩
  · exact error_of_ofExcept refused
  · cases late

theorem inputFor_error (failed : inputFor rate key duplicates m = .error failure after) :
    m.addInput rate key duplicates = .error failure ∧ after = m :=
  error_of_asking failed

theorem inputFor_eq_ok {result : String × Rate}
    (ended : inputFor rate key duplicates m = .ok result after) :
    (∃ last, m.addInput rate key duplicates = .ok (result, last)) ∧
      after = m.apply (.input rate key duplicates) := by
  obtain ⟨_, _, read, ended, -⟩ := ok_of_bind ended
  obtain ⟨rfl, rfl⟩ := ok_of_read read
  obtain ⟨⟨found, last⟩, _, passed, ended, -⟩ := ok_of_bind ended
  obtain ⟨added, rfl⟩ := ok_of_ofExcept passed
  cases ended
  exact ⟨⟨last, added⟩, rfl⟩

theorem outputFor_error (failed : outputFor rate key duplicates m = .error failure after) :
    m.addOutput rate key duplicates = .error failure ∧ after = m :=
  error_of_asking failed

theorem commit_error {stage : Stage} {marker : Marker} {code : String}
    (failed : commit stage marker code m = .error failure after) : after = m.started stage := by
  replace failed := error_of_done rfl failed
  replace failed := error_of_done rfl failed
  split at failed
  · cases failed
  · cases failed
    rfl

/-- A bridge fails only where the symbol of a stage has a type that cannot cross, and before it has
built anything. -/
theorem bridge_error (marked : m.Marked) {symbol : Symbol}
    (failed : bridge key symbol rate m = .error failure after) :
    symbol.rate.isUniform = false ∧ symbol.type.decay? = none ∧ after = m := by
  unfold bridge at failed
  split at failed
  · rename_i producer consumer produced consumed
    obtain ⟨expr, type, origin⟩ := symbol
    obtain rfl : origin = .stage producer := Rate.eq_of_stage? produced
    obtain rfl : rate = .stage consumer := Rate.eq_of_stage? consumed
    split at failed
    · cases failed
    rename_i foreign
    simp only [Bool.or_eq_true, decide_eq_true_eq, not_or, Bool.not_eq_true, Rate.stage.injEq]
      at foreign
    obtain ⟨foreign, plain⟩ := foreign
    cases decays : type.decay? with
    | none =>
      have refused : type.decayed = .error (.misuse (.noDecay type)) := by
        simp [DataType.decayed, decays]
      rw [refused] at failed
      cases failed
      exact ⟨rfl, rfl, rfl⟩
    | some decayed =>
      -- Both ends of the bridge are there for the asking, so that it does not fail.
      have passes : type.decayed = .ok decayed := by simp [DataType.decayed, decays]
      have untextured : decayed.isTexture = false := (isTexture_decayed passes).trans plain
      obtain ⟨output, created, middle, out⟩ := m.exists_addOutput producer key.id decayed
      obtain ⟨kept, stored, -⟩ := inputRate_stage consumer key.id untextured
      obtain ⟨input, last, back⟩ := exists_addInput
        (m.replay (carryEvents producer (.typed key.id decayed) expr output created)) stored
      have origin : (⟨expr, type, .stage producer⟩ : Symbol).rate = .stage producer := rfl
      have built := (bridge_yields marked origin foreign plain decays out back).result
      unfold bridge at built
      simp only [Rate.stage?, Rate.stage.injEq, foreign, plain, decide_false, Bool.or_self,
        Bool.false_eq_true, if_false] at built
      rw [built] at failed
      cases failed
  · cases failed

theorem inputRate_error (concrete : rate ≠ .auto) : inputRate rate key ≠ .error failure := by
  unfold inputRate
  split
  · exact absurd rfl concrete
  · simp

theorem addInput_ne_error (concrete : rate ≠ .auto) (typed : key.type.isSome = true) :
    m.addInput rate key duplicates ≠ .error failure := by
  intro refused
  unfold addInput at refused
  rw [Trait.resolved_of_isSome typed] at refused
  cases stored : inputRate rate key with
  | error other => exact inputRate_error concrete stored
  | ok kept =>
    simp only [bind, Except.bind, stored] at refused
    split at refused <;> cases refused

theorem withInput_of_resolved {typed : Trait} (resolved : key.resolved = .ok typed)
    (rate : Rate) (duplicates : Bool) :
    m.withInput rate typed duplicates = m.withInput rate key duplicates := by
  have again := Trait.resolved_of_isSome (Trait.resolved_eq_ok resolved).2.1
  simp only [withInput, addInput, resolved, again]

/-- The rate at which a lookup asks for an input of a trait that it cannot see. -/
def ownRate (key : Trait) (rate : Rate) : Rate :=
  key.id.defaultRate?.getD rate

theorem ownRate_ne_auto (key : Trait) (concrete : rate ≠ .auto) : ownRate key rate ≠ .auto := by
  unfold ownRate
  cases default : key.id.defaultRate? with
  | none => exact concrete
  | some own => exact fun auto => key.id.defaultRate_ne_auto (default.trans (congrArg some auto))

/-- An input fails as a symbol where its trait has no type, or where the type cannot leave the stage
to which the trait belongs. In the second case the input has been declared. -/
theorem inputSymbol_error (marked : m.Marked) (concrete : rate ≠ .auto)
    (failed : inputSymbol key rate m = .error failure after) :
    key.resolved = .error failure ∧ after = m ∨
      ∃ typed, key.resolved = .ok typed ∧
        inputRate (ownRate key rate) typed = .ok (ownRate key rate) ∧
        after = m.withInput (ownRate key rate) key false := by
  rcases error_of_bind failed with ⟨refused, -⟩ | ⟨typed, _, passed, failed, -⟩
  · exact .inl (error_of_ofExcept refused)
  right
  obtain ⟨resolved, rfl⟩ := ok_of_ofExcept passed
  obtain ⟨same, has, -⟩ := Trait.resolved_eq_ok resolved
  have own : typed.id.defaultRate?.getD rate = ownRate key rate := by rw [ownRate, same]
  have given (asked : Rate) (known : asked ≠ .auto) {other : Failure} {last : Material}
      (failed : inputFor asked typed false m = .error other last) : False :=
    addInput_ne_error known has (inputFor_error failed).1
  simp only [own] at failed
  split at failed
  · rcases error_of_bind failed with ⟨failed, -⟩ | ⟨_, _, -, late, -⟩
    · exact (given _ (ownRate_ne_auto key concrete) failed).elim
    · cases late
  split at failed
  · rcases error_of_bind failed with ⟨failed, -⟩ | ⟨⟨name, kept⟩, middle, asked, failed, -⟩
    · exact (given _ (ownRate_ne_auto key concrete) failed).elim
    obtain ⟨⟨_, added⟩, rfl⟩ := inputFor_eq_ok asked
    obtain ⟨fine, -, rfl⟩ := bridge_error (marked.apply (.input _ typed false)) failed
    refine ⟨typed, resolved, ?_, withInput_of_resolved resolved _ _⟩
    obtain ⟨other, again, stored, -⟩ := addInput_eq_ok added
    obtain rfl : other = typed := (Trait.resolved_eq_ok again).2.2 has
    have coarse := inputRate_eq_or_isUniform (ownRate_ne_auto key concrete) stored
    rcases coarse with rfl | uniform
    · exact stored
    · rw [show kept.isUniform = false from fine] at uniform
      cases uniform
  · rcases error_of_bind failed with ⟨failed, -⟩ | ⟨_, _, -, late, -⟩
    · exact (given _ concrete failed).elim
    · cases late

theorem seen?_error (marked : m.Marked) (failed : seen? viewer key rate m = .error failure after) :
    (∃ symbol, m.find? viewer key rate = some symbol ∧ symbol.type.decay? = none) ∧ after = m := by
  replace failed := error_of_done rfl failed
  split at failed
  · rename_i symbol found
    rcases error_of_bind failed with ⟨failed, -⟩ | ⟨_, _, -, late, -⟩
    · obtain ⟨-, stuck, same⟩ := bridge_error marked failed
      exact ⟨⟨symbol, found, stuck⟩, same⟩
    · cases late
  · cases failed

/-- A search that fails has seen a symbol that cannot be brought over, or has seen none and fails in
its fallback. -/
theorem error_of_search (marked : m.Marked) {α : Type}
    {kind : Fallback} (given : Symbol → α) (fallback : Rate → Action α)
    (failed : search viewer key rate kind given fallback m = .error failure after) :
    (∃ symbol, m.find? viewer key (m.concreteRate viewer rate) = some symbol ∧
      symbol.type.decay? = none) ∧ after = m ∨
      m.find? viewer key (m.concreteRate viewer rate) = none ∧
        fallback (m.concreteRate viewer rate) m = .error failure after := by
  replace failed := error_of_done rfl failed
  replace failed := error_of_done rfl failed
  rcases error_of_bind failed with ⟨failed, -⟩ | ⟨seen, middle, searched, failed, -⟩
  · exact .inl (seen?_error marked failed)
  · rcases seen?_ok searched with ⟨missing, rfl, rfl⟩ | ⟨_, _, -, rfl, -⟩
    · exact .inr ⟨missing, failed⟩
    · cases failed

/-- Only the fallback to an input can leave something behind. -/
theorem lookup_error (marked : m.Marked)
    {fallback : Fallback} (concrete : m.concreteRate viewer rate ≠ .auto)
    (failed : lookup viewer key rate fallback m = .error failure after) :
    let rate := m.concreteRate viewer rate
    after = m ∧ (fallback = .input →
        (m.find? viewer key rate).isSome = true ∨ key.resolved = .error failure) ∨
      fallback = .input ∧ m.find? viewer key rate = none ∧ ∃ typed, key.resolved = .ok typed ∧
        inputRate (ownRate key rate) typed = .ok (ownRate key rate) ∧
        after = m.withInput (ownRate key rate) key false := by
  cases fallback with
  | required =>
    refine .inl ⟨?_, fun other => by cases other⟩
    let refuse (rate : Rate) : Action Symbol := do
      Action.fail (.misuse (.notVisible key.id rate viewer ((← read).node viewer).config.kind))
    rcases error_of_search marked id refuse (error_of_map failed) with ⟨-, same⟩ | ⟨-, failed⟩
    · exact same
    · cases failed
      rfl
  | soft =>
    refine .inl ⟨?_, fun other => by cases other⟩
    let pass (rate : Rate) : Action (Option Symbol) := do
      warn (.notVisible key.id rate viewer ((← read).node viewer).config.kind)
      return none
    rcases error_of_search marked some pass failed with ⟨-, same⟩ | ⟨-, failed⟩
    · exact same
    · cases failed
  | input =>
    rcases error_of_search marked id (inputSymbol key) (error_of_map failed) with
      ⟨⟨symbol, found, -⟩, same⟩ | ⟨missing, failed⟩
    · exact .inl ⟨same, fun _ => .inl (by rw [found]; rfl)⟩
    · rcases inputSymbol_error marked concrete failed with ⟨untyped, same⟩ | declared
      · exact .inl ⟨same, fun _ => .inr untyped⟩
      · exact .inr ⟨rfl, missing, declared⟩

theorem defaultRate_apply (m : Material) (event : Event) :
    (m.apply event).defaultRate = m.defaultRate := by
  by_cases text : event.isText = true
  · rw [m.apply_text text]
  by_cases about : event.isInterface = true
  · rw [m.apply_tables about]
  cases event with
  | begin | visit | ask | warn | expose => rfl
  | _ => simp [Event.isText, Event.isInterface] at text about

section Reachable

variable {allowed : Event → Prop}

theorem Reachable.marked (reachable : Reachable allowed m) : m.Marked := by
  induction reachable with
  | begun rate => exact (fresh_ofRate rate).marked
  | built made => exact (fresh_ofConstruct made).marked
  | happened _ _ ih => exact ih.apply _
  | @edited m change _ ih =>
    obtain ⟨nodes, same⟩ := m.exists_edited_eq change
    rw [same]
    exact ih

theorem defaultRate_ofRate (rate : Rate) : (ofRate rate).defaultRate ≠ .auto := by
  show (if rate = .auto then Rate.stage .pixel else rate) ≠ .auto
  split
  · simp
  · assumption

theorem Reachable.defaultRate_ne_auto (reachable : Reachable allowed m) :
    m.defaultRate ≠ .auto := by
  have edited (m : Material) (change : Edit) : (m.edited change).defaultRate = m.defaultRate := by
    obtain ⟨nodes, same⟩ := m.exists_edited_eq change
    rw [same]
  induction reachable with
  | begun rate => exact defaultRate_ofRate rate
  | built made =>
    refine @ofConstruct_keeps (fun m => m.defaultRate ≠ .auto) _ _ made (fun rate version => ?_) ?_
    · exact defaultRate_ofRate rate
    intro d _ m parent id after known planted
    obtain ⟨rate, config, target, -, added⟩ := plant_eq_ok planted
    have same :=
      edited (m.addNode config d.displayName? rate d.withoutNodes).2 (.addChild target id)
    rw [Material.edited, added] at same
    rw [same]
    exact known
  | @happened m event _ _ ih => rwa [m.defaultRate_apply event]
  | @edited m change _ ih => rwa [edited m change]

theorem Reachable.concreteRate_ne_auto (reachable : Reachable allowed m) (viewer : NodeId)
    (rate : Rate) : m.concreteRate viewer rate ≠ .auto := by
  unfold concreteRate
  split
  · assumption
  · split
    · simp
    · exact reachable.defaultRate_ne_auto

end Reachable

theorem started_eq_self_iff (m : Material) (stage : Stage) :
    m.started stage = m ↔ (m.source stage).isEmpty = false := by
  unfold started
  cases empty : (m.source stage).isEmpty with
  | false => simp
  | true =>
    simp only [if_true, Bool.true_eq_false, iff_false]
    intro same
    have filled := Source.isEmpty_ofTemplate stage
    rw [← same, source_setSource, if_pos rfl, filled] at empty
    cases empty

theorem withInput_eq_self_iff {kept : Rate} {typed : Trait}
    (resolved : key.resolved = .ok typed) (stored : inputRate rate typed = .ok kept) :
    m.withInput rate key false = m ↔
      ∃ b ∈ m.inputs, b.rate = kept ∧ b.key.agrees typed = true := by
  have searched := @find?_agrees m.inputs kept typed false
  cases found : (m.inputsAt kept).find? fun b => !false && b.key.agrees typed with
  | some b =>
    have same : m.withInput rate key false = m := by
      simp only [withInput, addInput, resolved, stored, bind, Except.bind, found]
      rfl
    rw [← inputsAt, found] at searched
    obtain ⟨member, -, here, agrees⟩ := searched
    exact iff_of_true same ⟨b, member, here, agrees⟩
  | none =>
    have pushed : m.withInput rate key false =
        (if typed.isTexture then m.pushTexture kept typed else m.pushInput kept typed).2 := by
      simp only [withInput, addInput, resolved, stored, bind, Except.bind, found]
      rfl
    rw [← inputsAt, found] at searched
    refine iff_of_false ?_ ?_
    · intro same
      rw [pushed] at same
      have longer := congrArg (fun m => m.inputs.length) same
      cases texture : typed.isTexture <;> simp [texture, pushTexture, pushInput] at longer
    · rintro ⟨b, member, here, agrees⟩
      rw [searched rfl b member here] at agrees
      cases agrees

/-- The operations on a material that can be refused. -/
inductive Operation where
  | addChild (parent child : NodeId)
  | addInput (rate : Rate) (key : Trait) (duplicates : Bool)
  | addOutput (rate : Rate) (key : Trait) (duplicates : Bool)
  | commit (stage : Stage) (marker : Marker) (code : String)
  | lookup (viewer : NodeId) (key : Trait) (rate : Rate) (fallback : Fallback)

/-- How an operation ends, and the material that it leaves. -/
def attempt (m : Material) : Operation → EStateM.Result Failure Material Unit
  | .addChild parent child =>
    match m.addChild parent child with
    | .ok after => .ok () after
    | .error failure => .error failure m
  | .addInput rate key duplicates => ((fun _ => ()) <$> inputFor rate key duplicates) m
  | .addOutput rate key duplicates => ((fun _ => ()) <$> outputFor rate key duplicates) m
  | .commit stage marker code => Material.commit stage marker code m
  | .lookup viewer key rate fallback =>
    ((fun _ => ()) <$> Material.lookup viewer key rate fallback) m

/-- What an operation leaves where it is refused. -/
def leftover (m : Material) : Operation → Material
  | .commit stage _ _ => m.started stage
  | .lookup viewer key rate .input =>
    let rate := m.concreteRate viewer rate
    if (m.find? viewer key rate).isSome then m else m.withInput (ownRate key rate) key false
  | _ => m

/-- Nothing has to be prepared for an operation: code goes to a stage that is started, and an input
that stands in for a symbol is declared already, if its trait has a type at all. -/
def IsReadyFor (m : Material) : Operation → Prop
  | .commit stage _ _ => (m.source stage).isEmpty = false
  | .lookup viewer key rate .input =>
    let rate := m.concreteRate viewer rate
    m.find? viewer key rate = none → ∀ typed, key.resolved = .ok typed →
      ∃ b ∈ m.inputs, b.rate = ownRate key rate ∧ b.key.agrees typed = true
  | _ => True

/-- Operations that fail leave the material as it was, but for two that prepare it first: writing
leaves its stage started, and a lookup leaves the input that it cannot carry over. So nothing is
changed exactly where there was nothing to prepare. -/
theorem refused_keeps_iff {allowed : Event → Prop} (reachable : Reachable allowed m)
    {operation : Operation} (refused : m.attempt operation = .error failure after) :
    after = m.leftover operation ∧ (after = m ↔ m.IsReadyFor operation) := by
  cases operation with
  | addChild parent child =>
    simp only [attempt] at refused
    split at refused
    · cases refused
    · cases refused
      exact ⟨rfl, iff_of_true rfl trivial⟩
  | addInput rate key duplicates =>
    obtain rfl := (inputFor_error (error_of_map refused)).2
    exact ⟨rfl, iff_of_true rfl trivial⟩
  | addOutput rate key duplicates =>
    obtain rfl := (outputFor_error (error_of_map refused)).2
    exact ⟨rfl, iff_of_true rfl trivial⟩
  | commit stage marker code =>
    obtain rfl := commit_error refused
    exact ⟨rfl, m.started_eq_self_iff stage⟩
  | lookup viewer key rate fallback =>
    rcases lookup_error reachable.marked (reachable.concreteRate_ne_auto viewer rate)
      (error_of_map refused) with ⟨rfl, reason⟩ | ⟨rfl, missing, typed, resolved, stored, rfl⟩
    · cases fallback with
      | required | soft => exact ⟨rfl, iff_of_true rfl trivial⟩
      | input =>
        rcases reason rfl with found | untyped
        · refine ⟨(if_pos found).symm, iff_of_true rfl fun missing => ?_⟩
          rw [missing] at found
          cases found
        · have same : ∀ rate, after.withInput rate key false = after := by
            intro rate
            simp only [withInput, addInput, untyped, bind, Except.bind]
          refine ⟨?_, iff_of_true rfl fun _ typed resolved => ?_⟩
          · simp only [leftover, same, ite_self]
          · rw [untyped] at resolved
            cases resolved
    · refine ⟨(if_neg (by simp [missing])).symm, (withInput_eq_self_iff resolved stored).trans ?_⟩
      constructor
      · intro declared _ other again
        obtain rfl : typed = other := Except.ok.inj (resolved.symm.trans again)
        exact declared
      · exact fun ready => ready missing typed resolved

theorem exists_error_of_refused {operation : Operation} {holds : Material → Bool}
    (computed : (match m.attempt operation with
      | .ok _ _ => false
      | .error _ after => holds after) = true) :
    ∃ failure after, m.attempt operation = .error failure after ∧ holds after = true := by
  cases ended : m.attempt operation with
  | ok _ after =>
    rw [ended] at computed
    cases computed
  | error failure after =>
    rw [ended] at computed
    exact ⟨failure, after, rfl, computed⟩

/-- Texture coordinates that are a text cannot leave the vertex stage. Where their input is declared
already, asking for them in the pixel stage changes nothing. -/
theorem refused_keeps_iff_of_declared :
    let m := (ofRate (.stage .pixel)).apply (.input (.stage .vertex) (.typed .sampler .text) false)
    let operation := Operation.lookup root (.typed .sampler .text) (.stage .pixel) .input
    m.inputs.map Binding.name = ["inSampler"] ∧
      ∃ failure, m.attempt operation = .error failure m := by
  intro m operation
  have reachable : Reachable (fun _ => True) m := .happened trivial (.begun _)
  obtain ⟨failure, after, refused, -⟩ : ∃ failure after,
      m.attempt operation = .error failure after ∧ true = true :=
    exists_error_of_refused (by decide +kernel)
  have ready : m.IsReadyFor operation := by
    intro _ typed resolved
    obtain rfl := Except.ok.inj resolved
    exact ⟨⟨.stage .vertex, .typed .sampler .text, "inSampler", none, false, none⟩,
      List.mem_singleton_self _, rfl, rfl⟩
  rw [(refused_keeps_iff reachable refused).2.2 ready] at refused
  exact ⟨by decide, failure, refused⟩

/-- The pixel stage has no place for a position, but is started. The input for the texture
coordinates is declared, although they cannot be brought to the pixel stage. -/
theorem refused_not_keeps :
    let m := ofRate (.stage .pixel)
    (∃ failure after, m.attempt (.commit .pixel .position "gl_Position = vec4(0.0);") =
      .error failure after ∧ after ≠ m) ∧
    ∃ failure after, m.attempt
      (.lookup root (.typed .sampler .text) (.stage .pixel) .input) = .error failure after ∧
        after ≠ m := by
  intro m
  constructor
  · obtain ⟨failure, after, refused, started⟩ : ∃ failure after, m.attempt
        (.commit .pixel .position "gl_Position = vec4(0.0);") = .error failure after ∧
          (!(after.source .pixel).isEmpty) = true :=
      exists_error_of_refused (by decide +kernel)
    exact ⟨failure, after, refused, fun same => by subst same; cases started⟩
  · obtain ⟨failure, after, refused, declared⟩ : ∃ failure after, m.attempt
        (.lookup root (.typed .sampler .text) (.stage .pixel) .input) = .error failure after ∧
          (!after.inputs.isEmpty) = true :=
      exists_error_of_refused (by decide +kernel)
    exact ⟨failure, after, refused, fun same => by subst same; cases declared⟩

end Material

end GlslMaterial
