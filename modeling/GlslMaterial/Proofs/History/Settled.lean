import GlslMaterial.Proofs.History.Committed

/-!
Lookups write in order. Between two nodes a material is settled: every output has its value, and the
stages that put something out or take something in have code. A node that is being written may leave
the inputs of its own stage open until it has written its code.
-/

set_option autoImplicit false

namespace GlslMaterial.Material

open GlslMaterial.Action (Meets Keeps)
open Text (madeOf)
open Glsl (isInline)

/-- All outputs are wired, and the stages of outputs and inputs have code, those of inputs only if
they are not `free`. -/
structure Settled (free : Stage → Prop) (m : Material) : Prop where
  wired : ∀ o ∈ m.outputs, o.wired = true
  produced : ∀ o ∈ m.outputs, ∀ stage, o.rate = .stage stage → m.Uses stage
  consumed : ∀ i ∈ m.inputs, ∀ stage, i.rate = .stage stage → free stage ∨ m.Uses stage

theorem Fresh.settled {m : Material} (fresh : m.Fresh) (free : Stage → Prop) :
    m.Settled free := by
  constructor <;> simp [fresh.inputs, fresh.outputs]

namespace Settled

variable {free wider : Stage → Prop} {m : Material}

theorem mono (settled : m.Settled free) (more : ∀ stage, free stage → wider stage) :
    m.Settled wider :=
  ⟨settled.wired, settled.produced, fun i member stage here =>
    (settled.consumed i member stage here).imp_left (more stage)⟩

theorem close {stage : Stage} (settled : m.Settled fun other => free other ∨ other = stage)
    (uses : m.Uses stage) : m.Settled free := by
  refine ⟨settled.wired, settled.produced, fun i member other here => ?_⟩
  rcases settled.consumed i member other here with (still | rfl) | used
  · exact .inl still
  · exact .inr uses
  · exact .inr used

theorem quiet (settled : m.Settled free) (event : Event) (other : event.isInterface = false) :
    (m.apply event).Settled free := by
  obtain ⟨inputs, outputs, -⟩ := m.apply_interface other
  constructor
  · rw [outputs]
    exact settled.wired
  · rw [outputs]
    exact fun o member stage here => (settled.produced o member stage here).apply event
  · rw [inputs]
    exact fun i member stage here =>
      (settled.consumed i member stage here).imp_right fun uses => uses.apply event

theorem input (settled : m.Settled free) {rate : Rate} {key : Trait} {duplicates : Bool}
    (more : ∀ stage, free stage → wider stage)
    (opens : ∀ typed kept stage, key.resolved = .ok typed → inputRate rate typed = .ok kept →
      kept = .stage stage → wider stage) :
    (m.apply (.input rate key duplicates)).Settled wider := by
  have frame := m.withInput_frame rate key duplicates
  have uses {stage : Stage} (used : m.Uses stage) :
      (m.apply (.input rate key duplicates)).Uses stage := used.apply _
  show (m.withInput rate key duplicates).Settled wider
  constructor
  · rw [frame.1]
    exact settled.wired
  · rw [frame.1]
    exact fun o member stage here => uses (settled.produced o member stage here)
  · intro i member stage here
    have old (known : i ∈ m.inputs) :
        wider stage ∨ (m.withInput rate key duplicates).Uses stage :=
      (settled.consumed i known stage here).imp (more stage) uses
    rcases m.withInput_spec rate key duplicates with
      ⟨typed, kept, name, resolved, stored, asked, -⟩ | same
    · rcases asked.mem member with known | ⟨rate, -⟩
      · exact old known
      · exact .inl (opens typed kept stage resolved stored (rate.symm.trans here))
    · exact old (same ▸ member)

theorem link (settled : m.Settled free) (outputRate : Rate) (output : String) (rate : Rate)
    (input : String) : (m.apply (.link outputRate output rate input)).Settled free := by
  have uses {stage : Stage} (used : m.Uses stage) :
      (m.apply (.link outputRate output rate input)).Uses stage := used.apply _
  obtain ⟨inputs, outputs⟩ := m.map_entry_link outputRate output rate input
  constructor
  · intro o member
    obtain ⟨a, known, -, -, flag⟩ := exists_of_mem_link member
    exact flag ▸ settled.wired a known
  · intro o member stage here
    obtain ⟨a, known, same⟩ := exists_entry_eq outputs member
    exact uses (settled.produced a known stage ((Binding.entry_eq_iff.1 same).1.trans here))
  · intro i member stage here
    obtain ⟨a, known, same⟩ := exists_entry_eq inputs member
    have before := settled.consumed a known stage ((Binding.entry_eq_iff.1 same).1.trans here)
    exact before.imp_right uses

theorem carry {producer : Stage} (settled : m.Settled fun other => free other ∨ other = producer)
    {carried : Trait} {output : String} {after : Material}
    (added : m.addOutput (.stage producer) carried false = .ok ((output, true), after))
    (expr : String) :
    (m.replay [.output (.stage producer) carried false, .start producer,
      .assign producer output expr, .wire (.stage producer) output]).Settled free := by
  obtain ⟨typed, -, -, asked, -, -, same⟩ := addOutput_eq_ok added
  have reached : m.apply (.output (.stage producer) carried false) = after := by
    simp [apply, withOutput, added]
  -- The state just before the output is wired.
  let started := after.apply (.start producer)
  let assigned := started.apply (.assign producer output expr)
  have first : started.inputs = after.inputs ∧ started.outputs = after.outputs ∧ _ :=
    after.apply_interface rfl
  have second : assigned.inputs = started.inputs ∧ assigned.outputs = started.outputs ∧ _ :=
    started.apply_interface rfl
  have outputs : assigned.outputs = after.outputs := second.2.1.trans first.2.1
  have inputs : assigned.inputs = m.inputs := by
    rw [second.1, first.1]
    exact (congrArg Material.inputs same).trans rfl
  have own : (assigned.apply (.wire (.stage producer) output)).Uses producer :=
    ((after.uses_started producer).apply _).apply _
  have kept {stage : Stage} (used : m.Uses stage) :
      (assigned.apply (.wire (.stage producer) output)).Uses stage := by
    have before : after.Uses stage := reached ▸ used.apply _
    exact ((before.apply _).apply _).apply _
  have known {o : Binding} (member : o ∈ assigned.outputs) :
      o ∈ m.outputs ∨ o.rate = .stage producer ∧ o.name = output := by
    rw [outputs] at member
    exact (asked.mem member).imp_right fun new => ⟨new.1, new.2.2.1⟩
  simp only [replay_cons, replay_nil, reached]
  show (assigned.apply (.wire (.stage producer) output)).Settled free
  suffices opened : (assigned.apply (.wire (.stage producer) output)).Settled
      fun other => free other ∨ other = producer from opened.close own
  constructor
  · intro o member
    obtain ⟨a, inside, rfl⟩ := List.mem_map.1 member
    by_cases named : a.isNamed (.stage producer) output = true
    · rw [if_pos named]
    · rw [if_neg named]
      rcases known inside with old | new
      · exact settled.wired a old
      · simp [Binding.isNamed, new] at named
  · intro o member stage here
    obtain ⟨a, inside, entry⟩ :=
      exists_entry_eq (assigned.map_entry_markWired (.stage producer) output) member
    have rate : a.rate = .stage stage := (Binding.entry_eq_iff.1 entry).1.trans here
    rcases known inside with old | new
    · exact kept (settled.produced a old stage rate)
    · obtain rfl : producer = stage := Rate.stage.inj (new.1.symm.trans rate)
      exact own
  · intro i member stage here
    have old : i ∈ m.inputs := inputs ▸ member
    exact (settled.consumed i old stage here).imp_right kept

end Settled

variable {base : Material} {free : Stage → Prop}

/-- Whenever a material is settled but for the stages in `before`, the action writes in order and
leaves it settled but for those in `after`. -/
abbrev Tidy {α : Type} (base : Material) (before after : Stage → Prop) (action : Action α)
    (good : α → Prop) : Prop :=
  Keeps Orderly base (fun past => (base.replay past).Settled before)
    (fun past => (base.replay past).Settled after) action good

theorem tidy_perform {event : Event} (allowed : ∀ past, Orderly base past event)
    (other : event.isInterface = false) :
    Tidy base free free (Action.perform event) fun _ => True := by
  refine Keeps.perform (fun past _ => allowed past) fun past settled => ?_
  rw [replay_append]
  exact settled.quiet event other

theorem tidy_warn (warning : Warning) : Tidy base free free (warn warning) fun _ => True :=
  tidy_perform (fun _ => trivial) rfl

theorem tidy_commit {stage : Stage} {marker : Marker} {code : String}
    (writable : Writable base stage marker code) :
    Tidy base (fun other => free other ∨ other = stage) free (commit stage marker code)
      fun _ => True := by
  intro past settled
  have uses := base.uses_replay_start past stage
  refine Meets.writing trivial ⟨uses, writable⟩ ⟨trivial, ?_⟩
  have started : (base.replay (past ++ [.start stage])).Settled
      fun other => free other ∨ other = stage := by
    rw [replay_append]
    exact settled.quiet (.start stage) rfl
  show (base.replay (past ++ [.start stage] ++ [.write stage marker code])).Settled free
  rw [replay_append]
  exact (started.quiet (.write stage marker code) rfl).close (uses.apply _)

theorem tidy_ensureFunction (spares : base.Spares intrusive) (stage : Stage) (name : String)
    {body : String} (clean : ∀ words, (∀ word ∈ words, word ∈ reserved) → base.Spares words →
      lacks words body = true) :
    Tidy base free free (ensureFunction stage name body) fun _ => True := by
  refine Keeps.readThen fun m _ => ?_
  refine Keeps.bind (tidy_perform (fun _ => trivial) rfl) fun _ _ => ?_
  split
  · exact Keeps.pure trivial
  · exact (tidy_commit (.of_spared (by decide) spares fun words known spared =>
      lacks_trimmed known (clean words known spared))).of_before fun _ settled =>
        settled.mono fun _ => .inl

/-- An input can be taken in at a rate: the rate is a definite one and its stage is free. -/
def Open (free : Stage → Prop) (rate : Rate) : Prop :=
  rate ≠ .auto ∧ ∀ stage, rate = .stage stage → free stage

theorem open_stage (stage : Stage) : Open (· = stage) (.stage stage) :=
  ⟨by simp, fun _ same => (Rate.stage.inj same).symm⟩

theorem open_uniform (rate : UniformRate) : Open free (.uniform rate) :=
  ⟨by simp, by simp⟩

variable {rate : Rate}

theorem Open.of_inputRate {kept : Rate} {key : Trait} (opened : Open free rate)
    (stored : inputRate rate key = .ok kept) {stage : Stage} (here : kept = .stage stage) :
    free stage := by
  rcases inputRate_eq_or_isUniform opened.1 stored with rfl | uniform
  · exact opened.2 stage here
  · simp [here, Rate.isUniform, Rate.uniform?] at uniform

theorem tidy_inputFor (fresh : base.Fresh) {wider : Stage → Prop} (rate : Rate) (key : Trait)
    (duplicates : Bool) (more : ∀ stage, free stage → wider stage)
    (opens : ∀ typed kept stage, key.resolved = .ok typed → inputRate rate typed = .ok kept →
      kept = .stage stage → wider stage) :
    Tidy base free wider (inputFor rate key duplicates) fun result =>
      isSpelled result.1 = true ∧
        ∃ typed, key.resolved = .ok typed ∧ inputRate rate typed = .ok result.2 := by
  intro past settled
  apply Meets.inputFor trivial
  rintro ⟨name, kept⟩ after added
  have reached : base.replay (past ++ [.input rate key duplicates]) = after := by
    simp [apply, withInput, added]
  obtain ⟨typed, resolved, stored, asked, -⟩ := addInput_eq_ok added
  obtain ⟨b, member, -, named, -⟩ := asked.exists_mem
  have spelled : after.Spelled := reached ▸ fresh.spelled.replay _
  refine ⟨⟨named ▸ spelled.input member, typed, resolved, stored⟩, ?_⟩
  show (base.replay (past ++ [.input rate key duplicates])).Settled wider
  rw [replay_append]
  exact settled.input more opens

theorem tidy_inputFor_open (fresh : base.Fresh) (opened : Open free rate)
    (key : Trait) (duplicates : Bool) :
    Tidy base free free (inputFor rate key duplicates) fun result =>
      isSpelled result.1 = true :=
  (tidy_inputFor fresh rate key duplicates (fun _ still => still)
    fun _ _ _ _ stored here => opened.of_inputRate stored here).mono fun _ both => both.1

theorem tidy_carryOut (producer : Stage) (carried : Trait) {expr : String}
    (inline : madeOf isInline expr = true) :
    Tidy base (fun other => free other ∨ other = producer) free (carryOut producer carried expr)
      fun _ => True := by
  intro past settled
  apply Meets.of_lawful
  intro orderly
  apply Meets.bind
  apply Meets.outputFor trivial
  rintro ⟨output, created⟩ after added
  obtain ⟨typed, -, -, asked, known, free_name, -⟩ := addOutput_eq_ok added
  have reached : base.replay (past ++ [.output (.stage producer) carried false]) = after := by
    simp [apply, withOutput, added]
  obtain ⟨b, member, here, named, agrees⟩ := asked.exists_mem
  dsimp only
  split
  · rename_i new
    obtain rfl : created = true := new
    apply Meets.bind
    have first : assigned (past ++ [.output (.stage producer) carried false] ++ [.start producer])
        producer output = [] := by
      rw [assigned_append, assigned_append, InOrder.assigned_eq_nil orderly (free_name rfl)]
      rfl
    have uses :=
      base.uses_replay_start (past ++ [.output (.stage producer) carried false]) producer
    have bound : Bound (base.replay (past ++ [.output (.stage producer) carried false] ++
        [.start producer])).outputs (.stage producer) typed output := by
      rw [replay_append, reached]
      exact Bound.mono ⟨b, member, here, named, agrees⟩ (entries_replay _ _).2
    apply Meets.writing trivial ⟨uses, ⟨typed, bound⟩, first, inline⟩
    apply Meets.bind
    apply Meets.perform ⟨past, producer, carried, expr, rfl, by simp⟩
    apply Meets.pure
    have done := settled.carry added expr
    rw [← replay_append] at done
    refine ⟨trivial, ?_⟩
    simpa only [List.append_assoc, List.singleton_append, List.cons_append, List.nil_append]
      using done
  · rename_i old
    obtain rfl : created = false := by simpa using old
    apply Meets.pure
    refine ⟨trivial, ?_⟩
    rw [reached, known rfl]
    rw [known rfl] at member
    exact settled.close (settled.produced b member producer here)

theorem tidy_carryIn (fresh : base.Fresh) (producer : Stage) (output : String) (carried : Trait)
    (opened : Open free rate) :
    Tidy base free free (carryIn producer output carried rate) fun result =>
      isSpelled result.1 = true := by
  refine Keeps.bind (tidy_inputFor_open fresh opened carried false) ?_
  rintro ⟨input, kept⟩ spelled
  have linked : Tidy base free free
      (Action.perform (.link (.stage producer) output kept input)) fun _ => True := by
    refine Keeps.perform (fun _ _ => trivial) fun past settled => ?_
    rw [replay_append]
    exact settled.link _ _ _ _
  exact Keeps.bind linked fun _ _ => Keeps.pure spelled

theorem tidy_carry (fresh : base.Fresh) (producer : Stage) (carried : Trait) {expr : String}
    (inline : madeOf isInline expr = true) (opened : Open free rate) (type : DataType) :
    Tidy base (fun other => free other ∨ other = producer) free (do
      let output ← carryOut producer carried expr
      let (input, kept) ← carryIn producer output carried rate
      return (⟨input, type, kept⟩ : Symbol)) fun found => madeOf isInline found.expr = true := by
  refine Keeps.bind (tidy_carryOut producer carried inline) fun output _ => ?_
  refine Keeps.bind (tidy_carryIn fresh producer output carried opened) ?_
  rintro ⟨input, kept⟩ spelled
  exact Keeps.pure (inline_of_isSpelled spelled)

theorem tidy_bridge (fresh : base.Fresh) (key : Trait) {symbol : Symbol}
    (inline : madeOf isInline symbol.expr = true) (opened : Open free rate) :
    Tidy base free free (bridge key symbol rate) fun found =>
      madeOf isInline found.expr = true := by
  unfold bridge
  split
  · rename_i producer consumer crossing staged
    split
    · exact Keeps.pure inline
    · refine Keeps.bind (Keeps.ofExcept fun _ _ => trivial) fun type _ => ?_
      exact (tidy_carry fresh producer _ inline opened type).of_before fun _ settled =>
        settled.mono fun _ => .inl
  · exact Keeps.pure inline

theorem tidy_bridge_from (fresh : base.Fresh) (key : Trait) {symbol : Symbol}
    (inline : madeOf isInline symbol.expr = true) {producer consumer : Stage}
    (at_stage : symbol.rate = .stage producer) (foreign : producer ≠ consumer)
    (plain : symbol.type.isTexture = false) (opened : Open free (.stage consumer)) :
    Tidy base (fun other => free other ∨ other = producer) free
      (bridge key symbol (.stage consumer)) fun found => madeOf isInline found.expr = true := by
  have crosses : symbol.rate ≠ .stage consumer := by simpa [at_stage] using foreign
  unfold bridge
  simp only [at_stage, Rate.stage?]
  rw [if_neg (by simpa [← at_stage, plain] using crosses)]
  refine Keeps.bind (Keeps.ofExcept fun _ _ => trivial) fun type _ => ?_
  exact tidy_carry fresh producer _ inline opened type

/-- An input of another stage is carried over, which gives that stage its code, unless it is kept at
a uniform rate. -/
theorem tidy_inputFrom (fresh : base.Fresh) {key : Trait} (resolved : key.resolved = .ok key)
    {producer consumer : Stage} (foreign : producer ≠ consumer) {type : DataType}
    (plain : type.isTexture = false) (opened : Open free (.stage consumer)) :
    Tidy base free free (do
      let (name, kept) ← inputFor (.stage producer) key false
      bridge key ⟨name, type, kept⟩ (.stage consumer)) fun found =>
        madeOf isInline found.expr = true := by
  have same {other : Trait} (again : key.resolved = .ok other) : key = other :=
    Except.ok.inj (resolved.symm.trans again)
  by_cases clamped : ∃ kept, inputRate (.stage producer) key = .ok kept ∧ kept.isUniform = true
  · obtain ⟨own, given, uniform⟩ := clamped
    have never : ∀ other kept stage, key.resolved = .ok other →
        inputRate (.stage producer) other = .ok kept → kept = .stage stage → free stage := by
      intro other kept stage again stored here
      obtain rfl := same again
      obtain rfl : own = kept := Except.ok.inj (given.symm.trans stored)
      simp [here, Rate.isUniform, Rate.uniform?] at uniform
    refine Keeps.bind (tidy_inputFor fresh _ key false (fun _ still => still) never) ?_
    rintro ⟨name, kept⟩ ⟨spelled, -⟩
    exact tidy_bridge fresh key (inline_of_isSpelled spelled) opened
  · have own {kept : Rate} (stored : inputRate (.stage producer) key = .ok kept) :
        kept = .stage producer := by
      rcases inputRate_eq_or_isUniform (by simp) stored with here | uniform
      · exact here
      · exact absurd ⟨kept, stored, uniform⟩ clamped
    have opens : ∀ other kept stage, key.resolved = .ok other →
        inputRate (.stage producer) other = .ok kept → kept = .stage stage →
        free stage ∨ stage = producer := by
      intro other kept stage again stored here
      obtain rfl := same again
      exact .inr (Rate.stage.inj (here.symm.trans (own stored)))
    refine Keeps.bind (tidy_inputFor fresh _ key false (fun _ => Or.inl) opens) ?_
    rintro ⟨name, kept⟩ ⟨spelled, other, again, stored⟩
    obtain rfl := same again
    exact tidy_bridge_from fresh key (inline_of_isSpelled spelled) (own stored) foreign plain opened

theorem tidy_inputSymbol (fresh : base.Fresh) (key : Trait) (opened : Open free rate) :
    Tidy base free free (inputSymbol key rate) fun found => madeOf isInline found.expr = true := by
  refine Keeps.bind (Keeps.ofExcept fun typed resolved => resolved) fun typed resolved => ?_
  have self := Trait.resolved_of_isSome (Trait.resolved_eq_ok resolved).2.1
  have still (stage : Stage) (given : free stage) : free stage := given
  simp only
  split
  · rename_i coarse
    have never : ∀ other kept stage, typed.resolved = .ok other →
        inputRate (typed.id.defaultRate?.getD rate) other = .ok kept → kept = .stage stage →
        free stage := by
      intro other kept stage same stored here
      obtain rfl := Except.ok.inj (self.symm.trans same)
      have uniform := isUniform_of_coarse coarse stored
      simp [here, Rate.isUniform, Rate.uniform?] at uniform
    refine Keeps.bind (tidy_inputFor fresh _ typed false still never) ?_
    rintro ⟨name, kept⟩ ⟨spelled, -⟩
    exact Keeps.pure (inline_of_isSpelled spelled)
  · rename_i fine
    split
    · rename_i earlier
      simp only [Bool.or_eq_true, not_or, Bool.not_eq_true] at fine
      simp only [Bool.and_eq_true, decide_eq_true_eq] at earlier
      obtain ⟨⟨coarser, produced⟩, consumed⟩ := earlier
      obtain ⟨producer, from_stage⟩ : ∃ stage, typed.id.defaultRate?.getD rate = .stage stage := by
        cases own : typed.id.defaultRate?.getD rate <;> simp_all [Rate.stage?]
      obtain ⟨consumer, rfl⟩ : ∃ stage, rate = .stage stage := by
        cases rate <;> simp_all [Rate.stage?]
      rw [from_stage] at coarser ⊢
      have foreign : producer ≠ consumer := by
        rintro rfl
        exact absurd coarser (Nat.lt_irrefl _)
      exact tidy_inputFrom fresh self foreign (isTexture_getD.trans fine.2) opened
    · refine Keeps.bind (tidy_inputFor_open fresh opened typed false) ?_
      rintro ⟨name, kept⟩ spelled
      exact Keeps.pure (inline_of_isSpelled spelled)

theorem tidy_seen? (fresh : base.Fresh) (viewer : NodeId) (key : Trait) (opened : Open free rate) :
    Tidy base free free (seen? viewer key rate) fun found =>
      ∀ symbol, found = some symbol → madeOf isInline symbol.expr = true := by
  refine Keeps.readThen fun past orderly => ?_
  split
  · rename_i symbol found
    obtain ⟨n, trait, exposed, -⟩ := exists_expose_of_find? fresh found
    have inline := InOrder.inline_of_expose orderly exposed
    refine Keeps.bind (tidy_bridge fresh key inline opened) fun carried expr => Keeps.pure ?_
    intro symbol same
    exact Option.some.inj same ▸ expr
  · exact Keeps.pure fun _ impossible => by simp at impossible

end GlslMaterial.Material
