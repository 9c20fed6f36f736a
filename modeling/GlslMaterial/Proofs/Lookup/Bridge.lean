import GlslMaterial.Proofs.History.Generation
import GlslMaterial.Proofs.History.Placement
import GlslMaterial.Proofs.History.Sources
import GlslMaterial.Proofs.History.Yields

/-!
Bridges: what a symbol of one stage becomes in another stage. The value arrives exactly where its
trait may vary within a draw call, no other value has been given to the output for the trait, and
the input for the trait has not been connected to anything else.
-/

set_option autoImplicit false

namespace GlslMaterial

/-- Every template has a place for assignments. -/
theorem Stage.colorize_mem_markers (stage : Stage) : .colorize ∈ stage.markers := by
  rw [markers]
  rcases stage.lines_eq with same | same | same <;> rw [same] <;> decide

namespace Material

open GlslMaterial.Action (Yields)

/-- What happens when the output for a trait is asked for, and assigned if it is new. -/
def carryEvents (producer : Stage) (carried : Trait) (expr output : String) (created : Bool) :
    List Event :=
  .output (.stage producer) carried false ::
    if created then
      [.start producer, .assign producer output expr, .wire (.stage producer) output]
    else []

variable {m : Material}

theorem exists_addOutput (m : Material) (stage : Stage) (id : TraitId) (type : DataType) :
    ∃ output created after,
      m.addOutput (.stage stage) (.typed id type) false = .ok ((output, created), after) := by
  simp only [addOutput, Rate.stage?, Option.isNone_some, Trait.resolved_typed, bind, Except.bind,
    Bool.false_eq_true, if_false]
  split <;> exact ⟨_, _, _, rfl⟩

variable {type : DataType} {kept : Rate} {id : TraitId} {producer consumer : Stage}
  {carried : Trait} {expr output input : String} {created : Bool} {after middle base : Material}
  {past : List Event}

theorem inputRate_stage (stage : Stage) (id : TraitId) (plain : type.isTexture = false) :
    ∃ kept, inputRate (.stage stage) (.typed id type) = .ok kept ∧
      (kept = .stage stage ↔ ∀ own, id.defaultRate? = some own → own.isUniform = false) := by
  have untextured : (Trait.typed id type).isTexture = false := plain
  have finer (own : UniformRate) : Rate.uniform own < Rate.stage stage := by
    show (Rate.uniform own).rank < (Rate.stage stage).rank
    cases own <;> cases stage <;> decide
  unfold inputRate
  cases default : (Trait.typed id type).id.defaultRate? with
  | none =>
    have absent : id.defaultRate? = none := default
    exact ⟨_, rfl, by simp [absent, untextured]⟩
  | some own =>
    have given : id.defaultRate? = some own := default
    cases own with
    | auto => exact ⟨_, rfl, by simp [given, untextured, Rate.isUniform, Rate.uniform?]⟩
    | uniform own =>
      exact ⟨_, rfl, by simp [given, untextured, Rate.isUniform, Rate.uniform?, finer]⟩
    | stage own => exact ⟨_, rfl, by simp [given, untextured, Rate.isUniform, Rate.uniform?]⟩

theorem exists_addInput (m : Material) {rate : Rate}
    (stored : inputRate rate (.typed id type) = .ok kept) :
    ∃ input after, m.addInput rate (.typed id type) false = .ok ((input, kept), after) := by
  simp only [addInput, Trait.resolved_typed, stored, bind, Except.bind]
  split <;> exact ⟨_, _, rfl⟩

theorem carryOut_yields (marked : m.Marked)
    (added : m.addOutput (.stage producer) carried false = .ok ((output, created), after)) :
    (carryOut producer carried expr).Yields m output
      (carryEvents producer carried expr output created) := by
  have asked := outputFor_yields added
  cases created with
  | false => exact asked.bind (.pure output)
  | true =>
    have has := (marked.apply (.output (.stage producer) carried false)).hasMarker_started
      (Stage.hasMarker_of_mem_markers producer.colorize_mem_markers)
    exact asked.bind (.bind (writing_yields (.assign producer output expr) has)
      (.bind (.perform (.wire (.stage producer) output)) (.pure output)))

theorem carryIn_yields {rate : Rate}
    (added : m.addInput rate carried false = .ok ((input, kept), after)) :
    (carryIn producer output carried rate).Yields m (input, kept)
      [.input rate carried false, .link (.stage producer) output kept input] :=
  (inputFor_yields added).bind (.bind (.perform _) (.pure _))

theorem bridge_yields (marked : m.Marked) {key : Trait} {symbol : Symbol}
    (at_stage : symbol.rate = .stage producer) (foreign : producer ≠ consumer)
    (plain : symbol.type.isTexture = false) (decays : symbol.type.decay? = some type)
    (out : m.addOutput (.stage producer) (.typed key.id type) false =
      .ok ((output, created), middle))
    (back :
      (m.replay (carryEvents producer (.typed key.id type) symbol.expr output created)).addInput
        (.stage consumer) (.typed key.id type) false = .ok ((input, kept), after)) :
    (bridge key symbol (.stage consumer)).Yields m ⟨input, type, kept⟩
      (carryEvents producer (.typed key.id type) symbol.expr output created ++
        [.input (.stage consumer) (.typed key.id type) false,
          .link (.stage producer) output kept input]) := by
  have decayed : symbol.type.decayed = .ok type := by simp [DataType.decayed, decays]
  have crosses : symbol.rate ≠ .stage consumer := by simpa [at_stage] using foreign
  have goes : (do
      let output ← carryOut producer (.typed key.id type) symbol.expr
      let back ← carryIn producer output (.typed key.id type) (.stage consumer)
      return ⟨back.1, type, back.2⟩ : Action Symbol).Yields m ⟨input, type, kept⟩
        (carryEvents producer (.typed key.id type) symbol.expr output created ++
          ([.input (.stage consumer) (.typed key.id type) false,
            .link (.stage producer) output kept input] ++ [])) :=
    (carryOut_yields marked out).bind ((carryIn_yields back).bind (.pure _))
  unfold bridge
  simp only [at_stage, Rate.stage?]
  rw [if_neg (by simpa [← at_stage, plain] using crosses), decayed, Action.ofExcept, pure_bind]
  exact goes

theorem assigned_carryEvents (producer : Stage) (carried : Trait) (expr output : String)
    (created : Bool) :
    assigned (carryEvents producer carried expr output created) producer output =
      if created then [expr] else [] := by
  cases created <;> simp [carryEvents, assigned]

/-- The output for a trait carries an expression out of a stage if no other value has been given
to it. -/
theorem assigned_carry_iff {declaring : Bool}
    (written : Written declaring base past) (fresh : base.Fresh)
    (typed : carried.type.isSome = true) (expr : String)
    (added : (base.replay past).addOutput (.stage producer) carried false =
      .ok ((output, created), after)) :
    assigned (past ++ carryEvents producer carried expr output created) producer output = [expr] ↔
      ∀ o ∈ (base.replay past).outputs, o.rate = .stage producer → o.key.agrees carried = true →
        assigned past producer o.name = [expr] := by
  obtain ⟨key, resolved, -, asked, known, free, -⟩ := addOutput_eq_ok added
  obtain rfl : key = carried := (Trait.resolved_eq_ok resolved).2.2 typed
  rw [assigned_append, assigned_carryEvents]
  cases created with
  | false =>
    rw [known rfl] at asked
    obtain ⟨own, member, here, named, agrees⟩ := asked.exists_mem
    simp only [Bool.false_eq_true, if_false, List.append_nil]
    constructor
    · intro only o inside there also
      obtain rfl := (written.tabled fresh).outputs.eq_of_key typed inside member
        (there.trans here.symm) (here ▸ rfl) also agrees
      exact named ▸ only
    · intro all
      exact named ▸ all own member here agrees
  | true =>
    rw [written.assigned_eq_nil (free rfl)]
    refine iff_of_true rfl fun o inside here agrees => ?_
    generalize after.outputs = outputs at asked
    cases asked with
    | known b member single at_rate also named => exact absurd named (free rfl b member at_rate)
    | fresh b at_rate same named unplaced alone absent => simp [absent rfl o inside here] at agrees

/-- After a link for a trait its input and its output have one location, if the input was connected
to nothing else. -/
theorem Tabled.shares_iff (tabled : m.Tabled) (typed : carried.type.isSome = true) {o i : Binding}
    (output : o ∈ m.outputs) (produced : o.rate = .stage producer)
    (carries : o.key.agrees carried = true) (input : i ∈ m.inputs)
    (consumed : i.rate = .stage consumer) (takes : i.key.agrees carried = true)
    (holds : String → Prop) :
    (∃ i' ∈ (m.link o.rate o.name i.rate i.name).inputs,
      i'.rate = .stage consumer ∧ i'.name = i.name ∧
      ∃ o' ∈ (m.link o.rate o.name i.rate i.name).outputs,
        o'.rate = .stage producer ∧ o'.key.agrees carried = true ∧ holds o'.name ∧
        ∃ location, i'.location = some location ∧ o'.location = some location) ↔
      holds o.name ∧ ∀ location, PlacedFor m.inputs (.stage consumer) carried location →
        PlacedFor m.outputs (.stage producer) carried location := by
  have i_staged : i.rate.stage?.isSome = true := consumed ▸ rfl
  have o_staged : o.rate.stage?.isSome = true := produced ▸ rfl
  have before {location : Nat} :
      PlacedFor m.inputs (.stage consumer) carried location ↔ Placed m.inputs i.entry location :=
    consumed ▸ tabled.inputs.placedFor_iff_placed input i_staged typed takes
  have source {location : Nat} :
      PlacedFor m.outputs (.stage producer) carried location ↔ Placed m.outputs o.entry location :=
    produced ▸ tabled.outputs.placedFor_iff_placed output o_staged typed carries
  have shares := (tabled.linked output input (.inl i_staged)).shares_iff
    (fun first second here there => by
      rw [tabled.inputs.placed_iff_location input (.inl i_staged)] at here there
      exact Option.some.inj (here.symm.trans there))
    i_staged
  obtain ⟨inputs, outputs⟩ := m.map_entry_link o.rate o.name i.rate i.name
  simp only [before, source, ← shares]
  constructor
  · rintro ⟨i', i_member, i_here, i_named, o', o_member, o_here, o_agrees, of_name, location,
      i_placed, o_placed⟩
    have i_entry := tabled.inputs.entry_of_name inputs i_member input (i_here.trans consumed.symm)
      i_staged i_named
    have o_entry := tabled.outputs.entry_of_key outputs typed o_member output
      (o_here.trans produced.symm) o_staged o_agrees carries
    have o_name := (Binding.entry_eq_iff.1 o_entry).2.2
    exact ⟨o_name ▸ of_name, location, ⟨i', i_member, i_entry, i_placed⟩,
      ⟨o', o_member, o_entry, o_placed⟩⟩
  · rintro ⟨of_name, location, ⟨i', i_member, i_entry, i_placed⟩,
      ⟨o', o_member, o_entry, o_placed⟩⟩
    obtain ⟨i_rate, -, i_name⟩ := Binding.entry_eq_iff.1 i_entry
    obtain ⟨o_rate, o_key, o_name⟩ := Binding.entry_eq_iff.1 o_entry
    exact ⟨i', i_member, i_rate.trans consumed, i_name, o', o_member, o_rate.trans produced,
      o_key ▸ carries, o_name ▸ of_name, location, i_placed, o_placed⟩

/-- A symbol in the consumer stands for an expression in the producer: it names an input of the
consumer, the output for the trait has the same location, and the expression is the only value
that this output has been given. -/
structure Carries (m : Material) (values : String → List String) (carried : Trait)
    (producer consumer : Stage) (expr : String) (symbol : Symbol) : Prop where
  at_consumer : symbol.rate = .stage consumer
  connected : ∃ i ∈ m.inputs, i.rate = .stage consumer ∧ i.name = symbol.expr ∧
    ∃ o ∈ m.outputs, o.rate = .stage producer ∧ o.key.agrees carried = true ∧
      values o.name = [expr] ∧
      ∃ location, i.location = some location ∧ o.location = some location

/-- An expression can be carried from one stage to another as a trait: the trait has no uniform
rate of its own, the producer has no output for the trait with another value, and the consumer has
no input for the trait that is connected elsewhere. -/
structure Carriable (m : Material) (values : String → List String) (carried : Trait)
    (producer consumer : Stage) (expr : String) : Prop where
  varies : ∀ own, carried.id.defaultRate? = some own → own.isUniform = false
  sole : ∀ o ∈ m.outputs, o.rate = .stage producer → o.key.agrees carried = true →
    values o.name = [expr]
  unconnected : ∀ location, PlacedFor m.inputs (.stage consumer) carried location →
    PlacedFor m.outputs (.stage producer) carried location

/-- Just before a bridge is linked, both of its ends are there. -/
theorem exists_ends (out : (base.replay past).addOutput (.stage producer) (.typed id type) false =
      .ok ((output, created), middle))
    (back :
      (base.replay (past ++ carryEvents producer (.typed id type) expr output created)).addInput
        (.stage consumer) (.typed id type) false = .ok ((input, kept), after)) :
    Bound after.outputs (.stage producer) (.typed id type) output ∧
      Bound after.inputs kept (.typed id type) input := by
  obtain ⟨_, resolved, -, asked_out, -⟩ := addOutput_eq_ok out
  obtain rfl := Except.ok.inj resolved
  obtain ⟨_, resolved, -, asked_in, same⟩ := addInput_eq_ok back
  obtain rfl := Except.ok.inj resolved
  refine ⟨?_, asked_in.exists_mem⟩
  have reached : (base.replay past).apply (.output (.stage producer) (.typed id type) false) =
      middle := by
    simp [apply, withOutput, out]
  have outputs : after.outputs =
      (base.replay (past ++ carryEvents producer (.typed id type) expr output created)).outputs :=
    (congrArg Material.outputs same).trans rfl
  rw [outputs, carryEvents, replay_append, replay_cons, reached]
  exact Bound.mono asked_out.exists_mem (entries_replay _ _).2

theorem carries_iff {declaring : Bool} (fresh : base.Fresh) (plain : type.isTexture = false)
    (out : (base.replay past).addOutput (.stage producer) (.typed id type) false =
      .ok ((output, created), middle))
    (back :
      (base.replay (past ++ carryEvents producer (.typed id type) expr output created)).addInput
        (.stage consumer) (.typed id type) false = .ok ((input, kept), after))
    (written : Written declaring base (past ++
      (carryEvents producer (.typed id type) expr output created ++
        [.input (.stage consumer) (.typed id type) false]))) :
    Carries (after.link (.stage producer) output kept input)
        (assigned (past ++ carryEvents producer (.typed id type) expr output created) producer)
        (.typed id type) producer consumer expr ⟨input, type, kept⟩ ↔
      Carriable (base.replay past) (assigned past producer) (.typed id type) producer consumer
        expr := by
  obtain ⟨⟨o, o_member, o_here, rfl, o_agrees⟩, i, i_member, rfl, rfl, i_agrees⟩ :=
    exists_ends out back
  have reached : base.replay (past ++
      (carryEvents producer (.typed id type) expr o.name created ++
        [.input (.stage consumer) (.typed id type) false])) = after := by
    rw [← List.append_assoc, replay_append, replay_cons, replay_nil]
    simp only [apply, withInput, back]
  have tabled : after.Tabled := reached ▸ written.tabled fresh
  obtain ⟨kept, stored, varies⟩ := inputRate_stage consumer id plain
  obtain rfl : kept = i.rate := by
    obtain ⟨_, resolved, given, -⟩ := addInput_eq_ok back
    obtain rfl := Except.ok.inj resolved
    exact Except.ok.inj (stored.symm.trans given)
  by_cases here : i.rate = .stage consumer
  · have others : ∀ event ∈ carryEvents producer (.typed id type) expr o.name created ++
        [.input (.stage consumer) (.typed id type) false], event.isLink = false := by
      cases created <;> simp [carryEvents, Event.isLink]
    have through (rate : Rate) (location : Nat) :
        (PlacedFor after.inputs rate (.typed id type) location ↔
          PlacedFor (base.replay past).inputs rate (.typed id type) location) ∧
        (PlacedFor after.outputs rate (.typed id type) location ↔
          PlacedFor (base.replay past).outputs rate (.typed id type) location) := by
      rw [← reached, replay_append]
      exact placedFor_replay_iff others _ _ _
    have shares := tabled.shares_iff rfl o_member o_here o_agrees i_member here i_agrees
      fun name => assigned (past ++ carryEvents producer (.typed id type) expr o.name created)
        producer name = [expr]
    have assigns := assigned_carry_iff written.of_append fresh rfl expr out
    simp only [fun location => (through (.stage consumer) location).1,
      fun location => (through (.stage producer) location).2, assigns] at shares
    rw [o_here] at shares
    constructor
    · rintro ⟨-, connected⟩
      obtain ⟨sole, unconnected⟩ := shares.1 connected
      exact ⟨varies.1 here, sole, unconnected⟩
    · rintro ⟨-, sole, unconnected⟩
      exact ⟨here, shares.2 ⟨sole, unconnected⟩⟩
  · exact iff_of_false (fun carries => here carries.at_consumer)
      fun carriable => here (varies.2 carriable.varies)

/-- A bridge succeeds wherever the type of its symbol can cross, and gives what stands for this very
symbol exactly where the symbol can be carried over. -/
theorem bridge_carries_iff (fresh : base.Fresh)
    (written : Written true base past) (key : Trait) {symbol : Symbol}
    (at_stage : symbol.rate = .stage producer) (foreign : producer ≠ consumer)
    (plain : symbol.type.isTexture = false) (decays : symbol.type.decay? = some type) :
    ∃ carried events,
      (bridge key symbol (.stage consumer)).Yields (base.replay past) carried events ∧
      (Carries ((base.replay past).replay events) (assigned (past ++ events) producer)
          (.typed key.id type) producer consumer symbol.expr carried ↔
        Carriable (base.replay past) (assigned past producer) (.typed key.id type) producer consumer
          symbol.expr) := by
  have crosses : type.isTexture = false :=
    (isTexture_decayed (by simp [DataType.decayed, decays])).trans plain
  obtain ⟨output, created, middle, out⟩ := exists_addOutput (base.replay past) producer key.id type
  obtain ⟨kept, stored, -⟩ := inputRate_stage consumer key.id crosses
  obtain ⟨input, after, back⟩ := exists_addInput ((base.replay past).replay
    (carryEvents producer (.typed key.id type) symbol.expr output created)) stored
  have yields :=
    bridge_yields (fresh.marked.replay past) at_stage foreign plain decays out back
  have whole := (meets_bridge key symbol (.stage consumer) written).1
  rw [yields.events] at whole
  refine ⟨_, _, yields, ?_⟩
  have both := carries_iff fresh crosses out (by rw [replay_append]; exact back)
    (whole.of_isPrefix ⟨[.link (.stage producer) output kept input], by simp⟩)
  have ended : (base.replay past).replay
      (carryEvents producer (.typed key.id type) symbol.expr output created ++
        [.input (.stage consumer) (.typed key.id type) false,
          .link (.stage producer) output kept input]) =
      after.link (.stage producer) output kept input := by
    rw [replay_append, replay_cons, replay_cons, replay_nil]
    simp only [apply, withInput, back]
  have values : assigned (past ++
      (carryEvents producer (.typed key.id type) symbol.expr output created ++
        [.input (.stage consumer) (.typed key.id type) false,
          .link (.stage producer) output kept input])) producer =
      assigned (past ++ carryEvents producer (.typed key.id type) symbol.expr output created)
        producer := by
    funext name
    simp [assigned]
  rw [ended, values]
  exact both

/-- A lookup that finds a symbol of another stage succeeds at any time, and what it gives stands for
this very symbol exactly where the symbol can be carried over as its trait. -/
theorem lookup_carries_iff {c : Construct} {base : Material} {past : List Event} {viewer : NodeId}
    {key : Trait} {producer consumer : Stage} {symbol : Symbol} (fallback : Fallback)
    (built : ofConstruct c = .ok base) (reached : Reached base past)
    (found : (base.replay past).find? viewer key (.stage consumer) = some symbol)
    (at_stage : symbol.rate = .stage producer) (foreign : producer ≠ consumer)
    (plain : symbol.type.isTexture = false) :
    ∃ type carried after,
      symbol.type.decay? = some type ∧
      lookup viewer key (.stage consumer) fallback (base.replay past) = .ok (some carried) after ∧
      (Carries after
          (assigned (past ++ (lookup viewer key (.stage consumer) fallback).events
            (base.replay past)) producer)
          (.typed key.id type) producer consumer symbol.expr carried ↔
        Carriable (base.replay past) (assigned past producer) (.typed key.id type)
          producer consumer symbol.expr) := by
  have fresh := fresh_ofConstruct built
  have written := reached.written fresh
  obtain ⟨n, trait, exposed, -⟩ := exists_expose_of_find? fresh found
  obtain ⟨type, decays⟩ := Option.isSome_iff_exists.1 (written.of_expose exposed).1
  -- The question itself changes nothing, so that the bridge starts from what was there before.
  have asked : base.replay (past ++ [.ask viewer key (.stage consumer) fallback]) =
      base.replay past := by
    rw [replay_append]
    rfl
  have valued : assigned (past ++ [.ask viewer key (.stage consumer) fallback]) producer =
      assigned past producer := by
    funext name
    simp [assigned]
  have lawful : Written true base (past ++ [.ask viewer key (.stage consumer) fallback]) :=
    written.snoc trivial
  obtain ⟨carried, events, yields, both⟩ :=
    bridge_carries_iff fresh lawful key at_stage foreign plain decays
  rw [asked] at yields both
  have looks := lookup_yields (Emission.stage_ne_auto consumer) found yields fallback
  refine ⟨type, carried, _, decays, looks.result, ?_⟩
  rw [looks.events, ← valued, List.append_cons]
  exact both

/-- A value of the vertex stage reaches the pixel stage. -/
theorem lookup_carries_value :
    ∃ base past carried after,
      ofConstruct ⟨.material, none, [], [],
        [⟨.value, none, [⟨.rate, none, some (.string "Vertex")⟩, .ofId .aim], [], []⟩,
          ⟨.value, none, [.ofId .aim], [], []⟩]⟩ = .ok base ∧
      Reached base past ∧
      (base.replay past).find? 2 (.ofId .aim) (.stage .pixel) =
        some ⟨"value1", .vec3, .stage .vertex⟩ ∧
      lookup 2 (.ofId .aim) (.stage .pixel) .required (base.replay past) =
        .ok (some carried) after ∧
      Carries after
        (assigned (past ++ (lookup 2 (.ofId .aim) (.stage .pixel) .required).events
          (base.replay past)) .vertex)
        (.typed .aim .vec3) .vertex .pixel "value1" carried := by
  have evaluated : (ofConstruct ⟨.material, none, [], [],
      [⟨.value, none, [⟨.rate, none, some (.string "Vertex")⟩, .ofId .aim], [], []⟩,
        ⟨.value, none, [.ofId .aim], [], []⟩]⟩).toOption.any
      (fun base =>
        let m := base.replay ((Emission.generateNode 1).events base)
        m.find? 2 (.ofId .aim) (.stage .pixel) = some ⟨"value1", .vec3, .stage .vertex⟩ &&
          m.outputs.isEmpty && m.inputs.all (·.location.isNone)) = true := by
    decide +kernel
  obtain ⟨base, built, evaluated⟩ := exists_ok_of_any evaluated
  simp only [Bool.and_eq_true, decide_eq_true_eq] at evaluated
  obtain ⟨⟨found, bare⟩, loose⟩ := evaluated
  have reached : Reached base ((Emission.generateNode 1).events base) :=
    .node .start 1 (List.prefix_refl _)
  obtain ⟨type, carried, after, decays, looks, both⟩ :=
    lookup_carries_iff .required built reached found rfl (by decide) rfl
  obtain rfl : DataType.vec3 = type := Option.some.inj decays
  refine ⟨base, _, carried, after, built, reached, found, looks, both.2 ⟨?_, ?_, ?_⟩⟩
  · rintro own ⟨⟩
    rfl
  · simp [List.isEmpty_iff.1 bare]
  · rintro location ⟨b, member, -, -, placed⟩
    have unplaced := List.all_eq_true.1 loose b member
    simp [placed] at unplaced

/-- A matrix of the vertex stage does not reach the pixel stage: what arrives is a uniform. -/
theorem lookup_not_carries_model :
    ∃ base past after,
      ofConstruct ⟨.material, none, [], [],
        [⟨.value, none, [⟨.rate, none, some (.string "Vertex")⟩, .ofId .model], [], []⟩,
          ⟨.value, none, [.ofId .aim], [], []⟩]⟩ = .ok base ∧
      Reached base past ∧
      (base.replay past).find? 2 (.ofId .model) (.stage .pixel) =
        some ⟨"value1", .mat4, .stage .vertex⟩ ∧
      lookup 2 (.ofId .model) (.stage .pixel) .required (base.replay past) =
        .ok (some ⟨"Instance.Model", .mat4, .uniform .drawInstance⟩) after := by
  have evaluated : (ofConstruct ⟨.material, none, [], [],
      [⟨.value, none, [⟨.rate, none, some (.string "Vertex")⟩, .ofId .model], [], []⟩,
        ⟨.value, none, [.ofId .aim], [], []⟩]⟩).toOption.any
      (fun base =>
        let m := base.replay ((Emission.generateNode 1).events base)
        m.find? 2 (.ofId .model) (.stage .pixel) = some ⟨"value1", .mat4, .stage .vertex⟩ &&
          ((lookup 2 (.ofId .model) (.stage .pixel) .required).ended? m).any
            (·.1 = some ⟨"Instance.Model", .mat4, .uniform .drawInstance⟩)) = true := by
    decide +kernel
  obtain ⟨base, built, evaluated⟩ := exists_ok_of_any evaluated
  simp only [Bool.and_eq_true, decide_eq_true_eq] at evaluated
  obtain ⟨given, after, found, same⟩ := Action.exists_ok_of_any evaluated.2
  obtain rfl := of_decide_eq_true same
  exact ⟨base, _, after, built, .node .start 1 (List.prefix_refl _), evaluated.1, found⟩

end Material

end GlslMaterial
