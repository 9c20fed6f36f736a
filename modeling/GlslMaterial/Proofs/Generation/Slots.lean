import GlslMaterial.Proofs.History.Counters
import GlslMaterial.Proofs.History.Generation

/-!
Slots in the interfaces of a written material. Every counter keeps the locations that are drawn from
it apart, but an output takes part in the interface of its own stage while it draws from the counter
of the stage that reads it first. Declarations of a stage overlap where two such counters meet.
-/

set_option autoImplicit false

namespace GlslMaterial

/-- Two bindings take no slot twice if their locations were drawn from different counters. -/
def CountersApart (drawn : Entry → Rate → Nat → Prop) (a b : Binding) : Prop :=
  ∀ location elsewhere, a.location = some location → b.location = some elsewhere →
    ∀ first second, drawn a.entry first location → drawn b.entry second elsewhere →
      first ≠ second → SlotsApart a.key location b.key elsewhere

theorem pairwise_givenApart_iff {bindings : List Binding} {drawn : Entry → Rate → Nat → Prop}
    (origin : ∀ b ∈ bindings, ∀ location, b.location = some location →
      ∃ rate, drawn b.entry rate location)
    (kept : bindings.Pairwise fun a b => ∀ rate location elsewhere,
      drawn a.entry rate location → drawn b.entry rate elsewhere →
        SlotsApart a.key location b.key elsewhere) :
    bindings.Pairwise GivenApart ↔ bindings.Pairwise (CountersApart drawn) := by
  constructor
  · intro given
    exact given.imp fun apart location elsewhere here there _ _ _ _ _ =>
      apart location elsewhere here there
  · intro across
    refine (kept.and across).imp_of_mem ?_
    rintro a b a_member b_member ⟨within, between⟩ location elsewhere here there
    obtain ⟨first, a_drawn⟩ := origin a a_member location here
    obtain ⟨second, b_drawn⟩ := origin b b_member elsewhere there
    by_cases same : first = second
    · subst same
      exact within first location elsewhere a_drawn b_drawn
    · exact between location elsewhere here there first second a_drawn b_drawn same

theorem Distinct.pairwise_at {bindings : List Binding} (distinct : Distinct bindings)
    (stage : Stage) :
    (bindings.filter fun b => b.rate = .stage stage).Pairwise fun a b =>
      a.name ≠ b.name ∧ a.key.agrees b.key = false := by
  have apart := (List.pairwise_map.1 distinct.apart).filter fun b => decide (b.rate = .stage stage)
  refine apart.imp_of_mem ?_
  intro a b first second apart
  have a_here : a.rate = .stage stage := by simpa using (List.mem_filter.1 first).2
  have b_here : b.rate = .stage stage := by simpa using (List.mem_filter.1 second).2
  have staged : b.rate.stage?.isSome = true := b_here ▸ rfl
  exact apart (a_here.trans b_here.symm) (.inl staged)

namespace Material

variable {base : Material} {past : List Event}

theorem pairwise_outputs_iff (tabled : (base.replay past).Tabled) (counted : Counted base past)
    (stage : Stage) :
    (located ((base.replay past).outputsAt (.stage stage))).Pairwise DeclaredApart ↔
      ((base.replay past).outputsAt (.stage stage)).Pairwise
        (CountersApart (DrawnFrom base past)) := by
  rw [pairwise_located_iff]
  refine pairwise_givenApart_iff (fun b member location given => ?_) ?_
  · exact counted.drawn ⟨b, (List.mem_filter.1 member).1, rfl, given⟩
  · refine (tabled.outputs.pairwise_at stage).imp fun {a b} different rate location elsewhere => ?_
    have two : a.entry ≠ b.entry := fun same => different.1 (congrArg Entry.name same)
    exact counted.apart two

theorem pairwise_inputs_iff (tabled : (base.replay past).Tabled) (counted : Counted base past)
    (connected : Connected base past) (stage : Stage) :
    (located ((base.replay past).inputsAt (.stage stage))).Pairwise DeclaredApart ↔
      ((base.replay past).inputsAt (.stage stage)).Pairwise
        (CountersApart (FedFrom base past)) := by
  rw [pairwise_located_iff]
  refine pairwise_givenApart_iff (fun b member location given => ?_) ?_
  · have here : b.rate = .stage stage := by simpa using (List.mem_filter.1 member).2
    have staged : b.rate.stage?.isSome = true := here ▸ rfl
    exact connected.fed staged ⟨b, (List.mem_filter.1 member).1, rfl, given⟩
  · refine (tabled.inputs.pairwise_at stage).imp fun {a b} different rate location elsewhere => ?_
    exact counted.apart_inputs different.2

/-- When a material has been written, the declarations of a stage take no slot twice, among its
outputs and among its inputs, if and only if those whose locations were drawn from the counters of
different consumers do not. -/
theorem generate_slots_apart_iff {c : Construct} {after : Material}
    (built : ofConstruct c = .ok base) (ended : generate base = .ok () after) (stage : Stage) :
    (after.outputLines stage = .ok (linesAt stage .output (generate.events base)) ∧
      ((located (after.outputsAt (.stage stage))).Pairwise DeclaredApart ↔
        (after.outputsAt (.stage stage)).Pairwise
          (CountersApart (DrawnFrom base (generate.events base))))) ∧
    (after.inputLines stage = .ok (linesAt stage .input (generate.events base)) ∧
      ((located (after.inputsAt (.stage stage))).Pairwise DeclaredApart ↔
        (after.inputsAt (.stage stage)).Pairwise
          (CountersApart (FedFrom base (generate.events base))))) := by
  have fresh := fresh_ofConstruct built
  obtain ⟨written, inputs, outputs⟩ := generate_declares fresh ended
  have tabled := Written.tabled written fresh
  have counted := Written.counted written fresh
  have connected := Written.connected written fresh
  obtain rfl := Action.material_of_ok ended
  exact ⟨⟨outputs stage, pairwise_outputs_iff tabled counted stage⟩,
    ⟨inputs stage, pairwise_inputs_iff tabled counted connected stage⟩⟩

/-- Two outputs that the pixel stage reads are apart. -/
theorem generate_slots_apart_two_outputs :
    ∃ base after,
      ofConstruct ⟨.material, none, [], [],
        [⟨.value, none, [⟨.rate, none, some (.string "Vertex")⟩, .ofId .aim], [], []⟩,
          ⟨.value, none, [.ofId .aim], [], []⟩,
          ⟨.value, none, [⟨.rate, none, some (.string "Vertex")⟩, .ofId .sampler], [], []⟩,
          ⟨.value, none, [.ofId .sampler], [], []⟩]⟩ = .ok base ∧
      generate base = .ok () after ∧
      (located (after.outputsAt (.stage .vertex))).map
          (fun declared => (declared.1.name, declared.2)) =
        [("outAim", 0), ("outSampler", 1)] ∧
      (after.outputsAt (.stage .vertex)).Pairwise
        (CountersApart (DrawnFrom base (generate.events base))) := by
  have evaluated : (ofConstruct ⟨.material, none, [], [],
      [⟨.value, none, [⟨.rate, none, some (.string "Vertex")⟩, .ofId .aim], [], []⟩,
        ⟨.value, none, [.ofId .aim], [], []⟩,
        ⟨.value, none, [⟨.rate, none, some (.string "Vertex")⟩, .ofId .sampler], [], []⟩,
        ⟨.value, none, [.ofId .sampler], [], []⟩]⟩).toOption.any
      (fun base => (generate.ended? base).any fun ended =>
        let declared := located (ended.2.outputsAt (.stage .vertex))
        declared.map (fun declared => (declared.1.name, declared.2)) =
            [("outAim", 0), ("outSampler", 1)] &&
          decide (declared.Pairwise DeclaredApart)) = true := by
    decide +kernel
  obtain ⟨base, built, evaluated⟩ := exists_ok_of_any evaluated
  obtain ⟨_, after, ended, evaluated⟩ := Action.exists_ok_of_any evaluated
  simp only [Bool.and_eq_true, decide_eq_true_eq] at evaluated
  exact ⟨base, after, built, ended, evaluated.1,
    (generate_slots_apart_iff built ended .vertex).1.2.1 evaluated.2⟩

/-- An output for the geometry stage and an output for the pixel stage take the same slot. -/
theorem generate_slots_overlap :
    ∃ base after,
      ofConstruct ⟨.material, none, [], [],
        [⟨.value, none, [⟨.rate, none, some (.string "Vertex")⟩, .ofId .aim], [], []⟩,
          ⟨.value, none, [⟨.rate, none, some (.string "Primitive")⟩, .ofId .aim], [], []⟩,
          ⟨.value, none, [⟨.rate, none, some (.string "Vertex")⟩, .ofId .sampler], [], []⟩,
          ⟨.value, none, [⟨.rate, none, some (.string "Pixel")⟩, .ofId .sampler], [], []⟩]⟩ =
        .ok base ∧
      generate base = .ok () after ∧
      ¬ (located (after.outputsAt (.stage .vertex))).Pairwise DeclaredApart := by
  have evaluated : (ofConstruct ⟨.material, none, [], [],
      [⟨.value, none, [⟨.rate, none, some (.string "Vertex")⟩, .ofId .aim], [], []⟩,
        ⟨.value, none, [⟨.rate, none, some (.string "Primitive")⟩, .ofId .aim], [], []⟩,
        ⟨.value, none, [⟨.rate, none, some (.string "Vertex")⟩, .ofId .sampler], [], []⟩,
        ⟨.value, none, [⟨.rate, none, some (.string "Pixel")⟩, .ofId .sampler], [], []⟩]⟩
        ).toOption.any
      (fun base => (generate.ended? base).any fun ended =>
        let declared := located (ended.2.outputsAt (.stage .vertex))
        decide (¬ declared.Pairwise DeclaredApart)) = true := by
    decide +kernel
  obtain ⟨base, built, evaluated⟩ := exists_ok_of_any evaluated
  obtain ⟨_, after, ended, overlap⟩ := Action.exists_ok_of_any evaluated
  exact ⟨base, after, built, ended, of_decide_eq_true overlap⟩

end Material

end GlslMaterial
