import GlslMaterial.Proofs.History.Completion

/-!
Generation: every history of writing a material, or a part of it, is lawful, and a material that has
been written to its end declares the tables that it has then.
-/

set_option autoImplicit false

namespace GlslMaterial.Material

open GlslMaterial.Action (Meets perform)
open Emission

variable {base : Material} {past : List Event}

theorem meets_generate (fresh : base.Fresh) :
    Meets (Legal true) base past generate fun _ _ => True := by
  apply Meets.bind
  apply Meets.read
  split
  · exact Meets.pure trivial
  · apply Meets.bind
    apply Meets.perform trivial
    apply Meets.bind
    apply (meets_generateNode fresh root).mono
    intro _ _ _ _
    exact complete_declares.mono fun _ _ _ _ => trivial

/-- Histories of writing parts of a material: nodes in any order and all of it, each of them stopped
at any moment. -/
inductive Reached (base : Material) : List Event → Prop
  | start : Reached base []
  | node {past part : List Event} (before : Reached base past) (n : NodeId)
      (early : part <+: (generateNode n).events (base.replay past)) : Reached base (past ++ part)
  | all {past part : List Event} (before : Reached base past)
      (early : part <+: generate.events (base.replay past)) : Reached base (past ++ part)

/-- Whatever has been written keeps to the law. -/
theorem Reached.written (fresh : base.Fresh) (reached : Reached base past) :
    Written true base past := by
  induction reached with
  | start => exact .nil
  | node before n early ih =>
    have whole := (meets_generateNode fresh n ih).1
    exact whole.of_isPrefix (List.prefix_append_right_inj _ |>.2 early)
  | all before early ih =>
    have whole := (meets_generate fresh ih).1
    exact whole.of_isPrefix (List.prefix_append_right_inj _ |>.2 early)

theorem run_generate (fresh : base.Fresh) :
    generate.run base =
      ((do perform .begin; generateNode root) >>= fun _ => complete).run base := by
  rw [bind_assoc]
  have start : generate.run base =
      (if base.generated then (pure () : Action Unit) else do
        perform .begin
        generateNode root
        complete).run base := rfl
  rw [start, if_neg (by simp [fresh.generated])]

/-- A material that has been written to its end keeps to the law, and at the interface markers of
each stage there are the declarations of its tables. -/
theorem generate_declares (fresh : base.Fresh) {after : Material}
    (ended : generate base = .ok () after) :
    Written true base (generate.events base) ∧
      (∀ stage, after.inputLines stage = .ok (linesAt stage .input (generate.events base))) ∧
      ∀ stage, after.outputLines stage = .ok (linesAt stage .output (generate.events base)) := by
  have walked : Meets (Legal false) base [] (do perform .begin; generateNode root) fun _ later =>
      Meets (Legal true) base later complete fun _ last =>
        (∀ stage, (base.replay last).inputLines stage = .ok (linesAt stage .input last)) ∧
          ∀ stage, (base.replay last).outputLines stage = .ok (linesAt stage .output last) := by
    apply Meets.bind
    apply Meets.perform trivial
    apply (meets_generateNode fresh root).mono
    intro _ later written _
    apply complete_declares.mono
    rintro _ last _ ⟨lines, declared, added⟩
    refine ⟨fun stage => ?_, fun stage => ?_⟩
    · rw [added stage .input rfl, Written.linesAt_eq_nil written stage rfl, List.nil_append]
      exact declared.inputs stage stage.mem_all
    · rw [added stage .output rfl, Written.linesAt_eq_nil written stage rfl, List.nil_append]
      exact declared.outputs stage stage.mem_all
  have same := run_generate fresh
  have reached := Action.material_of_ok ended
  obtain ⟨lawful, holds⟩ := walked.andThen (fun _ _ => Legal.declares) .nil
  simp only [Action.events, Action.result, replay_nil, List.nil_append, ← same] at lawful holds
  have lines := holds () after ended
  rw [reached]
  exact ⟨lawful, lines⟩

end GlslMaterial.Material
