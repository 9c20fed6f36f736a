import GlslMaterial.Proofs.Generation.Complete
import GlslMaterial.Proofs.Twin.Completion

/-!
Rehearsals: whether a material can be generated does not depend on what has been written. So it can
be found out on materials whose sources are short, where little has to be read to find a marker.
-/

set_option autoImplicit false

namespace GlslMaterial.Material

open GlslMaterial.Action (Parallel perform)
open Emission (steady_generateNode)

variable {m twin : Material}

theorem steady_walkAll {free : Stage → Prop} : Steady free free walkAll fun _ => True :=
  Parallel.bind (parallel_perform _) fun _ _ => steady_generateNode root

/-- There is always room for a position. -/
theorem exists_ensurePosition (alike : Twin (· ≠ .pixel) m twin) :
    ∃ after, ensurePosition twin = .ok () after ∧ Twin (· ≠ .pixel) m after := by
  by_cases mentioned : (twin.source .vertex).mentions "gl_Position" = true
  · have yields : ensurePosition.Yields twin () ([] ++ []) := by
      refine Action.Yields.bind .read ?_
      rw [replay_nil, if_pos mentioned]
      exact .pure ()
    exact ⟨_, yields.result, alike⟩
  · let events : List Event := [.start .vertex, .write .vertex .position fullscreenVertex]
    have yields : ensurePosition.Yields twin () ([] ++ events) := by
      refine Action.Yields.bind .read ?_
      rw [replay_nil, if_neg mentioned]
      exact writing_yields_of_marked alike.marked.2 (by decide) _
    have texts : ∀ event ∈ events, event.isTextOf .vertex :=
      List.forall_mem_cons.2 ⟨Event.isTextOf_start .vertex,
        List.forall_mem_singleton.2 (.of_idle rfl fun _ => rfl)⟩
    refine ⟨_, yields.result, ?_⟩
    have free : Twin (Opening (· ≠ .pixel) .vertex) m twin := alike.mono fun _ => .inl
    exact (free.replay_text (List.forall_mem_nil _) texts).mono
      fun stage => Or.rec id fun vertex => by simp [vertex]

/-- Generation in parts, each of them with little to read. -/
def rehearses (m : Material) (helpers : List String) (holds : Material → Bool) : Bool :=
  (walkAll.ended? (m.bare helpers)).any fun walked =>
    ((ensureOutput >>= fun _ => declareInterface).ended? (walked.2.bare [])).any fun declared =>
      (declareUniforms.ended? (declared.2.bare [])).any fun last => holds last.2

/-- What can be rehearsed can be generated. -/
theorem exists_ok_of_rehearses (fresh : m.Fresh) {helpers : List String} {holds : Material → Bool}
    (rehearsed : m.rehearses helpers holds = true) :
    ∃ after last, generate m = .ok () after ∧ after.outline = last.outline ∧ holds last = true := by
  obtain ⟨_, walked, first, rehearsed⟩ := Action.exists_ok_of_any rehearsed
  obtain ⟨_, declared, second, rehearsed⟩ := Action.exists_ok_of_any rehearsed
  obtain ⟨_, last, third, holds⟩ := Action.exists_ok_of_any rehearsed
  have step {action : Action Unit} {m twin after : Material} {helpers : List String}
      (steady : Steady (· ≠ .pixel) (· ≠ .pixel) action fun _ => True)
      (alike : Twin (· ≠ .pixel) m twin) (ended : action (m.bare helpers) = .ok () after) :
      ∃ other, action twin = .ok () other ∧ Twin (· ≠ .pixel) after other := by
    have ends := (steady _ _ (alike.bare helpers)).2
    rw [ended] at ends
    exact ends.exists_second
  have early : Steady (· ≠ .pixel) (· ≠ .pixel) (ensureOutput >>= fun _ => declareInterface)
      fun _ => True :=
    Parallel.bind (steady_ensureOutput (by simp)) fun _ _ => steady_declareInterface
  obtain ⟨m₁, walks, alike⟩ := step steady_walkAll (.refl fresh.marked) first
  obtain ⟨m₂, declares, alike⟩ := step early alike second
  obtain ⟨m₃, places, alike⟩ := exists_ensurePosition alike
  obtain ⟨m₄, closes, alike⟩ := step steady_declareUniforms alike third
  have whole : generate m = (walkAll >>= fun _ => (ensureOutput >>= fun _ => declareInterface) >>=
      fun _ => ensurePosition >>= fun _ => declareUniforms >>= fun _ => perform .stamp) m := by
    rw [Action.result, run_generate fresh, Action.result]
    simp only [walkAll, complete, bind_assoc]
  refine ⟨m₄.apply .stamp, last, ?_, ?_, holds⟩
  · rw [whole]
    exact (Action.bind_of_ok walks (Action.bind_of_ok declares (Action.bind_of_ok places
      (Action.bind_of_ok closes rfl).1).1).1).1
  · rw [outline_apply_of_isText m₄ rfl, alike.outline]

end GlslMaterial.Material
