import GlslMaterial.Proofs.History.Completing
import GlslMaterial.Proofs.Twin.Emission

/-!
Materials are completed in parallel: the declarations of inputs and outputs and the values of the
outputs do not depend on the code of fractals, and uniforms are declared in stages that have code.
-/

set_option autoImplicit false

namespace GlslMaterial.Material

open GlslMaterial.Action (Parallel Yields)

variable {free : Stage → Prop} {m twin : Material}

/-- No stage may be used on one side only. -/
abbrev Alike : Material → Material → Prop :=
  Twin fun _ => False

namespace Twin

variable (alike : Twin free m twin)

include alike

theorem inputs : m.inputs = twin.inputs :=
  (congrArg Material.inputs alike.outline :)

theorem outputs : m.outputs = twin.outputs :=
  (congrArg Material.outputs alike.outline :)

theorem inputsAt (rate : Rate) : m.inputsAt rate = twin.inputsAt rate := by
  rw [Material.inputsAt, alike.inputs, Material.inputsAt]

theorem outputsAt (rate : Rate) : m.outputsAt rate = twin.outputsAt rate := by
  rw [Material.outputsAt, alike.outputs, Material.outputsAt]

theorem inputLines (stage : Stage) : m.inputLines stage = twin.inputLines stage := by
  rw [Material.inputLines, alike.inputsAt, Material.inputLines]

theorem outputNode? (id : TraitId) (limit : Rate) :
    m.outputNode? id limit = twin.outputNode? id limit := by
  have same (m : Material) : m.outline.outputNode? id limit = m.outputNode? id limit := by
    simp only [Material.outputNode?, subtree_outline, node_outline, Node.outline]
  rw [← same, alike.outline, same]

theorem outputInput? (id : TraitId) (limit : Rate) :
    m.outputInput? id limit = twin.outputInput? id limit := by
  simp only [Material.outputInput?, alike.inputsAt]

theorem outputSource? (id : TraitId) (stage : Stage) :
    m.outputSource? id stage = twin.outputSource? id stage := by
  rw [Material.outputSource?, alike.outputNode?, alike.outputInput?, Material.outputSource?]

end Twin

theorem Twin.lacksOutput (alike : Twin free m twin) (pixel : ¬ free .pixel) :
    m.lacksOutput = twin.lacksOutput := by
  have used : m.Uses .pixel ↔ twin.Uses .pixel := (alike.used .pixel).resolve_left pixel
  have empty : (m.source .pixel).isEmpty = (twin.source .pixel).isEmpty :=
    Bool.eq_iff_iff.2 (by simpa [Uses] using not_congr used)
  rw [Material.lacksOutput, alike.outputs, empty, alike.outputsAt, Material.lacksOutput]

theorem steady_ensureOutput (pixel : ¬ free .pixel) :
    Steady free free ensureOutput fun _ => True := by
  refine Parallel.read fun m twin alike => ?_
  rw [alike.lacksOutput pixel]
  split
  · exact Parallel.discard (steady_outputFor _ _ false)
  · exact Parallel.done

theorem steady_declareInputs (stage : Stage) :
    Steady free free (declareInputs stage) fun _ => True := by
  refine Parallel.read fun m twin alike => ?_
  rw [alike.inputLines]
  refine Parallel.bind (Parallel.ofExcept fun _ _ => trivial) fun lines _ => ?_
  exact Parallel.forM fun line _ =>
    Emission.parallel_of_open (parallel_commit (by cases stage <;> decide) line)

theorem steady_outputValue (stage : Stage) (b : Binding) :
    Steady free free (outputValue stage b) fun _ => True := by
  refine Parallel.read fun m twin alike => ?_
  rw [alike.outputSource?]
  split
  · exact Parallel.ofExcept fun _ _ => trivial
  · exact Parallel.bind (parallel_perform _) fun _ _ => Parallel.ofExcept fun _ _ => trivial

theorem steady_declareOutputs (stage : Stage) :
    Steady free free (declareOutputs stage) fun _ => True := by
  refine Parallel.read fun m twin alike => ?_
  rw [alike.outputsAt]
  refine Parallel.forM fun ⟨b, location⟩ _ => ?_
  refine Parallel.bind (Parallel.ofExcept fun _ _ => trivial) fun line _ => ?_
  refine Parallel.bind (Emission.parallel_of_open
    (parallel_commit (by cases stage <;> decide) line)) fun _ _ => ?_
  split
  · exact Parallel.done
  · exact Parallel.bind (steady_outputValue stage b) fun value _ =>
      Emission.parallel_of_open (parallel_assign stage b.name value)

theorem steady_declareInterface :
    Steady free free declareInterface fun _ => True :=
  Parallel.forM fun stage _ => Parallel.bind (steady_declareInputs stage) fun _ _ =>
    steady_declareOutputs stage

theorem parallel_ensurePosition {before : Material → Material → Prop}
    (alike : ∀ m twin, before m twin → Twin free m twin)
    (agree : ∀ m twin, before m twin →
      (m.source .vertex).mentions "gl_Position" = (twin.source .vertex).mentions "gl_Position") :
    Parallel before (Twin free) ensurePosition ensurePosition fun _ => True := by
  refine Parallel.read fun m twin related => ?_
  refine Parallel.of_before alike ?_
  rw [agree m twin related]
  split
  · exact Parallel.done
  · exact Emission.parallel_of_open (parallel_commit (by decide) _)

theorem exists_declared (marked : m.Marked) (names : List String) (declaration : String)
    (stage : Stage) :
    ∃ events, (do
        if names.any ((← read).source stage).mentions then
          commit stage .uniform declaration : Action Unit).Yields m () events ∧
      shared events = [] ∧ (m.replay events).outline = m.outline ∧
      ∀ other, (m.replay events).Uses other ↔ m.Uses other := by
  by_cases mentioned : names.any (m.source stage).mentions = true
  · obtain ⟨name, -, here⟩ := List.any_eq_true.1 mentioned
    have uses := uses_of_mentions here
    let events : List Event := [.start stage, .write stage .uniform declaration]
    have texts : ∀ event ∈ events, event.isTextOf stage :=
      List.forall_mem_cons.2 ⟨Event.isTextOf_start stage,
        List.forall_mem_singleton.2 (.of_idle rfl fun _ => rfl)⟩
    refine ⟨events, ?_, rfl, outline_replay_text texts, fun other => ?_⟩
    · show Yields _ m () ([] ++ events)
      refine Yields.bind .read ?_
      rw [replay_nil, if_pos mentioned]
      exact writing_yields_of_marked marked (by cases stage <;> decide) _
    · by_cases same : other = stage
      · subst same
        exact iff_of_true (uses.replay events) uses
      · exact uses_replay_text texts same
  · refine ⟨[] ++ [], Yields.bind .read ?_, rfl, rfl, fun _ => Iff.rfl⟩
    rw [replay_nil, if_neg mentioned]
    exact .pure ()

theorem steady_declareWhereMentioned (names : List String) (declaration : String) :
    Steady free free (declareWhereMentioned names declaration) fun _ => True := by
  refine Parallel.forM fun stage _ m twin alike => ?_
  obtain ⟨events, yields, quiet, outline, used⟩ :=
    exists_declared alike.marked.1 names declaration stage
  obtain ⟨others, again, silent, sketch, still⟩ :=
    exists_declared alike.marked.2 names declaration stage
  rw [yields.events, again.events, yields.result, again.result]
  refine ⟨quiet.trans silent.symm, .ok trivial ?_⟩
  refine ⟨outline.trans (alike.outline.trans sketch.symm),
    ⟨alike.marked.1.replay events, alike.marked.2.replay others⟩, fun other => ?_⟩
  have both := alike.used other
  rw [← used other, ← still other] at both
  exact both

theorem steady_declareUniforms : Steady free free declareUniforms fun _ => True := by
  have block (rate : UniformRate) : Steady free free (declareBlock rate) fun _ => True := by
    refine Parallel.read fun m twin alike => ?_
    rw [← alike.inputsAt]
    dsimp only
    split
    · exact Parallel.done
    · exact Parallel.bind (Parallel.ofExcept fun _ _ => trivial) fun _ _ =>
        steady_declareWhereMentioned _ _
  refine Parallel.bind (Parallel.forM fun rate _ => block rate) fun _ _ => ?_
  refine Parallel.read fun m twin alike => ?_
  rw [← alike.inputsAt]
  exact Parallel.forM fun b _ => steady_declareWhereMentioned [b.name] _

end GlslMaterial.Material
