import GlslMaterial.Proofs.History.Fresh
import GlslMaterial.Proofs.Source.Persistence

/-!
The sources of a material: which events change them, and that a stage that has been started stays in
use and has the markers of its template.
-/

set_option autoImplicit false

namespace GlslMaterial

/-- A source is empty, or has all markers of the template of its stage. -/
def Stage.Marks (stage : Stage) (s : Source) : Prop :=
  s.isEmpty = true ∨
    ∀ marker, (Source.ofTemplate stage).hasMarker marker = true → s.hasMarker marker = true

namespace Stage.Marks

variable {stage : Stage} {s : Source}

theorem insert (marks : stage.Marks s) (place : Marker) (code : String) :
    stage.Marks (s.insert place code) := by
  rcases marks with nothing | all
  · rw [Source.insert_of_isEmpty nothing]
    exact .inl nothing
  · exact .inr fun marker given => Source.hasMarker_insert (all marker given) place code

theorem define (marks : stage.Marks s) (text : String) : stage.Marks (s.define text) := by
  unfold Source.define
  split
  · exact marks
  · exact marks.insert _ _

theorem setVersion (marks : stage.Marks s) (version : Nat) :
    stage.Marks (s.setVersion version) := by
  unfold Source.setVersion
  split
  · exact marks
  · exact marks.insert _ _

end Stage.Marks

namespace Material

/-- All sources have their markers. -/
def Marked (m : Material) : Prop :=
  ∀ stage : Stage, stage.Marks (m.source stage)

variable {m : Material}

theorem source_setSource (m : Material) (stage other : Stage) (s : Source) :
    (m.setSource stage s).source other = if other = stage then s else m.source other := by
  unfold setSource source
  split
  · rename_i same
    rw [same]
    exact PerStage.get_set_self _ _ _
  · rename_i different
    exact PerStage.get_set_of_ne _ _ different

theorem Marked.setSource (marked : m.Marked) {stage : Stage} {s : Source}
    (marks : stage.Marks s) : (m.setSource stage s).Marked := by
  intro other
  rw [source_setSource]
  split
  · rename_i same
    exact same ▸ marks
  · exact marked other

theorem Marked.started (marked : m.Marked) (stage : Stage) : (m.started stage).Marked := by
  unfold Material.started
  split
  · exact marked.setSource (.inr fun _ given => given)
  · exact marked

theorem Marked.hasMarker_started (marked : m.Marked) {stage : Stage} {marker : Marker}
    (given : (Source.ofTemplate stage).hasMarker marker = true) :
    ((m.started stage).source stage).hasMarker marker = true := by
  unfold Material.started
  split
  · rw [source_setSource, if_pos rfl]
    exact given
  · rename_i filled
    rcases marked stage with nothing | all
    · exact absurd nothing filled
    · exact all marker given

theorem source_stamped (m : Material) (stage : Stage) :
    m.stamped.source stage =
      if (m.source stage).isEmpty then m.source stage
      else (m.source stage).setVersion m.version := by
  have stamps {stages : List Stage} (once : stages.Nodup) (sources : PerStage Source) :
      (stages.foldl (fun sources stage =>
        sources.set stage ((sources.get stage).setVersion m.version)) sources).get stage =
      if stage ∈ stages then (sources.get stage).setVersion m.version else sources.get stage := by
    induction stages generalizing sources with
    | nil => rfl
    | cons first stages ih =>
      obtain ⟨absent, rest⟩ := List.nodup_cons.1 once
      rw [List.foldl_cons, ih rest]
      by_cases same : stage = first
      · subst same
        simp [absent]
      · rw [PerStage.get_set_of_ne _ _ same]
        simp [same]
  have once : m.usedStages.Nodup := List.Pairwise.filter _ (show Stage.all.Nodup by decide)
  have used : stage ∈ m.usedStages ↔ (m.source stage).isEmpty = false := by
    simp [usedStages, stage.mem_all]
  show (m.usedStages.foldl _ m.sources).get stage = _
  rw [stamps once m.sources]
  by_cases empty : (m.source stage).isEmpty = true
  · rw [if_neg (by simp [used, empty]), if_pos empty]
    rfl
  · rw [if_pos (used.2 (by simpa using empty)), if_neg empty]
    rfl

theorem Marked.stamped (marked : m.Marked) : m.stamped.Marked := by
  intro stage
  rw [source_stamped]
  split
  · exact marked stage
  · exact (marked stage).setVersion m.version

end Material

/-- Whether an event is about the code of stages. -/
def Event.isCode : Event → Bool
  | .start _ | .write _ _ _ | .assign _ _ _ | .define _ _ | .stamp => true
  | _ => false

namespace Material

variable {m : Material}

theorem sources_apply (m : Material) {event : Event} (other : event.isCode = false) :
    (m.apply event).sources = m.sources := by
  cases event with
  | start | write | assign | define | stamp => simp [Event.isCode] at other
  | input | output | wire | link => rw [m.apply_tables rfl]
  | require stage name body =>
    simp only [apply, remembered]
    split <;> rfl
  | _ => rfl

/-- Markers stay whatever happens. -/
theorem Marked.apply (marked : m.Marked) (event : Event) : (m.apply event).Marked := by
  by_cases other : event.isCode = false
  · intro stage
    rw [source, m.sources_apply other]
    exact marked stage
  · cases event with
    | start stage => exact marked.started stage
    | write stage marker code => exact marked.setSource ((marked stage).insert marker code)
    | assign stage output value => exact marked.setSource ((marked stage).insert _ _)
    | define stage text =>
      have started := marked.started stage
      exact started.setSource ((started stage).define text)
    | stamp => exact marked.stamped
    | _ => simp [Event.isCode] at other

theorem Marked.replay (marked : m.Marked) (events : List Event) : (m.replay events).Marked :=
  replay_induction m events marked fun _ event marked => marked.apply event

/-- A stage has code. -/
def Uses (m : Material) (stage : Stage) : Prop :=
  (m.source stage).isEmpty = false

theorem uses_setSource_iff (m : Material) {other : Stage} {s : Source}
    (same : s.isEmpty = (m.source other).isEmpty) (stage : Stage) :
    (m.setSource other s).Uses stage ↔ m.Uses stage := by
  unfold Uses
  rw [source_setSource]
  split
  · rename_i here
    rw [same, here]
  · exact Iff.rfl

theorem uses_started_iff (m : Material) (other stage : Stage) :
    (m.started other).Uses stage ↔ m.Uses stage ∨ other = stage := by
  unfold Material.started Uses
  split
  · rename_i empty
    rw [source_setSource]
    by_cases here : stage = other
    · simp [here, Source.isEmpty_ofTemplate]
    · simp [here, Ne.symm here]
  · rename_i filled
    by_cases here : other = stage
    · simpa [here] using filled
    · simp [here]

theorem uses_started (m : Material) (stage : Stage) : (m.started stage).Uses stage :=
  (m.uses_started_iff stage stage).2 (.inr rfl)

theorem uses_replay_start (m : Material) (events : List Event) (stage : Stage) :
    (m.replay (events ++ [.start stage])).Uses stage := by
  rw [replay_append]
  exact uses_started _ stage

end Material

/-- Whether an event gives a stage its template. -/
def Event.opens (stage : Stage) : Event → Bool
  | .start other | .define other _ => other = stage
  | _ => false

namespace Material

variable {m : Material}

/-- A stage has code if it had some before or has just been given its template. -/
theorem uses_apply_iff (m : Material) (event : Event) (stage : Stage) :
    (m.apply event).Uses stage ↔ m.Uses stage ∨ event.opens stage = true := by
  by_cases quiet : event.isCode = false
  · have idle : event.opens stage = false := by cases event <;> simp_all [Event.isCode, Event.opens]
    unfold Uses source
    rw [m.sources_apply quiet]
    simp [idle]
  · cases event with
    | start other => simpa [Event.opens, Material.apply] using m.uses_started_iff other stage
    | write other marker code =>
      simpa [Event.opens, Material.apply, written] using
        m.uses_setSource_iff (Source.isEmpty_insert _ marker code) stage
    | assign other output value =>
      simpa [Event.opens, Material.apply, written] using
        m.uses_setSource_iff (Source.isEmpty_insert _ .colorize (assignment output value)) stage
    | define other text =>
      have same := Source.isEmpty_define ((m.started other).source other) text
      have defined := (m.started other).uses_setSource_iff same stage
      simpa [Event.opens, Material.apply, Material.define] using
        defined.trans (m.uses_started_iff other stage)
    | stamp =>
      have same : (m.stamped.source stage).isEmpty = (m.source stage).isEmpty := by
        rw [source_stamped]
        split
        · rfl
        · exact Source.isEmpty_setVersion _ _
      show (m.stamped.source stage).isEmpty = false ↔ _
      rw [same]
      simp [Event.opens, Uses]
    | _ => simp [Event.isCode] at quiet

theorem Uses.apply {stage : Stage} (uses : m.Uses stage) (event : Event) :
    (m.apply event).Uses stage :=
  (m.uses_apply_iff event stage).2 (.inl uses)

theorem Uses.replay {stage : Stage} (uses : m.Uses stage) (events : List Event) :
    (m.replay events).Uses stage :=
  replay_induction m events uses fun _ event uses => uses.apply event

theorem Fresh.marked (fresh : m.Fresh) : m.Marked := by
  intro stage
  rw [fresh.sources]
  exact .inl rfl

end Material

end GlslMaterial
