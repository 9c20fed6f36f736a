import GlslMaterial.Proofs.History.Generation
import GlslMaterial.Proofs.History.Once
import GlslMaterial.Proofs.History.Version

/-!
A material that has been written to its end is a complete set of shaders: its stages have their
version, the vertex stage gives the position, the pixel stage puts something out, and whatever the
stages take in and put out is declared and given its value once.
-/

set_option autoImplicit false

namespace GlslMaterial.Material

open GlslMaterial.Action (Meets Keeps perform)
open Emission (closed tidy_generateNode spares_ofConstruct)

variable {base after : Material}

/-- The walk through all nodes, with which the writing of a material begins. -/
def walkAll : Action Unit := do
  perform .begin
  Emission.generateNode root

/-- What happens while the nodes of a material are written. -/
def walkEvents (m : Material) : List Event :=
  walkAll.events m

/-- What happens while a material is completed, after its nodes have been written. -/
def completionEvents (m : Material) : List Event :=
  complete.events (m.replay (walkEvents m))

theorem tidy_walkAll (fresh : base.Fresh) (spares : base.Spares intrusive) :
    Tidy base closed closed walkAll fun _ => True :=
  Keeps.bind (tidy_perform (fun _ => trivial) rfl) fun _ _ => tidy_generateNode fresh spares root

/-- The history of a material that has been written to its end: the walk, the preparation for the
version, both in order, and the version. -/
structure Closing (base after : Material) (prepared : List Event) : Prop where
  spares : base.Spares ["#version"]
  completion : completionEvents base = prepared ++ [.stamp]
  events : generate.events base = walkEvents base ++ prepared ++ [.stamp]
  stamped : after = (base.replay (walkEvents base ++ prepared)).stamped
  walked : InOrder base (walkEvents base)
  orderly : InOrder base (walkEvents base ++ prepared)
  ready : Prepared base (walkEvents base) (walkEvents base ++ prepared)

theorem exists_closing (fresh : base.Fresh) (spares : base.Spares reserved)
    (ended : generate base = .ok () after) : ∃ prepared, Closing base after prepared := by
  have same : generate.run base = (walkAll >>= fun _ => complete).run base := run_generate fresh
  have whole : (walkAll >>= fun _ => complete) base = .ok () after := by
    rw [Action.result, ← same]
    exact ended
  obtain ⟨_, middle, walked, completed, events⟩ := Action.ok_of_bind whole
  obtain rfl : middle = base.replay (walkEvents base) := Action.material_of_ok walked
  rw [complete_eq] at completed
  obtain ⟨_, last, prepared, stamped, completion⟩ := Action.ok_of_bind completed
  rw [← complete_eq] at completion
  have reached := Action.material_of_ok prepared
  rw [← replay_append] at reached
  -- The walk and the preparation keep to the order of writing, each from where the other ended.
  obtain ⟨orderly, settles⟩ := tidy_walkAll fresh (spares.mono (by decide)) []
    (fresh.settled closed) .nil
  have settled := (settles () _ walked).2
  obtain ⟨later, prepares⟩ := meets_prepare fresh settled orderly
  have last : completionEvents base = prepare.events (base.replay (walkEvents base)) ++ [.stamp] :=
    completion
  refine ⟨prepare.events (base.replay (walkEvents base)), ?_⟩
  exact {
    spares := spares.mono (by decide)
    completion := last
    events := by
      rw [List.append_assoc, ← last, Action.events, same]
      exact events
    stamped := by
      rw [← reached]
      exact (Action.material_of_ok stamped).trans rfl
    walked := orderly
    orderly := later
    ready := prepares () _ prepared }

namespace Closing

variable {prepared : List Event}

/-- The version adds nothing to the sections. -/
theorem committed_eq (closing : Closing base after prepared) (stage : Stage) (marker : Marker) :
    committed stage marker (generate.events base) =
      committed stage marker (walkEvents base ++ prepared) := by
  rw [closing.events]
  exact committed_snoc_none rfl _

theorem sectionsOf_eq (closing : Closing base after prepared) (stage : Stage) :
    sectionsOf stage (generate.events base) = sectionsOf stage (walkEvents base ++ prepared) := by
  rw [closing.events]
  exact sectionsOf_snoc_none (fun _ => rfl) _

theorem uses_iff (closing : Closing base after prepared) (stage : Stage) :
    after.Uses stage ↔ (base.replay (walkEvents base ++ prepared)).Uses stage := by
  have same := uses_apply_iff (base.replay (walkEvents base ++ prepared)) .stamp stage
  rw [closing.stamped]
  simpa [Event.opens, Material.apply] using same

theorem phases (closing : Closing base after prepared) :
    generate.events base = walkEvents base ++ completionEvents base := by
  rw [closing.events, closing.completion, List.append_assoc]

theorem stageCode_eq (closing : Closing base after prepared) (fresh : base.Fresh) {stage : Stage}
    (uses : after.Uses stage) :
    (after.stageCode stage).toList = (Source.versionLine after.version).toList ++
      '\n' :: Text.terminated ((sectionsOf stage (generate.events base)).finishedLines stage) := by
  have used := (closing.uses_iff stage).1 uses
  rw [closing.sectionsOf_eq, closing.stamped,
    closing.orderly.stageCode_stamped fresh closing.spares used,
    Text.terminated_cons]
  simp [Material.stamped]

theorem eq_nil_of_version (closing : Closing base after prepared) (fresh : base.Fresh)
    {stage : Stage} (uses : after.Uses stage) {before rest : List Char}
    (found : (after.stageCode stage).toList = before ++ "#version".toList ++ rest) :
    before = [] := by
  have used := (closing.uses_iff stage).1 uses
  have free := closing.orderly.version_notInfix_finishedLines fresh closing.spares used
  rw [← closing.sectionsOf_eq] at free
  rw [closing.stageCode_eq fresh uses] at found
  exact Source.eq_nil_of_versionLine free found

/-- A vertex stage without code could not give the position. -/
theorem uses_vertex (closing : Closing base after prepared) (fresh : base.Fresh) :
    after.Uses .vertex := by
  obtain ⟨value, line⟩ := closing.ready.positioned
  apply (closing.uses_iff .vertex).2
  apply (closing.orderly.faithful fresh .vertex).uses
  intro nothing
  rw [sectionsOf, nothing .position] at line
  simp at line

theorem exists_position (closing : Closing base after prepared) (fresh : base.Fresh) :
    ∃ pad value, (∀ c ∈ pad, c = ' ') ∧
      pad ++ (positionStatement value).toList ++ ['\n'] ∈
        Text.linesWithEnds (after.stageCode .vertex).toList := by
  obtain ⟨value, line⟩ := closing.ready.positioned
  have used := (closing.uses_iff .vertex).1 (closing.uses_vertex fresh)
  have place : Marker.position ∈ Stage.vertex.markers := by decide
  obtain ⟨pad, spaces, member⟩ := Sections.exists_mem_finishedLines place line
  have whole : Source.laid pad (positionStatement value).toList =
      pad ++ (positionStatement value).toList := by
    have ends : (positionStatement value).toList =
        "gl_Position = ".toList ++ value.toList ++ [';'] := by
      simp [positionStatement]
    rw [ends]
    exact Source.laid_concat pad _ (by decide)
  refine ⟨pad, value, spaces, ?_⟩
  rw [closing.stamped, closing.orderly.linesWithEnds_stamped fresh closing.spares used, ← whole]
  exact List.mem_map_of_mem (List.mem_cons_of_mem _ member)

/-- The one value of an output comes from the bridge that wired it or, if none did, from completion.
-/
theorem exists_value (closing : Closing base after prepared) (fresh : base.Fresh) {stage : Stage}
    {o : Binding} (member : o ∈ after.outputs) (here : o.rate = .stage stage) :
    ∃ value, assigned (walkEvents base ++ prepared) stage o.name = [value] ∧
      (o.wired = true → ∃ key, carriage stage key o.name value <:+: walkEvents base) ∧
      (o.wired = false → .assign stage o.name value ∈ completionEvents base) := by
  rw [closing.stamped] at member
  have atMost := closing.orderly.length_assigned_le stage o.name
  rw [assigned_append, List.length_append] at atMost
  cases wired : o.wired with
  | true =>
    have early := closing.ready.parted.early o member wired
    obtain ⟨other, key, value, there, given, carried⟩ :=
      closing.walked.assigned_of_wired fresh early wired
    obtain rfl : other = stage := Rate.stage.inj (there.symm.trans here)
    have nothing : assigned prepared other o.name = [] := by
      apply List.length_eq_zero_iff.1
      rw [given, List.length_singleton] at atMost
      omega
    refine ⟨value, ?_, fun _ => ⟨key, carried⟩, by simp⟩
    rw [assigned_append, given, nothing, List.append_nil]
  | false =>
    have nothing := closing.ready.parted.late o member wired stage here
    have something := closing.ready.valued o member stage here
    rw [assigned_append, nothing, List.nil_append] at something
    rw [nothing, List.length_nil, Nat.zero_add] at atMost
    obtain ⟨value, given⟩ : ∃ value, assigned prepared stage o.name = [value] := by
      apply List.length_eq_one_iff.1
      have filled := List.length_pos_iff.2 something
      omega
    refine ⟨value, ?_, by simp, fun _ => ?_⟩
    · rw [assigned_append, nothing, given, List.nil_append]
    · rw [closing.completion]
      apply List.mem_append_left
      exact mem_assigned_iff.1 (given ▸ List.mem_singleton_self value)

end Closing

/-- A complete set of shaders. -/
structure Complete (base after : Material) : Prop where
  /-- Nodes are written first, and what they leave out is completed. -/
  phases : generate.events base = walkEvents base ++ completionEvents base
  /-- The text of a stage is its version and then all that was committed to it. -/
  text : ∀ stage, after.Uses stage → (after.stageCode stage).toList =
    (Source.versionLine after.version).toList ++
      '\n' :: Text.terminated ((sectionsOf stage (generate.events base)).finishedLines stage)
  /-- The version stands nowhere else. -/
  version : ∀ stage, after.Uses stage → ∀ before rest,
    (after.stageCode stage).toList = before ++ "#version".toList ++ rest → before = []
  vertex : after.Uses .vertex
  position : ∃ pad value, (∀ c ∈ pad, c = ' ') ∧
    pad ++ (positionStatement value).toList ++ ['\n'] ∈
      Text.linesWithEnds (after.stageCode .vertex).toList
  pixel : after.Uses .pixel → ∃ o ∈ after.outputsAt (.stage .pixel),
    DeclaredOnce (generate.events base) .pixel .output "out" o
  inputs : ∀ stage, ∀ i ∈ after.inputsAt (.stage stage),
    DeclaredOnce (generate.events base) stage .input "in" i
  outputs : ∀ stage, ∀ o ∈ after.outputsAt (.stage stage),
    DeclaredOnce (generate.events base) stage .output "out" o
  /-- An output is given its value once, by the bridge that wired it or else by completion. -/
  values : ∀ stage, ∀ o ∈ after.outputsAt (.stage stage), ∃ value,
    (committed stage .colorize (generate.events base)).filter (isAssignmentTo o.name) =
        [assignment o.name value] ∧
      (o.wired = true → ∃ key, carriage stage key o.name value <:+: walkEvents base) ∧
      (o.wired = false → .assign stage o.name value ∈ completionEvents base)

/-- A material that has been written to its end is a complete set of shaders, provided that the code
of its fractals has no reserved word. -/
theorem generate_complete {c : Construct} {base after : Material}
    (clean : ∀ code ∈ c.fractalCodes, lacks reserved code = true) (built : ofConstruct c = .ok base)
    (ended : generate base = .ok () after) : Complete base after := by
  have fresh := fresh_ofConstruct built
  obtain ⟨prepared, closing⟩ :=
    exists_closing fresh (spares_ofConstruct built (fun _ => id) clean) ended
  obtain ⟨-, inputLines, outputLines⟩ := generate_declares fresh ended
  have spelled : after.Spelled := Action.material_of_ok ended ▸ fresh.spelled.replay _
  have formed : after.Formed := Action.material_of_ok ended ▸ fresh.formed.replay _
  have atInput : Marker.input ≠ .colorize := by decide
  have atOutput : Marker.output ≠ .colorize := by decide
  have declared (stage : Stage) := declaredOnce spelled formed
    (committed_eq_linesAt stage atInput _ ▸ inputLines stage)
    (committed_eq_linesAt stage atOutput _ ▸ outputLines stage)
  exact {
    phases := closing.phases
    text := fun _ uses => closing.stageCode_eq fresh uses
    version := fun _ uses _ _ found => closing.eq_nil_of_version fresh uses found
    vertex := closing.uses_vertex fresh
    position := closing.exists_position fresh
    pixel := by
      intro uses
      obtain ⟨o, member, here⟩ := closing.ready.produced ((closing.uses_iff .pixel).1 uses)
      have listed : o ∈ after.outputsAt (.stage .pixel) := by
        rw [closing.stamped]
        exact mem_filter_rate.2 ⟨member, here⟩
      exact ⟨o, listed, (declared .pixel).2 o listed⟩
    inputs := fun stage => (declared stage).1
    outputs := fun stage => (declared stage).2
    values := by
      intro stage o listed
      obtain ⟨member, here⟩ := mem_filter_rate.1 listed
      obtain ⟨value, given, bridged, completed⟩ := closing.exists_value fresh member here
      refine ⟨value, ?_, bridged, completed⟩
      rw [closing.committed_eq,
        closing.orderly.filter_isAssignmentTo fresh stage (spelled.output member), given]
      rfl }

/-- A fractal with code of its own, an output that is wired and one that is completed. -/
theorem generate_complete_fractal :
    ∃ c base after, c.fractalCodes = ["$WEIGHT * point.x"] ∧
      (∀ code ∈ c.fractalCodes, lacks reserved code = true) ∧ ofConstruct c = .ok base ∧
      generate base = .ok () after ∧
      after.outputs.map (fun o => (o.name, o.wired)) = [("outAim", true), ("outColor", false)] ∧
      Complete base after := by
  let c : Construct := ⟨.material, none, [], [],
    [⟨.fbm, none, [⟨.count, none, some (.number (.int 1))⟩,
        ⟨.code, none, some (.string "$WEIGHT * point.x")⟩], [], []⟩,
      ⟨.value, none, [⟨.rate, none, some (.string "Vertex")⟩, .ofId .aim], [], []⟩,
      ⟨.value, none, [.ofId .aim], [], []⟩]⟩
  have codes : c.fractalCodes = ["$WEIGHT * point.x"] := by decide +kernel
  have clean : ∀ code ∈ c.fractalCodes, lacks reserved code = true := by
    rw [codes]
    decide +kernel
  have evaluated : (ofConstruct c).toOption.any (fun base =>
      (generate.ended? base).any fun ended =>
        ended.2.outputs.map (fun o => (o.name, o.wired)) =
          [("outAim", true), ("outColor", false)]) = true := by
    decide +kernel
  obtain ⟨base, built, evaluated⟩ := exists_ok_of_any evaluated
  obtain ⟨_, after, ended, evaluated⟩ := Action.exists_ok_of_any evaluated
  exact ⟨c, base, after, codes, clean, built, ended, of_decide_eq_true evaluated,
    generate_complete clean built ended⟩

end GlslMaterial.Material
