import GlslMaterial.Material.Completion
import GlslMaterial.Proofs.History.Emission

/-!
Completion keeps to the law, and what it writes at the interface markers of a stage are the
declarations of the inputs and outputs that the stage has in the end.
-/

set_option autoImplicit false

namespace GlslMaterial

/-- What was written at a marker of a stage, in order. -/
def linesAt (stage : Stage) (marker : Marker) (events : List Event) : List String :=
  events.filterMap fun
    | .write written place code => if written = stage ∧ place = marker then some code else none
    | _ => none

@[simp] theorem linesAt_append (stage : Stage) (marker : Marker) (first second : List Event) :
    linesAt stage marker (first ++ second) =
      linesAt stage marker first ++ linesAt stage marker second :=
  List.filterMap_append

theorem Written.linesAt_eq_nil {base : Material} {past : List Event}
    (written : Written false base past) (stage : Stage) {marker : Marker}
    (about : marker.isInterface = true) : linesAt stage marker past = [] := by
  apply List.filterMap_eq_nil_iff.2
  intro event member
  obtain ⟨before, after, rfl⟩ := List.append_of_mem member
  have allowed := written.allowed
  cases event with
  | write other place code =>
    rcases allowed with impossible | plain
    · simp at impossible
    · have different : place ≠ marker := by
        rintro rfl
        simp [about] at plain
      simp [different]
  | _ => rfl

namespace Material

open GlslMaterial.Action (Meets)

/-- From one history to a later one the tables stay, and these lines are written at the interface
markers. -/
structure Writes (base : Material) (past later : List Event)
    (lines : Stage → Marker → List String) : Prop where
  inputs : (base.replay later).inputs = (base.replay past).inputs
  outputs : (base.replay later).outputs = (base.replay past).outputs
  written : ∀ stage marker, marker.isInterface = true →
    linesAt stage marker later = linesAt stage marker past ++ lines stage marker

def noLines : Stage → Marker → List String :=
  fun _ _ => []

def onlyAt (stage : Stage) (marker : Marker) (lines : List String) : Stage → Marker → List String :=
  fun other place => if stage = other ∧ marker = place then lines else []

namespace Writes

variable {base : Material} {past middle later : List Event}

theorem refl : Writes base past past noLines :=
  ⟨rfl, rfl, fun _ _ _ => by simp [noLines]⟩

theorem trans {first second : Stage → Marker → List String} (before : Writes base past middle first)
    (after : Writes base middle later second) :
    Writes base past later fun stage marker => first stage marker ++ second stage marker where
  inputs := after.inputs.trans before.inputs
  outputs := after.outputs.trans before.outputs
  written stage marker about := by
    rw [after.written stage marker about, before.written stage marker about, List.append_assoc]

theorem trans_none {lines : Stage → Marker → List String} (before : Writes base past middle lines)
    (after : Writes base middle later noLines) : Writes base past later lines := by
  simpa [noLines] using before.trans after

theorem none_trans {lines : Stage → Marker → List String} (before : Writes base past middle noLines)
    (after : Writes base middle later lines) : Writes base past later lines := by
  simpa [noLines] using before.trans after

theorem snoc (base : Material) (past : List Event) (event : Event)
    (other : event.isInterface = false) :
    Writes base past (past ++ [event]) fun stage marker => linesAt stage marker [event] where
  inputs := by simpa using ((base.replay past).apply_interface other).1
  outputs := by simpa using ((base.replay past).apply_interface other).2.1
  written stage marker _ := linesAt_append stage marker past [event]

theorem snoc_quiet (base : Material) (past : List Event) (event : Event)
    (other : event.isInterface = false)
    (silent : ∀ stage marker, linesAt stage marker [event] = []) :
    Writes base past (past ++ [event]) noLines := by
  have lines : (fun stage marker => linesAt stage marker [event]) = noLines := by
    funext stage marker
    exact silent stage marker
  exact lines ▸ snoc base past event other

end Writes

variable {base : Material} {past : List Event}

theorem warn_quiet (warning : Warning) :
    Meets (Legal true) base past (warn warning) fun _ later => Writes base past later noLines :=
  Meets.perform trivial (.snoc_quiet base past _ rfl fun _ _ => rfl)

theorem commit_onlyAt (stage : Stage) (marker : Marker) (code : String) :
    Meets (Legal true) base past (commit stage marker code) fun _ later =>
      Writes base past later (onlyAt stage marker [code]) := by
  apply Meets.writing trivial (.inl rfl)
  have line : (fun other place => linesAt other place [.write stage marker code]) =
      onlyAt stage marker [code] := by
    funext other place
    by_cases here : stage = other ∧ marker = place <;> simp [linesAt, onlyAt, here]
  have start := Writes.snoc_quiet base past (.start stage) rfl fun _ _ => rfl
  have written := Writes.snoc base (past ++ [.start stage]) (.write stage marker code) rfl
  exact start.none_trans (line ▸ written)

theorem commit_quiet (stage : Stage) {marker : Marker} (code : String)
    (plain : marker.isInterface = false) :
    Meets (Legal true) base past (commit stage marker code) fun _ later =>
      Writes base past later noLines := by
  apply (commit_onlyAt stage marker code).mono
  intro _ later _ writes
  refine ⟨writes.inputs, writes.outputs, fun other place about => ?_⟩
  rw [writes.written other place about]
  have elsewhere : marker ≠ place := by
    rintro rfl
    simp [about] at plain
  simp [onlyAt, noLines, elsewhere]

theorem assign_quiet (stage : Stage) {output : String} (value : String) {key : Trait}
    (bound : Bound (base.replay past).outputs (.stage stage) key output) :
    Meets (Legal true) base past (assign stage output value) fun _ later =>
      Writes base past later noLines := by
  have start := Writes.snoc_quiet base past (.start stage) rfl fun _ _ => rfl
  apply Meets.writing trivial ⟨key, start.outputs ▸ bound⟩
  exact start.trans_none (.snoc_quiet base _ _ rfl fun _ _ => rfl)

theorem forM_onlyAt {α : Type} {step : α → Action Unit} {line : α → Except Failure String}
    (stage : Stage) (marker : Marker) {outputs : List Binding} {items : List α}
    (each : ∀ a ∈ items, ∀ past, (base.replay past).outputs = outputs →
      Meets (Legal true) base past (step a) fun _ later =>
        ∃ text, line a = .ok text ∧ Writes base past later (onlyAt stage marker [text]))
    (start : (base.replay past).outputs = outputs) :
    Meets (Legal true) base past (items.forM step) fun _ later =>
      ∃ lines, items.mapM line = .ok lines ∧
        Writes base past later (onlyAt stage marker lines) := by
  induction items generalizing past with
  | nil =>
    apply Meets.pure
    refine ⟨[], rfl, Writes.refl.inputs, Writes.refl.outputs, fun other place about => ?_⟩
    simp [onlyAt]
  | cons a items ih =>
    show Meets (Legal true) base past (step a >>= fun _ => items.forM step) _
    apply Meets.bind
    apply (each a List.mem_cons_self past start).mono
    rintro _ middle _ ⟨text, first, writes⟩
    apply (ih (fun a member => each a (List.mem_cons_of_mem _ member))
      (writes.outputs.trans start)).mono
    rintro _ later _ ⟨lines, rest, more⟩
    refine ⟨text :: lines, ?_, ?_⟩
    · rw [List.mapM_cons, first, rest]
      rfl
    · have joined : (fun other place =>
          onlyAt stage marker [text] other place ++ onlyAt stage marker lines other place) =
          onlyAt stage marker (text :: lines) := by
        funext other place
        by_cases here : stage = other ∧ marker = place <;> simp [onlyAt, here]
      exact joined ▸ writes.trans more

def outputLines (m : Material) (stage : Stage) : Except Failure (List String) :=
  (located (m.outputsAt (.stage stage))).mapM fun (b, location) => b.declaration "out" location

theorem declareInputs_onlyAt (stage : Stage) :
    Meets (Legal true) base past (declareInputs stage) fun _ later =>
      ∃ lines, (base.replay past).inputLines stage = .ok lines ∧
        Writes base past later (onlyAt stage .input lines) := by
  apply Meets.bind
  apply Meets.read
  apply Meets.bind
  apply Meets.ofExcept
  intro lines made
  have copied : (lines.mapM fun line => (.ok line : Except Failure String)) = .ok lines := by
    have copy := List.mapM_pure (m := Except Failure) (f := id) (l := lines)
    rw [List.map_id] at copy
    exact copy
  have each (line : String) (later : List Event) :
      Meets (Legal true) base later (commit stage .input line) fun _ last =>
        ∃ text, (.ok line : Except Failure String) = .ok text ∧
          Writes base later last (onlyAt stage .input [text]) :=
    (commit_onlyAt stage .input line).mono fun _ _ _ writes => ⟨line, rfl, writes⟩
  apply (forM_onlyAt stage .input (fun line _ later _ => each line later) rfl).mono
  rintro _ later _ ⟨written, same, writes⟩
  obtain rfl : lines = written := Except.ok.inj (copied.symm.trans same)
  exact ⟨lines, made, writes⟩

theorem outputValue_quiet (stage : Stage) (b : Binding) :
    Meets (Legal true) base past (outputValue stage b) fun _ later =>
      Writes base past later noLines := by
  apply Meets.bind
  apply Meets.read
  split
  · exact Meets.ofExcept fun _ _ => .refl
  · apply Meets.bind
    apply (warn_quiet _).mono
    intro _ later _ quiet
    exact Meets.ofExcept fun _ _ => quiet

theorem declareOutput_onlyAt (stage : Stage) {b : Binding} (location : Nat)
    (member : b ∈ (base.replay past).outputs) (here : b.rate = .stage stage) :
    Meets (Legal true) base past (declareOutput stage b location) fun _ later =>
      ∃ line, b.declaration "out" location = .ok line ∧
        Writes base past later (onlyAt stage .output [line]) := by
  apply Meets.bind
  apply Meets.ofExcept
  intro line made
  apply Meets.bind
  apply (commit_onlyAt stage .output line).mono
  intro _ middle _ writes
  split
  · exact Meets.pure ⟨line, made, writes⟩
  · apply Meets.bind
    apply (outputValue_quiet stage b).mono
    intro value valued _ quiet
    have there : b ∈ (base.replay valued).outputs := by
      rw [quiet.outputs, writes.outputs]
      exact member
    apply (assign_quiet stage value ⟨b, there, here, rfl, b.key.agrees_self⟩).mono
    intro _ later _ last
    exact ⟨line, made, (writes.trans_none quiet).trans_none last⟩

theorem declareOutputs_onlyAt (stage : Stage) :
    Meets (Legal true) base past (declareOutputs stage) fun _ later =>
      ∃ lines, (base.replay past).outputLines stage = .ok lines ∧
        Writes base past later (onlyAt stage .output lines) := by
  apply Meets.bind
  apply Meets.read
  refine forM_onlyAt stage .output ?_ rfl
  rintro ⟨b, location⟩ member later same
  obtain ⟨listed, here⟩ := mem_filter_rate.1 (List.of_mem_zip member).1
  exact declareOutput_onlyAt stage location (same ▸ listed) here

theorem inputLines_congr {m other : Material} (same : m.inputs = other.inputs) (stage : Stage) :
    m.inputLines stage = other.inputLines stage := by
  rw [inputLines, inputLines, inputsAt, inputsAt, same]

theorem outputLines_congr {m other : Material} (same : m.outputs = other.outputs) (stage : Stage) :
    m.outputLines stage = other.outputLines stage := by
  rw [outputLines, outputLines, outputsAt, outputsAt, same]

/-- The lines at the interface markers of some stages are their declarations, and other stages get
none. -/
structure Declarations (m : Material) (stages : List Stage)
    (lines : Stage → Marker → List String) : Prop where
  inputs : ∀ stage ∈ stages, m.inputLines stage = .ok (lines stage .input)
  outputs : ∀ stage ∈ stages, m.outputLines stage = .ok (lines stage .output)
  elsewhere : ∀ stage, stage ∉ stages → ∀ marker, lines stage marker = []

theorem declareAll {stages : List Stage} (once : stages.Nodup) :
    Meets (Legal true) base past
      (stages.forM fun stage => do
        declareInputs stage
        declareOutputs stage)
      fun _ later => ∃ lines, Declarations (base.replay past) stages lines ∧
        Writes base past later lines := by
  induction stages generalizing past with
  | nil =>
    apply Meets.pure
    exact ⟨noLines, ⟨by simp, by simp, fun _ _ _ => rfl⟩, .refl⟩
  | cons stage stages ih =>
    apply Meets.bind
    apply Meets.bind
    apply (declareInputs_onlyAt stage).mono
    rintro _ entered _ ⟨ins, inputs, first⟩
    apply (declareOutputs_onlyAt stage).mono
    rintro _ left _ ⟨outs, outputs, second⟩
    obtain ⟨fresh, rest⟩ := List.nodup_cons.1 once
    apply (ih rest).mono
    rintro _ later _ ⟨lines, declared, third⟩
    have both := first.trans second
    refine ⟨_, ?_, both.trans third⟩
    have ours (marker : Marker) : lines stage marker = [] := declared.elsewhere stage fresh marker
    have theirs {other : Stage} (different : stage ≠ other) (marker : Marker) :
        onlyAt stage .input ins other marker ++ onlyAt stage .output outs other marker = [] := by
      simp [onlyAt, different]
    constructor
    · intro other member
      rcases List.mem_cons.1 member with rfl | later
      · rw [ours]
        simpa [onlyAt] using inputs
      · have different : stage ≠ other := fun same => fresh (same ▸ later)
        rw [theirs different, List.nil_append, ← declared.inputs other later]
        exact inputLines_congr both.inputs.symm other
    · intro other member
      rcases List.mem_cons.1 member with rfl | later
      · rw [ours]
        simpa [onlyAt] using (outputLines_congr first.outputs other).symm.trans outputs
      · have different : stage ≠ other := fun same => fresh (same ▸ later)
        rw [theirs different, List.nil_append, ← declared.outputs other later]
        exact outputLines_congr both.outputs.symm other
    · intro other absent marker
      have different : stage ≠ other := fun same => absent (same ▸ List.mem_cons_self)
      have outside : other ∉ stages := fun member => absent (List.mem_cons_of_mem _ member)
      rw [theirs different, declared.elsewhere other outside]
      rfl

theorem forM_quiet {α : Type} {step : α → Action Unit} {items : List α}
    (each : ∀ a ∈ items, ∀ past, Meets (Legal true) base past (step a) fun _ later =>
      Writes base past later noLines) :
    Meets (Legal true) base past (items.forM step) fun _ later =>
      Writes base past later noLines := by
  refine Meets.forM ?_ Writes.refl
  intro a member middle before
  exact (each a member middle).mono fun _ _ _ after => before.trans_none after

theorem declareWhereMentioned_quiet (names : List String) (declaration : String) :
    Meets (Legal true) base past (declareWhereMentioned names declaration) fun _ later =>
      Writes base past later noLines := by
  apply forM_quiet
  intro stage _ past
  apply Meets.bind
  apply Meets.read
  split
  · exact commit_quiet stage declaration rfl
  · exact Meets.pure .refl

theorem declareUniforms_quiet :
    Meets (Legal true) base past declareUniforms fun _ later =>
      Writes base past later noLines := by
  have block (rate : UniformRate) (past : List Event) :
      Meets (Legal true) base past (declareBlock rate) fun _ later =>
        Writes base past later noLines := by
    apply Meets.bind
    apply Meets.read
    dsimp only
    split
    · exact Meets.pure .refl
    · apply Meets.bind
      apply Meets.ofExcept
      intro declaration _
      exact declareWhereMentioned_quiet _ declaration
  apply Meets.bind
  apply (forM_quiet fun rate _ past => block rate past).mono
  intro _ middle _ blocks
  apply Meets.bind
  apply Meets.read
  apply (forM_quiet fun b _ past => declareWhereMentioned_quiet [b.name] _).mono
  intro _ later _ samplers
  exact blocks.trans_none samplers

theorem ensureOutput_lines :
    Meets (Legal true) base past ensureOutput fun _ later =>
      ∀ stage marker, linesAt stage marker later = linesAt stage marker past := by
  apply Meets.bind
  apply Meets.read
  split
  · apply Meets.map
    apply Meets.outputFor rfl
    intro _ _ _ stage marker
    simp [linesAt]
  · exact Meets.pure fun _ _ => rfl

theorem ensurePosition_quiet :
    Meets (Legal true) base past ensurePosition fun _ later =>
      Writes base past later noLines := by
  apply Meets.bind
  apply Meets.read
  split
  · exact Meets.pure .refl
  · exact commit_quiet .vertex _ rfl

/-- What completion writes at the interface markers are the declarations of the tables that it
leaves. -/
theorem complete_declares :
    Meets (Legal true) base past complete fun _ later =>
      ∃ lines, Declarations (base.replay later) Stage.all lines ∧
        ∀ stage marker, marker.isInterface = true →
          linesAt stage marker later = linesAt stage marker past ++ lines stage marker := by
  apply Meets.bind
  apply ensureOutput_lines.mono
  intro _ start _ unwritten
  apply Meets.bind
  apply (declareAll (by decide)).mono
  rintro _ _ _ ⟨lines, declared, writes⟩
  apply Meets.bind
  apply ensurePosition_quiet.mono
  intro _ _ _ position
  apply Meets.bind
  apply declareUniforms_quiet.mono
  intro _ uniform _ blocks
  have stamp := Writes.snoc_quiet base uniform .stamp rfl fun _ _ => rfl
  have all := ((writes.trans_none position).trans_none blocks).trans_none stamp
  apply Meets.perform trivial
  refine ⟨lines, ⟨fun stage member => ?_, fun stage member => ?_, declared.elsewhere⟩, ?_⟩
  · exact (inputLines_congr all.inputs stage).trans (declared.inputs stage member)
  · exact (outputLines_congr all.outputs stage).trans (declared.outputs stage member)
  · intro stage marker about
    rw [all.written stage marker about, unwritten]

end Material

end GlslMaterial
