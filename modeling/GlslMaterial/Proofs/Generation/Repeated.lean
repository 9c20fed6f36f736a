import GlslMaterial.Proofs.Generation.Schedule
import GlslMaterial.Proofs.Generation.Uniforms

/-!
Generation that is asked for again. The first call does all the work. Every later call finds the
material begun, does nothing and succeeds, whether the first one has come to its end or not; the
material is finished exactly where the first call has succeeded.
-/

set_option autoImplicit false

namespace GlslMaterial

open GlslMaterial.Action (Keeps perform)

/-- A source that has not been started, or begins with the place of the version. -/
def Source.Headed (s : Source) : Prop :=
  s.isEmpty = true ∨ Marker.version.text.toList ++ ['\n'] <+: s.text

namespace Source.Headed

variable {s : Source}

theorem template (stage : Stage) : (ofTemplate stage).Headed := by
  obtain ⟨rest, cut, -⟩ := stage.exists_lines
  refine .inr ⟨Text.terminated rest, ?_⟩
  rw [ofTemplate, stage.template_toList, cut, Text.terminated_cons]
  exact (List.append_cons ..).symm

/-- No other marker stands in the first line. -/
theorem insert (headed : s.Headed) {place : Marker} (other : place ≠ .version) (code : String) :
    (s.insert place code).Headed := by
  have absent : Text.splitKeyword place.text.toList Marker.version.text.toList = none := by
    cases place with
    | version => exact absurd rfl other
    | _ => decide
  rcases headed with empty | ⟨rest, text⟩
  · rw [insert_of_isEmpty empty]
    exact .inl empty
  · right
    unfold Source.insert insert?
    split
    · exact ⟨rest, text⟩
    · rename_i before after found
      rw [← text, ← List.append_cons, Text.splitKeyword_append_newline place.text_ne_nil
        place.newline_notMem_text, absent] at found
      obtain ⟨⟨inner, _⟩, -, same⟩ := Option.map_eq_some_iff.1 found
      obtain ⟨rfl, rfl⟩ := Prod.mk.inj same
      have above := Text.isPrefix_dropWhileRight Marker.version.text.toList inner
      simp only [Option.getD_some, List.append_assoc]
      exact above.trans (List.prefix_append _ _)

theorem define (headed : s.Headed) (text : String) : (s.define text).Headed := by
  unfold Source.define
  split
  · exact headed
  · exact headed.insert (by decide) _

theorem isPrefix_setVersion (headed : s.Headed) (used : s.isEmpty = false)
    (unversioned : s.mentions "#version" = false) (version : Nat) :
    (versionLine version).toList ++ ['\n'] <+: (s.setVersion version).compiled.toList := by
  obtain ⟨rest, text⟩ := headed.resolve_left (by simp [used])
  have found : Text.splitKeyword Marker.version.text.toList s.text = some ([], '\n' :: rest) := by
    have first : Text.splitKeyword Marker.version.text.toList Marker.version.text.toList =
        some ([], []) := by decide
    rw [← text, ← List.append_cons, Text.splitKeyword_append_newline
      Marker.version.text_ne_nil Marker.version.newline_notMem_text, first]
    rfl
  have stamped : (s.setVersion version).text = (versionLine version).toList ++
      '\n' :: (Marker.version.text.toList ++ '\n' :: rest) := by
    have inserted : insertion [] (versionLine version).toList =
        (versionLine version).toList ++ ['\n'] := by
      rw [insertion_eq_terminated, codeLines_versionLine, List.map_singleton, laid_versionLine]
      simp
    simp only [setVersion, unversioned, Source.insert, insert?, found]
    show Text.dropWhileRight _ [] ++ insertion _ (versionLine version).toList ++ _ ++ _ ++ _ = _
    simp [Text.dropWhileRight, inserted]
  have kept : isMarkerLine ((versionLine version).toList ++ ['\n']) = false := by
    apply isMarkerLine_of_isPlain
    have plain := isPlainCode_versionLine version
    rw [isPlainCode, codeLines_versionLine] at plain
    simpa using plain
  rw [compiled, stamped, Text.linesWithEnds_append_newline (newline_notMem_versionLine version),
    List.filter_cons_of_pos (by simp [kept]), List.flatten_cons]
  simp

end Source.Headed

namespace Material

variable {m base after : Material}

/-- Nothing is put at the place of the version but the version, which has not been put there. -/
def Unversioned : Law
  | _, _, .write _ marker _ => marker ≠ .version
  | _, _, .stamp => False
  | _, _, _ => True

theorem lenient_unversioned (base : Material) : Lenient Unversioned base := by
  intro past event quiet
  cases event with
  | write => exact bne_iff_ne.1 quiet
  | stamp => cases quiet
  | _ => trivial

theorem headed_apply (headed : ∀ stage, (m.source stage).Headed) {past : List Event}
    {event : Event} (allowed : Unversioned base past event) (stage : Stage) :
    ((m.apply event).source stage).Headed := by
  have begun (other : Stage) : ∀ stage, ((m.started other).source stage).Headed := by
    intro stage
    unfold started
    split
    · rw [source_setSource]
      split
      · exact .template other
      · exact headed stage
    · exact headed stage
  by_cases quiet : event.isCode = false
  · rw [source, m.sources_apply quiet]
    exact headed stage
  · cases event with
    | start other => exact begun other stage
    | write other marker code =>
      rw [apply, written, source_setSource]
      split
      · exact (headed other).insert allowed code
      · exact headed stage
    | assign other output value =>
      rw [apply, written, source_setSource]
      split
      · exact (headed other).insert (by decide) _
      · exact headed stage
    | define other text =>
      rw [apply, Material.define, source_setSource]
      split
      · exact (begun other other).define text
      · exact begun other stage
    | stamp => exact allowed.elim
    | _ => simp [Event.isCode] at quiet

theorem Fresh.headed (fresh : base.Fresh) {past : List Event}
    (lawful : Lawful Unversioned base past) (stage : Stage) :
    ((base.replay past).source stage).Headed := by
  induction lawful generalizing stage with
  | nil => exact .inl (by rw [replay_nil, fresh.sources]; rfl)
  | snoc _ allowed ih =>
    rw [replay_append]
    exact headed_apply ih allowed stage

/-- What has been written when a material is ready for its version. -/
def unstamped (m : Material) : Material :=
  m.replay ((draft >>= fun _ => declareUniforms).events m)

theorem lawful_unstamped (base : Material) :
    Lawful Unversioned base ((draft >>= fun _ => declareUniforms).events base) := by
  have lenient := lenient_unversioned base
  have emits (n : NodeId) : Heeds Unversioned base (Emission.emit n (base.node n).config)
      fun _ => True := Emission.heeds_emit lenient
        ⟨fun _ _ _ _ _ => trivial, fun _ _ _ _ _ => trivial⟩
  have whole : Heeds Unversioned base (draft >>= fun _ => declareUniforms) fun _ => True := by
    have parts : (draft >>= fun _ => declareUniforms) =
        perform .begin >>= fun _ => Emission.generateNode root >>= fun _ => prepare := by
      simp only [draft, prepare, bind_assoc]
    rw [parts]
    exact Keeps.bind (heeds_perform lenient rfl) fun _ _ =>
      Keeps.bind (heeds_generateNode (fun _ _ => trivial) emits root) fun _ _ =>
        heeds_prepare lenient
  simpa using (whole [] trivial .nil).1

theorem exists_declared_of_mentioned {ds : List Declaration}
    (ended : ds.forM Declaration.declare m = .ok () after)
    (named : ∀ d ∈ ds, ∀ name ∈ d.names, name.toList ≠ [] ∧ '\n' ∉ name.toList)
    {d : Declaration} (member : d ∈ ds) {stage : Stage}
    (mentioned : d.names.any (m.source stage).mentions = true) :
    ∃ text, d.text = .ok text ∧
      text ∈ committed stage .uniform ((ds.forM Declaration.declare).events m) := by
  induction ds generalizing m with
  | nil => cases member
  | cons first ds ih =>
    obtain ⟨middle, here, rest, events⟩ := Action.ok_of_forM_cons ended
    obtain ⟨text, made, inserts⟩ := inserts_declare here
    obtain rfl := Action.material_of_ok here
    rw [events, committed_append, inserts.code]
    rcases List.mem_cons.1 member with rfl | later
    · exact ⟨text, made, by simp [mentioned]⟩
    · -- A declaration that is inserted takes away no name.
      have still : d.names.any
          ((m.replay (first.declare.events m)).source stage).mentions = true := by
        obtain ⟨name, listed, found⟩ := List.any_eq_true.1 mentioned
        obtain ⟨filled, newline⟩ := named d member name listed
        refine List.any_eq_true.2 ⟨name, listed, ?_⟩
        rw [inserts.source]
        split
        · exact Source.mentions_insert_of_mentions filled newline found _ _
        · exact found
      obtain ⟨other, told, inside⟩ :=
        ih rest (fun d listed => named d (List.mem_cons_of_mem _ listed)) later still
      exact ⟨other, told, List.mem_append_right _ inside⟩

/-- A material that is finished: the walk and the completion have come to their ends, so that every
node without a scene above it has been visited, and all that the stages take in and put out and the
uniforms that they mention are declared. Stages begin with their version, unless one is mentioned in
their code. -/
structure Finished (base after : Material) : Prop where
  completed : ∃ middle, walkAll base = .ok () middle ∧ complete middle = .ok () after
  processed : ∀ n, (after.node n).generated = true ↔ base.IsLive n
  inputs : ∀ stage, ∀ i ∈ after.inputsAt (.stage stage),
    DeclaredOnce (generate.events base) stage .input "in" i
  outputs : ∀ stage, ∀ o ∈ after.outputsAt (.stage stage),
    DeclaredOnce (generate.events base) stage .output "out" o
  uniforms : ∃ before, draft base = .ok () before ∧ before.inputs = after.inputs ∧
    ∀ d ∈ before.declarations, ∀ stage, d.names.any (before.source stage).mentions = true →
      ∃ text, d.text = .ok text ∧ text ∈ committed stage .uniform (generate.events base)
  version : ∀ stage, after.Uses stage →
    (base.unstamped.source stage).mentions "#version" = true ∨
      (Source.versionLine after.version).toList ++ ['\n'] <+: (after.stageCode stage).toList

theorem Finished.generate_eq_ok (finished : Finished base after) (fresh : base.Fresh) :
    generate base = .ok () after := by
  obtain ⟨middle, walked, completed⟩ := finished.completed
  have run : generate.run base = (walkAll >>= fun _ => complete).run base := run_generate fresh
  let next (_ : Unit) : Action Unit := complete
  obtain ⟨whole, -⟩ :=
    Action.bind_of_ok walked (show next () middle = .ok () after from completed)
  rw [Action.result, run]
  exact whole

/-- Where the first call succeeds the material is finished. -/
theorem finished_of_generate {c : Construct} (built : ofConstruct c = .ok base)
    (ended : generate base = .ok () after) : Finished base after := by
  have fresh := fresh_ofConstruct built
  have reached := Action.material_of_ok ended
  obtain ⟨before, middle, drafted, declared, final, events⟩ :=
    generate_eq_ok fresh.generated ended
  have draft_reached := Action.material_of_ok drafted
  obtain ⟨-, inputLines, outputLines⟩ := generate_declares fresh ended
  have spelled : after.Spelled := reached ▸ fresh.spelled.replay _
  have formed : after.Formed := reached ▸ fresh.formed.replay _
  have atInput : Marker.input ≠ .colorize := by decide
  have atOutput : Marker.output ≠ .colorize := by decide
  have interface (stage : Stage) := declaredOnce spelled formed
    (committed_eq_linesAt stage atInput _ ▸ inputLines stage)
    (committed_eq_linesAt stage atOutput _ ▸ outputLines stage)
  have reachable : Reachable (fun _ => True) before := by
    rw [draft_reached]
    exact (Reachable.built built).replay fun _ _ => trivial
  obtain ⟨whole, same⟩ := forM_declare_of_declareUniforms reachable.formed declared
  have ready : middle = base.unstamped := by
    let next (_ : Unit) : Action Unit := declareUniforms
    obtain ⟨result, -⟩ :=
      Action.bind_of_ok drafted (show next () before = .ok () middle from declared)
    exact Action.material_of_ok result
  exact {
    completed := by
      have run : generate.run base = (walkAll >>= fun _ => complete).run base := run_generate fresh
      rw [Action.result, run, ← Action.result] at ended
      obtain ⟨_, walked, walks, completes, -⟩ := Action.ok_of_bind ended
      exact ⟨walked, walks, completes⟩
    processed := generated_iff_isLive built ended
    inputs := fun stage => (interface stage).1
    outputs := fun stage => (interface stage).2
    uniforms := by
      obtain ⟨_, inserts, -⟩ := inserts_forM_declare whole
      refine ⟨before, drafted, ?_, fun d member stage mentioned => ?_⟩
      · rw [final, ← inserts.inputs, same, ← Action.material_of_ok declared]
        rfl
      · have searchable := reachable.formed.searchable reachable.numbered reachable.spelled
        obtain ⟨text, made, inside⟩ := exists_declared_of_mentioned whole
          (fun d member name listed => ⟨(searchable d member name listed).1,
            (searchable d member name listed).2.1⟩) member mentioned
        refine ⟨text, made, ?_⟩
        rw [events, committed_append, committed_append, ← same]
        exact List.mem_append_right _ (List.mem_append_left _ inside)
    version := by
      intro stage uses
      have code : after.source stage = if (middle.source stage).isEmpty then middle.source stage
          else (middle.source stage).setVersion middle.version := by
        rw [final]
        exact source_stamped middle stage
      have filled : (middle.source stage).isEmpty = false := by
        refine Bool.eq_false_iff.2 fun empty => ?_
        rw [if_pos empty] at code
        simp [Uses, code, empty] at uses
      rw [if_neg (by simp [filled])] at code
      have number : after.version = middle.version := by
        rw [final]
        rfl
      rw [stageCode, code, number, ← ready]
      cases mentioned : (middle.source stage).mentions "#version" with
      | true => exact .inl rfl
      | false =>
        right
        have headed := fresh.headed (lawful_unstamped base) stage
        rw [← unstamped, ← ready] at headed
        exact headed.isPrefix_setVersion filled mentioned _ }

/-- The material after so many calls. -/
def regenerated (m : Material) : Nat → Material
  | 0 => m
  | calls + 1 => (m.regenerated calls).replay (generate.events (m.regenerated calls))

theorem generate_of_generated (begun : m.generated = true) :
    generate m = .ok () m ∧ generate.events m = [] := by
  have run : generate.run m = (pure () : Action Unit).run m := by
    rw [generate_run, if_pos begun]
  rw [Action.result, Action.events, run]
  exact ⟨rfl, rfl⟩

/-- Nothing takes back that a material has been begun. -/
theorem generated_apply_of_generated (begun : m.generated = true) (event : Event) :
    (m.apply event).generated = true := by
  by_cases text : event.isText = true
  · rw [m.apply_text text]
    exact begun
  by_cases about : event.isInterface = true
  · rw [m.apply_tables about]
    exact begun
  cases event with
  | begin => rfl
  | visit | ask | warn | expose => exact begun
  | _ => simp [Event.isText, Event.isInterface] at text about

theorem generated_replay_of_generated (begun : m.generated = true) (events : List Event) :
    (m.replay events).generated = true :=
  replay_induction m events begun fun _ event begun => generated_apply_of_generated begun event

/-- After the first call a material has been begun, also where the call has failed. -/
theorem generated_regenerated_one (unwritten : m.generated = false) :
    (m.regenerated 1).generated = true := by
  obtain ⟨later, events⟩ : ∃ later, generate.events m = .begin :: later := by
    rw [Action.events, generate_run, if_neg (by simp [unwritten]), draft, bind_assoc]
    exact ⟨_, rfl⟩
  rw [regenerated, regenerated, events]
  exact generated_replay_of_generated rfl later

theorem regenerated_succ (unwritten : m.generated = false) (calls : Nat) :
    m.regenerated (calls + 1) = m.regenerated 1 := by
  induction calls with
  | zero => rfl
  | succ calls ih =>
    have begun : (m.regenerated (calls + 1)).generated = true := by
      rw [ih]
      exact generated_regenerated_one unwritten
    rw [regenerated, (generate_of_generated begun).2, replay_nil, ih]

/-- However often generation has been asked for before, a call after the first succeeds and does
nothing, and a call that succeeds leaves a material that is finished exactly if the first call has
succeeded. -/
theorem generate_finished_iff {c : Construct} (built : ofConstruct c = .ok base) (calls : Nat) :
    (0 < calls → generate (base.regenerated calls) = .ok () (base.regenerated 1)) ∧
      ∀ after, generate (base.regenerated calls) = .ok () after →
        (Finished base after ↔ ∃ first, generate base = .ok () first) := by
  have unwritten := (fresh_ofConstruct built).generated
  have again (earlier : Nat) :
      generate (base.regenerated (earlier + 1)) = .ok () (base.regenerated 1) := by
    rw [regenerated_succ unwritten]
    exact (generate_of_generated (generated_regenerated_one unwritten)).1
  refine ⟨fun later => ?_, fun after ended => ⟨fun finished => ?_, fun ⟨first, succeeded⟩ => ?_⟩⟩
  · obtain ⟨earlier, rfl⟩ := Nat.exists_eq_add_one_of_ne_zero (Nat.ne_of_gt later)
    exact again earlier
  · exact ⟨after, finished.generate_eq_ok (fresh_ofConstruct built)⟩
  · have same : after = first := by
      cases calls with
      | zero => cases ended.symm.trans succeeded; rfl
      | succ earlier =>
        cases ended.symm.trans (again earlier)
        exact (Action.material_of_ok succeeded).symm
    rw [same]
    exact finished_of_generate built succeeded

/-- A scene hides the value below it: what the first call has finished the third one leaves
finished. -/
theorem generate_finished_iff_of_scene :
    ∃ c base after, ofConstruct c = .ok base ∧ generate base = .ok () after ∧
      generate (base.regenerated 2) = .ok () after ∧ Finished base after ∧
      (List.range 3).map (fun n => (after.node n).generated) = [true, true, false] ∧
      after.usedStages = [.vertex, .pixel] := by
  let c : Construct := ⟨.material, none, [], [],
    [⟨.scene, none, [], [], [⟨.value, none, [.ofId .aim], [], []⟩]⟩]⟩
  have evaluated : (ofConstruct c).toOption.any (fun base =>
      (generate.ended? base).any fun ended =>
        (List.range 3).map (fun n => (ended.2.node n).generated) = [true, true, false] ∧
          ended.2.usedStages = [.vertex, .pixel]) = true := by
    decide +kernel
  obtain ⟨base, built, evaluated⟩ := exists_ok_of_any evaluated
  obtain ⟨_, after, ended, evaluated⟩ := Action.exists_ok_of_any evaluated
  obtain ⟨marks, used⟩ := of_decide_eq_true evaluated
  obtain ⟨later, finished⟩ := generate_finished_iff built 2
  have third := later (by decide)
  have same : base.regenerated 1 = after := (Action.material_of_ok ended).symm
  rw [same] at third
  exact ⟨c, base, after, built, ended, third, (finished after third).2 ⟨after, ended⟩, marks, used⟩

/-- A light cannot be written: the first call fails, and the second succeeds although the material
is not finished. -/
theorem regenerate_not_finished :
    ∃ c base failure failed, ofConstruct c = .ok base ∧ generate base = .error failure failed ∧
      failure.message = "not implemented: Light node generation" ∧
      generate (base.regenerated 1) = .ok () failed ∧ failed.usedStages = [] ∧
      ¬ Finished base failed := by
  let c : Construct := ⟨.material, none, [], [], [⟨.light, none, [], [], []⟩]⟩
  have evaluated : (ofConstruct c).toOption.any (fun base =>
      (generate.failed? base).any fun failed =>
        failed.1.message = "not implemented: Light node generation" ∧
          failed.2.usedStages = []) = true := by
    decide +kernel
  obtain ⟨base, built, evaluated⟩ := exists_ok_of_any evaluated
  obtain ⟨failure, failed, ended, evaluated⟩ := Action.exists_error_of_any evaluated
  obtain ⟨message, unused⟩ := of_decide_eq_true evaluated
  have fresh := fresh_ofConstruct built
  have same : base.regenerated 1 = failed := (Action.material_of_error ended).symm
  have again := (generate_of_generated (generated_regenerated_one fresh.generated)).1
  rw [same] at again
  refine ⟨c, base, failure, failed, built, ended, message, same.symm ▸ again, unused, ?_⟩
  intro finished
  cases (finished.generate_eq_ok fresh).symm.trans ended

end Material

end GlslMaterial
