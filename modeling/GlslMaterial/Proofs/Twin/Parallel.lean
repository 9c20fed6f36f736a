import GlslMaterial.Proofs.History.Sources
import GlslMaterial.Proofs.History.Yields
import GlslMaterial.Proofs.Twin.Outline

/-!
Parallel runs: two materials of one outline, on which actions end in the same way and do the same,
but for helpers and for declarations of what the code mentions. There is one rule for each way to
build actions.
-/

set_option autoImplicit false

namespace GlslMaterial

/-- Whether what is put at a marker may depend on the code of fractals. -/
def Marker.isLoose : Marker → Bool
  | .functions | .uniform => true
  | _ => false

/-- Whether an event is one that materials of the same outline have in common. -/
def Event.isShared : Event → Bool
  | .start _ | .require _ _ _ => false
  | .write _ marker _ => !marker.isLoose
  | _ => true

/-- An event is about code, and begins no other stage. -/
def Event.isTextOf (stage : Stage) (event : Event) : Prop :=
  event.isText = true ∧ ∀ other, event.opens other = true → other = stage

theorem Event.isTextOf_start (stage : Stage) : (Event.start stage).isTextOf stage :=
  ⟨rfl, fun _ opens => (of_decide_eq_true opens).symm⟩

theorem Event.isTextOf.of_idle {event : Event} {stage : Stage} (text : event.isText = true)
    (idle : ∀ other, event.opens other = false) : event.isTextOf stage :=
  ⟨text, fun other opens => by simp [idle] at opens⟩

/-- The events that materials of the same outline have in common. -/
def shared (events : List Event) : List Event :=
  events.filter Event.isShared

@[simp] theorem shared_append (first second : List Event) :
    shared (first ++ second) = shared first ++ shared second :=
  List.filter_append ..

namespace Material

variable {m : Material} {stage : Stage} {events : List Event}

theorem outline_replay_text (texts : ∀ event ∈ events, event.isTextOf stage) :
    (m.replay events).outline = m.outline := by
  induction events generalizing m with
  | nil => rfl
  | cons event events ih =>
    obtain ⟨first, later⟩ := List.forall_mem_cons.1 texts
    rw [replay_cons, ih later, outline_apply_of_isText m first.1]

theorem uses_replay_text (texts : ∀ event ∈ events, event.isTextOf stage) {other : Stage}
    (different : other ≠ stage) : (m.replay events).Uses other ↔ m.Uses other := by
  induction events generalizing m with
  | nil => rfl
  | cons event events ih =>
    obtain ⟨first, later⟩ := List.forall_mem_cons.1 texts
    have idle : ¬ event.opens other = true := fun opens => different (first.2 other opens)
    rw [replay_cons, ih later, uses_apply_iff, or_iff_left idle]

/-- The stages that are free, and one more. -/
abbrev Opening (free : Stage → Prop) (stage other : Stage) : Prop :=
  free other ∨ other = stage

/-- Two materials of the same outline. Their sources may differ, but have their markers, and the
same stages are used, apart from those that are `free`. -/
structure Twin (free : Stage → Prop) (m twin : Material) : Prop where
  outline : m.outline = twin.outline
  marked : m.Marked ∧ twin.Marked
  used : ∀ stage, free stage ∨ (m.Uses stage ↔ twin.Uses stage)

namespace Twin

variable {free wider : Stage → Prop} {m twin third : Material}

theorem refl (marked : m.Marked) : Twin free m m :=
  ⟨rfl, ⟨marked, marked⟩, fun _ => .inr .rfl⟩

theorem mono (more : ∀ stage, free stage → wider stage) (alike : Twin free m twin) :
    Twin wider m twin :=
  ⟨alike.outline, alike.marked, fun stage => (alike.used stage).imp_left (more stage)⟩

theorem apply (alike : Twin free m twin) (event : Event) :
    Twin free (m.apply event) (twin.apply event) := by
  refine ⟨?_, ⟨alike.marked.1.apply event, alike.marked.2.apply event⟩, fun stage => ?_⟩
  · rw [outline_apply, alike.outline, ← outline_apply]
  · refine (alike.used stage).imp_right fun same => ?_
    rw [uses_apply_iff, uses_apply_iff, same]

theorem replay_text {stage : Stage} {events others : List Event}
    (one : ∀ event ∈ events, event.isTextOf stage) (two : ∀ event ∈ others, event.isTextOf stage)
    (alike : Twin (Opening free stage) m twin) :
    Twin (Opening free stage) (m.replay events) (twin.replay others) where
  outline := by rw [outline_replay_text one, outline_replay_text two, alike.outline]
  marked := ⟨alike.marked.1.replay events, alike.marked.2.replay others⟩
  used other := by
    by_cases here : other = stage
    · exact .inl (.inr here)
    · rw [uses_replay_text one here, uses_replay_text two here]
      exact alike.used other

theorem close {stage : Stage} (alike : Twin (Opening free stage) m twin)
    (one : m.Uses stage) (two : twin.Uses stage) : Twin free m twin := by
  refine ⟨alike.outline, alike.marked, fun other => ?_⟩
  rcases alike.used other with (still | rfl) | same
  · exact .inl still
  · exact .inr (iff_of_true one two)
  · exact .inr same

end Twin

/-- A source with nothing but markers. Where more is written, it stands near the end. -/
def skeleton : Source :=
  ⟨[Marker.texturize, .transform, .position, .colorize, .output, .input, .uniform, .functions,
    .defines, .version].flatMap fun marker => marker.text.toList ++ ['\n']⟩

theorem marks_skeleton (stage : Stage) : stage.Marks skeleton := by
  refine .inr fun marker _ => ?_
  cases marker <;> decide +kernel

/-- A material of the same outline that has written nothing but markers and knows some helpers of
the pixel stage. Every stage is used, apart from that of pixels. -/
def bare (m : Material) (helpers : List String) : Material :=
  let pixel := if (m.source .pixel).isEmpty then .empty else skeleton
  { m with
    sources := (PerStage.constant skeleton).set .pixel pixel
    functions := helpers.map (.pixel, ·) }

theorem Twin.bare {twin : Material} (alike : Twin (· ≠ .pixel) m twin) (helpers : List String) :
    Twin (· ≠ .pixel) (m.bare helpers) twin where
  outline := alike.outline
  marked := by
    refine ⟨fun stage => ?_, alike.marked.2⟩
    cases stage with
    | pixel =>
      show Stage.Marks _ (if _ then _ else _)
      split
      · exact .inl rfl
      · exact marks_skeleton _
    | _ => exact marks_skeleton _
  used stage := by
    by_cases pixel : stage = .pixel
    · subst pixel
      refine .inr (Iff.trans ?_ ((alike.used .pixel).resolve_left (by simp)))
      show (if _ then Source.empty else skeleton).isEmpty = false ↔ _
      split
      · rename_i unused
        exact iff_of_false (by decide) (by simp [Uses, unused])
      · rename_i used
        exact iff_of_true rfl (by simpa [Uses] using used)
    · exact .inl pixel

end Material

namespace Action

variable {α β : Type}

/-- Both runs end in the same way: with the same value and related materials, or with the same
failure. -/
inductive Ends (after : Material → Material → Prop) (good : α → Prop) :
    EStateM.Result Failure Material α → EStateM.Result Failure Material α → Prop
  | ok {a : α} {m twin : Material} (holds : good a) (related : after m twin) :
    Ends after good (.ok a m) (.ok a twin)
  | error (failure : Failure) (m twin : Material) :
    Ends after good (.error failure m) (.error failure twin)

variable {after : Material → Material → Prop}

theorem Ends.mono {good better : α → Prop}
    (implies : ∀ a, good a → better a) {one two : EStateM.Result Failure Material α}
    (ends : Ends after good one two) : Ends after better one two := by
  cases ends with
  | ok holds related => exact .ok (implies _ holds) related
  | error failure m twin => exact .error failure m twin

theorem Ends.exists_second {good : α → Prop} {a : α}
    {m : Material} {two : EStateM.Result Failure Material α}
    (ends : Ends after good (.ok a m) two) : ∃ twin, two = .ok a twin ∧ after m twin := by
  cases ends with
  | ok _ related => exact ⟨_, rfl, related⟩

/-- On related materials both actions end in the same way, and the events that materials of one
outline have in common are the same. -/
def Parallel (before after : Material → Material → Prop) (first second : Action α)
    (good : α → Prop) : Prop :=
  ∀ m twin, before m twin →
    shared (first.events m) = shared (second.events twin) ∧
      Ends after good (first m) (second twin)

namespace Parallel

variable {before middle after : Material → Material → Prop} {good : α → Prop}

theorem pure {a : α} (holds : good a) :
    Parallel before before (Pure.pure a) (Pure.pure a) good :=
  fun _ _ related => ⟨rfl, .ok holds related⟩

theorem done {a : α} : Parallel before before (Pure.pure a) (Pure.pure a) fun _ => True :=
  pure trivial

theorem fail {failure : Failure} :
    Parallel before after (Action.fail failure) (Action.fail failure) good :=
  fun m twin _ => ⟨rfl, .error failure m twin⟩

theorem ofExcept {value : Except Failure α} (holds : ∀ a, value = .ok a → good a) :
    Parallel before before (Action.ofExcept value) (Action.ofExcept value) good := by
  cases value with
  | error failure => exact fail
  | ok a => exact pure (holds a rfl)

theorem mono {better : α → Prop} {first second : Action α} (implies : ∀ a, good a → better a)
    (parallel : Parallel before after first second good) :
    Parallel before after first second better := by
  intro m twin related
  obtain ⟨same, ends⟩ := parallel m twin related
  exact ⟨same, ends.mono implies⟩

theorem of_before {wider : Material → Material → Prop} {first second : Action α}
    (implies : ∀ m twin, before m twin → wider m twin)
    (parallel : Parallel wider after first second good) :
    Parallel before after first second good :=
  fun m twin related => parallel m twin (implies m twin related)

theorem bind {first second : Action α} {next other : α → Action β} {better : β → Prop}
    (one : Parallel before middle first second good)
    (two : ∀ a, good a → Parallel middle after (next a) (other a) better) :
    Parallel before after (first >>= next) (second >>= other) better := by
  intro m twin related
  obtain ⟨same, ended⟩ := one m twin related
  show shared ((first >>= next).run m).events = shared ((second >>= other).run twin).events ∧
    Ends after better ((first >>= next).run m).result ((second >>= other).run twin).result
  rw [run_bind, run_bind]
  unfold Action.result at ended
  generalize (first.run m).result = begun at ended ⊢
  generalize (second.run twin).result = again at ended ⊢
  cases ended with
  | @ok a started resumed holds joined =>
    obtain ⟨more, finish⟩ := two a holds started resumed joined
    refine ⟨?_, finish⟩
    simp only [Outcome.events_after, shared_append]
    exact congr (congrArg _ same) more
  | error failure started resumed => exact ⟨same, .error failure started resumed⟩

theorem read {next other : Material → Action α}
    (two : ∀ m twin, before m twin → Parallel before after (next m) (other twin) good) :
    Parallel before after (MonadReader.read >>= next) (MonadReader.read >>= other) good :=
  fun m twin related => two m twin related m twin related

theorem perform {event : Event}
    (kept : ∀ m twin, before m twin → after (m.apply event) (twin.apply event)) :
    Parallel before after (Action.perform event) (Action.perform event) fun _ => True :=
  fun m twin related => ⟨rfl, .ok trivial (kept m twin related)⟩

theorem map {first second : Action α} {f : α → β} {better : β → Prop}
    (parallel : Parallel before after first second fun a => better (f a)) :
    Parallel before after (f <$> first) (f <$> second) better := by
  rw [← bind_pure_comp, ← bind_pure_comp]
  exact bind parallel fun _ holds => pure holds

theorem discard {first second : Action α} (parallel : Parallel before after first second good) :
    Parallel before after (Functor.discard first) (Functor.discard second) fun _ => True := by
  have shape (action : Action α) : Functor.discard action = (fun _ => ()) <$> action := by
    rw [Functor.discard, map_const]
    rfl
  rw [shape, shape]
  exact map (parallel.mono fun _ _ => trivial)

theorem forM {step other : α → Action Unit} {items : List α}
    (each : ∀ a ∈ items, Parallel before before (step a) (other a) fun _ => True) :
    Parallel before before (items.forM step) (items.forM other) fun _ => True := by
  induction items with
  | nil => exact pure trivial
  | cons a items ih =>
    refine bind (each a List.mem_cons_self) fun _ _ => ?_
    exact ih fun b member => each b (List.mem_cons_of_mem a member)

/-- Two given materials. -/
def At (base blank m twin : Material) : Prop :=
  base = m ∧ blank = twin

theorem refine_after {base blank : Material} {first second : Action α}
    {better : Material → Material → Prop}
    (parallel : Parallel (At base blank) after first second good)
    (more : shared (first.events base) = shared (second.events blank) →
      after (base.replay (first.events base)) (blank.replay (second.events blank)) →
      better (base.replay (first.events base)) (blank.replay (second.events blank))) :
    Parallel (At base blank) better first second good := by
  rintro _ _ ⟨rfl, rfl⟩
  obtain ⟨same, ends⟩ := parallel _ _ ⟨rfl, rfl⟩
  refine ⟨same, ?_⟩
  cases one : first base with
  | error failure m =>
    rw [one] at ends
    generalize second blank = again at ends ⊢
    cases ends with
    | error failure m twin => exact .error failure m twin
  | ok a m =>
    obtain rfl := material_of_ok one
    rw [one] at ends
    cases two : second blank with
    | error failure m =>
      rw [two] at ends
      cases ends
    | ok b twin =>
      obtain rfl := material_of_ok two
      rw [two] at ends
      cases ends with
      | ok holds related => exact .ok holds (more same related)

end Parallel

end Action

namespace Material

open GlslMaterial.Action (Parallel Yields)

variable {free : Stage → Prop}

theorem parallel_perform (event : Event) :
    Parallel (Twin free) (Twin free) (Action.perform event) (Action.perform event) fun _ => True :=
  .perform fun _ _ alike => alike.apply event

variable {stage : Stage} {marker : Marker}

theorem writing_yields_of_marked {m : Material} (marked : m.Marked)
    (member : marker ∈ stage.markers) (event : Event) :
    (writing stage marker event).Yields m () [.start stage, event] :=
  writing_yields event (marked.hasMarker_started (Stage.hasMarker_of_mem_markers member))

theorem parallel_writing (member : marker ∈ stage.markers) {event : Event}
    (text : event.isText = true ∧ ∀ other, event.opens other = false) :
    Parallel (Twin (Opening free stage)) (Twin free)
      (writing stage marker event) (writing stage marker event) fun _ => True := by
  have texts : ∀ happened ∈ [.start stage, event], happened.isTextOf stage :=
    List.forall_mem_cons.2 ⟨Event.isTextOf_start stage,
      List.forall_mem_singleton.2 (.of_idle text.1 text.2)⟩
  have uses (m : Material) : (m.replay [.start stage, event]).Uses stage :=
    (m.uses_started stage).apply event
  intro m twin alike
  have one := writing_yields_of_marked alike.marked.1 member event
  have two := writing_yields_of_marked alike.marked.2 member event
  rw [one.events, two.events, one.result, two.result]
  refine ⟨rfl, .ok trivial ?_⟩
  exact (alike.replay_text texts texts).close (uses m) (uses twin)

theorem parallel_commit (member : marker ∈ stage.markers) (code : String) :
    Parallel (Twin (Opening free stage)) (Twin free)
      (commit stage marker code) (commit stage marker code) fun _ => True :=
  parallel_writing member ⟨rfl, fun _ => rfl⟩

theorem parallel_assign (stage : Stage) (output value : String) :
    Parallel (Twin (Opening free stage)) (Twin free)
      (assign stage output value) (assign stage output value) fun _ => True :=
  parallel_writing (by cases stage <;> decide) ⟨rfl, fun _ => rfl⟩

/-- The action always succeeds, and writes nothing but helpers of a stage. -/
def Helps (stage : Stage) (action : Action Unit) : Prop :=
  ∀ m : Material, m.Marked → ∃ events, action.Yields m () events ∧ shared events = [] ∧
    ∀ event ∈ events, event.isTextOf stage

namespace Helps

variable {stage : Stage}

theorem pure : Helps stage (Pure.pure ()) :=
  fun _ _ => ⟨[], .pure (), rfl, by simp⟩

theorem bind {first : Action Unit} {next : Unit → Action Unit} (one : Helps stage first)
    (two : Helps stage (next ())) : Helps stage (first >>= next) := by
  intro m marked
  obtain ⟨early, starts, quiet, texts⟩ := one m marked
  obtain ⟨late, goes, silent, more⟩ := two (m.replay early) (marked.replay early)
  refine ⟨early ++ late, starts.bind goes, ?_, ?_⟩
  · rw [shared_append, quiet, silent]
    rfl
  · exact List.forall_mem_append.2 ⟨texts, more⟩

theorem forM {α : Type} {step : α → Action Unit} {items : List α}
    (each : ∀ a ∈ items, Helps stage (step a)) : Helps stage (items.forM step) := by
  induction items with
  | nil => exact pure
  | cons a items ih =>
    exact bind (each a List.mem_cons_self)
      (ih fun b member => each b (List.mem_cons_of_mem a member))

theorem parallel {first second : Action Unit} (one : Helps stage first)
    (two : Helps stage second) :
    Parallel (Twin (Opening free stage))
      (Twin (Opening free stage)) first second fun _ => True := by
  intro m twin alike
  obtain ⟨events, yields, quiet, texts⟩ := one m alike.marked.1
  obtain ⟨others, again, silent, more⟩ := two twin alike.marked.2
  rw [yields.events, again.events, yields.result, again.result]
  exact ⟨quiet.trans silent.symm, .ok trivial (alike.replay_text texts more)⟩

theorem ensureFunction (name body : String) :
    Helps stage (Material.ensureFunction stage name body) := by
  intro m marked
  let code := String.ofList (Text.trimRight body.toList) ++ "\n"
  have required : (Event.require stage name body).isTextOf stage := .of_idle rfl fun _ => rfl
  by_cases known : m.hasFunction stage name = true
  · have whole : (Material.ensureFunction stage name body).Yields m ()
        ([] ++ ([.require stage name body] ++ [])) := by
      refine Yields.bind .read (.bind (.perform _) ?_)
      rw [replay_nil, if_pos known]
      exact .pure ()
    exact ⟨_, whole, rfl, List.forall_mem_singleton.2 required⟩
  · have start := marked.apply (.require stage name body)
    have whole : (Material.ensureFunction stage name body).Yields m ()
        ([] ++ ([.require stage name body] ++ [.start stage, .write stage .functions code])) := by
      refine Yields.bind .read (.bind (.perform _) ?_)
      rw [replay_nil, if_neg known]
      exact writing_yields_of_marked start (by cases stage <;> decide) _
    refine ⟨_, whole, rfl, ?_⟩
    exact List.forall_mem_cons.2 ⟨required, List.forall_mem_cons.2 ⟨Event.isTextOf_start stage,
      List.forall_mem_singleton.2 (.of_idle rfl fun _ => rfl)⟩⟩

theorem ensureFunctions (helpers : List (String × String)) :
    Helps stage (Material.ensureFunctions stage helpers) :=
  forM fun helper _ => ensureFunction helper.1 helper.2

end Helps

end Material

end GlslMaterial
