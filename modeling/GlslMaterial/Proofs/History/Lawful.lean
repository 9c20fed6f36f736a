import GlslMaterial.Material.Action

/-!
Histories: what has happened to a material so far. A law says which events may follow a history, and
an action meets the law when all of its events are allowed at the time at which they happen.
-/

set_option autoImplicit false

namespace GlslMaterial

/-- For the material at the beginning and a history, the events that may follow. -/
abbrev Law : Type :=
  Material → List Event → Event → Prop

/-- Every event was allowed when it happened. -/
inductive Lawful (law : Law) (base : Material) : List Event → Prop
  | nil : Lawful law base []
  | snoc {past : List Event} {event : Event} (before : Lawful law base past)
      (allowed : law base past event) : Lawful law base (past ++ [event])

namespace Lawful

variable {law : Law} {base : Material}

/-- The last event was allowed after all that came before it. -/
theorem of_snoc {past : List Event} {event : Event} (lawful : Lawful law base (past ++ [event])) :
    Lawful law base past ∧ law base past event := by
  generalize whole : past ++ [event] = all at lawful
  cases lawful with
  | nil => simp at whole
  | snoc before allowed =>
    obtain ⟨rfl, same⟩ := List.append_inj' whole rfl
    obtain rfl : event = _ := by simpa using same
    exact ⟨before, allowed⟩

theorem of_append {past later : List Event} (lawful : Lawful law base (past ++ later)) :
    Lawful law base past := by
  induction later generalizing past with
  | nil => simpa using lawful
  | cons event later ih =>
    have first : Lawful law base (past ++ [event]) := ih (by simpa using lawful)
    exact first.of_snoc.1

theorem allowed {past later : List Event} {event : Event}
    (lawful : Lawful law base (past ++ event :: later)) : law base past event := by
  have first : Lawful law base ((past ++ [event]) ++ later) := by simpa using lawful
  exact first.of_append.of_snoc.2

theorem of_isPrefix {past whole : List Event} (early : past <+: whole)
    (lawful : Lawful law base whole) : Lawful law base past := by
  obtain ⟨later, rfl⟩ := early
  exact lawful.of_append

theorem mono {weaker : Law} (implies : ∀ past event, law base past event → weaker base past event)
    {past : List Event} (lawful : Lawful law base past) : Lawful weaker base past := by
  induction lawful with
  | nil => exact nil
  | snoc _ allowed ih => exact snoc ih (implies _ _ allowed)

end Lawful

namespace Action

variable {α β : Type}

theorem ext {first second : Action α} (same : ∀ m, first.run m = second.run m) :
    first = second := by
  cases first
  cases second
  congr
  funext m
  exact same m

@[simp] theorem run_pure (a : α) (m : Material) : (pure a : Action α).run m = ⟨[], .ok a m⟩ := rfl

theorem run_bind (first : Action α) (next : α → Action β) (m : Material) :
    (first >>= next).run m =
      match (first.run m).result with
      | .ok a middle => ((next a).run middle).after (first.run m).events
      | .error failure middle => ⟨(first.run m).events, .error failure middle⟩ := rfl

theorem bind_assoc {γ : Type} (first : Action α) (next : α → Action β) (last : β → Action γ) :
    first >>= next >>= last = first >>= fun a => next a >>= last := by
  apply ext
  intro m
  simp only [run_bind]
  cases (first.run m).result with
  | error failure middle => rfl
  | ok a middle =>
    simp only [Outcome.result_after, Outcome.events_after]
    cases ((next a).run middle).result with
    | error failure middle => rfl
    | ok b middle => simp [Outcome.after]

theorem bind_done (action : Action α) : action.andThen done = action := by
  apply ext
  intro m
  show (action >>= pure).run m = _
  rw [run_bind]
  cases action.run m with
  | mk events result => cases result <;> simp [Outcome.after]

instance : LawfulMonad Action :=
  LawfulMonad.mk' Action bind_done (fun _ _ => rfl) bind_assoc

variable {m after middle : Material} {failure : Failure} {ι : Type}

theorem material_of_ok {action : Action α} {value : α}
    (ended : action m = .ok value after) : after = m.replay (action.events m) := by
  have replayed := action.replays m
  rw [result] at ended
  rw [Outcome.material, ended] at replayed
  exact replayed

theorem material_of_error {action : Action α}
    (ended : action m = .error failure after) : after = m.replay (action.events m) := by
  have replayed := action.replays m
  rw [result] at ended
  rw [Outcome.material, ended] at replayed
  exact replayed

theorem ok_of_bind {first : Action α} {next : α → Action β} {value : β}
    (ended : (first >>= next) m = .ok value after) :
    ∃ a middle, first m = .ok a middle ∧ next a middle = .ok value after ∧
      (first >>= next).events m = first.events m ++ (next a).events middle := by
  unfold result events at *
  rw [run_bind] at ended ⊢
  cases begun : (first.run m).result with
  | error failure middle => simp [begun] at ended
  | ok a middle =>
    rw [begun] at ended
    exact ⟨a, middle, rfl, by simpa using ended, by simp⟩

theorem ok_of_read {given : Material}
    (ended : (MonadReader.read : Action Material) m = .ok given after) :
    m = given ∧ m = after := by
  cases ended
  exact ⟨rfl, rfl⟩

theorem ok_of_ofExcept {result : Except Failure α} {a : α}
    (ended : ofExcept result m = .ok a after) : result = .ok a ∧ m = after := by
  cases result with
  | error other => cases ended
  | ok b =>
    cases ended
    exact ⟨rfl, rfl⟩

theorem bind_of_ok {first : Action α} {next : α → Action β} {a : α}
    {value : β} (begun : first m = .ok a middle) (ended : next a middle = .ok value after) :
    (first >>= next) m = .ok value after ∧
      (first >>= next).events m = first.events m ++ (next a).events middle := by
  unfold result events at *
  rw [run_bind, begun]
  exact ⟨ended, rfl⟩

theorem bind_of_error {first : Action α}
    (begun : first m = .error failure after) (next : α → Action β) :
    (first >>= next) m = .error failure after ∧
      (first >>= next).events m = first.events m := by
  unfold result events at *
  rw [run_bind, begun]
  exact ⟨rfl, rfl⟩

theorem events_isPrefix_bind (first : Action α) (next : α → Action β) (m : Material) :
    first.events m <+: (first >>= next).events m := by
  show (first.run m).events <+: ((first >>= next).run m).events
  rw [run_bind]
  cases (first.run m).result with
  | error failure after => exact List.prefix_rfl
  | ok a middle => exact List.prefix_append ..

theorem run_bind_congr {first other : Action α} {next last : α → Action β}
    (same : first.run m = other.run m)
    (later : ∀ a middle, other m = .ok a middle → (next a).run middle = (last a).run middle) :
    (first >>= next).run m = (other >>= last).run m := by
  rw [run_bind, run_bind, same]
  cases ended : (other.run m).result with
  | error failure middle => rfl
  | ok a middle => exact congrArg (Outcome.after _) (later a middle ended)

/-- A loop that succeeds has done the first item and then the others. -/
theorem ok_of_forM_cons {step : ι → Action Unit} {item : ι} {items : List ι}
    (ended : (item :: items).forM step m = .ok () after) :
    ∃ middle, step item m = .ok () middle ∧ items.forM step middle = .ok () after ∧
      ((item :: items).forM step).events m =
        (step item).events m ++ (items.forM step).events middle := by
  let next : Unit → Action Unit := fun _ => items.forM step
  have split : (step item >>= next) m = .ok () after := ended
  obtain ⟨_, middle, here, rest, events⟩ := ok_of_bind split
  exact ⟨middle, here, rest, events⟩

theorem forM_cons_of_ok {step : ι → Action Unit} {item : ι} {items : List ι}
    (begun : step item m = .ok () middle) (ended : items.forM step middle = .ok () after) :
    (item :: items).forM step m = .ok () after ∧
      ((item :: items).forM step).events m =
        (step item).events m ++ (items.forM step).events middle := by
  let next : Unit → Action Unit := fun _ => items.forM step
  have rest : next () middle = .ok () after := ended
  exact bind_of_ok begun rest

theorem forM_append (step : ι → Action Unit) (first second : List ι) :
    (first ++ second).forM step = first.forM step >>= fun _ => second.forM step :=
  List.forM_append

theorem forM_append_of_ok {step : ι → Action Unit} {first second : List ι}
    (begun : first.forM step m = .ok () middle) (ended : second.forM step middle = .ok () after) :
    (first ++ second).forM step m = .ok () after ∧
      ((first ++ second).forM step).events m =
        (first.forM step).events m ++ (second.forM step).events middle := by
  let next : Unit → Action Unit := fun _ => second.forM step
  have rest : next () middle = .ok () after := ended
  rw [forM_append]
  exact bind_of_ok begun rest

theorem error_of_bind {first : Action α} {next : α → Action β}
    (ended : (first >>= next) m = .error failure after) :
    first m = .error failure after ∧ (first >>= next).events m = first.events m ∨
      ∃ a middle, first m = .ok a middle ∧ next a middle = .error failure after ∧
        (first >>= next).events m = first.events m ++ (next a).events middle := by
  unfold result events at *
  rw [run_bind] at ended ⊢
  cases begun : (first.run m).result with
  | error other middle =>
    rw [begun] at ended
    exact .inl ⟨by simpa using ended, rfl⟩
  | ok a middle =>
    rw [begun] at ended
    exact .inr ⟨a, middle, rfl, by simpa using ended, by simp⟩

theorem exists_of_forM_error {step : ι → Action Unit} {items : List ι}
    (ended : items.forM step m = .error failure after) :
    ∃ early item late middle, items = early ++ item :: late ∧
      early.forM step m = .ok () middle ∧ step item middle = .error failure after ∧
      (items.forM step).events m = (early.forM step).events m ++ (step item).events middle := by
  induction items generalizing m with
  | nil => cases ended
  | cons item items ih =>
    let next : Unit → Action Unit := fun _ => items.forM step
    have split : (step item >>= next) m = .error failure after := ended
    rcases error_of_bind split with ⟨failed, happened⟩ | ⟨_, middle, begun, rest, happened⟩
    · exact ⟨[], item, items, m, rfl, rfl, failed, happened⟩
    · obtain ⟨early, last, late, reached, cut, succeeded, failed, more⟩ := ih rest
      obtain ⟨whole, events⟩ := forM_cons_of_ok begun succeeded
      refine ⟨item :: early, last, late, reached, by rw [cut, List.cons_append], whole, failed, ?_⟩
      rw [events, List.append_assoc, ← more]
      exact happened

/-- What an action gives and leaves, if it succeeds. -/
def ended? (action : Action α) (m : Material) : Option (α × Material) :=
  match action m with
  | .ok a after => some (a, after)
  | .error _ _ => none

theorem exists_ok_of_any {action : Action α} {holds : α × Material → Bool}
    (computed : (action.ended? m).any holds = true) :
    ∃ a after, action m = .ok a after ∧ holds (a, after) = true := by
  unfold ended? at computed
  split at computed
  · rename_i a after ended
    exact ⟨a, after, ended, computed⟩
  · simp at computed

/-- How an action fails and what it leaves, if it fails. -/
def failed? (action : Action α) (m : Material) : Option (Failure × Material) :=
  match action m with
  | .ok _ _ => none
  | .error failure after => some (failure, after)

theorem exists_error_of_any {action : Action α}
    {holds : Failure × Material → Bool} (computed : (action.failed? m).any holds = true) :
    ∃ failure after, action m = .error failure after ∧ holds (failure, after) = true := by
  unfold failed? at computed
  split at computed
  · simp at computed
  · rename_i failure after ended
    exact ⟨failure, after, ended, computed⟩

end Action

namespace Material

theorem events_commit {m after : Material} {stage : Stage} {marker : Marker}
    {code : String} (ended : commit stage marker code m = .ok () after) :
    (commit stage marker code).events m = [.start stage, .write stage marker code] := by
  obtain ⟨_, middle, -, rest, events⟩ := Action.ok_of_bind ended
  let next := if (middle.source stage).hasMarker marker then Action.perform
    (.write stage marker code)
    else Action.fail (.misuse (.noMarker stage marker))
  change next middle = .ok () after at rest
  change _ = [Event.start stage] ++ next.events middle at events
  rw [commit, writing, events]
  by_cases marked : (middle.source stage).hasMarker marker = true
  · simp only [next, if_pos marked]
    rfl
  · simp only [next, if_neg marked] at rest
    cases rest

end Material

end GlslMaterial
