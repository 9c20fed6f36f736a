import GlslMaterial.Proofs.History.Lawful

/-!
What an action does after a lawful history: all of its events are allowed, and where it succeeds its
value and the longer history satisfy a condition. There is one rule for each way to build actions.
-/

set_option autoImplicit false

namespace GlslMaterial.Action

variable {α β : Type}

/-- After the history `past`, the action only does what the law allows, and `post` holds of its
value and of the history that it leaves. -/
def Meets (law : Law) (base : Material) (past : List Event) (action : Action α)
    (post : α → List Event → Prop) : Prop :=
  Lawful law base past →
    Lawful law base (past ++ action.events (base.replay past)) ∧
      ∀ value after, action (base.replay past) = .ok value after →
        post value (past ++ action.events (base.replay past))

namespace Meets

variable {law : Law} {base : Material} {past : List Event}

theorem of_lawful {action : Action α} {post : α → List Event → Prop}
    (meets : Lawful law base past → Meets law base past action post) :
    Meets law base past action post :=
  fun lawful => meets lawful lawful

theorem mono {action : Action α} {strong weak : α → List Event → Prop}
    (implies : ∀ value later, Lawful law base later → strong value later → weak value later)
    (meets : Meets law base past action strong) : Meets law base past action weak := by
  intro lawful
  obtain ⟨allowed, holds⟩ := meets lawful
  exact ⟨allowed, fun value after ended => implies _ _ allowed (holds value after ended)⟩

theorem and {action : Action α} {first second : α → List Event → Prop}
    (one : Meets law base past action first) (two : Meets law base past action second) :
    Meets law base past action fun value later => first value later ∧ second value later := by
  intro lawful
  obtain ⟨allowed, left⟩ := one lawful
  obtain ⟨-, right⟩ := two lawful
  exact ⟨allowed, fun value after ended => ⟨left value after ended, right value after ended⟩⟩

theorem grows {action : Action α} {post : α → List Event → Prop}
    (meets : Meets law base past action post) :
    Meets law base past action fun value later => past <+: later ∧ post value later := by
  intro lawful
  obtain ⟨allowed, holds⟩ := meets lawful
  exact ⟨allowed, fun value after ended =>
    ⟨List.prefix_append past _, holds value after ended⟩⟩

/-- What an action meets from the start on holds wherever it succeeds. -/
theorem post_of_ok {m after : Material} {action : Action α} {a : α} {post : α → List Event → Prop}
    (meets : Meets law m [] action post) (ended : action m = .ok a after) :
    ∃ events, after = m.replay events ∧ post a events :=
  ⟨action.events m, material_of_ok ended, (meets .nil).2 a after ended⟩

theorem pure {a : α} {post : α → List Event → Prop} (holds : post a past) :
    Meets law base past (Pure.pure a) post := by
  intro lawful
  refine ⟨by simpa [events] using lawful, fun value after ended => ?_⟩
  obtain ⟨rfl, -⟩ : a = value ∧ _ := by simpa [result] using ended
  simpa [events] using holds

theorem fail {failure : Failure} {post : α → List Event → Prop} :
    Meets law base past (Action.fail failure) post := by
  intro lawful
  refine ⟨by simpa [events, Action.fail] using lawful, fun value after ended => ?_⟩
  simp [result, Action.fail] at ended

theorem read {post : Material → List Event → Prop} (holds : post (base.replay past) past) :
    Meets law base past MonadReader.read post := by
  intro lawful
  have nothing : (MonadReader.read : Action Material).run (base.replay past) =
      ⟨[], .ok (base.replay past) (base.replay past)⟩ := rfl
  refine ⟨by simpa [events, nothing] using lawful, fun value after ended => ?_⟩
  obtain ⟨rfl, -⟩ : base.replay past = value ∧ _ := by simpa [result, nothing] using ended
  simpa [events, nothing] using holds

theorem perform {event : Event} {post : Unit → List Event → Prop} (allowed : law base past event)
    (holds : post () (past ++ [event])) : Meets law base past (Action.perform event) post :=
  fun lawful => ⟨lawful.snoc allowed, fun _ _ _ => holds⟩

theorem ofExcept {value : Except Failure α} {post : α → List Event → Prop}
    (holds : ∀ a, value = .ok a → post a past) :
    Meets law base past (Action.ofExcept value) post := by
  cases value with
  | error failure => exact fail
  | ok a => exact pure (holds a rfl)

theorem andThen {weaker : Law}
    (implies : ∀ past event, law base past event → weaker base past event)
    {first : Action α} {next : α → Action β} {post : β → List Event → Prop}
    (meets : Meets law base past first fun a later => Meets weaker base later (next a) post)
    (lawful : Lawful law base past) :
    Lawful weaker base (past ++ (first >>= next).events (base.replay past)) ∧
      ∀ value after, (first >>= next) (base.replay past) = .ok value after →
        post value (past ++ (first >>= next).events (base.replay past)) := by
  obtain ⟨allowed, continues⟩ := meets lawful
  unfold events result at *
  rw [run_bind]
  cases ended : (first.run (base.replay past)).result with
  | error failure middle =>
    exact ⟨allowed.mono implies, fun _ _ impossible => by simp at impossible⟩
  | ok a middle =>
    have reached : middle = base.replay (past ++ (first.run (base.replay past)).events) := by
      rw [Material.replay_append]
      exact material_of_ok ended
    obtain ⟨rest, holds⟩ := continues a middle ended (allowed.mono implies)
    rw [← reached] at rest holds
    simp only [Outcome.events_after, Outcome.result_after, ← List.append_assoc]
    exact ⟨rest, holds⟩

theorem bind {first : Action α} {next : α → Action β} {post : β → List Event → Prop}
    (meets : Meets law base past first fun a later => Meets law base later (next a) post) :
    Meets law base past (first >>= next) post :=
  andThen (fun _ _ allowed => allowed) meets

theorem map {action : Action α} {f : α → β} {post : β → List Event → Prop}
    (meets : Meets law base past action fun a later => post (f a) later) :
    Meets law base past (f <$> action) post := by
  rw [← bind_pure_comp]
  exact bind (meets.mono fun _ _ _ holds => pure holds)

theorem forM {step : α → Action Unit} {holds : List Event → Prop} {items : List α}
    (keeps : ∀ a ∈ items, ∀ past, holds past →
      Meets law base past (step a) fun _ later => holds later)
    (start : holds past) : Meets law base past (items.forM step) fun _ later => holds later := by
  induction items generalizing past with
  | nil => exact pure start
  | cons a items ih =>
    show Meets law base past (step a >>= fun _ => items.forM step) _
    apply bind
    apply (keeps a List.mem_cons_self past start).mono
    intro _ later _ kept
    exact ih (fun a member => keeps a (List.mem_cons_of_mem _ member)) kept

theorem asking (search : Material → Except Failure (α × Material)) {event : Event}
    {post : α → List Event → Prop} (allowed : law base past event)
    (holds : ∀ result after, search (base.replay past) = .ok (result, after) →
      post result (past ++ [event])) :
    Meets law base past (do
      let found ← Action.ofExcept (search (← MonadReader.read))
      Action.perform event
      return found.1) post := by
  apply bind
  apply read
  apply bind
  apply ofExcept
  rintro ⟨result, after⟩ added
  apply bind
  apply perform allowed
  exact pure (holds result after added)

theorem inputFor {rate : Rate} {key : Trait} {duplicates : Bool}
    {post : String × Rate → List Event → Prop}
    (allowed : law base past (.input rate key duplicates))
    (holds : ∀ result after,
      (base.replay past).addInput rate key duplicates = .ok (result, after) →
        post result (past ++ [.input rate key duplicates])) :
    Meets law base past (Material.inputFor rate key duplicates) post :=
  asking (·.addInput rate key duplicates) allowed holds

theorem outputFor {rate : Rate} {key : Trait} {duplicates : Bool}
    {post : String × Bool → List Event → Prop}
    (allowed : law base past (.output rate key duplicates))
    (holds : ∀ result after,
      (base.replay past).addOutput rate key duplicates = .ok (result, after) →
        post result (past ++ [.output rate key duplicates])) :
    Meets law base past (Material.outputFor rate key duplicates) post :=
  asking (·.addOutput rate key duplicates) allowed holds

theorem writing {stage : Stage} {marker : Marker} {event : Event}
    {post : Unit → List Event → Prop} (starts : law base past (.start stage))
    (allowed : law base (past ++ [.start stage]) event)
    (holds : post () (past ++ [.start stage] ++ [event])) :
    Meets law base past (Material.writing stage marker event) post := by
  apply bind
  apply perform starts
  apply bind
  apply read
  split
  · exact perform allowed holds
  · exact fail

end Meets

end GlslMaterial.Action
