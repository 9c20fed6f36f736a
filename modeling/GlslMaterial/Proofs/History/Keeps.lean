import GlslMaterial.Proofs.History.Meets

/-!
Actions that take one condition of histories to another, whenever they are run. The rules are those
for single histories, without the histories.
-/

set_option autoImplicit false

namespace GlslMaterial.Action

variable {α β : Type}

/-- Wherever `before` holds, the action only does what the law allows, and where it succeeds `good`
holds of its value and `after` of the history that it leaves. -/
def Keeps (law : Law) (base : Material) (before after : List Event → Prop) (action : Action α)
    (good : α → Prop) : Prop :=
  ∀ past, before past → Meets law base past action fun value later => good value ∧ after later

namespace Keeps

variable {law : Law} {base : Material} {before middle after : List Event → Prop}

theorem mono {action : Action α} {strong weak : α → Prop} (implies : ∀ a, strong a → weak a)
    (keeps : Keeps law base before after action strong) :
    Keeps law base before after action weak :=
  fun past start => (keeps past start).mono fun _ _ _ holds => ⟨implies _ holds.1, holds.2⟩

theorem of_ok {action : Action α} {good : α → Prop}
    (keeps : Keeps law base before after action fun _ => True)
    (known : ∀ past, Lawful law base past → before past → ∀ a last,
      action (base.replay past) = .ok a last → good a) : Keeps law base before after action
        good := by
  intro past start lawful
  obtain ⟨allowed, holds⟩ := keeps past start lawful
  exact ⟨allowed, fun a last ended =>
    ⟨known past lawful start a last ended, (holds a last ended).2⟩⟩

theorem of_before {action : Action α} {good : α → Prop}
    (implies : ∀ past, before past → middle past)
    (keeps : Keeps law base middle after action good) : Keeps law base before after action good :=
  fun past start => keeps past (implies past start)

theorem pure {a : α} {good : α → Prop} (holds : good a) :
    Keeps law base before before (Pure.pure a) good :=
  fun _ start => Meets.pure ⟨holds, start⟩

theorem fail {failure : Failure} {good : α → Prop} :
    Keeps law base before after (Action.fail failure) good :=
  fun _ _ => Meets.fail

theorem perform {event : Event} (allowed : ∀ past, before past → law base past event)
    (kept : ∀ past, before past → after (past ++ [event])) :
    Keeps law base before after (Action.perform event) fun _ => True :=
  fun past start => Meets.perform (allowed past start) ⟨trivial, kept past start⟩

theorem ofExcept {value : Except Failure α} {good : α → Prop}
    (holds : ∀ a, value = .ok a → good a) :
    Keeps law base before before (Action.ofExcept value) good :=
  fun _ start => Meets.ofExcept fun a same => ⟨holds a same, start⟩

theorem bind {first : Action α} {next : α → Action β} {good : α → Prop} {better : β → Prop}
    (one : Keeps law base before middle first good)
    (two : ∀ a, good a → Keeps law base middle after (next a) better) :
    Keeps law base before after (first >>= next) better :=
  fun past start =>
    Meets.bind ((one past start).mono fun a later _ holds => two a holds.1 later holds.2)

theorem readFrom {next : Material → Action β} {better : β → Prop}
    (two : ∀ past, Lawful law base past → before past →
      Keeps law base before after (next (base.replay past)) better) :
    Keeps law base before after (MonadReader.read >>= next) better :=
  fun past start => Meets.of_lawful fun lawful =>
    Meets.bind (Meets.read (two past lawful start past start))

theorem readThen {next : Material → Action β} {better : β → Prop}
    (two : ∀ past, Lawful law base past →
      Keeps law base before after (next (base.replay past)) better) :
    Keeps law base before after (MonadReader.read >>= next) better :=
  readFrom fun past lawful _ => two past lawful

theorem map {action : Action α} {f : α → β} {good : β → Prop}
    (keeps : Keeps law base before after action fun a => good (f a)) :
    Keeps law base before after (f <$> action) good :=
  fun past start => Meets.map (keeps past start)

theorem forM {step : α → Action Unit} {items : List α}
    (keeps : ∀ a ∈ items, Keeps law base before before (step a) fun _ => True) :
    Keeps law base before before (items.forM step) fun _ => True := by
  intro past start
  have each : ∀ a ∈ items, ∀ past, before past →
      Meets law base past (step a) fun _ later => before later := fun a member past holds =>
    (keeps a member past holds).mono fun _ _ _ both => both.2
  exact (Meets.forM each start).mono fun _ _ _ holds => ⟨trivial, holds⟩

theorem forM_rest {step : α → Action Unit} {items : List α} (left : List α → List Event → Prop)
    (keeps : ∀ a rest, a :: rest <:+ items →
      Keeps law base (left (a :: rest)) (left rest) (step a) fun _ => True) :
    Keeps law base (left items) (left []) (items.forM step) fun _ => True := by
  induction items with
  | nil => exact pure trivial
  | cons a items ih =>
    refine bind (keeps a items (List.suffix_refl _)) fun _ _ => ?_
    exact ih fun b rest ends => keeps b rest (ends.trans (List.suffix_cons a items))

end Keeps

end GlslMaterial.Action
