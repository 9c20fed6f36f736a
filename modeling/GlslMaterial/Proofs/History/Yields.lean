import GlslMaterial.Material.Lookup
import GlslMaterial.Proofs.History.Lawful

/-!
Runs that succeed: the value that an action gives on a material, and all that happens on the way.
-/

set_option autoImplicit false

namespace GlslMaterial

namespace Action

variable {α β : Type}

/-- The action succeeds on a material with this value, after these events. -/
def Yields (action : Action α) (m : Material) (value : α) (events : List Event) : Prop :=
  action.run m = ⟨events, .ok value (m.replay events)⟩

namespace Yields

variable {m : Material}

theorem result {action : Action α} {value : α} {events : List Event}
    (yields : action.Yields m value events) : action m = .ok value (m.replay events) :=
  congrArg Outcome.result yields

theorem events {action : Action α} {value : α} {events : List Event}
    (yields : action.Yields m value events) : action.events m = events :=
  congrArg Outcome.events yields

theorem pure (a : α) : (Pure.pure a : Action α).Yields m a [] := rfl

theorem perform (event : Event) : (Action.perform event).Yields m () [event] := rfl

theorem read : (MonadReader.read : Action Material).Yields m m [] := rfl

theorem ofExcept {result : Except Failure α} {a : α} (ended : result = .ok a) :
    (Action.ofExcept result).Yields m a [] := by
  subst ended
  rfl

theorem bind {first : Action α} {next : α → Action β} {a : α} {b : β}
    {early late : List Event} (starts : first.Yields m a early)
    (goes : (next a).Yields (m.replay early) b late) :
    (first >>= next).Yields m b (early ++ late) := by
  unfold Yields at *
  rw [run_bind, starts]
  simp only [goes, Outcome.after, Material.replay_append]

theorem map {action : Action α} (change : α → β) {a : α} {events : List Event}
    (yields : action.Yields m a events) : (change <$> action).Yields m (change a) events := by
  have both : (action >>= fun a => Pure.pure (change a)).Yields m (change a) (events ++ []) :=
    yields.bind (pure (change a))
  simpa using both

end Yields

end Action

namespace Material

open GlslMaterial.Action (Yields)

variable {m : Material}

theorem inputFor_yields {rate kept : Rate} {key : Trait} {duplicates : Bool} {name : String}
    {after : Material} (added : m.addInput rate key duplicates = .ok ((name, kept), after)) :
    (inputFor rate key duplicates).Yields m (name, kept) [.input rate key duplicates] :=
  Yields.bind .read (.bind (.ofExcept added) (.bind (.perform _) (.pure _)))

theorem outputFor_yields {rate : Rate} {key : Trait} {duplicates created : Bool} {name : String}
    {after : Material} (added : m.addOutput rate key duplicates = .ok ((name, created), after)) :
    (outputFor rate key duplicates).Yields m (name, created) [.output rate key duplicates] :=
  Yields.bind .read (.bind (.ofExcept added) (.bind (.perform _) (.pure _)))

theorem writing_yields {stage : Stage} {marker : Marker} (event : Event)
    (has : ((m.started stage).source stage).hasMarker marker = true) :
    (writing stage marker event).Yields m () [.start stage, event] := by
  have late : (if ((m.started stage).source stage).hasMarker marker then Action.perform event
      else Action.fail (.misuse (.noMarker stage marker))).Yields (m.started stage) () [event] := by
    rw [if_pos has]
    exact .perform event
  exact Yields.bind (.perform (.start stage)) (.bind .read late)

theorem lookup_yields {viewer : NodeId} {key : Trait} {rate : Rate} {symbol bridged : Symbol}
    {events : List Event} (concrete : rate ≠ .auto)
    (found : m.find? viewer key rate = some symbol)
    (crosses : (bridge key symbol rate).Yields m bridged events) (fallback : Fallback) :
    (lookup viewer key rate fallback).Yields m (some bridged)
      (.ask viewer key rate fallback :: events) := by
  have same : m.concreteRate viewer rate = rate := if_pos concrete
  have seen : (seen? viewer key (m.concreteRate viewer rate)).Yields m (some bridged) events := by
    have whole : (seen? viewer key rate).Yields m (some bridged) ([] ++ (events ++ [])) := by
      apply Yields.bind .read
      rw [replay_nil, found]
      exact crosses.bind (.pure _)
    simpa [same] using whole
  cases fallback with
  | required =>
    have whole : (requiredSymbol viewer key rate).Yields m bridged
        ([.ask viewer key rate .required] ++ ([] ++ (events ++ []))) :=
      Yields.bind (.perform _) (.bind .read (seen.bind (.pure bridged)))
    simpa [lookup] using whole.map some
  | input =>
    have whole : (symbolOrInput viewer key rate).Yields m bridged
        ([.ask viewer key rate .input] ++ ([] ++ (events ++ []))) :=
      Yields.bind (.perform _) (.bind .read (seen.bind (.pure bridged)))
    simpa [lookup] using whole.map some
  | soft =>
    have whole : (symbolOrWarning viewer key rate).Yields m (some bridged)
        ([.ask viewer key rate .soft] ++ ([] ++ (events ++ []))) :=
      Yields.bind (.perform _) (.bind .read (seen.bind (.pure (some bridged))))
    simpa [lookup] using whole

end Material

end GlslMaterial
