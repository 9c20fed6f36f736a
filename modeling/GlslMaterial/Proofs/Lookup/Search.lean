import GlslMaterial.Proofs.History.Lawful
import GlslMaterial.Proofs.Twin.Outline

/-!
Lookups, whatever is to be shown of them. A lookup searches the nodes, brings what it has seen over
from another stage, and asks for inputs and outputs. What holds of these steps, and of actions that
are built of actions of which it holds, holds of every lookup.
-/

set_option autoImplicit false

namespace GlslMaterial

/-- Whether an event only notes what has been looked up. -/
def Event.isNote : Event → Bool
  | .ask _ _ _ _ | .warn _ | .wire _ _ | .link _ _ _ _ => true
  | _ => false

namespace Material

open GlslMaterial.Action (perform ofExcept)

/-- What follows a search: a symbol that has been seen is given, and else there is a fallback. -/
def seenOr {α : Type} (given : Symbol → α) (fallback : Action α) : Option Symbol → Action α
  | some symbol => pure (given symbol)
  | none => fallback

/-- The form that all lookups have. -/
def search {α : Type} (viewer : NodeId) (key : Trait) (rate : Rate) (kind : Fallback)
    (given : Symbol → α) (fallback : Rate → Action α) : Action α := do
  perform (.ask viewer key rate kind)
  let rate := (← read).concreteRate viewer rate
  seenOr given (fallback rate) (← seen? viewer key rate)

/-- A way to speak about what lookups do. -/
structure Seeking where
  Holds {α : Type} (action : Action α) : Prop
  pure {α : Type} (a : α) : Holds (Pure.pure a)
  bind {α β : Type} {first : Action α} {next : α → Action β} :
    Holds first → (∀ a, Holds (next a)) → Holds (first >>= next)
  look : Holds (outline <$> read)
  decayed (type : DataType) : Holds (ofExcept type.decayed)
  resolved (key : Trait) : Holds (ofExcept key.resolved)
  inputFor (rate : Rate) (key : Trait) : Holds (inputFor rate key false)
  outputFor (rate : Rate) (key : Trait) : Holds (outputFor rate key false)
  assign (stage : Stage) (output value : String) : Holds (assign stage output value)
  note {event : Event} (noted : event.isNote = true) : Holds (perform event)

namespace Seeking

variable (s : Seeking) {α : Type} (viewer : NodeId) (key : Trait) (rate : Rate)

theorem readThen {next : Material → Action α} (same : ∀ m : Material, next m.outline = next m)
    (holds : ∀ m, s.Holds (next m)) : s.Holds (MonadReader.read >>= next) := by
  have shape : (MonadReader.read >>= next) = (outline <$> MonadReader.read) >>= next := by
    rw [bind_map_left]
    exact congrArg _ (funext fun m => (same m).symm)
  rw [shape]
  exact s.bind s.look holds

theorem bridge (symbol : Symbol) : s.Holds (bridge key symbol rate) := by
  unfold Material.bridge
  split
  · split
    · exact s.pure _
    refine s.bind (s.decayed _) fun type => s.bind ?_ fun output => s.bind ?_ fun _ => s.pure _
    · refine s.bind (s.outputFor _ _) fun (_, created) => ?_
      dsimp only
      split
      · exact s.bind (s.assign _ _ _) fun _ => s.bind (s.note rfl) fun _ => s.pure _
      · exact s.pure _
    · exact s.bind (s.inputFor _ _) fun _ => s.bind (s.note rfl) fun _ => s.pure _
  · exact s.pure _

theorem inputSymbol : s.Holds (inputSymbol key rate) := by
  refine s.bind (s.resolved key) fun key => ?_
  dsimp only
  split
  · exact s.bind (s.inputFor _ _) fun _ => s.pure _
  split
  · exact s.bind (s.inputFor _ _) fun _ => s.bridge _ _ _
  · exact s.bind (s.inputFor _ _) fun _ => s.pure _

theorem seen? : s.Holds (seen? viewer key rate) := by
  refine s.readThen (fun m => by rw [find?_outline]) fun m => ?_
  split
  · exact s.bind (s.bridge _ _ _) fun _ => s.pure _
  · exact s.pure _

theorem search (kind : Fallback) (given : Symbol → α) {fallback : Rate → Action α}
    (falls : ∀ rate, s.Holds (fallback rate)) :
    s.Holds (search viewer key rate kind given fallback) := by
  refine s.bind (s.note rfl) fun _ => ?_
  refine s.readThen (fun m => by rw [concreteRate_outline]) fun m => ?_
  refine s.bind (s.seen? viewer key _) fun found => ?_
  cases found with
  | some symbol => exact s.pure _
  | none => exact falls _

theorem symbolOrInput : s.Holds (symbolOrInput viewer key rate) :=
  s.search viewer key rate .input id fun rate => s.inputSymbol key rate

theorem symbolOrWarning : s.Holds (symbolOrWarning viewer key rate) := by
  show s.Holds (Material.search viewer key rate .soft some fun rate => do
    warn (.notVisible key.id rate viewer ((← read).node viewer).config.kind)
    return none)
  refine s.search viewer key rate .soft some fun rate => ?_
  refine s.readThen (fun m => by rw [node_outline, Node.outline, Config.kind_uncoded]) fun m => ?_
  exact s.bind (s.note rfl) fun _ => s.pure _

end Seeking

end Material

end GlslMaterial
