import GlslMaterial.Material.Event

/-!
Actions: operations that make events happen to a material, one after the other, until they are done
or fail. What happened before a failure stays.
-/

set_option autoImplicit false

namespace GlslMaterial

/-- What happened during an action, and how it ended. -/
structure Outcome (α : Type) where
  events : List Event
  result : EStateM.Result Failure Material α

namespace Outcome

variable {α : Type}

/-- The material that an action leaves. -/
def material (o : Outcome α) : Material :=
  match o.result with
  | .ok _ m => m
  | .error _ m => m

def after (earlier : List Event) (o : Outcome α) : Outcome α :=
  { o with events := earlier ++ o.events }

@[simp] theorem material_after (earlier : List Event) (o : Outcome α) :
    (o.after earlier).material = o.material := rfl

@[simp] theorem events_after (earlier : List Event) (o : Outcome α) :
    (o.after earlier).events = earlier ++ o.events := rfl

@[simp] theorem result_after (earlier : List Event) (o : Outcome α) :
    (o.after earlier).result = o.result := rfl

end Outcome

/-- An operation on a material. What it leaves is the material after its events. -/
structure Action (α : Type) where
  run : Material → Outcome α
  replays : ∀ m, (run m).material = m.replay (run m).events

namespace Action

variable {α β : Type}

/-- How an action ends on a material. -/
def result (action : Action α) (m : Material) : EStateM.Result Failure Material α :=
  (action.run m).result

instance : CoeFun (Action α) fun _ => Material → EStateM.Result Failure Material α :=
  ⟨result⟩

/-- What happens when an action runs on a material. -/
def events (action : Action α) (m : Material) : List Event :=
  (action.run m).events

def done (a : α) : Action α where
  run m := ⟨[], .ok a m⟩
  replays _ := rfl

/-- Goes on with `next` where `first` succeeds. -/
def andThen (first : Action α) (next : α → Action β) : Action β where
  run m :=
    match (first.run m).result with
    | .ok a middle => ((next a).run middle).after (first.run m).events
    | .error failure middle => ⟨(first.run m).events, .error failure middle⟩
  replays m := by
    have start := first.replays m
    cases ended : (first.run m).result with
    | ok a middle =>
      have reached : middle = m.replay (first.run m).events := by
        simpa [Outcome.material, ended] using start
      simp only [Outcome.material_after, Outcome.events_after, Material.replay_append, ← reached]
      exact (next a).replays middle
    | error failure middle =>
      simpa [Outcome.material, ended] using start

instance : Monad Action where
  pure := done
  bind := andThen

/-- Fails without doing anything. -/
def fail (failure : Failure) : Action α where
  run m := ⟨[], .error failure m⟩
  replays _ := rfl

/-- The material as it is. -/
instance : MonadReaderOf Material Action where
  read := ⟨fun m => ⟨[], .ok m m⟩, fun _ => rfl⟩

/-- Makes an event happen. -/
def perform (event : Event) : Action Unit where
  run m := ⟨[event], .ok () (m.apply event)⟩
  replays _ := rfl

/-- A result that does not depend on the material. -/
def ofExcept : Except Failure α → Action α
  | .ok a => pure a
  | .error failure => fail failure

end Action

namespace Material

open GlslMaterial.Action (perform fail ofExcept)

def warn (warning : Warning) : Action Unit :=
  perform (.warn warning)

def inputFor (rate : Rate) (key : Trait) (duplicates : Bool) : Action (String × Rate) := do
  let (result, _) ← ofExcept ((← read).addInput rate key duplicates)
  perform (.input rate key duplicates)
  return result

/-- Name of the output for a trait, and whether it is new. -/
def outputFor (rate : Rate) (key : Trait) (duplicates : Bool) : Action (String × Bool) := do
  let (result, _) ← ofExcept ((← read).addOutput rate key duplicates)
  perform (.output rate key duplicates)
  return result

/-- Starts a stage and makes an event happen that puts code at one of its markers. The stage is
started even if it lacks the marker. -/
def writing (stage : Stage) (marker : Marker) (event : Event) : Action Unit := do
  perform (.start stage)
  if ((← read).source stage).hasMarker marker then perform event
  else fail (.misuse (.noMarker stage marker))

def commit (stage : Stage) (marker : Marker) (code : String) : Action Unit :=
  writing stage marker (.write stage marker code)

/-- Writes the statement that gives an output its value. -/
def assign (stage : Stage) (output value : String) : Action Unit :=
  writing stage .colorize (.assign stage output value)

/-- Writes a helper once for each stage, under the name by which it is remembered. -/
def ensureFunction (stage : Stage) (name body : String) : Action Unit := do
  let known := (← read).hasFunction stage name
  perform (.require stage name body)
  unless known do
    commit stage .functions (String.ofList (Text.trimRight body.toList) ++ "\n")

/-- Writes several helpers in order. -/
def ensureFunctions (stage : Stage) (helpers : List (String × String)) : Action Unit :=
  helpers.forM fun (name, body) => ensureFunction stage name body

end Material

end GlslMaterial
