import GlslMaterial.Proofs.Emission.Wording
import GlslMaterial.Proofs.Twin.Parallel

/-!
Nodes are written in parallel: what a node looks up, puts out and writes into the main function of
its stage does not depend on the code of fractals, and no node enters another.
-/

set_option autoImplicit false

namespace GlslMaterial

open GlslMaterial.Action (Parallel)

/-- The action runs in parallel with itself. -/
abbrev Steady {α : Type} (before after : Stage → Prop) (action : Action α) (good : α → Prop) :
    Prop :=
  Parallel (Material.Twin before) (Material.Twin after) action action good

namespace Material

variable {free : Stage → Prop} {m twin : Material}

namespace Twin

variable (alike : Twin free m twin)

include alike

theorem node (n : NodeId) : (m.node n).outline = (twin.node n).outline := by
  rw [← node_outline, alike.outline, node_outline]

theorem config (n : NodeId) : (m.node n).config.uncoded = (twin.node n).config.uncoded :=
  congrArg Node.config (alike.node n)

theorem stageOf (n : NodeId) : m.stageOf n = twin.stageOf n := by
  rw [← stageOf_outline, alike.outline, stageOf_outline]

end Twin

/-- What is asked for does not depend on the code of fractals. -/
theorem steady_asking {α : Type} {search : Material → Except Failure (α × Material)} {event : Event}
    (outlined : ∀ m, (search m.outline).map Prod.fst = (search m).map Prod.fst) :
    Steady free free (do
      let found ← Action.ofExcept (search (← read))
      Action.perform event
      return found.1) fun _ => True := by
  have shape : (do
      let found ← Action.ofExcept (search (← read))
      Action.perform event
      return found.1) = (do
      let result ← Action.ofExcept ((search (← read)).map Prod.fst)
      Action.perform event
      return result) := by
    refine congrArg (read >>= ·) (funext fun m => ?_)
    cases search m <;> rfl
  rw [shape]
  refine Parallel.read fun m twin alike => ?_
  rw [← outlined m, alike.outline, outlined twin]
  exact Parallel.bind (Parallel.ofExcept fun _ _ => trivial) fun _ _ =>
    Parallel.bind (parallel_perform _) fun _ _ => Parallel.done

theorem steady_inputFor (rate : Rate) (key : Trait) (duplicates : Bool) :
    Steady free free (inputFor rate key duplicates) fun _ => True := by
  refine steady_asking fun m => ?_
  rw [addInput_outline]
  cases m.addInput rate key duplicates <;> rfl

theorem steady_outputFor (rate : Rate) (key : Trait) (duplicates : Bool) :
    Steady free free (outputFor rate key duplicates) fun _ => True := by
  refine steady_asking fun m => ?_
  rw [addOutput_outline]
  cases m.addOutput rate key duplicates <;> rfl

/-- Lookups do not depend on the code of fractals. -/
def searching (free : Stage → Prop) : Seeking where
  Holds action := Steady free free action fun _ => True
  pure _ := Parallel.pure trivial
  bind first next := Parallel.bind first fun a _ => next a
  look := by
    rw [← bind_pure_comp]
    refine Parallel.read fun m twin alike => ?_
    rw [alike.outline]
    exact Parallel.done
  decayed _ := Parallel.ofExcept fun _ _ => trivial
  resolved _ := Parallel.ofExcept fun _ _ => trivial
  inputFor rate key := steady_inputFor rate key false
  outputFor rate key := steady_outputFor rate key false
  assign stage output value := (parallel_assign stage output value).of_before
    fun _ _ alike => alike.mono fun _ => .inl
  note _ := parallel_perform _

end Material

namespace Emission

open Material

variable {free : Stage → Prop}

theorem parallel_of_open {α : Type} {stage : Stage} {after : Stage → Prop}
    {first second : Action α} {good : α → Prop}
    (parallel : Parallel (Twin (Opening free stage)) (Twin after) first second good) :
    Parallel (Twin free) (Twin after) first second good :=
  parallel.of_before fun _ _ alike => alike.mono fun _ => .inl

variable {n : NodeId} {given : Given} {config : Config}

theorem discard_ensureSimplex {dimensions : Nat} {helpers : List (String × String)} {name : String}
    (given : Noise.functions dimensions = .ok (helpers, name)) (stage : Stage) :
    discard (ensureSimplex stage dimensions) = ensureFunctions stage helpers := by
  have known : ensureSimplex stage dimensions =
      (do ensureFunctions stage helpers; return name) := by
    rw [ensureSimplex, given]
    rfl
  simp [known, discard, map_const]

theorem helps_ensureNoise (stage : Stage) (code : String) :
    Helps stage (ensureNoise stage code) := by
  have simplex {dimensions : Nat} {helpers : List (String × String)} {name : String}
      (given : Noise.functions dimensions = .ok (helpers, name)) :
      Helps stage (discard (ensureSimplex stage dimensions)) := by
    rw [discard_ensureSimplex given]
    exact .ensureFunctions helpers
  have last : Helps stage (if Text.contains "SimplexNoise3D".toList code.toList
      then discard (ensureSimplex stage 3) else pure ()) := by
    split
    · exact simplex rfl
    · exact .pure
  unfold ensureNoise
  dsimp only
  split
  · exact .bind (simplex rfl) last
  · exact last

theorem marker_mem_of_publishes {piece : Piece} (publishes : Publishes given n config piece) :
    piece.marker ∈ piece.stage.markers := by
  have body (stage : Stage) : Marker.mainBody stage ∈ stage.markers := by cases stage <;> decide
  cases publishes <;> first | exact body _ | exact body .pixel | exact body .vertex | skip
  all_goals exact (by decide : Marker.position ∈ Stage.vertex.markers)

theorem steady_publish {piece : Piece} (publishes : Publishes given n config piece) :
    Steady (Opening free piece.stage) free (publish n piece) fun _ => True := by
  have writes : Steady (Opening free piece.stage) free
      (commit piece.stage piece.marker piece.code) fun _ => True :=
    parallel_commit (marker_mem_of_publishes publishes) piece.code
  have shows (first : TraitId × Symbol) (rest : List (TraitId × Symbol)) :
      Steady free free (showAll n first rest) fun _ => True := by
    induction rest generalizing first with
    | nil => exact parallel_perform _
    | cons next rest ih => exact Parallel.bind (parallel_perform _) fun _ _ => ih next
  unfold publish
  split
  · exact writes
  · exact Parallel.bind writes fun _ _ => shows _ _

/-- Nothing is known of what a node is given. -/
def unknownGiven : Given where
  expr _ := True
  sampler _ := True
  symbol _ _ := True

/-- The stages that are free at a place within a node. -/
def freeAt (free : Stage → Prop) : Option Stage → Stage → Prop
  | none => free
  | some stage => Opening free stage

/-- Nodes run in parallel with themselves. -/
def parallel (free : Stage → Prop) (n : NodeId) (config : Config) :
    Discipline unknownGiven n config where
  Holds before after action good := Steady (freeAt free before) (freeAt free after) action good
  expressive := Glsl.expressive_any
  readable _ := trivial
  callable _ := trivial
  fail := Parallel.fail
  ofExcept := Parallel.ofExcept
  bind := Parallel.bind
  look := (searching _).look
  opens holds := holds.of_before fun _ _ alike => Twin.mono (fun _ => Or.inl) alike
  warn _ := parallel_perform _
  sampler := steady_inputFor _ _ true
  ask _ _ _ := parallel_perform _
  seen? _ key := ((searching _).seen? n key _).mono fun _ _ _ _ => trivial
  inputSymbol _ key := (searching _).inputSymbol key _
  ensure _ := Helps.parallel (.ensureFunction _ _) (.ensureFunction _ _)
  publish := steady_publish

theorem parallel_emitFractal (n : NodeId) (fractal : Fractal) (code : String) :
    Parallel (Twin free) (Twin free) (emitFractal n fractal)
      (emitFractal n { fractal with code }) fun _ => True := by
  refine Parallel.read fun m twin alike => ?_
  rw [alike.stageOf]
  refine Parallel.bind (Parallel.ofExcept fun _ _ => trivial) fun stage _ => ?_
  refine parallel_of_open (?_ : Parallel (Twin (Opening free stage)) _ _ _ _)
  have place : Steady (Opening free stage) (Opening free stage) (domain n stage) fun _ => True :=
    (parallel free n .root).mono (fun _ _ => trivial) ((parallel free n .root).domain stage)
  refine Parallel.bind place fun point _ => ?_
  refine Parallel.bind (Helps.parallel (helps_ensureNoise stage fractal.code)
    (helps_ensureNoise stage code)) fun _ _ => ?_
  refine Parallel.bind (Helps.parallel (.ensureFunction _ _) (.ensureFunction _ _)) fun _ _ => ?_
  exact Parallel.bind (parallel_commit (by cases stage <;> decide) _) fun _ _ => parallel_perform _

/-- What nodes write that differ at most in the code of a fractal. -/
theorem parallel_emit (n : NodeId) {other : Config}
    (same : config.uncoded = other.uncoded) :
    Parallel (Twin free) (Twin free) (emit n config) (emit n other) fun _ => True := by
  by_cases coded : ∃ fractal, config = .fractal fractal
  · obtain ⟨fractal, rfl⟩ := coded
    obtain ⟨code, rfl⟩ : ∃ code, other = .fractal { fractal with code } := by
      cases other with
      | fractal second =>
        simp only [Config.uncoded, Config.fractal.injEq, Fractal.mk.injEq] at same
        obtain ⟨octaves, base, -, output⟩ := same
        exact ⟨second.code, by rw [octaves, base, output]⟩
      | _ => simp [Config.uncoded] at same
    exact parallel_emitFractal n fractal code
  · have plain : config.uncoded = config := by
      cases config with
      | fractal fractal => exact absurd ⟨fractal, rfl⟩ coded
      | _ => rfl
    obtain rfl : config = other := by
      cases other with
      | fractal second => exact absurd ⟨_, plain.symm.trans same⟩ coded
      | _ => exact plain.symm.trans same
    exact (parallel free n config).emit

/-- What is below a node is visited in parallel. -/
theorem steady_walk (fuel : Nat) (n : NodeId) :
    Steady free free (walk emit fuel n) fun _ => True := by
  induction fuel generalizing n with
  | zero => exact Parallel.done
  | succ fuel ih =>
    refine Parallel.read fun m twin alike => ?_
    have visited : (m.node n).generated = (twin.node n).generated :=
      (congrArg Node.generated (alike.node n) :)
    have children : (m.node n).children = (twin.node n).children :=
      (congrArg Node.children (alike.node n) :)
    have scene : (m.node n).config.isScene = (twin.node n).config.isScene := by
      rw [← Config.isScene_uncoded, alike.config, Config.isScene_uncoded]
    have last : Parallel (Twin free) (Twin free) (emit n (m.node n).config)
        (emit n (twin.node n).config) fun _ => True := parallel_emit n (alike.config n)
    dsimp only
    rw [visited, children, scene]
    by_cases again : (twin.node n).generated = true
    · rw [if_pos again, if_pos again]
      exact Parallel.done
    rw [if_neg again, if_neg again]
    refine Parallel.bind (parallel_perform _) fun _ _ => ?_
    by_cases leaf : (twin.node n).config.isScene = true
    · rw [if_pos leaf, if_pos leaf]
      exact last
    · rw [if_neg leaf, if_neg leaf]
      exact Parallel.bind (Parallel.forM fun child _ => ih child) fun _ _ => last

theorem steady_generateNode (n : NodeId) : Steady free free (generateNode n) fun _ => True := by
  refine Parallel.read fun m twin alike => ?_
  have size : m.nodes.size = twin.nodes.size := by
    rw [← size_outline, alike.outline, size_outline]
  rw [size]
  exact steady_walk twin.nodes.size n

end Emission

end GlslMaterial
