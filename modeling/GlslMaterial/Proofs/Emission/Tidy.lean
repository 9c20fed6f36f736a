import GlslMaterial.Proofs.Emission.Wording
import GlslMaterial.Proofs.History.Settled

/-!
Nodes write in order. The inputs of a node are those of its own stage, and that stage has code as
soon as the node has written its own, so that the material is settled again after every node.
-/

set_option autoImplicit false

namespace GlslMaterial.Emission

open GlslMaterial.Action (Keeps Meets)
open Material
open Text (madeOf madeOf_append)
open Glsl (isInline isOrdinary isUnmarked admits_inline admits_ordinary admits_unmarked
  expressive_inline lacks_of_inline lacks_of_ordinary lacks_of_unmarked madeOf_literal)

variable {base : Material} {free : Stage → Prop}

/-- No stage is open between two nodes. -/
def closed (_ : Stage) : Prop :=
  False

theorem mainBody_place (stage : Stage) :
    Marker.mainBody stage ≠ .version ∧ Marker.mainBody stage ≠ .colorize := by
  cases stage <;> decide

variable {stage : Stage} {marker : Marker} {code : String} {n : NodeId}

theorem tidy_commit_own (writable : Writable base stage marker code) :
    Tidy base (· = stage) closed (commit stage marker code) fun _ => True :=
  (tidy_commit writable).of_before fun _ settled => settled.mono fun _ => .inr

/-- All that a node is given is made of characters of expressions. -/
def inlineGiven : Given where
  expr text := madeOf isInline text = true
  sampler name := madeOf isInline name = true
  symbol _ symbol := madeOf isInline symbol.expr = true

theorem writable_fractalCall (stage : Stage) (n : NodeId) {function point : String}
    (named : madeOf isInline function = true) (unmarked : madeOf isUnmarked point = true)
    (inline : stage = .vertex → madeOf isInline point = true) :
    Writable base stage (.mainBody stage) s!"float fbm{n} = {function}({point});" := by
  have made (p : Char → Bool) (admits : Glsl.Admits p) (inside : madeOf p point = true) :
      madeOf p s!"float fbm{n} = {function}({point});" = true := by
    simp only [toString_string, madeOf_append, admits.nat, admits.madeOf named, inside,
      Bool.and_true, Bool.and_eq_true]
    and_intros <;> exact admits.madeOf (by decide)
  by_cases vertex : stage = .vertex
  · exact .of_reserved (mainBody_place stage)
      (lacks_of_inline (made isInline admits_inline (inline vertex)))
  · exact .of_directives (mainBody_place stage)
      (lacks_of_unmarked (made isUnmarked admits_unmarked unmarked)) fun same => absurd same vertex

theorem writable_of_publishes {config : Config} {shown : List (TraitId × Symbol)}
    (publishes : Publishes inlineGiven n config ⟨stage, marker, code, shown⟩) :
    Writable base stage marker code := by
  have unmarked {code : String} (made : madeOf isUnmarked code = true) :
      Writable base .pixel .texturize code :=
    .of_directives (by decide) (lacks_of_unmarked made) nofun
  have own (stage : Stage) {code : String} (clean : lacks reserved code = true) :
      Writable base stage (.mainBody stage) code := .of_reserved (mainBody_place stage) clean
  have inline (stage : Stage) {code : String} (made : madeOf isInline code = true) :
      Writable base stage (.mainBody stage) code := own stage (lacks_of_inline made)
  have text {text : String} (known : inlineGiven.expr text) : madeOf isInline text = true := known
  cases publishes with
  | flat camera size => exact unmarked (unmarked_flatRay n (text size))
  | perspective camera size viewed projected =>
    exact unmarked (unmarked_perspectiveRay n (text size) (text viewed) (text projected))
  | panoramic camera size viewed wide =>
    exact unmarked (unmarked_panoramicRay n (text size) (text viewed) (text wide))
  | place camera placed moved =>
    rcases moved with rfl | ⟨projection, view, projected, viewed, rfl⟩
    · apply inline .vertex
      simp only [toString_string, madeOf_append, admits_inline.nat, text placed, Bool.and_true,
        Bool.and_eq_true]
      and_intros <;> exact madeOf_literal (by decide)
    · apply inline .vertex
      simp only [toString_string, madeOf_append, admits_inline.nat, text placed, text projected,
        text viewed, Bool.true_and, Bool.and_true, Bool.and_eq_true]
      and_intros <;> exact madeOf_literal (by decide)
  | vertices raster placed => exact writable_positionStatement (text placed)
  | pixels raster clipped size named =>
    refine unmarked (unmarked_rasterCode n (text clipped) (text size)
      (lacks_rasterFunction n raster).1
      (inline_lineWidth (text size) raster.topology) fun array member => ?_)
    obtain ⟨id, same⟩ := named array member
    exact same ▸ inline_arrayName _ id
  | surface raymarch stage start direction =>
    exact own stage (lacks_raymarchCode n stage (text start) (text direction))
  | @direct texture stage sampler uv named placed =>
    have known : madeOf isInline sampler = true := by
      rcases named with rfl | named
      · rfl
      · exact named
    apply inline stage
    simp only [toString_string, madeOf_append, admits_inline.nat, known, text placed, Bool.and_true,
      Bool.and_eq_true]
    and_intros <;> exact madeOf_literal (by decide)
  | blend texture stage timed placed =>
    exact own stage (lacks_blendCode n _ (text timed) (text placed))
  | still transform stage placed | moved transform stage placed =>
    apply inline stage
    simp only [toString_string, madeOf_append, admits_inline.nat, text placed, Bool.and_true,
      Bool.and_eq_true]
    and_intros <;> exact madeOf_literal (by decide)
  | animated transform stage placed timed =>
    apply own stage
    apply lacks_of_ordinary
    simp only [ordinary_block, List.all_cons, List.all_nil, toString_string, madeOf_append,
      admits_ordinary.nat, admits_ordinary.madeOf (text timed),
      admits_ordinary.madeOf (text placed),
      Bool.and_true, Bool.and_eq_true]
    and_intros <;> exact madeOf_literal (by decide)
  | value wrapped stage _ _ _ inside spelled =>
    apply inline stage
    simp only [toString_string, madeOf_append, admits_inline.nat,
      expressive_inline.spelling spelled,
      text inside, Bool.true_and, Bool.and_true, Bool.and_eq_true]
    and_intros <;> exact madeOf_literal (by decide)
  | sum fractal stage named placed =>
    subst named
    apply writable_fractalCall stage n (inline_numbered (by decide) n)
    · rcases placed with made | ⟨-, resolution, made, rfl⟩
      · exact admits_unmarked.madeOf (text made)
      · simp only [toString_string, madeOf_append, admits_unmarked.madeOf (text made),
          Bool.and_true]
        exact madeOf_literal (by decide)
    · rintro rfl
      exact placed.elim text fun elsewhere => by cases elsewhere.1

theorem inline_of_publishes {given : Given} {config : Config} {piece : Piece}
    (publishes : Publishes given n config piece) :
    ∀ each ∈ piece.shown, madeOf isInline each.2.expr = true := by
  have words : ∀ stem ∈ shownStems, madeOf isInline stem = true := by decide
  have parts : ∀ part ∈ [".uv", ".normal", ".depth"], madeOf isInline part = true := by decide
  refine shown_of_publishes (p := fun expr _ => madeOf isInline expr = true) ?_ ?_
    (madeOf_literal (by decide))
    (fun m => expressive_inline.components (madeOf_literal (by decide)) _) (inline_spread n)
    publishes
  · exact fun stem member _ => inline_numbered (words stem member) n
  · intro part member _
    simp only [toString_string, madeOf_append, admits_inline.nat, parts part member, Bool.and_true]
    exact madeOf_literal (by decide)

theorem code_of_ofConstruct {d : Construct} {fractal : Fractal}
    (made : Config.ofConstruct d = .ok (.fractal fractal)) :
    d.kind = .fbm ∧ (fractal.code = Fractal.defaultCode ∨ fractal.code ∈ d.codes) := by
  obtain ⟨kind, read⟩ := Config.of_ofConstruct made
  obtain ⟨octaves, -, read⟩ := eq_ok_of_bind read
  obtain ⟨weight, -, read⟩ := eq_ok_of_bind read
  obtain ⟨exposed, -, read⟩ := eq_ok_of_bind read
  rw [← Except.ok.inj read]
  refine ⟨kind.symm, ?_⟩
  cases code : d.traitString? .code with
  | none => exact .inl rfl
  | some text => exact .inr (Construct.mem_codes code)

theorem code_of_fractal {c : Construct} {m : Material} (built : ofConstruct c = .ok m)
    {fractal : Fractal} (known : (m.node n).config = .fractal fractal) :
    fractal.code = Fractal.defaultCode ∨ fractal.code ∈ c.fractalCodes := by
  rcases configured_ofConstruct built n with bare | ⟨d, below, made⟩
  · rw [known] at bare
    cases bare
  · rw [known] at made
    obtain ⟨kind, code⟩ := code_of_ofConstruct made
    have listed : d ∈ c.tree.filter fun d => d.kind = .fbm := by simp [below, kind]
    exact code.imp_right fun given => List.mem_flatMap.2 ⟨d, listed, given⟩

theorem spares_ofConstruct {c : Construct} {m : Material} (built : ofConstruct c = .ok m)
    {words : List String} (known : ∀ word ∈ words, word ∈ reserved)
    (clean : ∀ code ∈ c.fractalCodes, lacks words code = true) : m.Spares words := by
  intro n fractal coded
  rcases code_of_fractal built coded with default | given
  · rw [default]
    exact lacks_mono known Fractal.lacks_defaultCode
  · exact clean _ given

/-- The stage that is open at a place within a node. -/
def opened : Option Stage → Stage → Prop
  | none => closed
  | some stage => (· = stage)

theorem Suits.open {rate : Rate} (suits : Suits stage rate) : Open (· = stage) rate := by
  have concrete := suits.ne_auto
  rcases suits with rfl | uniform
  · exact open_stage stage
  · refine ⟨concrete, fun other here => ?_⟩
    simp [here, Rate.isUniform, Rate.uniform?] at uniform

/-- Nodes leave a material settled. -/
def tidy (fresh : base.Fresh) (spares : base.Spares intrusive) (n : NodeId) :
    Discipline inlineGiven n (base.node n).config where
  Holds before after action good := Tidy base (opened before) (opened after) action good
  expressive := expressive_inline
  readable := id
  callable known := (Noise.lacks_functions known).1
  fail := Keeps.fail
  ofExcept := Keeps.ofExcept
  bind := Keeps.bind
  look := Keeps.map fun _ settled => Meets.read ⟨trivial, settled⟩
  opens holds := holds.of_before fun _ settled => settled.mono fun _ => False.elim
  warn := tidy_warn
  sampler := (tidy_inputFor_open fresh (open_uniform .renderable) _ true).mono
    fun _ => inline_of_isSpelled
  ask _ _ _ := tidy_perform (fun _ => trivial) rfl
  seen? suits key := tidy_seen? fresh n key suits.open
  inputSymbol suits key := tidy_inputSymbol fresh key suits.open
  ensure helper := tidy_ensureFunction spares _ _ fun _ known spared =>
    lacks_helper helper (fun _ named => named) known fun fractal => spared n fractal
  publish publishes := keeps_publish (tidy_commit_own (writable_of_publishes publishes))
    fun shown member => tidy_perform (fun _ => inline_of_publishes publishes shown member) rfl

theorem tidy_generateNode (fresh : base.Fresh) (spares : base.Spares intrusive) (n : NodeId) :
    Tidy base closed closed (generateNode n) fun _ => True :=
  keeps_generateNode (fun _ => tidy_perform (fun _ => trivial) rfl)
    (fun n => (tidy fresh spares n).emit) n

end GlslMaterial.Emission
