import GlslMaterial.Proofs.History.Completing
import GlslMaterial.Proofs.History.Generation

/-!
What nodes show to others. Lookups, helpers and code show nothing, so that a law about what is shown
is kept by a node wherever it allows the symbols that the node shows in the end.
-/

set_option autoImplicit false

namespace GlslMaterial

/-- Whether an event neither shows a symbol to other nodes, nor asks for a helper, nor enters a
node, nor writes at the place of the version. -/
def Event.isQuiet : Event → Bool
  | .expose _ _ _ | .require _ _ _ | .visit _ | .stamp => false
  | .write _ marker _ => marker != .version
  | _ => true

/-- The law is only about what nodes show, about helpers, about the walk and about the version. -/
def Lenient (law : Law) (base : Material) : Prop :=
  ∀ past event, event.isQuiet = true → law base past event

/-- Whatever has happened before, the action keeps to the law, and its value is good. -/
abbrev Heeds {α : Type} (law : Law) (base : Material) (action : Action α) (good : α → Prop) :
    Prop :=
  action.Keeps law base (fun _ => True) (fun _ => True) good

open GlslMaterial.Action (Keeps Meets)

theorem Heeds.of_mem {α : Type} {law : Event → Prop} {m : Material} {action : Action α}
    {good : α → Prop} (heeds : Heeds (fun _ _ => law) m action good) {event : Event}
    (happened : event ∈ action.events m) : law event := by
  obtain ⟨before, after, cut⟩ := List.append_of_mem happened
  have lawful : Lawful (fun _ _ => law) m (action.events m) := (heeds [] trivial .nil).1
  rw [cut] at lawful
  exact lawful.allowed

/-- A law about the symbols that nodes show. -/
def Showing (allows : Trait → Symbol → Prop) : Law
  | _, _, .expose _ key symbol => allows key symbol
  | _, _, _ => True

section Showing

variable {allows : Trait → Symbol → Prop} {base : Material} {past : List Event}

theorem lenient_showing (allows : Trait → Symbol → Prop) (base : Material) :
    Lenient (Showing allows) base := by
  intro past event quiet
  cases event with
  | expose => cases quiet
  | _ => trivial

theorem Lawful.of_expose (lawful : Lawful (Showing allows) base past) {n : NodeId} {key : Trait}
    {symbol : Symbol} (exposed : .expose n key symbol ∈ past) : allows key symbol := by
  obtain ⟨before, after, rfl⟩ := List.append_of_mem exposed
  exact lawful.allowed

theorem Lawful.shown (lawful : Lawful (Showing allows) base past)
    (begins : ∀ n key symbol, (key, symbol) ∈ (base.node n).outputs → allows key symbol)
    (n : NodeId)
    (key : Trait) (symbol : Symbol)
    (member : (key, symbol) ∈ ((base.replay past).node n).outputs) : allows key symbol := by
  rcases Material.outputs_replay member with early | exposed
  · exact begins n key symbol early
  · exact lawful.of_expose exposed

end Showing

namespace Material

variable {law : Law} {base : Material}

theorem heeds_perform (lenient : Lenient law base) {event : Event} (quiet : event.isQuiet = true) :
    Heeds law base (Action.perform event) fun _ => True :=
  Keeps.perform (fun past _ => lenient past event quiet) fun _ _ => trivial

theorem heeds_ofExcept {α : Type} (value : Except Failure α) :
    Heeds law base (Action.ofExcept value) fun _ => True :=
  Keeps.ofExcept fun _ _ => trivial

theorem heeds_inputFor (lenient : Lenient law base) (rate : Rate) (key : Trait)
    (duplicates : Bool) : Heeds law base (inputFor rate key duplicates) fun _ => True := by
  refine Keeps.readThen fun _ _ => Keeps.bind (heeds_ofExcept _) fun _ _ => ?_
  exact Keeps.bind (heeds_perform lenient rfl) fun _ _ => Keeps.pure trivial

theorem heeds_outputFor (lenient : Lenient law base) (rate : Rate) (key : Trait)
    (duplicates : Bool) : Heeds law base (outputFor rate key duplicates) fun _ => True := by
  refine Keeps.readThen fun _ _ => Keeps.bind (heeds_ofExcept _) fun _ _ => ?_
  exact Keeps.bind (heeds_perform lenient rfl) fun _ _ => Keeps.pure trivial

theorem heeds_writing (lenient : Lenient law base) (stage : Stage) (marker : Marker) {event : Event}
    (quiet : event.isQuiet = true) :
    Heeds law base (writing stage marker event) fun _ => True := by
  refine Keeps.bind (heeds_perform lenient rfl) fun _ _ => Keeps.readThen fun _ _ => ?_
  split
  · exact heeds_perform lenient quiet
  · exact Keeps.fail

theorem heeds_commit (lenient : Lenient law base) (stage : Stage) {marker : Marker}
    (place : marker ≠ .version) (code : String) :
    Heeds law base (commit stage marker code) fun _ => True :=
  heeds_writing lenient stage marker (bne_iff_ne.2 place)

theorem heeds_assign (lenient : Lenient law base) (stage : Stage) (output value : String) :
    Heeds law base (assign stage output value) fun _ => True :=
  heeds_writing lenient stage .colorize rfl

theorem heeds_ensureFunction (lenient : Lenient law base) {stage : Stage} {name body : String}
    (asks : ∀ past, law base past (.require stage name body)) :
    Heeds law base (ensureFunction stage name body) fun _ => True := by
  have asked : Heeds law base (Action.perform (.require stage name body)) fun _ => True :=
    Keeps.perform (fun past _ => asks past) fun _ _ => trivial
  refine Keeps.readThen fun _ _ => Keeps.bind asked fun _ _ => ?_
  split
  · exact Keeps.pure trivial
  · exact heeds_commit lenient stage (by decide) _

theorem heeds_ensureFunctions (lenient : Lenient law base) {stage : Stage}
    {helpers : List (String × String)}
    (asks : ∀ helper ∈ helpers, ∀ past, law base past (.require stage helper.1 helper.2)) :
    Heeds law base (ensureFunctions stage helpers) fun _ => True :=
  Keeps.forM fun helper member => heeds_ensureFunction lenient (asks helper member)

/-- Lookups show nothing. -/
def heeding (lenient : Lenient law base) : Seeking where
  Holds action := Heeds law base action fun _ => True
  pure _ := Keeps.pure trivial
  bind first next := Keeps.bind first fun a _ => next a
  look := Keeps.map fun _ _ => Meets.read ⟨trivial, trivial⟩
  decayed _ := heeds_ofExcept _
  resolved _ := heeds_ofExcept _
  inputFor rate key := heeds_inputFor lenient rate key false
  outputFor rate key := heeds_outputFor lenient rate key false
  assign := heeds_assign lenient
  note {event} noted := heeds_perform lenient (by cases event <;> first | rfl | cases noted)

end Material

namespace Emission

open Material

variable {law : Law} {base : Material}

theorem heeds_ensureSimplex (lenient : Lenient law base) {stage : Stage}
    (asks : ∀ past name body, law base past (.require stage name body)) (dimensions : Nat) :
    Heeds law base (ensureSimplex stage dimensions) fun _ => True := by
  refine Keeps.bind (heeds_ofExcept _) fun ⟨helpers, name⟩ _ => ?_
  exact Keeps.bind (heeds_ensureFunctions lenient fun _ _ past => asks past _ _) fun _ _ =>
    Keeps.pure trivial

theorem heeds_operand (lenient : Lenient law base) (n : NodeId) (rate : Rate)
    (entry : VerbEntry) : Heeds law base (operand n rate entry) fun _ => True := by
  unfold operand
  split
  · refine Keeps.bind ((heeding lenient).symbolOrInput n _ rate) fun _ _ => ?_
    exact Keeps.bind (heeds_ofExcept _) fun _ _ => Keeps.pure trivial
  · exact heeds_ofExcept _
  · exact Keeps.fail

/-- What a lookup of a node gives under a law: a symbol that could be seen, or one for an input. -/
def lawfulGiven (law : Law) (base : Material) (n : NodeId) : Given where
  expr _ := True
  sampler _ := True
  symbol key symbol :=
    (∃ past own source, Lawful law base past ∧
      (base.replay past).find? n key own = some source ∧
      (symbol = source ∨ source.type.decay? = some symbol.type)) ∨
    ∃ typed, key.resolved = .ok typed ∧ (symbol.type = typed.type.getD .float ∨
      (typed.type.getD .float).decay? = some symbol.type)

/-- The law allows a node of this kind to ask for what it asks for, and to show what it shows. -/
structure Tolerates (law : Law) (base : Material) (n : NodeId) (config : Config) : Prop where
  asks : ∀ past stage name body, Helper (lawfulGiven law base n) n config name body →
    law base past (.require stage name body)
  shows : ∀ past piece, Publishes (lawfulGiven law base n) n config piece → ∀ shown ∈ piece.shown,
    law base past (.expose n (.typed shown.1 shown.2.type) shown.2)

theorem marker_of_publishes {given : Given} {n : NodeId} {config : Config} {piece : Piece}
    (publishes : Publishes given n config piece) : piece.marker ≠ .version := by
  cases publishes <;> first | exact (mainBody_place _).1 | nofun

/-- Nodes keep to a law about what they ask for and show. -/
def heedful (lenient : Lenient law base) {n : NodeId} {config : Config}
    (tolerates : Tolerates law base n config) : Discipline (lawfulGiven law base n) n config where
  Holds _ _ action good := Heeds law base action good
  expressive := Glsl.expressive_any
  readable _ := trivial
  callable _ := trivial
  fail := Keeps.fail
  ofExcept := Keeps.ofExcept
  bind := Keeps.bind
  look := Keeps.map fun _ _ => Meets.read ⟨trivial, trivial⟩
  opens := id
  warn _ := heeds_perform lenient rfl
  sampler := heeds_inputFor lenient _ _ _
  ask _ _ _ := heeds_perform lenient rfl
  seen? _ key := ((heeding lenient).seen? n key _).of_ok
    fun past lawful _ _ _ ended symbol same => by
    subst same
    rcases seen?_ok ended with ⟨-, impossible, -⟩ | ⟨source, _, found, ⟨⟩, crossed⟩
    · cases impossible
    · exact .inl ⟨past, _, source, lawful, found, (bridge_ok crossed).imp And.left And.right⟩
  inputSymbol _ key := ((heeding lenient).inputSymbol key _).of_ok fun _ _ _ _ _ ended =>
    .inr (inputSymbol_ok ended).2
  ensure helper := heeds_ensureFunction lenient fun past => tolerates.asks past _ _ _ helper
  publish publishes :=
    keeps_publish (heeds_commit lenient _ (marker_of_publishes publishes) _) fun each member =>
      Keeps.perform (fun past _ => tolerates.shows past _ publishes each member) fun _ _ => trivial

theorem heeds_emit (lenient : Lenient law base) {n : NodeId} {config : Config}
    (tolerates : Tolerates law base n config) : Heeds law base (emit n config) fun _ => True :=
  (heedful lenient tolerates).emit

end Emission

namespace Material

variable {law : Law} {base : Material}

theorem heeds_declareInputs (lenient : Lenient law base) (stage : Stage) :
    Heeds law base (declareInputs stage) fun _ => True := by
  refine Keeps.readThen fun _ _ => Keeps.bind (heeds_ofExcept _) fun lines _ => ?_
  exact Keeps.forM fun line _ => heeds_commit lenient stage (by decide) line

theorem heeds_declareOutput (lenient : Lenient law base) (stage : Stage) (b : Binding)
    (location : Nat) : Heeds law base (declareOutput stage b location) fun _ => True := by
  refine Keeps.bind (heeds_ofExcept _) fun line _ => ?_
  refine Keeps.bind (heeds_commit lenient stage (by decide) line) fun _ _ => ?_
  split
  · exact Keeps.pure trivial
  · have value : Heeds law base (outputValue stage b) fun _ => True := by
      refine Keeps.readThen fun _ _ => ?_
      split
      · exact heeds_ofExcept _
      · exact Keeps.bind (heeds_perform lenient rfl) fun _ _ => heeds_ofExcept _
    exact Keeps.bind value fun _ _ => heeds_assign lenient stage _ _

theorem heeds_declareWhereMentioned (lenient : Lenient law base) (names : List String)
    (declaration : String) :
    Heeds law base (declareWhereMentioned names declaration) fun _ => True := by
  refine Keeps.forM fun stage _ => Keeps.readThen fun _ _ => ?_
  split
  · exact heeds_commit lenient stage (by decide) _
  · exact Keeps.pure trivial

theorem heeds_declareUniforms (lenient : Lenient law base) :
    Heeds law base declareUniforms fun _ => True := by
  refine Keeps.bind (Keeps.forM fun rate _ => Keeps.readThen fun _ _ => ?_) fun _ _ => ?_
  · dsimp only
    split
    · exact Keeps.pure trivial
    · exact Keeps.bind (heeds_ofExcept _) fun _ _ => heeds_declareWhereMentioned lenient _ _
  · refine Keeps.readThen fun _ _ => Keeps.forM fun b _ => ?_
    exact heeds_declareWhereMentioned lenient _ _

theorem heeds_prepare (lenient : Lenient law base) : Heeds law base prepare fun _ => True := by
  have output : Heeds law base ensureOutput fun _ => True := by
    refine Keeps.readThen fun _ _ => ?_
    split
    · exact Keeps.map (heeds_outputFor lenient _ _ _)
    · exact Keeps.pure trivial
  have interface : Heeds law base declareInterface fun _ => True := by
    refine Keeps.forM fun stage _ => Keeps.bind (heeds_declareInputs lenient stage) fun _ _ => ?_
    exact Keeps.readThen fun _ _ => Keeps.forM fun ⟨b, location⟩ _ =>
      heeds_declareOutput lenient stage b location
  have position : Heeds law base ensurePosition fun _ => True := by
    refine Keeps.readThen fun _ _ => ?_
    split
    · exact Keeps.pure trivial
    · exact heeds_commit lenient _ (by decide) _
  refine Keeps.bind output fun _ _ => Keeps.bind interface fun _ _ => ?_
  exact Keeps.bind position fun _ _ => heeds_declareUniforms lenient

theorem heeds_complete (lenient : Lenient law base) (stamps : ∀ past, law base past .stamp) :
    Heeds law base complete fun _ => True := by
  rw [complete_eq]
  exact Keeps.bind (heeds_prepare lenient) fun _ _ =>
    Keeps.perform (fun past _ => stamps past) fun _ _ => trivial

theorem heeds_generateNode (visits : ∀ past n, law base past (.visit n))
    (emits : ∀ n, Heeds law base (Emission.emit n (base.node n).config) fun _ => True)
    (n : NodeId) : Heeds law base (Emission.generateNode n) fun _ => True :=
  Emission.keeps_generateNode
    (fun _ => Keeps.perform (fun past _ => visits past _) fun _ _ => trivial) emits n

theorem Reached.lawful (lenient : Lenient law base) (stamps : ∀ past, law base past .stamp)
    (visits : ∀ past n, law base past (.visit n))
    (emits : ∀ n, Heeds law base (Emission.emit n (base.node n).config) fun _ => True)
    {past : List Event} (reached : Reached base past) : Lawful law base past := by
  have whole : Heeds law base generate fun _ => True := by
    refine Keeps.readThen fun _ _ => ?_
    split
    · exact Keeps.pure trivial
    · refine Keeps.bind (heeds_perform lenient rfl) fun _ _ => ?_
      exact Keeps.bind (heeds_generateNode visits emits root) fun _ _ =>
        heeds_complete lenient stamps
  induction reached with
  | start => exact .nil
  | node before n early ih =>
    have written := (heeds_generateNode visits emits n _ trivial ih).1
    exact written.of_isPrefix (List.prefix_append_right_inj _ |>.2 early)
  | all before early ih =>
    have written := (whole _ trivial ih).1
    exact written.of_isPrefix (List.prefix_append_right_inj _ |>.2 early)

/-- A law about what is shown is kept if it allows all that nodes show, whatever they are given. -/
theorem Reached.lawful_showing {allows : Trait → Symbol → Prop}
    (shown : ∀ n (piece : Emission.Piece),
      Emission.Publishes (Emission.lawfulGiven (Showing allows) base n) n (base.node n).config
        piece →
        ∀ each ∈ piece.shown, allows (.typed each.1 each.2.type) each.2)
    {past : List Event} (reached : Reached base past) : Lawful (Showing allows) base past :=
  reached.lawful (lenient_showing allows base) (fun _ => trivial) (fun _ _ => trivial) fun n =>
    Emission.heeds_emit (lenient_showing allows base)
      ⟨fun _ _ _ _ _ => trivial, fun _ => shown n⟩

end Material

end GlslMaterial
