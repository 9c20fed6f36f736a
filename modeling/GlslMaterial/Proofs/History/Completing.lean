import GlslMaterial.Proofs.Emission.Tidy

/-!
Completion writes in order. It declares what the tables have, gives every output that is not wired
its value, and puts the position of a vertex where there is none. It begins no pixel stage that
would put out nothing.
-/

set_option autoImplicit false

namespace GlslMaterial

open Text (madeOf madeOf_append)
open Glsl (isInline isOrdinary isUnmarked admits_inline admits_ordinary lacks_of_inline
  lacks_of_ordinary lacks_of_unmarked madeOf_literal)

namespace Binding

theorem inline_spelling {b : Binding} {spelling : String} (spelled : b.spelling = .ok spelling) :
    madeOf isInline spelling = true := by
  obtain ⟨type, -, given⟩ := eq_ok_of_bind (eq_ok_of_withContext spelled)
  exact Glsl.expressive_inline.spelling given

theorem inline_declaration {b : Binding} (named : isSpelled b.name = true) {direction : String}
    (word : madeOf isInline direction = true) {location : Nat} {line : String}
    (made : b.declaration direction location = .ok line) : madeOf isInline line = true := by
  obtain ⟨spelling, spelled, made⟩ := eq_ok_of_bind made
  rw [← Except.ok.inj made]
  simp only [toString_string, madeOf_append, admits_inline.nat, word, inline_spelling spelled,
    inline_of_isSpelled named, Bool.and_true, Bool.and_eq_true]
  and_intros <;> exact madeOf_literal (by decide)

theorem isSpelled_field {b : Binding} (named : isSpelled b.name = true) :
    isSpelled b.field = true := by
  show madeOf Glsl.isSymbolChar (String.ofList _) = true
  rw [Text.madeOf_ofList, List.all_reverse]
  apply List.all_eq_true.2
  intro c member
  have inside : c ∈ b.name.toList := List.mem_reverse.1 (List.takeWhile_subset _ member)
  exact List.all_eq_true.1 named c inside

end Binding

namespace Material

open GlslMaterial.Action (Meets Keeps)

variable {code : String} {stage : Stage} {b : Binding} {walk : List Event}

theorem lacks_uniformBlock {rate : UniformRate} {members : List Binding}
    (named : ∀ b ∈ members, isSpelled b.name = true)
    (made : uniformBlock rate members = .ok code) : lacks reserved code = true := by
  unfold uniformBlock at made
  obtain ⟨fields, listed, made⟩ := eq_ok_of_bind made
  have title := inline_of_isSpelled (Rate.uniform rate).isSpelled_name
  have each : fields.all (madeOf isOrdinary) = true := by
    apply List.all_eq_true.2
    intro field member
    obtain ⟨b, known, written⟩ := exists_of_mem_mapM listed member
    obtain ⟨spelling, spelled, written⟩ := eq_ok_of_bind written
    rw [← Except.ok.inj written]
    have word := Binding.inline_spelling spelled
    have name := inline_of_isSpelled (Binding.isSpelled_field (named b known))
    simp only [toString_string, madeOf_append, admits_ordinary.madeOf word,
      admits_ordinary.madeOf name, Bool.and_true, Bool.and_eq_true]
    and_intros <;> exact madeOf_literal (by decide)
  rw [← Except.ok.inj made]
  apply lacks_of_ordinary
  simp only [ordinary_block, List.all_append, each, List.all_cons, List.all_nil, toString_string,
    madeOf_append, admits_ordinary.nat, admits_ordinary.madeOf title, Bool.and_true,
    Bool.and_eq_true]
  and_intros <;> exact madeOf_literal (by decide)

theorem mem_fullscreenVertex :
    (positionStatement "vec4(fullscreen * 2.0 - 1.0, 0.0, 1.0)").toList ∈
      Source.codeLines fullscreenVertex := by
  have statement : positionStatement "vec4(fullscreen * 2.0 - 1.0, 0.0, 1.0)" =
      "gl_Position = vec4(fullscreen * 2.0 - 1.0, 0.0, 1.0);" := by decide
  rw [statement, Source.codeLines, fullscreenVertex, Text.block, String.toList_intercalate]
  simp only [List.map_cons, List.map_nil, -String.reduceToList]
  iterate 4 rw [String.toList_ofList]
  decide

theorem writable_fullscreenVertex {base : Material} :
    Writable base .vertex .position fullscreenVertex := by
  have unmarked : madeOf isUnmarked fullscreenVertex = true := by
    simp only [fullscreenVertex, unmarked_block, List.all_cons, List.all_nil, Bool.and_true,
      Bool.and_eq_true]
    and_intros <;> exact madeOf_literal (by decide)
  exact .of_directives (by decide) (lacks_of_unmarked unmarked) fun _ =>
    .inr ⟨rfl, _, mem_fullscreenVertex⟩

/-- The declarations of the tables of `m` are being written. All its inputs are taken in by stages
that have code, a pixel stage puts something out, and of the outputs only those that are `owing`
have not been given their values. -/
structure Completing (base m : Material) (owing : List Binding) (past : List Event) : Prop where
  inputs : (base.replay past).inputs = m.inputs
  outputs : (base.replay past).outputs = m.outputs
  consumed : ∀ i ∈ m.inputs, ∀ stage, i.rate = .stage stage → (base.replay past).Uses stage
  produced : (base.replay past).Uses .pixel → ∃ o ∈ m.outputs, o.rate = .stage .pixel
  valued : ∀ o ∈ m.outputs, ∀ stage, o.rate = .stage stage →
    o ∈ owing ∧ o.wired = false ∨ assigned past stage o.name ≠ []
  unvalued : ∀ o ∈ owing, ∀ stage, o.rate = .stage stage → o.wired = false →
    assigned past stage o.name = []

namespace Completing

variable {base m : Material} {owing : List Binding} {past : List Event}

/-- An event that neither changes the tables nor gives an output its value. -/
theorem quiet (completing : Completing base m owing past) (event : Event)
    (other : event.isInterface = false)
    (silent : ∀ stage output, assigned [event] stage output = [])
    (backed : event.opens .pixel = true → ∃ o ∈ m.outputs, o.rate = .stage .pixel) :
    Completing base m owing (past ++ [event]) := by
  obtain ⟨inputs, outputs, -⟩ := (base.replay past).apply_interface other
  have reached : base.replay (past ++ [event]) = (base.replay past).apply event :=
    replay_append base past [event]
  have same (stage : Stage) (output : String) :
      assigned (past ++ [event]) stage output = assigned past stage output := by
    rw [assigned_append, silent, List.append_nil]
  constructor
  · rw [reached, inputs, completing.inputs]
  · rw [reached, outputs, completing.outputs]
  · intro i member stage here
    rw [reached]
    exact (completing.consumed i member stage here).apply event
  · intro uses
    rw [reached, uses_apply_iff] at uses
    exact uses.elim completing.produced backed
  · intro o member stage here
    rw [same]
    exact completing.valued o member stage here
  · intro o member stage here unwired
    rw [same]
    exact completing.unvalued o member stage here unwired

theorem skip {b : Binding} (completing : Completing base m (b :: owing) past)
    (wired : b.wired = true) : Completing base m owing past := by
  refine ⟨completing.inputs, completing.outputs, completing.consumed, completing.produced,
    fun o member stage here => ?_, fun o member => completing.unvalued o (.tail b member)⟩
  rcases completing.valued o member stage here with ⟨due, unwired⟩ | given
  · rcases List.mem_cons.1 due with rfl | later
    · simp [wired] at unwired
    · exact .inl ⟨later, unwired⟩
  · exact .inr given

theorem pay {b : Binding} {stage : Stage} (completing : Completing base m (b :: owing) past)
    (here : b.rate = .stage stage) (apart : (b :: owing).Pairwise Binding.NameApart)
    (value : String) : Completing base m owing (past ++ [.assign stage b.name value]) := by
  have reached : base.replay (past ++ [.assign stage b.name value]) =
      (base.replay past).apply (.assign stage b.name value) := replay_append base past _
  have plain : (Event.assign stage b.name value).isInterface = false := rfl
  obtain ⟨inputs, outputs, -⟩ := (base.replay past).apply_interface plain
  constructor
  · rw [reached, inputs, completing.inputs]
  · rw [reached, outputs, completing.outputs]
  · intro i member other there
    rw [reached]
    exact (completing.consumed i member other there).apply _
  · intro uses
    rw [reached, uses_apply_iff] at uses
    exact uses.elim completing.produced fun impossible => by simp [Event.opens] at impossible
  · intro o member other there
    rcases completing.valued o member other there with ⟨due, unwired⟩ | given
    · rcases List.mem_cons.1 due with rfl | later
      · obtain rfl : stage = other := Rate.stage.inj (here.symm.trans there)
        right
        simp [assigned]
      · exact .inl ⟨later, unwired⟩
    · right
      rw [assigned_append]
      exact List.append_ne_nil_of_left_ne_nil given _
  · intro o member other there unwired
    have before := completing.unvalued o (.tail b member) other there unwired
    have different : ¬ (stage = other ∧ b.name = o.name) := by
      rintro ⟨rfl, same⟩
      exact List.rel_of_pairwise_cons apart member (here.trans there.symm) same
    rw [assigned_append, before]
    simp [assigned, different]

end Completing

variable {base m : Material} {owing : List Binding}

theorem completing_commit {marker : Marker} (writable : Writable base stage marker code)
    (backed : stage = .pixel → ∃ o ∈ m.outputs, o.rate = .stage .pixel) :
    Keeps Orderly base (Completing base m owing) (Completing base m owing)
      (commit stage marker code) fun _ => True := by
  intro past completing
  have started := completing.quiet (.start stage) rfl (fun _ _ => rfl) fun opens =>
    backed (by simpa [Event.opens] using opens)
  have uses := base.uses_replay_start past stage
  refine Meets.writing trivial ⟨uses, writable⟩ ⟨trivial, ?_⟩
  exact started.quiet (.write stage marker code) rfl (fun _ _ => rfl) fun impossible => by
    simp [Event.opens] at impossible

theorem completing_warn (warning : Warning) :
    Keeps Orderly base (Completing base m owing) (Completing base m owing) (warn warning)
      fun _ => True :=
  Keeps.perform (fun _ _ => trivial) fun _ completing =>
    completing.quiet _ rfl (fun _ _ => rfl) fun impossible => by simp [Event.opens] at impossible

theorem exists_declaration {bindings : List Binding} {direction : String} {lines : List String}
    (made : ((located bindings).mapM fun (b, location) => b.declaration direction location) =
      .ok lines) {line : String} (member : line ∈ lines) :
    ∃ b ∈ bindings, ∃ location, b.declaration direction location = .ok line := by
  obtain ⟨⟨b, location⟩, listed, same⟩ := exists_of_mem_mapM made member
  exact ⟨b, (List.of_mem_zip listed).1, location, same⟩

theorem completing_declareInputs (spelled : m.Spelled) (stage : Stage) :
    Keeps Orderly base (Completing base m owing) (Completing base m owing)
      (declareInputs stage) fun _ => True := by
  refine Keeps.readFrom fun past _ completing => ?_
  rw [inputLines_congr completing.inputs]
  refine Keeps.bind (Keeps.ofExcept fun lines made => made) fun lines made => ?_
  refine Keeps.forM fun line member => ?_
  obtain ⟨b, listed, location, declared⟩ := exists_declaration made member
  obtain ⟨known, here⟩ := mem_filter_rate.1 listed
  have inline := Binding.inline_declaration (spelled.input known) (by decide) declared
  refine completing_commit (.of_reserved (by decide) (lacks_of_inline inline)) fun pixel => ?_
  exact completing.produced (completing.consumed b known .pixel (pixel ▸ here))

theorem inline_outputSource? {past : List Event} (fresh : base.Fresh) (orderly : InOrder base past)
    {id : TraitId} {symbol : Symbol}
    (found : (base.replay past).outputSource? id stage = some symbol) :
    madeOf isInline symbol.expr = true := by
  rcases Option.or_eq_some_iff.1 found with shown | ⟨-, given⟩
  · obtain ⟨n, -, shown⟩ := List.exists_of_findSome?_eq_some shown
    obtain ⟨⟨key, other⟩, chosen, rfl⟩ := Option.map_eq_some_iff.1 shown
    rcases outputs_replay (List.mem_of_find?_eq_some chosen) with early | exposed
    · simp [fresh.shown] at early
    · exact orderly.inline_of_expose exposed
  · obtain ⟨rate, -, given⟩ := List.exists_of_findSome?_eq_some given
    obtain ⟨b, listed, given⟩ := List.exists_of_findSome?_eq_some given
    split at given
    · obtain ⟨type, -, rfl⟩ := Option.map_eq_some_iff.1 given
      have known := (mem_filter_rate.1 listed).1
      exact inline_of_isSpelled ((fresh.spelled.replay past).input known)
    · simp at given

theorem completing_outputValue (fresh : base.Fresh) (stage : Stage) (b : Binding) :
    Keeps Orderly base (Completing base m owing) (Completing base m owing)
      (outputValue stage b) fun value => madeOf isInline value = true := by
  refine Keeps.readThen fun past orderly => ?_
  split
  · rename_i symbol found
    exact Keeps.ofExcept fun value given =>
      Glsl.expressive_inline.convertSymbol (inline_outputSource? fresh orderly found) given
  · refine Keeps.bind (completing_warn _) fun _ _ => ?_
    exact Keeps.ofExcept fun value given =>
      Glsl.expressive_inline.convert (madeOf_literal (by decide)) (madeOf_literal (by decide)) given

theorem completing_declareOutput (fresh : base.Fresh) (spelled : m.Spelled)
    (known : b ∈ m.outputs) (here : b.rate = .stage stage) (location : Nat)
    (apart : (b :: owing).Pairwise Binding.NameApart) :
    Keeps Orderly base (Completing base m (b :: owing)) (Completing base m owing)
      (declareOutput stage b location) fun _ => True := by
  have assigns {value : String} (inline : madeOf isInline value = true)
      (unwired : b.wired = false) :
      Keeps Orderly base (Completing base m (b :: owing)) (Completing base m owing)
        (assign stage b.name value) fun _ => True := by
    intro past completing
    have started := completing.quiet (.start stage) rfl (fun _ _ => rfl) fun opens => by
      obtain rfl : stage = .pixel := by simpa [Event.opens] using opens
      exact ⟨b, known, here⟩
    have uses := base.uses_replay_start past stage
    have bound : Bound (base.replay (past ++ [.start stage])).outputs (.stage stage) b.key
        b.name := by
      rw [started.outputs]
      exact ⟨b, known, here, rfl, b.key.agrees_self⟩
    have first := started.unvalued b List.mem_cons_self stage here unwired
    exact Meets.writing trivial ⟨uses, ⟨b.key, bound⟩, first, inline⟩
      ⟨trivial, started.pay here apart value⟩
  refine Keeps.bind (Keeps.ofExcept fun line made => made) fun line made => ?_
  have inline := Binding.inline_declaration (spelled.output known) (by decide) made
  refine Keeps.bind (completing_commit (.of_reserved (by decide) (lacks_of_inline inline))
    fun pixel => ⟨b, known, pixel ▸ here⟩) fun _ _ => ?_
  split
  · rename_i wired
    exact (Keeps.pure trivial).of_before fun _ completing => completing.skip wired
  · rename_i unwired
    refine Keeps.bind (completing_outputValue fresh stage b) fun value given => ?_
    exact assigns given (by simpa using unwired)

theorem map_fst_located (bindings : List Binding) : (located bindings).map Prod.fst = bindings :=
  List.map_fst_zip (by simp)

theorem completing_declareOutputs (fresh : base.Fresh) (spelled : m.Spelled) (stage : Stage)
    (apart : (m.outputsAt (.stage stage) ++ owing).Pairwise Binding.NameApart) :
    Keeps Orderly base (Completing base m (m.outputsAt (.stage stage) ++ owing))
      (Completing base m owing) (declareOutputs stage) fun _ => True := by
  refine Keeps.readFrom fun past _ completing => ?_
  have table : (base.replay past).outputsAt (.stage stage) = m.outputsAt (.stage stage) := by
    rw [outputsAt, outputsAt, completing.outputs]
  rw [table]
  -- What is owing are the outputs that are left to declare and those of later stages.
  have whole : (located (m.outputsAt (.stage stage))).map Prod.fst ++ owing =
      m.outputsAt (.stage stage) ++ owing := by
    rw [map_fst_located]
  rw [← whole] at apart ⊢
  refine Keeps.forM_rest (fun rest => Completing base m (rest.map Prod.fst ++ owing)) ?_
  rintro ⟨b, location⟩ rest ends
  have listed : b ∈ m.outputsAt (.stage stage) :=
    (List.of_mem_zip (ends.subset List.mem_cons_self)).1
  obtain ⟨known, here⟩ := mem_filter_rate.1 listed
  have still := apart.sublist ((ends.sublist.map Prod.fst).append_right owing)
  exact completing_declareOutput fresh spelled known here location still

/-- The outputs of some stages, in the order in which they are declared. -/
def outputsOf (m : Material) (stages : List Stage) : List Binding :=
  stages.flatMap fun stage => m.outputsAt (.stage stage)

theorem Formed.pairwise_outputsOf (formed : m.Formed) {stages : List Stage}
    (once : stages.Nodup) : (m.outputsOf stages).Pairwise Binding.NameApart := by
  refine List.pairwise_flatMap.2 ⟨fun stage _ => formed.apart_outputs.filter _, ?_⟩
  refine once.imp fun {a b} different x first y second same => ?_
  have here := (mem_filter_rate.1 first).2
  have there := (mem_filter_rate.1 second).2
  exact absurd (Rate.stage.inj (here.symm.trans (same.trans there))) different

theorem completing_declareInterface (fresh : base.Fresh) (spelled : m.Spelled)
    (formed : m.Formed) :
    Keeps Orderly base (Completing base m (m.outputsOf Stage.all)) (Completing base m [])
      declareInterface fun _ => True := by
  refine Keeps.forM_rest (fun stages => Completing base m (m.outputsOf stages)) ?_
  intro stage rest ends
  have once : (stage :: rest).Nodup := List.Nodup.sublist ends.sublist (by decide)
  refine Keeps.bind (completing_declareInputs spelled stage) fun _ _ => ?_
  exact completing_declareOutputs fresh spelled stage (formed.pairwise_outputsOf once)

theorem uses_of_mentions {m : Material} {word : String}
    (mentioned : (m.source stage).mentions word = true) : m.Uses stage := by
  unfold Uses Source.isEmpty
  cases text : (m.source stage).text with
  | nil =>
    simp [Source.mentions, text, Text.hasKeyword, Text.splitKeyword, Text.splitKeywordFrom]
      at mentioned
  | cons => rfl

theorem completing_declareWhereMentioned (names : List String) {declaration : String}
    (clean : lacks reserved declaration = true) :
    Keeps Orderly base (Completing base m owing) (Completing base m owing)
      (declareWhereMentioned names declaration) fun _ => True := by
  refine Keeps.forM fun stage _ => ?_
  refine Keeps.readFrom fun past _ completing => ?_
  split
  · rename_i mentioned
    obtain ⟨name, -, here⟩ := List.any_eq_true.1 mentioned
    refine completing_commit (.of_reserved (by decide) clean) fun pixel => ?_
    exact completing.produced (pixel ▸ uses_of_mentions here)
  · exact Keeps.pure trivial

theorem lacks_samplerDeclaration (named : isSpelled b.name = true) (slot : Nat) :
    lacks reserved s!"layout(set = 2, binding = {slot}) uniform sampler2D {b.name};" = true := by
  refine lacks_of_inline ?_
  simp only [toString_string, madeOf_append, admits_inline.nat, inline_of_isSpelled named,
    Bool.and_true, Bool.and_eq_true]
  and_intros <;> exact madeOf_literal (by decide)

theorem completing_declareUniforms (spelled : m.Spelled) :
    Keeps Orderly base (Completing base m owing) (Completing base m owing)
      declareUniforms fun _ => True := by
  have block (rate : UniformRate) : Keeps Orderly base (Completing base m owing)
      (Completing base m owing) (declareBlock rate) fun _ => True := by
    refine Keeps.readFrom fun past _ completing => ?_
    dsimp only
    split
    · exact Keeps.pure trivial
    · refine Keeps.bind (Keeps.ofExcept fun code made => made) fun code made => ?_
      have named : ∀ b ∈ ((base.replay past).inputsAt (.uniform rate)).filter
          fun b => !b.key.isTexture, isSpelled b.name = true := by
        intro b member
        have known := (mem_filter_rate.1 (List.mem_filter.1 member).1).1
        exact spelled.input (completing.inputs ▸ known)
      exact completing_declareWhereMentioned _ (lacks_uniformBlock named made)
  refine Keeps.bind (Keeps.forM fun rate _ => block rate) fun _ _ => ?_
  refine Keeps.readFrom fun past _ completing => ?_
  refine Keeps.forM fun b member => ?_
  have known := (mem_filter_rate.1 (List.mem_filter.1 member).1).1
  exact completing_declareWhereMentioned [b.name]
    (lacks_samplerDeclaration (spelled.input (completing.inputs ▸ known)) _)

theorem mem_outputsOf_all {m : Material} {o : Binding} :
    o ∈ m.outputsOf Stage.all ↔ o ∈ m.outputs ∧ ∃ stage, o.rate = .stage stage := by
  simp only [outputsOf, List.mem_flatMap, mem_filter_rate, outputsAt]
  constructor
  · rintro ⟨stage, -, known, here⟩
    exact ⟨known, stage, here⟩
  · rintro ⟨known, stage, here⟩
    exact ⟨stage, stage.mem_all, known, here⟩

/-- The outputs of a material whose declarations begin after `walk`: those that are wired were there
before, and the others have not been assigned. -/
structure Parted (base : Material) (walk : List Event) (m : Material) : Prop where
  early : ∀ o ∈ m.outputs, o.wired = true → o ∈ (base.replay walk).outputs
  late : ∀ o ∈ m.outputs, o.wired = false → ∀ stage, o.rate = .stage stage →
    assigned walk stage o.name = []

variable {past : List Event}

theorem Completing.begin (fresh : base.Fresh) (orderly : InOrder base past)
    (consumed : ∀ i ∈ (base.replay past).inputs, ∀ stage, i.rate = .stage stage →
      (base.replay past).Uses stage)
    (produced : (base.replay past).Uses .pixel →
      ∃ o ∈ (base.replay past).outputs, o.rate = .stage .pixel)
    (unvalued : ∀ o ∈ (base.replay past).outputs, o.wired = false → ∀ stage,
      o.rate = .stage stage → assigned past stage o.name = []) :
    Completing base (base.replay past) ((base.replay past).outputsOf Stage.all) past := by
  refine ⟨rfl, rfl, consumed, produced, ?_, ?_⟩
  · intro o member stage here
    cases wired : o.wired with
    | false => exact .inl ⟨mem_outputsOf_all.2 ⟨member, stage, here⟩, rfl⟩
    | true =>
      obtain ⟨other, _, value, there, given, -⟩ := orderly.assigned_of_wired fresh member wired
      obtain rfl : other = stage := Rate.stage.inj (there.symm.trans here)
      exact .inr (by simp [given])
  · intro o member stage here unwired
    exact unvalued o (mem_outputsOf_all.1 member).1 unwired stage here

theorem rate_ne_of_lacksOutput {m : Material} (lacking : m.lacksOutput = true) {o : Binding}
    (member : o ∈ m.outputs) : o.rate ≠ .stage .pixel := by
  intro here
  have listed : o ∈ m.outputsAt (.stage .pixel) := mem_filter_rate.2 ⟨member, here⟩
  have some : m.outputs.isEmpty = false := List.isEmpty_eq_false_iff.2 (List.ne_nil_of_mem member)
  have also : (m.outputsAt (.stage .pixel)).isEmpty = false :=
    List.isEmpty_eq_false_iff.2 (List.ne_nil_of_mem listed)
  simp [lacksOutput, some, also] at lacking

theorem exists_output_of_uses {m : Material} (provided : ¬ m.lacksOutput = true)
    (uses : m.Uses .pixel) : ∃ o ∈ m.outputs, o.rate = .stage .pixel := by
  have used : (m.source .pixel).isEmpty = false := uses
  have some : m.outputsAt (.stage .pixel) ≠ [] := by
    intro none
    exact provided (by simp [lacksOutput, used, none])
  obtain ⟨o, listed⟩ := List.exists_mem_of_ne_nil _ some
  exact ⟨o, mem_filter_rate.1 listed⟩

def askColour : Event :=
  .output (.stage .pixel) (.typed .color .vec4) false

theorem exists_colour {m after : Material} {result : String × Bool} (lacking : m.lacksOutput = true)
    (added : m.addOutput (.stage .pixel) (.typed .color .vec4) false = .ok (result, after)) :
    ∃ b : Binding, b.rate = .stage .pixel ∧ b.wired = false ∧
      (m.apply askColour).outputs = m.outputs ++ [b] := by
  obtain ⟨typed, -, -, asked, -⟩ := addOutput_eq_ok added
  obtain ⟨a, there, at_pixel, -⟩ := asked.exists_mem
  show ∃ b : Binding, _ ∧ _ ∧
    (m.withOutput (.stage .pixel) (.typed .color .vec4) false).outputs = _
  rcases m.withOutput_cases (.stage .pixel) (.typed .color .vec4) false with
    same | ⟨key, -, -, same⟩
  · have nothing : after = m := by simpa [withOutput, added] using same
    exact absurd at_pixel (rate_ne_of_lacksOutput lacking (nothing ▸ there))
  · rw [same]
    exact ⟨_, rfl, rfl, rfl⟩

theorem parted_askColour (orderly : InOrder base walk)
    (settled : (base.replay walk).Settled Emission.closed)
    (lacking : (base.replay walk).lacksOutput = true) (here : b.rate = .stage .pixel)
    (unwired : b.wired = false)
    (outputs : (base.replay (walk ++ [askColour])).outputs = (base.replay walk).outputs ++ [b]) :
    Parted base walk (base.replay (walk ++ [askColour])) := by
  constructor
  · intro o member flag
    rw [outputs] at member
    rcases List.mem_append.1 member with old | new
    · exact old
    · simp [List.mem_singleton.1 new, unwired] at flag
  · intro o member flag stage rate
    rw [outputs] at member
    rcases List.mem_append.1 member with old | new
    · simp [settled.wired o old] at flag
    · rw [List.mem_singleton.1 new, here] at rate
      obtain rfl := Rate.stage.inj rate
      exact orderly.assigned_eq_nil fun a known at_pixel =>
        absurd at_pixel (rate_ne_of_lacksOutput lacking known)

theorem meets_ensureOutput (fresh : base.Fresh)
    (settled : (base.replay walk).Settled Emission.closed) :
    Meets Orderly base walk ensureOutput fun _ past =>
      Completing base (base.replay past) ((base.replay past).outputsOf Stage.all) past ∧
        Parted base walk (base.replay past) := by
  apply Meets.of_lawful
  intro orderly
  have consumed : ∀ i ∈ (base.replay walk).inputs, ∀ stage, i.rate = .stage stage →
      (base.replay walk).Uses stage := fun i member stage here =>
    (settled.consumed i member stage here).elim False.elim id
  apply Meets.bind
  apply Meets.read
  split
  · rename_i lacking
    apply Meets.map
    apply Meets.outputFor trivial
    intro result after added
    obtain ⟨b, here, unwired, outputs⟩ := exists_colour lacking added
    have reached : base.replay (walk ++ [askColour]) = (base.replay walk).apply askColour :=
      replay_append base walk [askColour]
    rw [← reached] at outputs
    have parted := parted_askColour orderly settled lacking here unwired outputs
    have inputs : (base.replay (walk ++ [askColour])).inputs = (base.replay walk).inputs := by
      rw [reached]
      exact ((base.replay walk).withOutput_frame _ _ _).1
    show Completing base (base.replay (walk ++ [askColour])) _ (walk ++ [askColour]) ∧ _
    refine ⟨.begin fresh (orderly.snoc trivial) ?_ (fun _ => ⟨b, ?_, here⟩) ?_, parted⟩
    · intro i member stage rate
      rw [reached]
      exact (consumed i (inputs ▸ member) stage rate).apply askColour
    · exact outputs ▸ List.mem_append_right _ (List.mem_singleton_self b)
    · intro o member flag stage rate
      rw [assigned_append, parted.late o member flag stage rate]
      rfl
  · rename_i provided
    have unwired : ∀ o ∈ (base.replay walk).outputs, o.wired = false → ∀ stage,
        o.rate = .stage stage → assigned walk stage o.name = [] := by
      intro o member flag
      simp [settled.wired o member] at flag
    exact Meets.pure ⟨.begin fresh orderly consumed (exists_output_of_uses provided) unwired,
      ⟨fun _ member _ => member, unwired⟩⟩

/-- The position of a vertex has been given by a statement at its place. -/
def Positioned (past : List Event) : Prop :=
  ∃ value, (positionStatement value).toList ∈ sectionsOf .vertex past .position

theorem Positioned.mono {earlier later : List Event} (positioned : Positioned earlier)
    (grows : earlier <+: later) : Positioned later := by
  obtain ⟨value, line⟩ := positioned
  obtain ⟨more, rfl⟩ := grows
  refine ⟨value, ?_⟩
  rw [sectionsOf, committed_append, List.flatMap_append]
  exact List.mem_append_left _ line

theorem positioned_of_mem {value : String} (member : code ∈ committed .vertex .position past)
    (line : (positionStatement value).toList ∈ Source.codeLines code) : Positioned past :=
  ⟨value, List.mem_flatMap.2 ⟨code, member, line⟩⟩

theorem InOrder.positioned (fresh : base.Fresh) (orderly : InOrder base past)
    (mentioned : ((base.replay past).source .vertex).mentions "gl_Position" = true) :
    Positioned past := by
  have known : "gl_Position" ∈ reserved := by decide
  obtain ⟨marker, code, member, has⟩ := orderly.exists_committed_of_infix fresh known
    (fun line listed => (Stage.vertex.notInfix_of_mem_lines listed).2)
    (Text.infix_of_hasKeyword mentioned)
  rcases orderly.of_mem_committed fresh member with writable | ⟨-, clean, -⟩
  · rcases writable.position rfl with free | ⟨rfl, value, line⟩
    · exact absurd has (lacks_iff.1 free _ (List.mem_singleton_self _))
    · exact positioned_of_mem member line
  · exact absurd has (lacks_iff.1 clean _ known)

theorem meets_ensurePosition (fresh : base.Fresh) (completing : Completing base m owing past) :
    Meets Orderly base past ensurePosition fun _ later =>
      Completing base m owing later ∧ Positioned later := by
  apply Meets.of_lawful
  intro orderly
  apply Meets.bind
  apply Meets.read
  split
  · rename_i mentioned
    exact Meets.pure ⟨completing, InOrder.positioned fresh orderly mentioned⟩
  · have uses := base.uses_replay_start past .vertex
    have covers : Meets Orderly base past (commit .vertex .position fullscreenVertex)
        fun _ later => Positioned later :=
      Meets.writing trivial ⟨uses, writable_fullscreenVertex⟩
        (positioned_of_mem (by simp [committed, Event.code?]) mem_fullscreenVertex)
    have keeps := completing_commit writable_fullscreenVertex (by simp) past completing
    exact (keeps.and covers).mono fun _ _ _ both => ⟨both.1.2, both.2⟩

/-- Completion up to the version. -/
def prepare : Action Unit := do
  ensureOutput
  declareInterface
  ensurePosition
  declareUniforms

theorem complete_eq : complete = prepare >>= fun _ => Action.perform .stamp := by
  simp only [complete, prepare, bind_assoc]

/-- A material that is ready for its version: the pixel stage puts something out, every output has
its value, from the walk if it is wired and from completion if it is not, and the vertex stage gives
the position. -/
structure Prepared (base : Material) (walk past : List Event) : Prop where
  produced : (base.replay past).Uses .pixel →
    ∃ o ∈ (base.replay past).outputs, o.rate = .stage .pixel
  valued : ∀ o ∈ (base.replay past).outputs, ∀ stage, o.rate = .stage stage →
    assigned past stage o.name ≠ []
  parted : Parted base walk (base.replay past)
  positioned : Positioned past

theorem Completing.prepared (completing : Completing base m [] past)
    (parted : Parted base walk m) (positioned : Positioned past) : Prepared base walk past := by
  refine ⟨?_, ?_, ⟨?_, ?_⟩, positioned⟩ <;> rw [completing.outputs]
  · exact completing.produced
  · intro o member stage here
    rcases completing.valued o member stage here with ⟨owed, -⟩ | given
    · simp at owed
    · exact given
  · exact parted.early
  · exact parted.late

theorem meets_prepare (fresh : base.Fresh) (settled : (base.replay walk).Settled Emission.closed) :
    Meets Orderly base walk prepare fun _ past => Prepared base walk past := by
  apply Meets.bind
  apply (meets_ensureOutput fresh settled).mono
  rintro _ opened _ ⟨completing, parted⟩
  have spelled := fresh.spelled.replay opened
  have formed := fresh.formed.replay opened
  apply Meets.bind
  apply (completing_declareInterface fresh spelled formed opened completing).mono
  rintro _ declared _ ⟨-, completing⟩
  apply Meets.bind
  apply (meets_ensurePosition fresh completing).mono
  rintro _ placed _ ⟨completing, positioned⟩
  apply (completing_declareUniforms spelled placed completing).grows.mono
  rintro _ later _ ⟨grows, -, completing⟩
  exact completing.prepared parted (positioned.mono grows)

end Material

end GlslMaterial
