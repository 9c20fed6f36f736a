import GlslMaterial.Proofs.History.Version
import GlslMaterial.Proofs.Interface.Declaration

/-!
Uniforms: each block and each sampler is declared in the stages that mention it, and in no other.
The declarations are put into the very text that is searched for the names that they declare; that
none of them says anything of the names of later ones makes the search give the same answer as
before.
-/

set_option autoImplicit false

namespace GlslMaterial

open GlslMaterial.Action (perform ofExcept)

/-- Whether an event puts no marker into the code of a stage. -/
def Event.isPlain : Event → Bool
  | .write _ _ code => Source.isPlainCode code
  | .assign _ name value => Source.isPlainCode (Material.assignment name value)
  | .define _ text => Source.isPlainCode s!"#define {text}"
  | _ => true

/-- A source that has not been started, or has its code in sections without markers. -/
def Stage.Divides (stage : Stage) (s : Source) : Prop :=
  s = .empty ∨ ∃ sections : Sections, sections.Plain ∧ s = sections.source stage

theorem Source.eq_empty_of_isEmpty {s : Source} (empty : s.isEmpty = true) : s = .empty := by
  cases s
  simpa [Source.isEmpty, Source.empty] using empty

theorem Source.mentions_empty (name : String) : Source.empty.mentions name = false := by
  simp [Source.mentions, Source.empty, Text.hasKeyword, Text.splitKeyword, Text.splitKeywordFrom]

namespace Stage.Divides

variable {stage : Stage} {s : Source}

theorem insert (divides : stage.Divides s) (marker : Marker) {code : String}
    (plain : Source.isPlainCode code = true) : stage.Divides (s.insert marker code) := by
  rcases divides with rfl | ⟨sections, free, rfl⟩
  · rw [Source.insert_of_isEmpty rfl]
    exact .inl rfl
  · rw [Sections.insert_source free]
    exact .inr ⟨_, free.add marker plain, rfl⟩

theorem define (divides : stage.Divides s) {text : String}
    (plain : Source.isPlainCode s!"#define {text}" = true) : stage.Divides (s.define text) := by
  unfold Source.define
  split
  · exact divides
  · exact divides.insert .defines plain

theorem setVersion (divides : stage.Divides s) (version : Nat) :
    stage.Divides (s.setVersion version) := by
  unfold Source.setVersion
  split
  · exact divides
  · exact divides.insert .version (Source.isPlainCode_versionLine version)

theorem template (stage : Stage) : stage.Divides (.ofTemplate stage) :=
  .inr ⟨.empty, Sections.plain_empty, (Sections.source_empty stage).symm⟩

theorem mentions_insert (divides : stage.Divides s) {name code : String} (filled : name.toList ≠ [])
    (newline : '\n' ∉ name.toList) (silent : Source.IsSilent name.toList code) (marker : Marker) :
    (s.insert marker code).mentions name = s.mentions name := by
  rcases divides with rfl | ⟨sections, free, rfl⟩
  · rw [Source.insert_of_isEmpty rfl]
  · rw [Sections.insert_source free, Sections.mentions_add filled newline silent]

end Stage.Divides

namespace Material

variable {m after : Material}

/-- The code of all stages is in its sections. -/
def Divided (m : Material) : Prop :=
  ∀ stage : Stage, stage.Divides (m.source stage)

namespace Divided

theorem setSource (divided : m.Divided) {stage : Stage} {s : Source} (divides : stage.Divides s) :
    (m.setSource stage s).Divided := by
  intro other
  rw [source_setSource]
  split
  · rename_i same
    exact same ▸ divides
  · exact divided other

theorem started (divided : m.Divided) (stage : Stage) : (m.started stage).Divided := by
  unfold Material.started
  split
  · exact divided.setSource (.template stage)
  · exact divided

/-- Code without markers goes to its section. -/
theorem apply (divided : m.Divided) {event : Event} (plain : event.isPlain = true) :
    (m.apply event).Divided := by
  by_cases quiet : event.isCode = false
  · intro stage
    rw [source, m.sources_apply quiet]
    exact divided stage
  · cases event with
    | start stage => exact divided.started stage
    | write stage marker code => exact divided.setSource ((divided stage).insert marker plain)
    | assign stage output value =>
      exact divided.setSource ((divided stage).insert .colorize plain)
    | define stage text =>
      have started := divided.started stage
      exact started.setSource ((started stage).define plain)
    | stamp =>
      intro stage
      show stage.Divides (m.stamped.source stage)
      rw [source_stamped]
      split
      · exact divided stage
      · exact (divided stage).setVersion m.version
    | _ => simp [Event.isCode] at quiet

end Divided

theorem Reachable.divided (reachable : Reachable (fun event => event.isPlain = true) m) :
    m.Divided := by
  induction reachable with
  | begun rate =>
    intro stage
    cases stage <;> exact .inl rfl
  | built made => exact fun stage => .inl ((fresh_ofConstruct made).sources stage)
  | happened plain _ ih => exact ih.apply plain
  | @edited m change _ ih =>
    obtain ⟨nodes, same⟩ := m.exists_edited_eq change
    rw [same]
    exact ih

theorem Reachable.replay {allowed : Event → Prop} (reachable : Reachable allowed m)
    {events : List Event} (all : ∀ event ∈ events, allowed event) :
    Reachable allowed (m.replay events) := by
  induction events generalizing m with
  | nil => exact reachable
  | cons event events ih =>
    exact ih (.happened (all event List.mem_cons_self) reachable) fun other member =>
      all other (List.mem_cons_of_mem event member)

theorem Reachable.spelled {allowed : Event → Prop} (reachable : Reachable allowed m) :
    m.Spelled := by
  induction reachable with
  | begun rate => simp [Spelled, ofRate]
  | built made => exact (fresh_ofConstruct made).spelled
  | happened _ _ ih => exact ih.apply _
  | @edited m change _ ih =>
    obtain ⟨nodes, same⟩ := m.exists_edited_eq change
    rw [same]
    exact ih

/-- Between a material and the one after some events, nothing changes but that these texts are put
at the uniform markers of the stages. -/
structure Inserts (m : Material) (events : List Event) (texts : Stage → List String) : Prop where
  inputs : (m.replay events).inputs = m.inputs
  code : ∀ stage, committed stage .uniform events = texts stage
  source : ∀ stage, (m.replay events).source stage =
    (texts stage).foldl (fun s text => s.insert .uniform text) (m.source stage)

namespace Inserts

theorem nil (m : Material) : m.Inserts [] fun _ => [] :=
  ⟨rfl, fun _ => rfl, fun _ => rfl⟩

theorem append {first second : List Event} {texts others : Stage → List String}
    (one : m.Inserts first texts) (two : (m.replay first).Inserts second others) :
    m.Inserts (first ++ second) fun stage => texts stage ++ others stage where
  inputs := by rw [replay_append, two.inputs, one.inputs]
  code stage := by rw [committed_append, one.code, two.code]
  source stage := by rw [replay_append, two.source, one.source, List.foldl_append]

theorem congr {events : List Event} {texts others : Stage → List String}
    (inserts : m.Inserts events texts) (same : ∀ stage, texts stage = others stage) :
    m.Inserts events others :=
  (funext same : texts = others) ▸ inserts

end Inserts

theorem started_of_mentions {stage : Stage} {name : String}
    (mentions : (m.source stage).mentions name = true) : m.started stage = m := by
  have filled : ¬ (m.source stage).isEmpty = true := by
    intro empty
    rw [Source.eq_empty_of_isEmpty empty, Source.mentions_empty] at mentions
    cases mentions
  rw [started, if_neg filled]

/-- Writes a declaration into a stage whose code has one of some names. -/
def declareAt (names : List String) (text : String) (stage : Stage) : Action Unit := do
  if names.any ((← read).source stage).mentions then commit stage .uniform text

theorem inserts_declareAt {names : List String} {text : String} {stage : Stage}
    (ended : declareAt names text stage m = .ok () after) :
    m.Inserts ((declareAt names text stage).events m) fun other =>
      if other = stage ∧ names.any (m.source other).mentions then [text] else [] := by
  have run : (declareAt names text stage).run m =
      (if names.any (m.source stage).mentions then commit stage .uniform text
        else pure ()).run m := rfl
  rw [Action.events, run, ← Action.events]
  rw [Action.result, run, ← Action.result] at ended
  by_cases mentioned : names.any (m.source stage).mentions = true
  · rw [if_pos mentioned] at ended ⊢
    obtain ⟨name, -, found⟩ := List.any_eq_true.1 mentioned
    rw [events_commit ended]
    have after : m.replay [.start stage, .write stage .uniform text] =
        m.written stage .uniform text := by
      show (m.started stage).written stage .uniform text = _
      rw [started_of_mentions found]
    refine ⟨by rw [after]; rfl, fun other => ?_, fun other => ?_⟩
    · by_cases same : other = stage
      · subst same
        simp [committed, List.filterMap_cons, Event.code?, mentioned]
      · simp [committed, List.filterMap_cons, Event.code?, same, Ne.symm same]
    · rw [after, written, source_setSource]
      by_cases same : other = stage
      · subst same
        simp [mentioned]
      · simp [same]
  · rw [if_neg mentioned] at ended ⊢
    refine (Inserts.nil m).congr fun other => ?_
    rw [if_neg]
    rintro ⟨rfl, has⟩
    exact mentioned has

theorem inserts_forM_declareAt {names : List String} {text : String} {stages : List Stage}
    (once : stages.Nodup) (ended : stages.forM (declareAt names text) m = .ok () after) :
    m.Inserts ((stages.forM (declareAt names text)).events m) fun stage =>
      if stage ∈ stages ∧ names.any (m.source stage).mentions then [text] else [] := by
  induction stages generalizing m with
  | nil => exact (Inserts.nil m).congr fun stage => by simp
  | cons first stages ih =>
    obtain ⟨absent, later⟩ := List.nodup_cons.1 once
    obtain ⟨middle, here, rest, events⟩ := Action.ok_of_forM_cons ended
    have one := inserts_declareAt here
    obtain rfl := Action.material_of_ok here
    have both := one.append (ih later rest)
    rw [← events] at both
    refine both.congr fun stage => ?_
    rw [one.source]
    by_cases same : stage = first
    · subst same
      simp [absent]
    · simp [same]

end Material

/-- Writes a declaration into every stage that mentions what it declares. -/
def Declaration.declare (d : Declaration) : Action Unit := do
  Material.declareWhereMentioned d.names (← ofExcept d.text)

namespace Material

variable {m after : Material}

theorem inserts_declare {d : Declaration} (ended : d.declare m = .ok () after) :
    ∃ text, d.text = .ok text ∧ m.Inserts (d.declare.events m) fun stage =>
      if d.names.any (m.source stage).mentions then [text] else [] := by
  cases made : d.text with
  | error failure =>
    rw [Declaration.declare, made] at ended
    cases ended
  | ok text =>
    have same : d.declare = Stage.all.forM (declareAt d.names text) := by
      rw [Declaration.declare, made]
      rfl
    rw [same] at ended ⊢
    refine ⟨text, rfl, (inserts_forM_declareAt (by decide) ended).congr fun stage => ?_⟩
    simp [stage.mem_all]

theorem run_declareBlock (rate : UniformRate) (m : Material) :
    (declareBlock rate).run m =
      (Declaration.declare (.block rate (m.blockMembers rate))).run m := by
  have run : (declareBlock rate).run m =
      (if (m.blockMembers rate).isEmpty then pure ()
        else Declaration.declare (.block rate (m.blockMembers rate))).run m := rfl
  rw [run]
  split
  · rename_i nothing
    rw [List.isEmpty_iff.1 nothing]
    rfl
  · rfl

/-- The rates one after the other: the inputs stay, so that each block has the members that it had
at the beginning. -/
theorem forM_declareBlock {rates : List UniformRate}
    (ended : rates.forM declareBlock m = .ok () after) :
    let blocks := rates.map fun rate => Declaration.block rate (m.blockMembers rate)
    blocks.forM Declaration.declare m = .ok () after ∧
      (blocks.forM Declaration.declare).events m = (rates.forM declareBlock).events m := by
  induction rates generalizing m with
  | nil => exact ⟨ended, rfl⟩
  | cons rate rates ih =>
    obtain ⟨middle, here, rest, events⟩ := Action.ok_of_forM_cons ended
    rw [Action.result, run_declareBlock, ← Action.result] at here
    obtain ⟨text, -, inserts⟩ := inserts_declare here
    have reached := Action.material_of_ok here
    have inputs : middle.inputs = m.inputs := by rw [reached, inserts.inputs]
    have members (rate : UniformRate) : middle.blockMembers rate = m.blockMembers rate := by
      rw [blockMembers, blockMembers, inputsAt, inputsAt, inputs]
    obtain ⟨again, same⟩ := ih rest
    simp only [members] at again same
    obtain ⟨whole, all⟩ := Action.forM_cons_of_ok here again
    refine ⟨whole, all.trans ?_⟩
    rw [same]
    exact (congrArg (· ++ _) (congrArg Outcome.events (run_declareBlock rate m)).symm).trans
      events.symm

/-- One declaration after the other. Whether a later one is mentioned does not depend on those that
have been inserted before it. -/
theorem inserts_forM_declare {ds : List Declaration}
    (ended : ds.forM Declaration.declare m = .ok () after) :
    ∃ texts, m.Inserts ((ds.forM Declaration.declare).events m) texts ∧
      (ds.Pairwise Declaration.Quiet →
        (∀ d ∈ ds, ∀ name ∈ d.names, name.toList ≠ [] ∧ '\n' ∉ name.toList) →
        ∀ stage : Stage, stage.Divides (m.source stage) →
          (∀ text ∈ texts stage, Source.isPlainCode text = true) →
          List.Forall₂ (fun d text => Declaration.text d = .ok text)
            (ds.filter fun d => d.names.any (m.source stage).mentions) (texts stage)) := by
  induction ds generalizing m with
  | nil => exact ⟨_, .nil m, fun _ _ _ _ _ => .nil⟩
  | cons d ds ih =>
    obtain ⟨middle, here, rest, events⟩ := Action.ok_of_forM_cons ended
    obtain ⟨text, made, one⟩ := inserts_declare here
    obtain rfl := Action.material_of_ok here
    obtain ⟨texts, two, told⟩ := ih rest
    refine ⟨_, (show _ = _ from events) ▸ one.append two, fun quiet names stage divides plain => ?_⟩
    obtain ⟨silent, later⟩ := List.pairwise_cons.1 quiet
    have later_names := fun other member => names other (List.mem_cons_of_mem d member)
    obtain ⟨first_plain, rest_plain⟩ := List.forall_mem_append.1 plain
    obtain ⟨divides_next, same⟩ :
        stage.Divides ((m.replay (d.declare.events m)).source stage) ∧
          ∀ other ∈ ds, ∀ name ∈ other.names,
            ((m.replay (d.declare.events m)).source stage).mentions name =
              (m.source stage).mentions name := by
      rw [one.source]
      split
      · rename_i mentioned
        have free : Source.isPlainCode text = true := first_plain text (by simp [mentioned])
        refine ⟨divides.insert .uniform free, fun other member name listed => ?_⟩
        obtain ⟨filled, newline⟩ := later_names other member name listed
        exact divides.mentions_insert filled newline (silent other member text made name listed) _
      · exact ⟨divides, fun _ _ _ _ => rfl⟩
    have filtered : ds.filter (fun other => other.names.any
        ((m.replay (d.declare.events m)).source stage).mentions) =
        ds.filter fun other => other.names.any (m.source stage).mentions := by
      refine List.filter_congr fun other member => ?_
      rw [Bool.eq_iff_iff, List.any_eq_true, List.any_eq_true]
      exact exists_congr fun name =>
        and_congr_right fun listed => by rw [same other member name listed]
    have tail := told later later_names stage divides_next rest_plain
    rw [filtered] at tail
    by_cases mentioned : d.names.any (m.source stage).mentions = true
    · simp only [mentioned, if_true, List.filter_cons_of_pos]
      exact .cons made tail
    · simpa [mentioned] using tail

/-- The blocks and then the samplers of the same inputs. -/
theorem forM_declare_of_declareUniforms (formed : m.Formed)
    (ended : declareUniforms m = .ok () after) :
    m.declarations.forM Declaration.declare m = .ok () after ∧
      (m.declarations.forM Declaration.declare).events m = declareUniforms.events m := by
  obtain ⟨_, middle, blocks, rest, events⟩ := Action.ok_of_bind ended
  obtain ⟨declared, same⟩ := forM_declareBlock blocks
  obtain ⟨_, inserts, -⟩ := inserts_forM_declare declared
  have inputs : middle.inputs = m.inputs := by
    rw [Action.material_of_ok declared, inserts.inputs]
  have samplers : (middle.inputsAt (.uniform .renderable)).filter (fun b => b.key.isTexture) =
      m.textures := by
    rw [inputsAt, inputs]
    exact formed.filter_inputsAt_renderable
  have same_samplers : (m.textures.map Declaration.sampler).forM Declaration.declare =
      m.textures.forM declareSampler :=
    List.forM_map
  change ((middle.inputsAt (.uniform .renderable)).filter fun b => b.key.isTexture).forM
    declareSampler middle = _ at rest
  change _ = _ ++ (((middle.inputsAt (.uniform .renderable)).filter fun b =>
    b.key.isTexture).forM declareSampler).events middle at events
  rw [samplers, ← same_samplers] at rest events
  obtain ⟨whole, all⟩ := Action.forM_append_of_ok declared rest
  refine ⟨whole, all.trans ?_⟩
  rw [same, declareUniforms, events]

/-- All that is written before the uniforms are declared. -/
def draft : Action Unit := do
  perform .begin
  Emission.generateNode root
  ensureOutput
  declareInterface
  ensurePosition

/-- Writing starts only where nothing has been written. -/
theorem generate_run (m : Material) :
    generate.run m = (if m.generated = true then pure () else
      (draft >>= fun _ => declareUniforms >>= fun _ => perform .stamp)).run m := by
  simp only [draft, bind_assoc]
  rfl

theorem generate_eq_ok (unwritten : m.generated = false) (ended : generate m = .ok () after) :
    ∃ before middle, draft m = .ok () before ∧ declareUniforms before = .ok () middle ∧
      after = middle.apply .stamp ∧
      generate.events m = draft.events m ++ (declareUniforms.events before ++ [.stamp]) := by
  have run := generate_run m
  rw [if_neg (by simp [unwritten])] at run
  rw [Action.result, run, ← Action.result] at ended
  obtain ⟨_, before, drafted, ended, events⟩ := Action.ok_of_bind ended
  obtain ⟨_, middle, declared, ended, rest⟩ := Action.ok_of_bind ended
  refine ⟨before, middle, drafted, declared, (Action.material_of_ok ended), ?_⟩
  rw [Action.events, run, ← Action.events, events, rest]
  rfl

theorem isPlainCode_of_mem_committed {stage : Stage} {marker : Marker} {events : List Event}
    (plain : ∀ event ∈ events, event.isPlain = true) {text : String}
    (member : text ∈ committed stage marker events) : Source.isPlainCode text = true := by
  obtain ⟨event, happened, code⟩ := List.mem_filterMap.1 member
  have free := plain event happened
  cases event <;> simp only [Event.code?, Option.ite_none_right_eq_some, reduceCtorEq,
    Option.some.injEq] at code
  all_goals
    obtain ⟨-, rfl⟩ := code
    exact free

theorem filter_mentioned {ds : List Declaration}
    (searchable : ∀ d ∈ ds, ∀ name ∈ d.names,
      name.toList ≠ [] ∧ '\n' ∉ name.toList ∧ Text.IsApart name.toList) (s : Source) :
    (ds.filter fun d => d.names.any fun name => Text.Occurs name.toList s.text) =
      ds.filter fun d => d.names.any s.mentions := by
  refine List.filter_congr fun d member => ?_
  rw [Bool.eq_iff_iff, List.any_eq_true, List.any_eq_true]
  refine exists_congr fun name => and_congr_right fun listed => ?_
  obtain ⟨filled, -, apart⟩ := searchable d member name listed
  rw [decide_eq_true_iff, ← Text.hasKeyword_iff_occurs filled apart]
  rfl

theorem reads_of_text (formed : m.Formed) {d : Declaration} (member : d ∈ m.declarations)
    {text : String} (made : d.text = .ok text) : d.Reads text := by
  rcases List.mem_append.1 member with block | sampler
  · obtain ⟨rate, -, rfl⟩ := List.mem_map.1 block
    exact Declaration.reads_block made
  · obtain ⟨b, texture, rfl⟩ := List.mem_map.1 sampler
    obtain ⟨known, is⟩ := List.mem_filter.1 texture
    obtain ⟨slot, -, here, -⟩ := formed.exists_slot known is
    have reads := Declaration.Reads.sampler here
    rw [← Except.ok.inj made, here]
    exact reads

end Material

theorem Sections.foldl_insert_source {sections : Sections} (plain : sections.Plain) (stage : Stage)
    (marker : Marker) {texts : List String}
    (free : ∀ text ∈ texts, Source.isPlainCode text = true) :
    texts.foldl (fun s text => s.insert marker text) (sections.source stage) =
      (texts.foldl (fun sections text => sections.add marker text) sections).source stage := by
  induction texts generalizing sections with
  | nil => rfl
  | cons text texts ih =>
    have first := free text List.mem_cons_self
    rw [List.foldl_cons, List.foldl_cons, insert_source plain]
    exact ih (plain.add marker first) fun other member => free other (List.mem_cons_of_mem _ member)

namespace Material

variable {m after : Material}

/-- Uniforms are declared where they are mentioned. Some blocks and samplers are mentioned in the
text of a stage before the pass; in the pass, the declarations of these are put into the uniform
section of the stage, each of them once, and no others. -/
structure DeclaresUniforms (before after : Material) : Prop where
  named : ∀ rate, ∀ b ∈ before.blockMembers rate, b.name = (Rate.uniform rate).name ++ "." ++
    b.field
  places : (before.declarations.map Declaration.place).Nodup
  reads : ∀ stage, List.Forall₂ Declaration.Reads
    (before.declarations.filter fun d => d.names.any fun name =>
      Text.Occurs name.toList (before.source stage).text)
    (committed stage .uniform (declareUniforms.events before))
  source : ∀ stage, let inserted := committed stage .uniform (declareUniforms.events before)
    before.source stage = .empty ∧ inserted = [] ∧ after.source stage = .empty ∨
      ∃ sections : Sections, sections.Plain ∧ before.source stage = sections.source stage ∧
        after.source stage = (inserted.foldl (fun sections text =>
          sections.add .uniform text) sections).source stage

/-- Where nobody commits markers, and all inputs for textures are samplers, writing a material
declares in each stage the uniforms that the stage mentions. A material that is written already
stays as it is. -/
theorem generate_declares_uniforms
    (authored : Reachable (fun event => event.isPlain = true) m)
    (plain : ∀ event ∈ generate.events m, event.isPlain = true)
    (ended : generate m = .ok () after)
    (textured : ∀ b ∈ after.inputs, b.key.id = .texture → b.key.isTexture = true) :
    m.generated = true ∧ generate.events m = [] ∨
      ∃ before middle, draft m = .ok () before ∧ declareUniforms before = .ok () middle ∧
        after = middle.apply .stamp ∧ before.DeclaresUniforms middle := by
  cases written : m.generated with
  | true => exact .inl ⟨rfl, by rw [Action.events, generate_run, if_pos written]; rfl⟩
  | false =>
    right
    obtain ⟨before, middle, drafted, declared, final, events⟩ := generate_eq_ok written ended
    rw [events] at plain
    obtain ⟨plain_before, plain_rest⟩ := List.forall_mem_append.1 plain
    have plain_pass := (List.forall_mem_append.1 plain_rest).1
    have reachable : Reachable (fun event => event.isPlain = true) before := by
      rw [Action.material_of_ok drafted]
      exact authored.replay plain_before
    have formed := reachable.formed
    have numbered := reachable.numbered
    obtain ⟨whole, same⟩ := forM_declare_of_declareUniforms formed declared
    obtain ⟨texts, inserts, told⟩ := inserts_forM_declare whole
    rw [same] at inserts
    have inputs : after.inputs = before.inputs := by
      rw [final, ← inserts.inputs, Action.material_of_ok declared]
      rfl
    rw [inputs] at textured
    have searchable := formed.searchable numbered reachable.spelled
    have told := fun stage => told
      (formed.pairwise_quiet numbered reachable.spelled textured)
      (fun d member name listed => ⟨(searchable d member name listed).1,
        (searchable d member name listed).2.1⟩) stage (reachable.divided stage)
      fun text member => isPlainCode_of_mem_committed plain_pass (inserts.code stage ▸ member)
    refine ⟨before, middle, drafted, declared, final, fun rate b member => ?_,
      formed.nodup_places, fun stage => ?_, fun stage => ?_⟩
    · have proper := isMember_of_mem numbered b member
      exact proper.numbered.name_eq proper.plain proper.here
    · rw [inserts.code stage, filter_mentioned searchable]
      refine ((List.forall₂_and_left _ _).2
        ⟨fun d member => List.mem_of_mem_filter member, told stage⟩).imp ?_
      intro d text told
      exact reads_of_text formed told.1 told.2
    · have source := inserts.source stage
      rw [← Action.material_of_ok declared] at source
      rw [inserts.code stage, source]
      rcases reachable.divided stage with empty | ⟨sections, free_sections, is⟩
      · have nothing : texts stage = [] := by
          have read := told stage
          rw [empty, List.filter_eq_nil_iff.2 (by simp [Source.mentions_empty])] at read
          exact List.forall₂_nil_left_iff.1 read
        refine .inl ⟨empty, nothing, ?_⟩
        rw [nothing, empty]
        rfl
      · refine .inr ⟨sections, free_sections, is, ?_⟩
        rw [is]
        exact Sections.foldl_insert_source free_sections stage .uniform fun text member =>
          isPlainCode_of_mem_committed plain_pass (inserts.code stage ▸ member)

/-- Of two times, the pixel stage reads the second: it is given the block with both of them, and the
vertex stage is not. -/
theorem generate_declares_uniforms_of_time :
    let m := (ofRate .auto).replay [.input (.uniform .tick) (.ofId .time) false,
      .input (.uniform .tick) (.ofId .time) true, .start .pixel,
      .write .pixel .texturize "float x = sin(Tick.Time1);"]
    ∃ after before middle, generate m = .ok () after ∧ draft m = .ok () before ∧
      declareUniforms before = .ok () middle ∧ before.DeclaresUniforms middle ∧
      after.inputs.map Binding.name = ["Tick.Time", "Tick.Time1"] ∧
      [Stage.vertex, .pixel].map (fun stage =>
        (committed stage .uniform (generate.events m)).length) = [0, 1] := by
  intro m
  have evaluated : (generate.events m).all Event.isPlain = true ∧
      [Stage.vertex, .pixel].map (fun stage =>
        (committed stage .uniform (generate.events m)).length) = [0, 1] ∧
      (generate.ended? m).any (fun ended =>
        ended.2.inputs.map Binding.name = ["Tick.Time", "Tick.Time1"] ∧
          ended.2.inputs.all fun b => b.key.id != .texture) = true := by
    decide +kernel
  obtain ⟨plain, inserted, evaluated⟩ := evaluated
  obtain ⟨_, after, ended, evaluated⟩ := Action.exists_ok_of_any evaluated
  obtain ⟨names, untextured⟩ := of_decide_eq_true evaluated
  have textured : ∀ b ∈ after.inputs, b.key.id = .texture → b.key.isTexture = true := by
    intro b member texture
    have other := List.all_eq_true.1 untextured b member
    simp [texture] at other
  have authored : Reachable (fun event => event.isPlain = true) m :=
    (Reachable.begun .auto).replay (by decide +kernel)
  rcases generate_declares_uniforms authored (List.all_eq_true.1 plain) ended textured with
    ⟨written, -⟩ | found
  · exact absurd written (by decide +kernel)
  · obtain ⟨before, middle, drafted, declared, -, declares⟩ := found
    exact ⟨after, before, middle, ended, drafted, declared, declares, names, inserted⟩

end Material

end GlslMaterial
