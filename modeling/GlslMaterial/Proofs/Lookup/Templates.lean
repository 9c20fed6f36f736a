import GlslMaterial.Proofs.Emission.Shown
import GlslMaterial.Proofs.Lookup.Refusal

/-!
Types in templates. Cameras and rasters put the resolution, the view, the projection and the field
of view into their code as they find them, without conversion. The types are right where no node
gives one of these traits in another type; values can do so, and fractals that are given as a
matrix.
-/

set_option autoImplicit false

namespace GlslMaterial

open GlslMaterial.Action (Keeps ok_of_bind ok_of_read ok_of_ofExcept)

/-- The type that the templates of cameras and rasters need for a trait. -/
def TraitId.templateType? : TraitId → Option DataType
  | resolution => some .vec2
  | view | projection => some .mat4
  | fieldOfView => some .float
  | _ => none

/-- A node of this kind gives a trait in the type that is needed, if it gives the trait at all: a
value has no other type of its own, is no truth value for a vector or a matrix, and has only verbs
that keep its type, and a fractal is no matrix. -/
def Config.respects (id : TraitId) (type : DataType) : Config → Bool
  | .value wrapped => wrapped.key.id != id ||
    wrapped.key.type.all (·.decay? == some type) &&
      ((wrapped.key.value.bind Json.toBool?).isNone || type == .float) &&
      wrapped.verbs.all (·.verb.keepsType)
  | .fractal f => f.output != id || !type.isMatrix
  | _ => true

/-- All nodes of a material give a trait in the type that is needed. -/
def Material.respects (m : Material) (id : TraitId) (type : DataType) : Bool :=
  m.nodes.all fun node => node.config.respects id type

variable {id : TraitId} {type : DataType}

theorem Material.respects_node {m : Material} (respects : m.respects id type = true) (n : NodeId) :
    (m.node n).config.respects id type = true := by
  by_cases known : n < m.nodes.size
  · simpa [node, known] using Array.all_eq_true.1 respects n known
  · simp [node, known]
    rfl

theorem Wrapped.of_respects {wrapped : Wrapped}
    (respects : (Config.value wrapped).respects id type = true) (same : wrapped.key.id = id) :
    (∀ given, wrapped.key.type = some given → given.decay? = some type) ∧
      (∀ b, wrapped.key.value = some (.bool b) → type = .float) ∧
      ∀ entry ∈ wrapped.verbs, entry.verb.keepsType = true := by
  simp only [Config.respects, same, bne_self_eq_false, Bool.false_or, Bool.and_eq_true,
    List.all_eq_true] at respects
  obtain ⟨⟨own, truth⟩, verbs⟩ := respects
  refine ⟨fun given typed => ?_, fun b value => ?_, verbs⟩
  · simpa [typed] using own
  · simpa [value, Json.toBool?] using truth

/-- Nodes give a trait in a type that decays to `type`. -/
abbrev Agreeing (id : TraitId) (type : DataType) : Law :=
  Showing fun key symbol => key.id = id → symbol.type.decay? = some type

theorem TraitId.default_of_templateType? (needed : id.templateType? = some type) :
    id.default? = some (type, .uniform .camera) ∧ type.decay? = some type := by
  cases id <;> cases needed <;> exact ⟨rfl, rfl⟩

theorem DataType.decay?_eq_of_either {first second : DataType}
    (either : second = first ∨ first.decay? = some second) : second.decay? = first.decay? := by
  rcases either with rfl | decays
  · rfl
  · rw [decay?_idem decays, decays]

theorem Glsl.type_of_ofJson {value : Json} {e : Expression}
    (literal : Glsl.ofJson value (some type) = .ok e) :
    (∃ b, value = .bool b) ∧ e.type = .bool ∨ e.type = type ∨ type.decay? = some e.type := by
  unfold Glsl.ofJson at literal
  split at literal
  · rename_i b
    obtain rfl := Except.ok.inj literal
    exact .inl ⟨⟨b, rfl⟩, rfl⟩
  · obtain ⟨_, -, literal⟩ := eq_ok_of_bind literal
    obtain rfl := Except.ok.inj literal
    exact .inr (.inl rfl)
  · obtain ⟨_, -, literal⟩ := eq_ok_of_bind literal
    obtain ⟨decayed, decays, literal⟩ := eq_ok_of_bind literal
    obtain ⟨_, -, literal⟩ := eq_ok_of_bind literal
    obtain rfl := Except.ok.inj literal
    exact .inr (.inr (DataType.decay?_of_decayed decays))
  · cases literal

namespace Emission

open Material

variable {base : Material} {id : TraitId} {type : DataType}

theorem decay?_getD {key : Trait} (needed : id.templateType? = some type) (same : key.id = id)
    (own : ∀ given, key.type = some given → given.decay? = some type) {typed : Trait}
    (resolved : key.resolved = .ok typed) : (typed.type.getD .float).decay? = some type := by
  obtain ⟨default, stays⟩ := TraitId.default_of_templateType? needed
  rw [type_of_resolved resolved, same]
  cases given : key.type with
  | some own_type => exact own own_type given
  | none =>
    simp only [TraitId.defaultType?, default]
    exact stays

theorem decay?_of_found (fresh : base.Fresh) {past : List Event}
    (lawful : Lawful (Agreeing id type) base past) {viewer : NodeId} {key : Trait} {rate : Rate}
    {source : Symbol} (same : key.id = id)
    (found : (base.replay past).find? viewer key rate = some source) :
    source.type.decay? = some type := by
  obtain ⟨n, trait, exposed, agrees, -⟩ := exists_expose_of_find? fresh found
  have shared : trait.id = key.id := eq_of_beq (Bool.and_eq_true_iff.1 agrees).1
  exact lawful.of_expose exposed (shared.trans same)

theorem decay?_of_began (fresh : base.Fresh) (needed : id.templateType? = some type)
    {n : NodeId} {wrapped : Wrapped} (respects : (Config.value wrapped).respects id type = true)
    {e : Expression} (began : Began (lawfulGiven (Agreeing id type) base n) wrapped.key e)
    (same : wrapped.key.id = id) : e.type.decay? = some type := by
  obtain ⟨own, truth, -⟩ := Wrapped.of_respects respects same
  cases began with
  | literal given literal =>
    obtain ⟨default, stays⟩ := TraitId.default_of_templateType? needed
    obtain ⟨asked, is, decays⟩ : ∃ asked,
        wrapped.key.type.or wrapped.key.id.defaultType? = some asked ∧
          asked.decay? = some type := by
      cases typed : wrapped.key.type with
      | some asked => exact ⟨asked, rfl, own asked typed⟩
      | none =>
        refine ⟨type, ?_, stays⟩
        rw [same, TraitId.defaultType?, default]
        rfl
    rw [is] at literal
    rcases Glsl.type_of_ofJson literal with ⟨⟨b, rfl⟩, bool⟩ | either
    · rw [bool, truth b given]
      rfl
    · exact (DataType.decay?_eq_of_either either).trans decays
  | symbol unset known =>
    rcases known with ⟨past, rate, source, lawful, found, either⟩ | ⟨typed, resolved, either⟩
    · show _ = _
      rw [DataType.decay?_eq_of_either (either.imp_left (congrArg Symbol.type))]
      exact decay?_of_found fresh lawful same found
    · show _ = _
      rw [DataType.decay?_eq_of_either either]
      exact decay?_getD needed same own resolved

theorem spread_type (needed : id.templateType? = some type) (plain : type.isMatrix = false)
    (n : NodeId) : (spread n id).2.decay? = some type := by
  cases id <;> cases needed <;> first | rfl | cases plain

theorem decay?_of_publishes (fresh : base.Fresh) (needed : id.templateType? = some type)
    {n : NodeId} {config : Config} (respects : config.respects id type = true) {piece : Piece}
    (publishes : Publishes (lawfulGiven (Agreeing id type) base n) n config piece) :
    ∀ each ∈ piece.shown, each.1 = id → each.2.type.decay? = some type := by
  intro shown member same
  cases publishes with
  | sum fractal stage =>
    rw [List.mem_singleton.1 member] at same ⊢
    obtain rfl : fractal.output = id := same
    exact spread_type needed (by simpa [Config.respects] using respects) n
  | value wrapped stage began decays became =>
    rw [List.mem_singleton.1 member] at same ⊢
    have first := decay?_of_began fresh needed respects began same
    have start := DataType.decay?_of_decayed decays
    show DataType.decay? _ = some type
    rw [became.kept (Wrapped.of_respects respects same).2.2]
    obtain rfl := Option.some.inj (first.symm.trans start)
    exact DataType.decay?_idem start
  | vertices => cases member
  | _ =>
    simp only [rayShown, movedShown, colorShown, List.mem_cons, List.not_mem_nil,
      or_false] at member
    rcases member with rfl | rfl | rfl
    all_goals
      subst same
      cases needed

end Emission

namespace Material

variable {m after : Material} {viewer : NodeId} {key : Trait} {rate : Rate} {symbol : Symbol}

theorem exists_inputSymbol {id : TraitId} {type : DataType} (needed : id.templateType? = some type)
    (m : Material) (rate : Rate) :
    ∃ name kept after, inputSymbol (.ofId id) rate m = .ok ⟨name, type, kept⟩ after := by
  obtain ⟨default, -⟩ := TraitId.default_of_templateType? needed
  have resolved : (Trait.ofId id).resolved = .ok (.typed id type) := by
    simp [Trait.resolved, Trait.ofId, Trait.typed, TraitId.defaultType?, default]
  have own : (Trait.typed id type).id.defaultRate?.getD rate = .uniform .camera := by
    simp [Trait.typed, TraitId.defaultRate?, default]
  have concrete : Rate.uniform .camera ≠ .auto := by decide
  cases added : m.addInput (.uniform .camera) (.typed id type) false with
  | error failure => exact (addInput_ne_error concrete rfl added).elim
  | ok result =>
    obtain ⟨⟨name, kept⟩, after⟩ := result
    have whole : (inputSymbol (.ofId id) rate).Yields m ⟨name, type, kept⟩
        ([] ++ ([.input (.uniform .camera) (.typed id type) false] ++ [])) := by
      refine Action.Yields.bind (.ofExcept resolved) ?_
      rw [own]
      exact (inputFor_yields added).bind (.pure _)
    exact ⟨name, kept, _, whole.result⟩

theorem exists_symbolOrInput {base : Material} {past : List Event} (fresh : base.Fresh)
    (reached : Reached base past) {id : TraitId} {type : DataType}
    (needed : id.templateType? = some type) (viewer : NodeId) (rate : Rate) :
    ∃ symbol after, symbolOrInput viewer (.ofId id) rate (base.replay past) = .ok symbol after := by
  cases ended : symbolOrInput viewer (.ofId id) rate (base.replay past) with
  | ok symbol after => exact ⟨symbol, after, rfl⟩
  | error failure after =>
    rcases error_of_search (fresh.marked.replay past) (fun symbol => symbol)
      (inputSymbol (.ofId id)) ended with ⟨⟨source, found, stuck⟩, -⟩ | ⟨-, failed⟩
    · obtain ⟨n, trait, exposed, -⟩ := exists_expose_of_find? fresh found
      have decays := ((reached.written fresh).of_expose exposed).1
      rw [stuck] at decays
      cases decays
    · obtain ⟨name, kept, last, given⟩ := exists_inputSymbol needed (base.replay past)
        ((base.replay past).concreteRate viewer rate)
      have both := given.symm.trans failed
      cases both

/-- What a template puts into its code has the type that it needs if and only if the symbol that it
finds has it, or it finds none. This is so at every moment while a material is written if all nodes
respect the type. -/
theorem templates_agree_iff {c : Construct} {base : Material} {past : List Event} {id : TraitId}
    {type : DataType} (built : ofConstruct c = .ok base) (reached : Reached base past)
    (needed : id.templateType? = some type) (viewer : NodeId) (stage : Stage) :
    ∃ symbol after,
      symbolOrInput viewer (.ofId id) (.stage stage) (base.replay past) = .ok symbol after ∧
      exprOrInput viewer id (.stage stage) (base.replay past) = .ok symbol.expr after ∧
      (symbol.type.decay? = some type ↔
        ∀ source, (base.replay past).find? viewer (.ofId id) (.stage stage) = some source →
          source.type.decay? = some type) ∧
      (base.respects id type = true → symbol.type.decay? = some type) := by
  have fresh := fresh_ofConstruct built
  have concrete := Emission.stage_ne_auto stage
  obtain ⟨symbol, after, ended⟩ := exists_symbolOrInput fresh reached needed viewer (.stage stage)
  have written : exprOrInput viewer id (.stage stage) (base.replay past) = .ok symbol.expr after :=
    (Action.bind_of_ok ended (show (pure symbol.expr : Action String) after = _ from rfl)).1
  have exact_condition : symbol.type.decay? = some type ↔
      ∀ source, (base.replay past).find? viewer (.ofId id) (.stage stage) = some source →
        source.type.decay? = some type := by
    have sought := symbolOrInput_ok ended
    rw [concreteRate_of_ne_auto concrete] at sought
    rcases sought with ⟨source, found, crossed⟩ | ⟨missing, given⟩
    · have either : symbol.type = source.type ∨ source.type.decay? = some symbol.type :=
        (bridge_ok crossed).imp (congrArg Symbol.type ·.1) (·.2)
      rw [DataType.decay?_eq_of_either either, found]
      simp only [Option.some.injEq, forall_eq']
    · obtain ⟨name, kept, last, input⟩ :=
        exists_inputSymbol needed (base.replay past) (.stage stage)
      have both := input.symm.trans given
      cases both
      exact iff_of_true (TraitId.default_of_templateType? needed).2 (by simp [missing])
  refine ⟨symbol, after, ended, written, exact_condition, fun respects => ?_⟩
  have lawful : Lawful (Agreeing id type) base past :=
    reached.lawful_showing fun n _ => Emission.decay?_of_publishes fresh needed
      (respects_node respects n)
  exact exact_condition.2 fun source found => Emission.decay?_of_found fresh lawful rfl found

/-- Before the camera there is a value that changes the resolution with the time. -/
theorem templates_agree_iff_of_scaled :
    ∃ base past symbol after,
      ofConstruct ⟨.material, none, [], [],
        [⟨.value, none, [.ofId .resolution], [⟨.multiply, none, some .time⟩], []⟩,
          ⟨.camera, none, [], [], []⟩]⟩ = .ok base ∧
      Reached base past ∧ base.respects .resolution .vec2 = true ∧
      (base.replay past).find? 2 (.ofId .resolution) (.stage .pixel) =
        some ⟨"value1", .vec2, .stage .pixel⟩ ∧
      symbolOrInput 2 (.ofId .resolution) (.stage .pixel) (base.replay past) = .ok symbol after ∧
      symbol.type.decay? = some .vec2 := by
  have evaluated : (ofConstruct ⟨.material, none, [], [],
      [⟨.value, none, [.ofId .resolution], [⟨.multiply, none, some .time⟩], []⟩,
        ⟨.camera, none, [], [], []⟩]⟩).toOption.any (fun base =>
          base.respects .resolution .vec2 &&
            (base.replay ((Emission.generateNode 1).events base)).find? 2 (.ofId .resolution)
              (.stage .pixel) = some ⟨"value1", .vec2, .stage .pixel⟩) = true := by
    decide +kernel
  obtain ⟨base, built, evaluated⟩ := exists_ok_of_any evaluated
  simp only [Bool.and_eq_true, decide_eq_true_eq] at evaluated
  obtain ⟨respects, found⟩ := evaluated
  have reached : Reached base ((Emission.generateNode 1).events base) :=
    .node .start 1 (List.prefix_refl _)
  have needed : TraitId.templateType? .resolution = some .vec2 := rfl
  obtain ⟨symbol, after, ended, -, -, agrees⟩ := templates_agree_iff built reached needed 2 .pixel
  exact ⟨base, _, symbol, after, built, reached, respects, found, ended, agrees respects⟩

/-- Before the camera there is a value that gives the resolution three components. -/
theorem templates_not_agree :
    ∃ base past after,
      ofConstruct ⟨.material, none, [], [],
        [⟨.value, none, [.typed .resolution .vec3], [], []⟩,
          ⟨.camera, none, [], [], []⟩]⟩ = .ok base ∧
      Reached base past ∧ TraitId.templateType? .resolution = some .vec2 ∧
      symbolOrInput 2 (.ofId .resolution) (.stage .pixel) (base.replay past) =
        .ok ⟨"value1", .vec3, .stage .pixel⟩ after ∧
      DataType.vec3.decay? ≠ some .vec2 := by
  have evaluated : (ofConstruct ⟨.material, none, [], [],
      [⟨.value, none, [.typed .resolution .vec3], [], []⟩,
        ⟨.camera, none, [], [], []⟩]⟩).toOption.any (fun base =>
          ((symbolOrInput 2 (.ofId .resolution) (.stage .pixel)).ended?
            (base.replay ((Emission.generateNode 1).events base))).any
              (·.1 = ⟨"value1", .vec3, .stage .pixel⟩)) = true := by
    decide +kernel
  obtain ⟨base, built, evaluated⟩ := exists_ok_of_any evaluated
  obtain ⟨symbol, after, found, same⟩ := Action.exists_ok_of_any evaluated
  obtain rfl := of_decide_eq_true same
  exact ⟨base, _, after, built, .node .start 1 (List.prefix_refl _), rfl, found, by decide⟩

end Material

end GlslMaterial
