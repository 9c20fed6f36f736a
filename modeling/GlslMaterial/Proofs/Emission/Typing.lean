import GlslMaterial.Proofs.Emission.Fitting

/-!
Types of values. The actions that emit a value follow the reckoning of its types, verb by verb, up
to the declaration of a variable.

Main statement: the declaration of a value is well typed where the type that its code has by this
reckoning converts to the recorded one. Truth values, textures, matrices under functions and mixed
precisions break this.
-/

set_option autoImplicit false

namespace GlslMaterial

namespace Emission

open GlslMaterial.Action (Keeps ok_of_bind bind_of_ok ok_of_read ok_of_ofExcept ofExcept)
open GlslMaterial.Glsl (Tree Spells Scope Numeric Rank codeType? typeOf? Settled)
open Material

section Steps

variable {scope : Scope} {running : Running} {c : Composed} {e : Flow}

theorem follows_ensureSimplex (scope : Scope) (stage : Stage) (dimensions : Nat) :
    Follows scope stage (ensureSimplex stage dimensions) (discard (ensureSimplex stage dimensions))
      fun name _ => ∃ helpers, Noise.functions dimensions = .ok (helpers, name) := by
  intro m ready name after ended declares
  have kept : Ready scope stage after :=
    ready.kept (reads_ensureSimplex stage dimensions) (fun base =>
      heeds_ensureSimplex (lenient_showing _ base) (fun _ _ _ => trivial) dimensions) ended
  obtain ⟨whole, events⟩ := @bind_of_ok _ _ _ _ _ _ (fun _ => pure PUnit.unit) _ _ ended rfl
  refine ⟨kept, _, whole, events.trans (List.append_nil _), ?_⟩
  obtain ⟨⟨helpers, found⟩, _, passed, ended, -⟩ := ok_of_bind ended
  obtain ⟨_, _, -, ended, -⟩ := ok_of_bind ended
  cases ended
  exact ⟨helpers, (ok_of_ofExcept passed).1⟩

theorem follows_randomize {stage : Stage} (fits : Fits scope running c e)
    {seed : Option Expression} {type : Option DataType}
    (seeds : Option.Rel (fun right type => type = right.type ∧ IsOperand scope right) seed type) :
    Follows scope stage (randomize stage running seed)
      (do discard (ensureSimplex stage e.dimensions); return e.randomize type)
      fun result f => ∃ c, Fits scope result c f := by
  refine .compute fun pair given => ?_
  obtain ⟨dimensions, point⟩ := pair
  obtain ⟨rfl, tree, spells, typed⟩ := exists_point fits given
  refine .bind (follows_ensureSimplex scope stage e.dimensions) fun name _ known => .pure ?_
  obtain ⟨helpers, found⟩ := known
  cases seeds with
  | none => exact fits_noise found spells typed
  | some is =>
    obtain ⟨rfl, operand⟩ := is
    obtain ⟨moved, spells, typed⟩ := exists_seeded spells typed operand
    exact fits_noise found spells typed

theorem follows_applyVerb (n : NodeId) (stage : Stage) (fits : Fits scope running c e)
    (entry : VerbEntry) :
    Follows scope stage (applyVerb n stage running entry) (flow n stage e entry)
      fun result f => ∃ c, Fits scope result c f := by
  have right := follows_operand scope n stage entry
  have aligned {next : String → Running} {other : DataType → Flow}
      (goes : ∀ right text, IsOperand scope right → align right running.type = .ok text →
        ∃ c, Fits scope (next text) c (other right.type)) :
      Follows scope stage
        ((do ofExcept (align (← operand n (.stage stage) entry) running.type)) >>= fun text =>
          pure (next text))
        ((do return (← operand n (.stage stage) entry).type) >>= fun type => pure (other type))
        fun result f => ∃ c, Fits scope result c f := by
    rw [bind_assoc]
    refine .bind right fun right type is => .compute fun text given => .pure ?_
    obtain ⟨rfl, operand⟩ := is
    exact goes right text operand given
  unfold applyVerb flow
  cases verb : entry.verb with
  | add => exact aligned fun right text operand given => fits.operator operand given .add rfl
  | subtract =>
    exact aligned fun right text operand given => fits.operator operand given .subtract rfl
  | multiply =>
    exact aligned fun right text operand given => fits.operator operand given .multiply rfl
  | divide => exact aligned fun right text operand given => fits.operator operand given .divide rfl
  | modulate => exact aligned fun right text operand given => fits.modulate operand given
  | exponent =>
    refine .bind right fun right type is => .compute fun text given => .pure ?_
    obtain ⟨rfl, operand⟩ := is
    exact fits.exponent operand given
  | randomize =>
    dsimp only
    split
    · have unseeded : Follows scope stage (pure none) (pure none) (Option.Rel
          fun (right : Expression) type => type = right.type ∧ IsOperand scope right) :=
        .pure .none
      exact .bind unseeded fun seed type seeds => follows_randomize fits seeds
    · have seeded : Follows scope stage (some <$> operand n (.stage stage) entry)
          (some <$> (do return (← operand n (.stage stage) entry).type)) (Option.Rel
          fun (right : Expression) type => type = right.type ∧ IsOperand scope right) :=
        .bind right fun _ _ is => .pure (.some is)
      exact .bind seeded fun seed type seeds => follows_randomize fits seeds
  | select =>
    refine .ofExcept fun result given => ⟨e.select entry.value, rfl, ?_⟩
    exact fits.select given
  | project =>
    refine .bind right fun right type is => .ofExcept fun result given => ⟨_, rfl, ?_⟩
    obtain ⟨rfl, operand⟩ := is
    exact fits.project operand given

theorem fits_wrapped {n : NodeId} {stage : Stage} {key : Trait} {m middle : Material}
    {value : Expression} (ready : Ready scope stage m)
    (found : wrappedValue n (.stage stage) key m = .ok value middle)
    (declares : DeclaresInputs scope stage middle)
    (literal : Glsl.IsLiteral value.code value.type) {type : DataType}
    (decays : value.type.decayed = .ok type) :
    ∃ c, Fits scope ⟨value.code, type, false⟩ c
      ⟨type, (wrappedType? key.value value.type).bind DataType.numeric?⟩ := by
  have decay := DataType.decay?_of_decayed decays
  have steady := DataType.decay?_idem decay
  obtain ⟨typed, written⟩ : codeType? scope value.code =
      (wrappedType? key.value value.type).bind DataType.numeric? ∧
      ((value.type.width = 1 ∧ ∃ written, wrappedType? key.value value.type = some written ∧
        written.width = 1) ∨ wrappedType? key.value value.type = value.type.decay?) := by
    unfold wrappedValue at found
    split at found
    · rename_i given
      obtain ⟨made, -⟩ := ok_of_ofExcept found
      have made := eq_ok_of_withContext made
      simp only [wrappedType?, given]
      exact ⟨(Glsl.isTyped_ofJson scope made).codeType?, Glsl.literalType?_cases made⟩
    · rename_i given
      obtain ⟨symbol, _, found, ended, -⟩ := ok_of_bind found
      cases ended
      simp only [wrappedType?, given]
      exact ⟨codeType?_of_symbolOrInput ready found declares, .inr trivial⟩
  obtain ⟨tree, spells, number⟩ := literal
  have sum : Spells .sum value.code.toList tree := spells.weaken (by decide)
  rw [Glsl.codeType?_of_spells sum] at typed
  refine ⟨⟨tree, type⟩, .of_reflects ⟨rfl, sum, fun is => ?_⟩, rfl, steady, typed, ?_, ?_,
    .of_signed spells typed⟩
  · exact DataType.width_of_decayed decays (number is)
  · intro numeric untyped
    rw [typed] at untyped
    rcases written with ⟨-, scalar, is, width⟩ | same
    · obtain ⟨family, known⟩ := @DataType.numeric?_of_width scalar (by omega)
      rw [is, Option.bind_some, known] at untyped
      cases untyped
    · rw [same, decay, Option.bind_some] at untyped
      rw [untyped] at numeric
      cases numeric
  · intro own known
    rcases written with ⟨single, scalar, is, width⟩ | same
    · rw [is] at known
      have rank := rank_of_width width known
      have one := DataType.width_of_decayed decays single
      obtain ⟨family, held⟩ := @DataType.numeric?_of_width type (by omega)
      exact ⟨by rw [held, one, rank]; rfl, .inl rank⟩
    · rw [same, decay] at known
      exact ⟨congrArg _ known, .inr (isFloating_of_steady steady known)⟩

theorem follows_runningValue {construct : Construct} {base : Material} {past : List Event}
    (built : ofConstruct construct = .ok base) (early : past <+: generate.events base) (n : NodeId)
    (stage : Stage) (wrapped : Wrapped) (ready : Ready scope stage (base.replay past)) :
    FollowsAt scope stage (base.replay past) (runningValue n stage wrapped)
      (flowValue n stage wrapped) fun running e => ∃ c, Fits scope running c e := by
  have begins : FollowsAt scope stage (base.replay past)
      (wrappedValue n (.stage stage) wrapped.key) (wrappedValue n (.stage stage) wrapped.key)
      fun value again => again = value ∧ ∀ type, value.type.decayed = .ok type →
        ∃ c, Fits scope ⟨value.code, type, false⟩ c
          ⟨type, (wrappedType? wrapped.key.value value.type).bind DataType.numeric?⟩ := by
    intro value middle found declares
    have quiet (base : Material) : Heeds (Holding scope stage) base
        (wrappedValue n (.stage stage) wrapped.key) fun _ => True := by
      unfold wrappedValue
      split
      · exact heeds_ofExcept _
      · exact Keeps.bind ((heeding (lenient_showing _ base)).symbolOrInput n _ _) fun _ _ =>
          Keeps.pure trivial
    have kept := ready.kept (reads_wrappedValue n (.stage stage) wrapped.key) quiet found
    refine ⟨kept, value, found, rfl, rfl, fun type decays => ?_⟩
    exact fits_wrapped ready found declares (isLiteral_of_wrappedValue built early found) decays
  refine begins.bind fun value again is => ?_
  obtain ⟨rfl, fits⟩ := is
  have typed : Follows scope stage (ofExcept again.type.decayed) (ofExcept again.type.decayed)
      fun type same => same = type ∧ again.type.decayed = .ok type :=
    .ofExcept fun type decays => ⟨type, decays, rfl, decays⟩
  refine .bind typed fun type same is => ?_
  obtain ⟨rfl, decays⟩ := is
  refine .foldlM (fun entry _ running e is => ?_) (fits same decays)
  obtain ⟨c, fits⟩ := is
  exact follows_applyVerb n stage fits entry

/-- The ranks of a value and its variable are the same, so that it depends on the families whether
one can be assigned to the other. -/
theorem Fits.accepts_iff (fits : Fits scope running c e) :
    Glsl.Accepts scope e.type running.code ↔ e.isAccepted = true := by
  have typed : codeType? scope running.code = e.own := by
    rw [Glsl.codeType?_of_spells fits.runs.reflects.sum, fits.typed]
  simp only [Glsl.Accepts, Flow.isAccepted, Option.any_eq_true, typed, Numeric.converts,
    Bool.and_eq_true, decide_eq_true_eq]
  constructor
  · rintro ⟨own, declared, is, held, -, converts⟩
    exact ⟨own, is, declared, held, converts⟩
  · rintro ⟨own, is, declared, held, converts⟩
    have rank := (fits.suits own is).1
    rw [held] at rank
    exact ⟨own, declared, is, held, (Option.some.inj rank).symm, converts⟩

end Steps

/-- A value declares its variable in the type that it shows. In a scope in which the inputs and the
symbols that it may use have the types that are recorded for them, the code has the type that
follows from those of the operands, and the declaration is well typed exactly if the family of this
type converts to that of the recorded one. -/
theorem emitValue_typed_iff {c : Construct} {base after : Material} {past : List Event}
    (built : ofConstruct c = .ok base) (early : past <+: generate.events base) {n : NodeId}
    {wrapped : Wrapped} (ended : emitValue n wrapped (base.replay past) = .ok () after)
    {stage : Stage} (staged : (base.replay past).stageOf n = .ok stage) {scope : Scope}
    (declares : DeclaresInputs scope stage after)
    (shown : ∀ other key symbol, (key, symbol) ∈ ((base.replay past).node other).outputs →
      Holds scope stage symbol) :
    ∃ e middle spelling code,
      flowValue n stage wrapped (base.replay past) = .ok e middle ∧
      e.type.spelling = .ok spelling ∧
      (emitValue n wrapped).events (base.replay past) =
        (flowValue n stage wrapped).events (base.replay past) ++
          [.start stage, .write stage (.mainBody stage) s!"{spelling} value{n} = {code};",
            .expose n (.typed wrapped.key.id e.type) ⟨s!"value{n}", e.type, .stage stage⟩] ∧
      codeType? scope code = e.own ∧
      (Glsl.Accepts scope e.type code ↔ e.isAccepted = true) := by
  have fresh := fresh_ofConstruct built
  have ready : Ready scope stage (base.replay past) :=
    ⟨(Reached.all .start early).legible fresh, fresh.formed.replay past, shown⟩
  obtain ⟨own, result, middle, spelling, at_stage, ran, spelled, events⟩ := emitValue_eq_ok ended
  obtain rfl : stage = own := Except.ok.inj (staged.symm.trans at_stage)
  have known : DeclaresInputs scope stage middle := by
    rw [Action.material_of_ok ended, events, replay_append, ← Action.material_of_ok ran] at declares
    exact declares.of_replay
  obtain ⟨-, e, flows, same, tree, fits⟩ :=
    follows_runningValue built early n stage wrapped ready result middle ran known
  have typed : codeType? scope result.code = e.own := by
    rw [Glsl.codeType?_of_spells fits.runs.reflects.sum, fits.typed]
  refine ⟨e, middle, spelling, result.code, flows, ?_, ?_, typed, fits.accepts_iff⟩
  · rw [fits.type, spelled]
  · rw [events, same, fits.type]

theorem mem_outputs_of_all {m : Material} {holds : Trait × Symbol → Bool}
    (all : (m.nodes.all fun node => node.outputs.all holds) = true) {n : NodeId}
    {pair : Trait × Symbol} (member : pair ∈ (m.node n).outputs) : holds pair = true := by
  by_cases known : n < m.nodes.size
  · have each := Array.all_eq_true.1 all n known
    have same : m.node n = m.nodes[n] := by simp [node, known]
    rw [same] at member
    exact List.all_eq_true.1 each pair member
  · simp [node, known] at member
    cases member

/-- A place in two dimensions changes with the time that another value shows, and is projected. -/
theorem emitValue_typed_iff_of_place :
    let wrapped : Wrapped := ⟨.ofId .resolution,
      [⟨.multiply, none, some .time⟩, ⟨.project, none, some .view⟩]⟩
    let scope : Scope := ⟨fun name => if name = "value1" then some ⟨.float, .scalar⟩ else none,
      fun _ part => if part = "Time" then some ⟨.float, .scalar⟩
        else if part = "Resolution" then some ⟨.float, .vector 2⟩
        else if part = "View" then some ⟨.float, .matrix 4⟩
        else none⟩
    ∃ base past after code,
      ofConstruct ⟨.material, none, [], [], [⟨.value, none, [.ofId .time], [], []⟩,
        ⟨.value, none, [wrapped.key], wrapped.verbs, []⟩]⟩ = .ok base ∧
      past <+: generate.events base ∧
      emitValue 2 wrapped (base.replay past) = .ok () after ∧
      DeclaresInputs scope .pixel after ∧
      (∀ other key symbol, (key, symbol) ∈ ((base.replay past).node other).outputs →
        Holds scope .pixel symbol) ∧
      .write .pixel (.mainBody .pixel) s!"vec4 value2 = {code};" ∈
        (emitValue 2 wrapped).events (base.replay past) ∧
      Glsl.Accepts scope .vec4 code := by
  intro wrapped scope
  have evaluated : (ofConstruct ⟨.material, none, [], [], [⟨.value, none, [.ofId .time], [], []⟩,
      ⟨.value, none, [wrapped.key], wrapped.verbs, []⟩]⟩).toOption.any (fun base =>
        let m := base.replay ((generate.events base).take 10)
        ((emitValue 2 wrapped).ended? m).any (fun out => out.2.inputs.all fun b =>
            codeType? scope b.name = (b.key.type.getD .float).declared?) &&
          m.stage? 2 = some .pixel &&
          (m.nodes.all fun node => node.outputs.all fun pair =>
            codeType? scope pair.2.expr = pair.2.type.declared?) &&
          ((flowValue 2 .pixel wrapped).ended? m).any fun out =>
            out.1.type = .vec4 && out.1.isAccepted) = true := by
    decide +kernel
  obtain ⟨base, built, evaluated⟩ := exists_ok_of_any evaluated
  simp only [Bool.and_eq_true, decide_eq_true_eq] at evaluated
  obtain ⟨⟨⟨ends, staged⟩, outputs⟩, flows⟩ := evaluated
  obtain ⟨_, after, ended, inputs⟩ := Action.exists_ok_of_any ends
  obtain ⟨e, middle, flowed, evaluated⟩ := Action.exists_ok_of_any flows
  simp only [Bool.and_eq_true, decide_eq_true_eq] at evaluated
  obtain ⟨vector, accepted⟩ := evaluated
  have early : (generate.events base).take 10 <+: generate.events base := List.take_prefix _ _
  have declares : DeclaresInputs scope .pixel after := by
    intro b member _
    exact of_decide_eq_true (List.all_eq_true.1 inputs b member)
  have shown (other : NodeId) (key : Trait) (symbol : Symbol)
      (member : (key, symbol) ∈
        ((base.replay ((generate.events base).take 10)).node other).outputs) :
      Holds scope .pixel symbol := by
    intro _
    have held := mem_outputs_of_all outputs member
    exact of_decide_eq_true held
  obtain ⟨_, _, spelling, code, again, spelled, events, -, exact_condition⟩ :=
    emitValue_typed_iff built early ended (by rw [stageOf, staged]) declares shown
  cases flowed.symm.trans again
  rw [vector] at spelled events exact_condition
  cases spelled
  have accepts := exact_condition.2 accepted
  refine ⟨base, (generate.events base).take 10, after, code, built, early, ended, declares, shown,
    ?_, accepts⟩
  rw [events]
  exact List.mem_append_right _ (List.mem_cons_of_mem _ List.mem_cons_self)

/-- A truth value is no floating point number, in whatever scope. -/
theorem emitValue_not_typed :
    let wrapped : Wrapped := ⟨⟨.aim, none, some (.bool true)⟩, []⟩
    ∃ base after code,
      ofConstruct ⟨.material, none, [], [], [⟨.value, none, [wrapped.key], [], []⟩]⟩ = .ok base ∧
      emitValue 1 wrapped base = .ok () after ∧
      .write .pixel (.mainBody .pixel) s!"float value1 = {code};" ∈
        (emitValue 1 wrapped).events base ∧
      ∀ scope, ¬ Glsl.Accepts scope .float code := by
  intro wrapped
  obtain ⟨base, after, built, ended, written⟩ := @exists_written wrapped ⟨"true", .float, false⟩
    "float" rfl (by decide +kernel)
  refine ⟨base, after, "true", built, ended, written, fun scope accepts => ?_⟩
  obtain ⟨own, declared, typed, held, converts⟩ := accepts
  obtain rfl := Option.some.inj ((Glsl.isTyped_truth scope true).codeType?.symm.trans typed)
  cases held
  cases converts

end Emission

end GlslMaterial
