import GlslMaterial.Proofs.History.Fresh
import GlslMaterial.Proofs.History.Law
import GlslMaterial.Proofs.Lookup.Search

/-!
Lookups keep to the law, and what they find is a symbol that a node shows and that can be used as it
is, or an input of the material.
-/

set_option autoImplicit false

namespace GlslMaterial.Material

open GlslMaterial.Action (Meets ok_of_bind ok_of_read)

variable {declaring : Bool} {base : Material} {past : List Event}

theorem meets_warn (warning : Warning) :
    Meets (Legal declaring) base past (warn warning) fun _ _ => True :=
  Meets.perform trivial trivial

theorem meets_inputFor (rate : Rate) (key : Trait) {duplicates : Bool}
    (single : duplicates = true → key.isTexture = true) :
    Meets (Legal declaring) base past (inputFor rate key duplicates) fun result later =>
      ∃ typed, key.resolved = .ok typed ∧ inputRate rate typed = .ok result.2 ∧
        Bound (base.replay later).inputs result.2 typed result.1 := by
  apply Meets.inputFor single
  rintro ⟨name, kept⟩ after added
  obtain ⟨typed, resolved, stored, asked, -⟩ := addInput_eq_ok added
  have reached : base.replay (past ++ [.input rate key duplicates]) = after := by
    simp [apply, withInput, added]
  rw [reached]
  exact ⟨typed, resolved, stored, asked.exists_mem⟩

theorem meets_outputFor (rate : Rate) (key : Trait) :
    Meets (Legal declaring) base past (outputFor rate key false) fun result later =>
      ∃ typed, key.resolved = .ok typed ∧
        Bound (base.replay later).outputs rate typed result.1 := by
  apply Meets.outputFor rfl
  rintro ⟨name, created⟩ after added
  obtain ⟨typed, resolved, -, asked, -⟩ := addOutput_eq_ok added
  have reached : base.replay (past ++ [.output rate key false]) = after := by
    simp [apply, withOutput, added]
  rw [reached]
  exact ⟨typed, resolved, asked.exists_mem⟩

theorem meets_commit (stage : Stage) {marker : Marker} (code : String)
    (allowed : declaring = true ∨ marker.isInterface = false) :
    Meets (Legal declaring) base past (commit stage marker code) fun _ later =>
      .write stage marker code ∈ later :=
  Meets.writing trivial allowed (by simp)

variable {key : Trait} {rate kept : Rate} {type : DataType} {viewer : NodeId} {symbol : Symbol}

theorem meets_assign (stage : Stage) {output : String} (value : String)
    (bound : Bound (base.replay past).outputs (.stage stage) key output) :
    Meets (Legal declaring) base past (assign stage output value) fun _ _ => True := by
  refine Meets.writing trivial ⟨key, bound.mono ?_⟩ trivial
  rw [replay_append]
  exact (entries_replay _ _).2

theorem meets_ensureFunction (stage : Stage) (name body : String) :
    Meets (Legal declaring) base past (ensureFunction stage name body) fun _ _ => True := by
  apply Meets.bind
  apply Meets.read
  apply Meets.bind
  apply Meets.perform trivial
  split
  · exact Meets.pure trivial
  · exact (meets_commit stage _ (.inr rfl)).mono fun _ _ _ _ => trivial

theorem inputRate_eq_or_isUniform (concrete : rate ≠ .auto)
    (stored : inputRate rate key = .ok kept) : kept = rate ∨ kept.isUniform = true := by
  unfold inputRate at stored
  split at stored
  · exact absurd rfl concrete
  · obtain rfl := Except.ok.inj stored
    split
    · exact .inr rfl
    · split
      · rename_i own _
        split
        · rename_i coarse
          simp only [concrete, decide_false, Bool.false_or, Bool.and_eq_true] at coarse
          exact .inr coarse.1
        · exact .inl rfl
      · exact .inl rfl

/-- An input of a material gives a symbol to those who ask at a rate. -/
structure Provides (m : Material) (rate : Rate) (symbol : Symbol) : Prop where
  input : ∃ key : Trait, key.type = some symbol.type ∧ Bound m.inputs symbol.rate key symbol.expr
  reads : rate ≠ .auto → symbol.rate = rate ∨ symbol.rate.isUniform = true

/-- A symbol can be used at a rate as it is. -/
def Usable (rate : Rate) (symbol : Symbol) : Prop :=
  symbol.rate.stage? = none ∨ rate.stage? = none ∨ symbol.rate = rate ∨
    symbol.type.isTexture = true

theorem isTexture_decay? {decayed : DataType} (decays : type.decay? = some decayed) :
    decayed.isTexture = type.isTexture := by
  cases type <;> cases decays <;> rfl

theorem isTexture_decayed {decayed : DataType} (decays : type.decayed = .ok decayed) :
    decayed.isTexture = type.isTexture :=
  isTexture_decay? (DataType.decay?_of_decayed decays)

theorem meets_carryOut (producer : Stage) (id : TraitId) (type : DataType) (expr : String) :
    Meets (Legal declaring) base past (carryOut producer (.typed id type) expr)
      fun output later =>
        Bound (base.replay later).outputs (.stage producer) (.typed id type) output := by
  apply Meets.bind
  apply (meets_outputFor (.stage producer) (.typed id type)).mono
  rintro ⟨output, created⟩ asked _ ⟨typed, resolved, bound⟩
  obtain rfl : Trait.typed id type = typed := Except.ok.inj resolved
  have persists {later : List Event} (early : asked <+: later) :
      Bound (base.replay later).outputs (.stage producer) (.typed id type) output := by
    obtain ⟨rest, rfl⟩ := early
    rw [replay_append]
    exact bound.mono (entries_replay _ _).2
  simp only
  split
  · apply Meets.bind
    apply (meets_assign producer expr bound).grows.mono
    intro _ assigned _ early
    apply Meets.bind
    apply Meets.perform trivial
    apply Meets.pure
    exact persists (early.1.trans (List.prefix_append _ _))
  · exact Meets.pure bound

theorem meets_carryIn (producer : Stage) {output : String} {id : TraitId}
    (rate : Rate) (plain : type.isTexture = false)
    (bound : Bound (base.replay past).outputs (.stage producer) (.typed id type) output) :
    Meets (Legal declaring) base past (carryIn producer output (.typed id type) rate)
      fun result later => inputRate rate (.typed id type) = .ok result.2 ∧
        Bound (base.replay later).inputs result.2 (.typed id type) result.1 := by
  apply Meets.bind
  apply (meets_inputFor rate (.typed id type) (by simp)).grows.mono
  rintro ⟨input, kept⟩ asked _ ⟨⟨rest, rfl⟩, typed, resolved, stored, known⟩
  obtain rfl : Trait.typed id type = typed := Except.ok.inj resolved
  have output_there : Bound (base.replay (past ++ rest)).outputs (.stage producer)
      (.typed id type) output := by
    rw [replay_append]
    exact bound.mono (entries_replay _ _).2
  apply Meets.bind
  apply Meets.perform ⟨.typed id type, rfl, plain, output_there, known⟩
  apply Meets.pure
  refine ⟨stored, ?_⟩
  rw [replay_append]
  exact known.mono (entries_replay _ _).1

/-- A bridge leaves a symbol as it is where it can be used as it is, and otherwise ends in an
input. -/
theorem meets_bridge (key : Trait) (symbol : Symbol) (rate : Rate) :
    Meets (Legal declaring) base past (bridge key symbol rate) fun found later =>
      found = symbol ∧ Usable rate symbol ∨
      (base.replay later).Provides rate found ∧ symbol.type.decay? = some found.type := by
  unfold bridge
  split
  · rename_i producer consumer _ _
    split
    · rename_i usable
      apply Meets.pure
      simp only [Bool.or_eq_true, decide_eq_true_eq] at usable
      exact .inl ⟨rfl, .inr (.inr usable)⟩
    · rename_i foreign
      simp only [Bool.or_eq_true, decide_eq_true_eq, not_or] at foreign
      apply Meets.bind
      apply Meets.ofExcept
      intro type decays
      apply Meets.bind
      apply (meets_carryOut producer key.id type symbol.expr).mono
      intro output _ _ bound
      apply Meets.bind
      have plain : type.isTexture = false := by
        rw [isTexture_decayed decays]
        simpa using foreign.2
      apply (meets_carryIn producer rate plain bound).mono
      rintro ⟨input, kept⟩ later _ ⟨stored, known⟩
      apply Meets.pure
      exact .inr ⟨⟨⟨_, rfl, known⟩, fun concrete => inputRate_eq_or_isUniform concrete stored⟩,
        DataType.decay?_of_decayed decays⟩
  · rename_i _ outside
    apply Meets.pure
    refine .inl ⟨rfl, ?_⟩
    cases produced : symbol.rate.stage? with
    | none => exact .inl produced
    | some producer =>
      cases consumed : rate.stage? with
      | none => exact .inr (.inl consumed)
      | some consumer => exact absurd consumed (outside producer consumer produced)

theorem type_of_resolved {typed : Trait} (resolved : key.resolved = .ok typed) :
    typed.type = key.type.or key.id.defaultType? := by
  unfold Trait.resolved at resolved
  cases given : key.type with
  | some type =>
    obtain rfl : key = typed := by simpa [given] using resolved
    simp [given]
  | none =>
    cases default : key.id.defaultType? with
    | some type =>
      obtain rfl : { key with type := some type } = typed := by
        simpa [given, default] using resolved
      rfl
    | none => simp [given, default] at resolved

theorem isTexture_getD : (key.type.getD .float).isTexture = key.isTexture := by
  unfold Trait.isTexture
  cases key.type <;> rfl

theorem type_of_isTexture {typed : Trait} (resolved : key.resolved = .ok typed)
    (texture : (typed.type.getD .float).isTexture = true) :
    key.type.or key.id.defaultType? = some .sampler2D := by
  rw [← type_of_resolved resolved]
  cases given : typed.type with
  | none => simp [given, DataType.isTexture] at texture
  | some type => simpa [given, DataType.isTexture] using texture

/-- An input is a texture only where its trait says so. -/
theorem texture_of_input (given : ∃ typed, key.resolved = .ok typed ∧
      (type = typed.type.getD .float ∨ (typed.type.getD .float).decay? = some type))
    (texture : type.isTexture = true) : key.type.or key.id.defaultType? = some .sampler2D := by
  obtain ⟨typed, resolved, rfl | decays⟩ := given
  · exact type_of_isTexture resolved texture
  · exact type_of_isTexture resolved (isTexture_decay? decays ▸ texture)

theorem isUniform_of_coarse (coarse : (rate.isUniform || key.isTexture) = true)
    (stored : inputRate rate key = .ok kept) : kept.isUniform = true := by
  rcases Bool.or_eq_true_iff.1 coarse with uniform | texture
  · have concrete : rate ≠ .auto := by
      rintro rfl
      simp [Rate.isUniform, Rate.uniform?] at uniform
    rcases inputRate_eq_or_isUniform concrete stored with rfl | also
    · exact uniform
    · exact also
  · rw [inputRate_texture texture stored]
    rfl

theorem isUniform_of_usable {own : Rate} {name : String}
    (staged : own.stage?.isSome = true) (consumer : rate.stage?.isSome = true)
    (plain : type.isTexture = false) (stored : inputRate own key = .ok kept)
    (usable : Usable rate ⟨name, type, kept⟩) : kept = rate ∨ kept.isUniform = true := by
  have given : own ≠ .auto := by
    rintro rfl
    simp [Rate.stage?] at staged
  rcases inputRate_eq_or_isUniform given stored with rfl | uniform
  · rcases usable with nowhere | nowhere | same | texture
    · simp [show kept.stage? = none from nowhere] at staged
    · simp [nowhere] at consumer
    · exact .inl same
    · simp [show type.isTexture = true from texture] at plain
  · exact .inr uniform

theorem meets_inputSymbol (key : Trait) (rate : Rate) :
    Meets (Legal declaring) base past (inputSymbol key rate) fun found later =>
      (base.replay later).Provides rate found ∧ ∃ typed, key.resolved = .ok typed ∧
        (found.type = typed.type.getD .float ∨
          (typed.type.getD .float).decay? = some found.type) := by
  apply Meets.bind
  apply Meets.ofExcept
  intro typed resolved
  have has := (Trait.resolved_eq_ok resolved).2.1
  have given : typed.type = some (typed.type.getD .float) := by
    obtain ⟨type, given⟩ := Option.isSome_iff_exists.1 has
    simp [given]
  have again {other : Trait} (same : typed.resolved = .ok other) : typed = other :=
    ((Trait.resolved_eq_ok same).2.2 has).symm
  simp only
  split
  · rename_i coarse
    apply Meets.bind
    apply (meets_inputFor _ typed (by simp)).mono
    rintro ⟨name, kept⟩ later _ ⟨other, same, stored, known⟩
    obtain rfl := again same
    apply Meets.pure
    exact ⟨⟨⟨_, given, known⟩, fun _ => .inr (isUniform_of_coarse coarse stored)⟩, typed, resolved,
      .inl rfl⟩
  · rename_i fine
    split
    · rename_i earlier
      apply Meets.bind
      apply (meets_inputFor _ typed (by simp)).grows.mono
      rintro ⟨name, kept⟩ asked _ ⟨early, other, same, stored, known⟩
      obtain rfl := again same
      apply (meets_bridge typed ⟨name, typed.type.getD .float, kept⟩ rate).grows.mono
      rintro found later _ ⟨⟨rest, rfl⟩, ⟨rfl, usable⟩ | ⟨provided, decays⟩⟩
      · refine ⟨⟨⟨typed, given, ?_⟩, fun _ => ?_⟩, typed, resolved, .inl rfl⟩
        · rw [replay_append]
          exact known.mono (entries_replay _ _).1
        · simp only [Bool.or_eq_true, not_or, Bool.not_eq_true] at fine
          simp only [Bool.and_eq_true, decide_eq_true_eq] at earlier
          exact isUniform_of_usable earlier.1.2 earlier.2 (isTexture_getD.trans fine.2) stored
            usable
      · exact ⟨provided, typed, resolved, .inr decays⟩
    · apply Meets.bind
      apply (meets_inputFor _ typed (by simp)).mono
      rintro ⟨name, kept⟩ later _ ⟨other, same, stored, known⟩
      obtain rfl := again same
      apply Meets.pure
      exact ⟨⟨⟨_, given, known⟩, fun concrete => inputRate_eq_or_isUniform concrete stored⟩, typed,
        resolved, .inl rfl⟩

variable {m after : Material}

theorem bridge_ok {source : Symbol} (ended : bridge key source rate m = .ok symbol after) :
    symbol = source ∧ Usable rate source ∨
      after.Provides rate symbol ∧ source.type.decay? = some symbol.type := by
  obtain ⟨_, rfl, given⟩ := (@meets_bridge true m [] key source rate).post_of_ok ended
  exact given

theorem inputSymbol_ok (ended : inputSymbol key rate m = .ok symbol after) :
    after.Provides rate symbol ∧ ∃ typed, key.resolved = .ok typed ∧
      (symbol.type = typed.type.getD .float ∨
        (typed.type.getD .float).decay? = some symbol.type) := by
  obtain ⟨_, rfl, given⟩ := (@meets_inputSymbol true m [] key rate).post_of_ok ended
  exact given

theorem seen?_ok {found : Option Symbol} (ended : seen? viewer key rate m = .ok found after) :
    (m.find? viewer key rate = none ∧ found = none ∧ m = after) ∨
      ∃ source symbol, m.find? viewer key rate = some source ∧ found = some symbol ∧
        bridge key source rate m = .ok symbol after := by
  obtain ⟨_, _, read, ended, -⟩ := ok_of_bind ended
  obtain ⟨rfl, rfl⟩ := ok_of_read read
  split at ended
  · rename_i source known
    obtain ⟨symbol, _, crossed, ended, -⟩ := ok_of_bind ended
    cases ended
    exact .inr ⟨source, symbol, known, rfl, crossed⟩
  · rename_i missing
    cases ended
    exact .inl ⟨missing, rfl, rfl⟩

theorem search_ok {α : Type} {kind : Fallback} (give : Symbol → α) (fallback : Rate → Action α)
    {a : α} (ended : search viewer key rate kind give fallback m = .ok a after) :
    (∃ source symbol, m.find? viewer key (m.concreteRate viewer rate) = some source ∧
      bridge key source (m.concreteRate viewer rate) m = .ok symbol after ∧ a = give symbol) ∨
    m.find? viewer key (m.concreteRate viewer rate) = none ∧
      fallback (m.concreteRate viewer rate) m = .ok a after := by
  obtain ⟨_, _, asked, ended, -⟩ := ok_of_bind ended
  cases asked
  obtain ⟨_, _, read, ended, -⟩ := ok_of_bind ended
  obtain ⟨rfl, rfl⟩ := ok_of_read read
  obtain ⟨seen, middle, searched, ended, -⟩ := ok_of_bind ended
  rcases seen?_ok searched with ⟨missing, rfl, rfl⟩ | ⟨source, symbol, known, rfl, crossed⟩
  · exact .inr ⟨missing, ended⟩
  · cases ended
    exact .inl ⟨source, symbol, known, crossed, rfl⟩

theorem symbolOrInput_ok (ended : symbolOrInput viewer key rate m = .ok symbol after) :
    (∃ source, m.find? viewer key (m.concreteRate viewer rate) = some source ∧
      bridge key source (m.concreteRate viewer rate) m = .ok symbol after) ∨
    m.find? viewer key (m.concreteRate viewer rate) = none ∧
      inputSymbol key (m.concreteRate viewer rate) m = .ok symbol after := by
  rcases search_ok id (inputSymbol key) ended with ⟨source, _, known, crossed, rfl⟩ | given
  · exact .inl ⟨source, known, crossed⟩
  · exact .inr given

theorem find?_eq_some {m : Material} (found : m.find? viewer key rate = some symbol) :
    ∃ n trait, (trait, symbol) ∈ (m.node n).outputs ∧ trait.agrees key = true ∧
      symbol.rate ≤ rate := by
  unfold find? at found
  obtain ⟨n, -, shown⟩ := List.exists_of_findSome?_eq_some found
  obtain ⟨⟨trait, other⟩, chosen, rfl⟩ := Option.map_eq_some_iff.1 shown
  have suits := List.find?_some chosen
  simp only [Bool.and_eq_true, decide_eq_true_eq] at suits
  exact ⟨n, trait, List.mem_of_find?_eq_some chosen, suits.1, suits.2⟩

theorem exists_expose_of_find? (fresh : base.Fresh)
    (found : (base.replay past).find? viewer key rate = some symbol) :
    ∃ n trait, .expose n trait symbol ∈ past ∧ trait.agrees key = true ∧ symbol.rate ≤ rate := by
  obtain ⟨n, trait, shown, agrees, coarse⟩ := find?_eq_some found
  rcases outputs_replay shown with early | exposed
  · simp [fresh.shown] at early
  · exact ⟨n, trait, exposed, agrees, coarse⟩

/-- Textures can be seen only where values wrap them. -/
theorem meets_seen? (fresh : base.Fresh) (viewer : NodeId) (key : Trait) (rate : Rate) :
    Meets (Legal declaring) base past (seen? viewer key rate) fun found _ =>
      ∀ symbol, found = some symbol → symbol.type.isTexture = true → base.WrapsTexture := by
  apply Meets.of_lawful
  intro written
  apply Meets.bind
  apply Meets.read
  split
  · rename_i source found
    obtain ⟨n, trait, exposed, -⟩ := exists_expose_of_find? fresh found
    obtain ⟨-, texture, -⟩ := Written.of_expose written exposed
    apply Meets.bind
    apply (meets_bridge key source rate).mono
    rintro symbol later _ given
    apply Meets.pure
    rintro _ ⟨⟩ is
    rcases given with ⟨rfl, -⟩ | ⟨-, decays⟩
    · exact texture is
    · exact texture (isTexture_decay? decays ▸ is)
  · exact Meets.pure nofun

/-- What a lookup at a rate gives: a symbol of a node as it is, or an input. -/
def Found (m after : Material) (rate : Rate) (symbol : Symbol) : Prop :=
  (∃ n trait, (trait, symbol) ∈ (m.node n).outputs ∧ Usable rate symbol) ∨
    after.Provides rate symbol

theorem Found.of_bridge {source : Symbol} (known : m.find? viewer key rate = some source)
    (ended : bridge key source rate m = .ok symbol after) : Found m after rate symbol := by
  obtain ⟨n, trait, shown, -⟩ := find?_eq_some known
  rcases bridge_ok ended with ⟨rfl, usable⟩ | ⟨provides, -⟩
  · exact .inl ⟨n, trait, shown, usable⟩
  · exact .inr provides

theorem symbolOrInput_found (ended : symbolOrInput viewer key rate m = .ok symbol after) :
    Found m after (m.concreteRate viewer rate) symbol := by
  rcases symbolOrInput_ok ended with ⟨source, known, crossed⟩ | ⟨-, given⟩
  · exact .of_bridge known crossed
  · exact .inr (inputSymbol_ok given).1

theorem lookup_found {kind : Fallback}
    (ended : lookup viewer key rate kind m = .ok (some symbol) after) :
    Found m after (m.concreteRate viewer rate) symbol := by
  cases kind with
  | required =>
    obtain ⟨_, _, ended, same, -⟩ := ok_of_bind ended
    cases same
    let refuse (rate : Rate) : Action Symbol := do
      Action.fail (.misuse (.notVisible key.id rate viewer ((← read).node viewer).config.kind))
    rcases search_ok id refuse ended with ⟨source, _, known, crossed, rfl⟩ | ⟨-, failed⟩
    · exact .of_bridge known crossed
    · cases failed
  | input =>
    obtain ⟨_, _, ended, same, -⟩ := ok_of_bind ended
    cases same
    exact symbolOrInput_found ended
  | soft =>
    let pass (rate : Rate) : Action (Option Symbol) := do
      warn (.notVisible key.id rate viewer ((← read).node viewer).config.kind)
      return none
    rcases search_ok some pass ended with ⟨source, _, known, crossed, same⟩ | ⟨-, failed⟩
    · obtain rfl := Option.some.inj same
      exact .of_bridge known crossed
    · cases failed

end GlslMaterial.Material
