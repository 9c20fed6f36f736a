import GlslMaterial.Proofs.Twin.Emission
import Mathlib.Algebra.Order.Ring.Nat
import Mathlib.Data.List.Forall2

/-!
Drawing: both ways to draw the scenes below a raster agree on what there is to draw. Whatever a
raster does once it has something to draw fails only where it is misused.
-/

set_option autoImplicit false

namespace GlslMaterial

/-- Whether a failure says that something was asked for in the wrong way. -/
def Failure.IsMisuse (failure : Failure) : Prop :=
  ∃ reason, failure = .misuse reason

theorem Failure.not_isMisuse (reason : MissingGeometry) : ¬ (missingGeometry reason).IsMisuse := by
  rintro ⟨_, same⟩
  cases congrArg Failure.cause same

/-- A computation that fails only where it is misused. -/
def Checked {α : Type} (value : Except Failure α) : Prop :=
  ∀ failure, value = .error failure → failure.IsMisuse

section Checked

variable {α β : Type}

theorem Checked.ok (a : α) : Checked (.ok a) := by
  rintro _ ⟨⟩

theorem Checked.misuse (reason : Misuse) :
    Checked (.error (.misuse reason) : Except Failure α) := by
  rintro _ ⟨⟩
  exact ⟨reason, rfl⟩

theorem Checked.bind {first : Except Failure α} {next : α → Except Failure β}
    (checked : Checked first)
    (later : ∀ a, Checked (next a)) : Checked (first >>= next) := by
  cases first with
  | error failure =>
    rintro _ ⟨⟩
    exact checked failure rfl
  | ok a => exact later a

theorem checked_resolved (t : Trait) : Checked t.resolved := by
  unfold Trait.resolved
  split <;> first | exact .ok _ | exact .misuse _

theorem checked_decayed (type : DataType) : Checked type.decayed := by
  unfold DataType.decayed
  split <;> first | exact .ok _ | exact .misuse _

theorem checked_spelling (type : DataType) : Checked type.spelling := by
  unfold DataType.spelling
  split <;> first | exact .ok _ | exact .misuse _

theorem checked_convert (code : String) (source target : DataType) (filler : String) :
    Checked (Glsl.convert code source target filler) := by
  unfold Glsl.convert
  split
  · exact .ok _
  refine (checked_decayed source).bind fun source => (checked_decayed target).bind fun target => ?_
  split
  · exact .ok _
  split
  · exact (checked_spelling target).bind fun _ => .ok _
  split
  · refine (checked_spelling target).bind fun _ => ?_
    split <;> exact .ok _
  · exact .misuse _

theorem checked_addInput (m : Material) (rate : Rate) (key : Trait) (duplicates : Bool) :
    Checked (m.addInput rate key duplicates) := by
  refine (checked_resolved key).bind fun key => .bind (fun failure failed => ?_) fun rate => ?_
  · unfold Material.inputRate at failed
    split at failed
    · cases failed
      exact ⟨_, rfl⟩
    · cases failed
  · split <;> exact .ok _

theorem checked_addOutput (m : Material) (rate : Rate) (key : Trait) (duplicates : Bool) :
    Checked (m.addOutput rate key duplicates) := by
  unfold Material.addOutput
  split
  · exact .misuse _
  · refine (checked_resolved key).bind fun key => ?_
    split <;> exact .ok _

end Checked

namespace Action

variable {α β : Type}

/-- An action that fails only where it is misused. -/
def Careful (action : Action α) : Prop :=
  ∀ m failure after, action m = .error failure after → failure.IsMisuse

theorem careful_pure (a : α) : Careful (pure a : Action α) := by
  rintro _ _ _ ⟨⟩

theorem careful_perform (event : Event) : Careful (perform event) := by
  rintro _ _ _ ⟨⟩

theorem careful_ofExcept {value : Except Failure α} (checked : Checked value) :
    Careful (ofExcept value) := by
  intro m failure after failed
  cases value with
  | ok a => cases failed
  | error other =>
    cases failed
    exact checked failure rfl

theorem Careful.bind {first : Action α} {next : α → Action β} (careful : Careful first)
    (later : ∀ a, Careful (next a)) : Careful (first >>= next) := by
  intro m failure after failed
  rcases error_of_bind failed with ⟨failed, -⟩ | ⟨a, middle, -, failed, -⟩
  · exact careful m failure after failed
  · exact later a middle failure after failed

theorem careful_read {next : Material → Action β} (later : ∀ m, Careful (next m)) :
    Careful (read >>= next) := by
  refine .bind ?_ later
  rintro _ _ _ ⟨⟩

end Action

namespace Material

open GlslMaterial.Action

theorem careful_inputFor (rate : Rate) (key : Trait) (duplicates : Bool) :
    Careful (inputFor rate key duplicates) :=
  careful_read fun m => (careful_ofExcept (checked_addInput m rate key duplicates)).bind fun _ =>
    (careful_perform _).bind fun _ => careful_pure _

theorem careful_outputFor (rate : Rate) (key : Trait) (duplicates : Bool) :
    Careful (outputFor rate key duplicates) :=
  careful_read fun m => (careful_ofExcept (checked_addOutput m rate key duplicates)).bind fun _ =>
    (careful_perform _).bind fun _ => careful_pure _

theorem careful_writing (stage : Stage) (marker : Marker) (event : Event) :
    Careful (writing stage marker event) := by
  refine (careful_perform _).bind fun _ => careful_read fun m => ?_
  split
  · exact careful_perform event
  · rintro _ _ _ ⟨⟩
    exact ⟨_, rfl⟩

/-- Lookups fail only where they are misused. -/
def careful : Seeking where
  Holds := Careful
  pure := careful_pure
  bind := .bind
  look := by rintro _ _ _ ⟨⟩
  decayed type := careful_ofExcept (checked_decayed type)
  resolved key := careful_ofExcept (checked_resolved key)
  inputFor rate key := careful_inputFor rate key false
  outputFor rate key := careful_outputFor rate key false
  assign stage _ _ := careful_writing stage _ _
  note _ := careful_perform _

theorem careful_exprOrInput (viewer : NodeId) (id : TraitId) (rate : Rate) :
    Careful (exprOrInput viewer id rate) :=
  (careful.symbolOrInput _ _ _).bind fun _ => careful_pure _

theorem careful_valueOrInput (viewer : NodeId) (id : TraitId) (rate : Rate) (type : DataType) :
    Careful (valueOrInput viewer id rate type) :=
  (careful.symbolOrInput _ _ _).bind fun _ => careful_ofExcept (checked_convert _ _ _ _)

theorem careful_lookupAs_soft (viewer : NodeId) (key : Trait) (rate : Rate) (type : DataType) :
    Careful (lookupAs viewer key rate type .soft) := by
  refine .bind (careful.symbolOrWarning viewer key rate) fun found => ?_
  split
  · exact (careful_ofExcept (checked_convert _ _ _ _)).bind fun _ => careful_pure _
  · exact careful_pure _

theorem careful_ensureFunction (stage : Stage) (name body : String) :
    Careful (ensureFunction stage name body) := by
  refine careful_read fun m => (careful_perform _).bind fun _ => ?_
  split
  · exact careful_pure _
  · exact careful_writing _ _ _

theorem careful_ensureFunctions (stage : Stage) (helpers : List (String × String)) :
    Careful (ensureFunctions stage helpers) := by
  unfold ensureFunctions
  induction helpers with
  | nil => exact careful_pure _
  | cons helper helpers ih => exact (careful_ensureFunction _ _ _).bind fun _ => ih

end Material

/-- The primitives of a topology that a shape is made of, in GLSL: all positions, then all texture
coordinates. -/
def Primitive.entries (p : Primitive) : Topology → List String
  | .triangle => p.triangles.map fun t =>
    s!"Triangle({Glsl.vec3 t.a.position}, {Glsl.vec3 t.b.position}, {Glsl.vec3 t.c.position}, " ++
      s!"{Glsl.vec2 t.a.uv}, {Glsl.vec2 t.b.uv}, {Glsl.vec2 t.c.uv})"
  | .line => p.lines.map fun l =>
    s!"Line({Glsl.vec3 l.a.position}, {Glsl.vec3 l.b.position}, " ++
      s!"{Glsl.vec2 l.a.uv}, {Glsl.vec2 l.b.uv})"

namespace Scene

/-- The primitives of all shapes of a scene. -/
def entries (s : Scene) (topology : Topology) : List String :=
  s.primitives.flatMap (Primitive.entries · topology)

theorem filterMap_range_getElem? {α : Type} (items : List α) :
    (List.range items.length).filterMap (items[·]?) = items := by
  induction items with
  | nil => rfl
  | cons item items ih =>
    rw [List.length_cons, List.range_succ_eq_map, List.filterMap_cons, List.filterMap_map]
    exact congrArg (item :: ·) ih

theorem triangles_eq (s : Scene) : s.triangles = s.primitives.flatMap Primitive.triangles :=
  congrArg (List.flatMap · s.primitives) (funext fun p => filterMap_range_getElem? p.triangles)

theorem lines_eq (s : Scene) : s.lines = s.primitives.flatMap Primitive.lines :=
  congrArg (List.flatMap · s.primitives) (funext fun p => filterMap_range_getElem? p.lines)

/-- What is asked for one by one is what the shapes are made of. -/
theorem literals_eq (s : Scene) (topology : Topology) :
    s.literals topology = s.entries topology := by
  cases topology with
  | triangle =>
    rw [literals, triangles_eq, List.map_flatMap]
    refine congrArg (List.flatMap · s.primitives)
      (funext fun p => List.map_congr_left fun t _ => ?_)
    simp [triangleLiteral, Glsl.call, toString, ← String.toList_inj]
  | line =>
    rw [literals, lines_eq, List.map_flatMap]
    refine congrArg (List.flatMap · s.primitives)
      (funext fun p => List.map_congr_left fun l _ => ?_)
    simp [lineLiteral, Glsl.call, toString, ← String.toList_inj]

/-- The number that the shapes say is the number of those that are found. -/
theorem length_entries (s : Scene) (topology : Topology) :
    (s.entries topology).length = s.count topology := by
  rw [entries, List.length_flatMap]
  cases topology with
  | triangle | line =>
    simp only [Primitive.entries, List.length_map]
    rfl

end Scene

namespace Emission

open Material Action

/-- The scenes that have something to draw, in their order. -/
def drawn (m : Material) (topology : Topology) (ids : List NodeId) : List (NodeId × Scene) :=
  (ids.filterMap fun id => (sceneOf m id).toOption.map (id, ·)).filter (·.2.count topology ≠ 0)

def arrayOf (topology : Topology) (drawn : NodeId × Scene) : PrimitiveArray :=
  ⟨arrayName topology drawn.1, drawn.2.count topology⟩

/-- Entries on lines of their own, with a comma behind all but the last. -/
def listed : List String → List String
  | [] => []
  | [last] => ["    " ++ last]
  | entry :: next :: entries => ("    " ++ entry ++ ",") :: listed (next :: entries)

def arrayHeader (type : String) (id : NodeId) (size : Nat) : String :=
  s!"const {type} Scene{type}s{id}[{size}] = {type}[{size}]("

/-- The text that declares the array of a scene: all primitives of all its shapes. -/
def arrayText (topology : Topology) (drawn : NodeId × Scene) : String :=
  let entries := drawn.2.entries topology
  Text.block (arrayHeader topology.label drawn.1 entries.length :: (listed entries ++ [");"]))

theorem block_cons (first : String) {rest : List String} (more : rest ≠ []) :
    Text.block (first :: rest) = first ++ "\n" ++ Text.block rest := by
  obtain ⟨next, others, rfl⟩ := List.exists_cons_of_ne_nil more
  exact String.intercalate_cons_cons ..

theorem block_listed {entries : List String} (some : entries ≠ []) :
    Text.block (listed entries ++ [");"]) =
      ",\n".intercalate (entries.map ("    " ++ ·)) ++ "\n);" := by
  induction entries with
  | nil => exact absurd rfl some
  | cons entry entries ih =>
    cases entries with
    | nil => simp [listed, Text.block, String.append_assoc]
    | cons next entries =>
      have whole : ",\n".intercalate ((entry :: next :: entries).map ("    " ++ ·)) =
          "    " ++ entry ++ ",\n" ++ ",\n".intercalate ((next :: entries).map ("    " ++ ·)) :=
        String.intercalate_cons_cons ..
      rw [listed, List.cons_append, block_cons _ (by simp), ih (by simp), whole]
      simp [← String.toList_inj]

theorem arrayDeclaration_eq {topology : Topology} {drawn : NodeId × Scene}
    (some : drawn.2.entries topology ≠ []) :
    Scene.arrayDeclaration topology.label (arrayName topology drawn.1) (drawn.2.entries topology) =
      arrayText topology drawn := by
  have text := block_cons (arrayHeader topology.label drawn.1 (drawn.2.entries topology).length)
    (show listed (drawn.2.entries topology) ++ [");"] ≠ [] by simp)
  rw [block_listed some] at text
  refine Eq.trans ?_ text.symm
  unfold Scene.arrayDeclaration arrayHeader
  generalize ",\n".intercalate _ = body
  simp only [arrayName, ← String.toList_inj, String.toList_append, toString, List.append_assoc]
  rfl

def helperText (body : String) : String :=
  String.ofList (Text.trimRight body.toList) ++ "\n"

/-- Nothing is cut off behind a helper that does not end with a blank. -/
theorem helperText_of_last {body last : String} {front : List Char} {c : Char}
    (whole : body.toList = front ++ last.toList) (ends : last.toList.getLast? = some c)
    (ink : Text.isBlank c = false) : helperText body = body ++ "\n" := by
  have kept : Text.trimRight body.toList = body.toList := by
    obtain ⟨rest, ends⟩ := List.getLast?_eq_some_iff.1 ends
    rw [whole, ends, ← List.append_assoc, Text.trimRight, Text.dropWhileRight,
      List.reverse_concat, List.dropWhile_cons_of_neg (by simpa using ink), List.reverse_cons,
      List.reverse_reverse]
  rw [helperText, kept, String.ofList_toList]

theorem sceneOf_replay (m : Material) (events : List Event) (id : NodeId) :
    sceneOf (m.replay events) id = sceneOf m id := by
  unfold sceneOf
  rw [config_replay]

theorem drawn_replay (m : Material) (events : List Event) (topology : Topology)
    (ids : List NodeId) :
    drawn (m.replay events) topology ids = drawn m topology ids := by
  simp only [drawn, sceneOf_replay]

theorem mem_drawn {m : Material} {topology : Topology} {ids : List NodeId} {pair : NodeId × Scene} :
    pair ∈ drawn m topology ids ↔
      pair.1 ∈ ids ∧ sceneOf m pair.1 = .ok pair.2 ∧ pair.2.count topology ≠ 0 := by
  obtain ⟨id, s⟩ := pair
  have read : ∀ id, (sceneOf m id).toOption = some s ↔ sceneOf m id = .ok s := by
    intro id
    cases sceneOf m id <;> simp [Except.toOption]
  simp [drawn, read, and_assoc]

theorem sceneOf_of_mem {m : Material} {n id : NodeId} (child : id ∈ m.sceneChildren n) :
    ∃ s, sceneOf m id = .ok s := by
  have kind := (List.mem_filter.1 child).2
  unfold sceneOf
  cases config : (m.node id).config with
  | scene s => exact ⟨s, rfl⟩
  | _ => simp [config, Config.isScene, Config.kind] at kind

/-- Each helper that is asked for and that a stage did not have is written as it was first asked
for. -/
def Supplied (m : Material) (events : List Event) : Prop :=
  ∀ stage name body, .require stage name body ∈ events → m.hasFunction stage name = false →
    ∃ first, .require stage name first ∈ events ∧
      .write stage .functions (helperText first) ∈ events

theorem Supplied.append {m : Material} {early late : List Event} (supplied : Supplied m early)
    (later : Supplied (m.replay early) late) : Supplied m (early ++ late) := by
  have left {event : Event} := @List.mem_append_left _ event early late
  have right {event : Event} := @List.mem_append_right _ event early late
  intro stage name body asked new
  have first {body : String} (asked : .require stage name body ∈ early) :=
    (supplied stage name body asked new).imp fun _ both => both.imp left left
  rcases List.mem_append.1 asked with asked | asked
  · exact first asked
  cases has : (m.replay early).hasFunction stage name with
  | false => exact (later stage name body asked has).imp fun _ both => both.imp right right
  | true =>
    rcases hasFunction_replay_iff.1 has with known | ⟨_, asked⟩
    · simp [new] at known
    · exact first asked

section Runs

variable {m after : Material} {stage : Stage} {topology : Topology}

theorem ensureFunction_ok {name body : String}
    (ended : ensureFunction stage name body m = .ok () after) :
    (ensureFunction stage name body).events m = .require stage name body ::
      if m.hasFunction stage name = true then []
      else [.start stage, .write stage .functions (helperText body)] := by
  obtain ⟨_, _, ⟨⟩, ended, events⟩ := ok_of_bind ended
  obtain ⟨_, _, ⟨⟩, ended, rest⟩ := ok_of_bind ended
  rw [show (ensureFunction stage name body).events m = _ from events, rest]
  cases has : m.hasFunction stage name with
  | true => rfl
  | false =>
    rw [has] at ended
    exact congrArg (Event.require stage name body :: ·) (events_commit ended)

theorem supplied_ensureFunction {name body : String}
    (ended : ensureFunction stage name body m = .ok () after) :
    Supplied m ((ensureFunction stage name body).events m) := by
  rw [ensureFunction_ok ended]
  intro other known text asked new
  cases has : m.hasFunction stage name with
  | true =>
    rw [if_pos has] at asked
    cases List.mem_singleton.1 asked
    simp [has] at new
  | false =>
    obtain ⟨rfl, rfl, rfl⟩ : other = stage ∧ known = name ∧ text = body := by
      simpa [has] using asked
    exact ⟨text, by simp, by simp⟩

/-- What a search for arrays finds and does. -/
structure Collects (m : Material) (topology : Topology) (ids : List NodeId) (stage : Stage)
    (arrays : List PrimitiveArray) (events : List Event) : Prop where
  listed : arrays = (drawn m topology ids).map (arrayOf topology)
  asked : ∀ pair ∈ drawn m topology ids,
    .require stage (arrayName topology pair.1) (arrayText topology pair) ∈ events
  only : ∀ name body, .require stage name body ∈ events → name = topology.label ∨
    ∃ pair ∈ drawn m topology ids, name = arrayName topology pair.1 ∧ body = arrayText topology pair
  supplied : Supplied m events

theorem Collects.nothing {ids : List NodeId} (none : drawn m topology ids = []) :
    Collects m topology ids stage [] [] :=
  ⟨by rw [none]; rfl, by simp [none], by simp, by simp [Supplied]⟩

theorem arrayName_inj {id other : NodeId}
    (same : arrayName topology id = arrayName topology other) :
    id = other :=
  repr_injective ((String.append_right_inj _).1 same)

theorem label_ne_arrayName (id : NodeId) : topology.label ≠ arrayName topology id := by
  intro same
  have begins := congrArg (fun text : String => text.toList.head?) same
  cases topology <;> simp [Topology.label, arrayName, toString] at begins

theorem Collects.append {ids others : List NodeId} {xs ys : List PrimitiveArray}
    {early late : List Event}
    (first : Collects m topology ids stage xs early)
    (rest : Collects (m.replay early) topology others stage ys late) :
    Collects m topology (ids ++ others) stage (xs ++ ys) (early ++ late) := by
  obtain ⟨listed, asked, only, supplied⟩ := rest
  rw [drawn_replay] at listed asked only
  have split : drawn m topology (ids ++ others) = drawn m topology ids ++
      drawn m topology others := by
    simp [drawn]
  refine ⟨by rw [first.listed, listed, split, List.map_append], ?_, ?_,
    first.supplied.append supplied⟩
  · intro pair member
    rw [split] at member
    exact List.mem_append.2 ((List.mem_append.1 member).imp (first.asked pair) (asked pair))
  · intro name body member
    simp only [split, List.mem_append, or_and_right, exists_or]
    rcases List.mem_append.1 member with member | member
    · exact (first.only name body member).imp_right .inl
    · exact (only name body member).imp_right .inr

theorem sceneArray_collects {id : NodeId} {s : Scene} {found : Option PrimitiveArray}
    (known : sceneOf m id = .ok s) (ended : sceneArray topology id stage m = .ok found after) :
    Collects m topology [id] stage found.toList ((sceneArray topology id stage).events m) := by
  have shown : drawn m topology [id] = if s.count topology = 0 then [] else [(id, s)] := by
    simp [drawn, known, Except.toOption, List.filter_cons]
  obtain ⟨_, _, ⟨⟩, ended, events⟩ := ok_of_bind ended
  rw [known] at ended events
  obtain ⟨_, _, ⟨⟩, ended, later⟩ := ok_of_bind ended
  rw [show (sceneArray topology id stage).events m = _ from events, later]
  have size := s.length_entries topology
  rw [s.literals_eq topology] at ended ⊢
  dsimp only at ended ⊢
  split at ended
  · rename_i none
    rw [List.isEmpty_iff.1 none, List.length_nil] at size
    rw [if_pos none]
    rw [if_pos size.symm] at shown
    cases ended
    exact .nothing shown
  · rename_i filled
    rw [if_neg filled]
    rw [if_neg (by rwa [← size, List.length_eq_zero_iff, ← List.isEmpty_iff])] at shown
    have text : Scene.arrayDeclaration topology.label (arrayName topology id) (s.entries topology) =
        arrayText topology (id, s) :=
      @arrayDeclaration_eq topology (id, s) fun empty => filled (List.isEmpty_iff.2 empty)
    obtain ⟨_, middle, shaped, ended, first⟩ := ok_of_bind ended
    obtain ⟨_, _, declared, ended, second⟩ := ok_of_bind ended
    cases ended
    rw [first, second, text]
    rw [text] at declared
    change Collects m topology [id] stage _ ((ensureFunction stage topology.label _).events m ++
      ((ensureFunction stage (arrayName topology id) (arrayText topology (id, s))).events middle ++
        []))
    rw [List.append_nil]
    have only {name body other text : String} {m after : Material}
        (ended : ensureFunction stage name body m = .ok () after)
        (asked : .require stage other text ∈ (ensureFunction stage name body).events m) :
        other = name ∧ text = body := by
      rw [ensureFunction_ok ended] at asked
      split at asked <;> simp_all
    refine ⟨?_, ?_, ?_, ?_⟩
    · rw [shown, size]
      rfl
    · intro pair member
      rw [shown] at member
      cases List.mem_singleton.1 member
      rw [ensureFunction_ok declared]
      simp
    · intro name body asked
      rw [shown]
      rcases List.mem_append.1 asked with asked | asked
      · exact .inl (only shaped asked).1
      · obtain ⟨rfl, rfl⟩ := only declared asked
        exact .inr ⟨(id, s), List.mem_singleton_self _, rfl, rfl⟩
    · refine (supplied_ensureFunction shaped).append ?_
      rw [← material_of_ok shaped]
      exact supplied_ensureFunction declared

theorem collects_arrays {ids : List NodeId} {arrays : List PrimitiveArray}
    (scenes : ∀ id ∈ ids, ∃ s, sceneOf m id = .ok s)
    (ended : ids.filterMapM (sceneArray topology · stage) m = .ok arrays after) :
    Collects m topology ids stage arrays
      ((ids.filterMapM (sceneArray topology · stage)).events m) := by
  induction ids generalizing m arrays with
  | nil =>
    cases ended
    exact .nothing rfl
  | cons id ids ih =>
    obtain ⟨⟨s, known⟩, others⟩ := List.forall_mem_cons.1 scenes
    rw [List.filterMapM_cons] at ended ⊢
    obtain ⟨found, middle, begun, ended, events⟩ := ok_of_bind ended
    have first := sceneArray_collects known begun
    have reached := material_of_ok begun
    have later : ∀ id ∈ ids, ∃ s, sceneOf middle id = .ok s := by
      rw [reached]
      simpa only [sceneOf_replay] using others
    rw [events]
    cases found with
    | none =>
      have rest := ih later ended
      rw [reached] at rest ⊢
      exact first.append rest
    | some array =>
      obtain ⟨arrays, _, ended, ⟨⟩, events⟩ := ok_of_bind ended
      have rest := ih later ended
      dsimp only at events ⊢
      rw [events, show (pure (array :: arrays) : Action _).events after = [] from rfl,
        List.append_nil]
      rw [reached] at rest ⊢
      exact first.append rest

theorem careful_arrays (ids : List NodeId) :
    Careful (ids.filterMapM (sceneArray topology · stage)) := by
  have single (id : NodeId) : Careful (sceneArray topology id stage) := by
    refine careful_read fun m => (careful_ofExcept fun failure failed => ?_).bind fun s => ?_
    · unfold sceneOf at failed
      split at failed
      · cases failed
      · cases failed
        exact ⟨_, rfl⟩
    · dsimp only
      split
      · exact careful_pure _
      · exact (careful_ensureFunction _ _ _).bind fun _ =>
          (careful_ensureFunction _ _ _).bind fun _ =>
          careful_pure _
  induction ids with
  | nil => exact careful_pure _
  | cons id ids ih =>
    rw [List.filterMapM_cons]
    refine (single id).bind fun found => ?_
    cases found with
    | none => exact ih
    | some array => exact ih.bind fun _ => careful_pure _

end Runs

/-- No scene has a primitive of the topology. -/
def NothingToDraw (m : Material) (topology : Topology) (ids : List NodeId) : Prop :=
  ∀ id ∈ ids, ∀ s, sceneOf m id = .ok s → s.count topology = 0

theorem bind_error_of_ok {α β : Type} {first : Action α} {next : α → Action β} {a : α}
    {failure : Failure}
    {m middle after : Material} (begun : first m = .ok a middle)
    (failed : next a middle = .error failure after) :
      (first >>= next) m = .error failure after := by
  unfold result at *
  rw [run_bind, begun]
  exact failed

theorem mem_events_bind {α β : Type} {first : Action α} {next : α → Action β} {a : α}
    {m middle : Material} (begun : first m = .ok a middle) {event : Event}
    (member : event ∈ (next a).events middle) : event ∈ (first >>= next).events m := by
  unfold result at begun
  unfold events
  rw [run_bind, begun]
  exact List.mem_append_right _ member

section Paths

variable {m : Material} {n : NodeId} {raster : Raster}

theorem drawn_eq_nil_iff {topology : Topology} {ids : List NodeId} :
    drawn m topology ids = [] ↔ NothingToDraw m topology ids := by
  rw [List.eq_nil_iff_forall_not_mem]
  constructor
  · intro none id child s known
    exact Decidable.byContradiction fun some => none (id, s) (mem_drawn.2 ⟨child, known, some⟩)
  · intro none pair member
    obtain ⟨child, known, some⟩ := mem_drawn.1 member
    exact some (none _ child _ known)

theorem anyGeometry_iff {topology : Topology} {ids : List NodeId} :
    anyGeometry m topology ids = false ↔ NothingToDraw m topology ids := by
  rw [anyGeometry, List.any_eq_false]
  refine forall₂_congr fun id _ => ?_
  unfold sceneOf
  cases (m.node id).config with
  | scene s => simp [Scene.hasGeometry]
  | _ => simp

theorem arrays_of_nothing {topology : Topology} {ids : List NodeId}
    (scenes : ∀ id ∈ ids, ∃ s, sceneOf m id = .ok s) (nothing : NothingToDraw m topology ids) :
    ids.filterMapM (sceneArray topology · .pixel) m = .ok [] m := by
  induction ids with
  | nil => rfl
  | cons id ids ih =>
    obtain ⟨⟨s, known⟩, others⟩ := List.forall_mem_cons.1 scenes
    obtain ⟨empty, rest⟩ := List.forall_mem_cons.1 nothing
    have none := List.length_eq_zero_iff.1 ((s.length_entries topology).trans (empty s known))
    have here : sceneArray topology id .pixel m = .ok Option.none m := by
      refine (bind_of_ok (a := m) rfl ?_).1
      rw [known]
      refine (bind_of_ok (a := s) rfl ?_).1
      dsimp only
      rw [s.literals_eq topology, none]
      rfl
    rw [List.filterMapM_cons]
    exact (bind_of_ok here (ih others rest)).1

theorem rasterPixels_missing_iff :
    (∃ reason after, rasterPixels n raster (m.sceneChildren n) m =
      .error (.missingGeometry reason) after) ↔
      NothingToDraw m raster.topology (m.sceneChildren n) := by
  have scenes : ∀ id ∈ m.sceneChildren n, ∃ s, sceneOf m id = .ok s := fun id child =>
    sceneOf_of_mem child
  constructor
  · rintro ⟨reason, after, failed⟩
    have unlike := Failure.not_isMisuse reason
    rcases error_of_bind failed with ⟨failed, -⟩ | ⟨arrays, middle, found, failed, -⟩
    · exact (unlike (careful_arrays _ _ _ _ failed)).elim
    have collects := collects_arrays scenes found
    by_cases none : arrays.isEmpty = true
    · rw [List.isEmpty_iff.1 none] at collects
      exact drawn_eq_nil_iff.1 (List.map_eq_nil_iff.1 collects.listed.symm)
    · rw [if_neg none] at failed
      refine (unlike (Careful.bind (careful_exprOrInput _ _ _) (fun _ => ?_) _ _ _ failed)).elim
      refine (careful_exprOrInput _ _ _).bind fun _ => (careful_exprOrInput _ _ _).bind fun _ => ?_
      refine (careful_lookupAs_soft _ _ _ _).bind fun _ => ?_
      refine (careful_ensureFunctions _ _).bind fun _ => (careful_writing _ _ _).bind fun _ => ?_
      exact (careful_perform _).bind fun _ => (careful_perform _).bind fun _ => careful_perform _
  · intro nothing
    exact ⟨.raster n raster.topology, m, bind_error_of_ok (arrays_of_nothing scenes nothing) rfl⟩

theorem rasterPosition_missing_iff {ids : List NodeId} :
    (∃ reason after, rasterPosition n raster ids m = .error (.missingGeometry reason) after) ↔
      NothingToDraw m raster.topology ids := by
  rw [← anyGeometry_iff]
  cases any : anyGeometry m raster.topology ids with
  | false =>
    refine ⟨fun _ => rfl, fun _ => ⟨.raster n raster.topology, m, bind_error_of_ok (a := m) rfl ?_⟩⟩
    rw [any]
    rfl
  | true =>
    refine ⟨fun ⟨reason, after, failed⟩ => ?_, nofun⟩
    rcases error_of_bind failed with ⟨⟨⟩, -⟩ | ⟨_, _, ⟨⟩, failed, -⟩
    rw [any] at failed
    refine (Failure.not_isMisuse reason
      (Careful.bind (careful_valueOrInput _ _ _ _) ?_ _ _ _ failed)).elim
    exact fun _ => careful_writing _ _ _

theorem rasterPixels_ok {ids : List NodeId} {after : Material}
    (scenes : ∀ id ∈ ids, ∃ s, sceneOf m id = .ok s)
    (ended : rasterPixels n raster ids m = .ok () after) :
    ∃ clip resolution events, events ⊆ (rasterPixels n raster ids).events m ∧
      Collects m raster.topology ids .pixel
        ((drawn m raster.topology ids).map (arrayOf raster.topology)) events ∧
      .write .pixel .texturize (rasterCode n clip resolution (rasterFunction n raster).1
        (lineWidth resolution raster.topology)
        ((drawn m raster.topology ids).map (arrayOf raster.topology))) ∈
        (rasterPixels n raster ids).events m := by
  unfold rasterPixels at ended ⊢
  generalize rasterFunction n raster = drawing at ended ⊢
  obtain ⟨function, helpers⟩ := drawing
  obtain ⟨arrays, _, found, ended, -⟩ := ok_of_bind ended
  have collects := collects_arrays scenes found
  rw [← collects.listed]
  by_cases empty : arrays.isEmpty = true
  · rw [if_pos empty] at ended
    cases ended
  rw [if_neg empty] at ended
  obtain ⟨projection, _, projected, ended, -⟩ := ok_of_bind ended
  obtain ⟨view, _, viewed, ended, -⟩ := ok_of_bind ended
  obtain ⟨resolution, _, sized, ended, -⟩ := ok_of_bind ended
  obtain ⟨model, _, placed, ended, -⟩ := ok_of_bind ended
  obtain ⟨_, _, helped, ended, -⟩ := ok_of_bind ended
  obtain ⟨_, _, written, -, -⟩ := ok_of_bind ended
  refine ⟨model.elim s!"{projection} * {view}" fun model => s!"{projection} * {view} * {model}",
    resolution,
    _, (events_isPrefix_bind _ _ m).subset, collects, mem_events_bind found ?_⟩
  rw [if_neg empty]
  refine mem_events_bind projected (mem_events_bind viewed (mem_events_bind sized ?_))
  refine mem_events_bind placed (mem_events_bind helped ((events_isPrefix_bind _ _ _).subset ?_))
  rw [events_commit written]
  cases model <;> exact List.mem_cons_of_mem _ List.mem_cons_self

end Paths

/-- A loop that tests every primitive in the array of a scene, and keeps the nearest hit. -/
def Searches (n : NodeId) (topology : Topology) (width : String) (id : NodeId) (size : Nat)
    (loop : List String) : Prop :=
  let type := topology.label
  loop =
    [s!"for (int i = 0; i < {size}; i++) \x7b",
     s!"    RasterizeResult candidate = Rasterize{type}{n}(Scene{type}s{id}[i], " ++
       s!"rasterClip{n}, rasterPoint{n}{width});",
     s!"    if (candidate.hit && candidate.depth < raster{n}.depth) raster{n} = candidate;",
     "\x7d"]

/-- A search that has no hit at first, runs some loops and gives up where there is no hit still. -/
def searchText (n : NodeId) (clip resolution : String) (loops : List (List String)) : String :=
  Text.block (
    [s!"mat4 rasterClip{n} = {clip};",
     s!"vec2 rasterPoint{n} = (gl_FragCoord.xy / {resolution}) * 2.0 - 1.0;",
     s!"RasterizeResult raster{n} = RasterizeResult(false, 1.0, vec2(0.0), vec3(0.0));"] ++
    loops.flatten ++ [s!"if (!raster{n}.hit) discard;"])

theorem searches_rasterLoop (n : NodeId) (raster : Raster) (width : String)
    (pair : NodeId × Scene) :
    Searches n raster.topology width pair.1 (pair.2.entries raster.topology).length
      (rasterLoop n (rasterFunction n raster).1 width (arrayOf raster.topology pair)) := by
  have function : (rasterFunction n raster).1 = s!"Rasterize{raster.topology.label}{n}" := by
    cases same : raster.topology <;> simp [rasterFunction, same, Topology.label, toString]
  rw [Searches, rasterLoop, function, Scene.length_entries]
  simp [arrayOf, arrayName, toString, ← String.toList_inj]

/-- Both ways to draw agree on what there is to draw. They fail for want of geometry in the same
cases: where no scene below the raster has a primitive of its topology. A search through all
primitives has one loop for each scene with something to draw, in the order of the scenes. Its bound
is the length of the scene's array, which lists the primitives of all shapes of the scene in order,
and which is written unless the stage has it. -/
theorem raster_paths_agree (m : Material) (n : NodeId) (raster : Raster) :
    ((∃ reason after,
      rasterPixels n raster (m.sceneChildren n) m = .error (.missingGeometry reason) after) ↔
        NothingToDraw m raster.topology (m.sceneChildren n)) ∧
    ((∃ reason after,
      rasterPosition n raster (m.sceneChildren n) m = .error (.missingGeometry reason) after) ↔
        NothingToDraw m raster.topology (m.sceneChildren n)) ∧
    ∀ after, rasterPixels n raster (m.sceneChildren n) m = .ok () after →
      (∃ clip resolution width loops,
        .write .pixel .texturize (searchText n clip resolution loops) ∈
          (rasterPixels n raster (m.sceneChildren n)).events m ∧
        (raster.topology = .triangle → width = "") ∧
        (raster.topology = .line → width = s!", 2.0 / {resolution}.y") ∧
        List.Forall₂ (fun pair loop => Searches n raster.topology width pair.1
            (pair.2.entries raster.topology).length loop)
          (drawn m raster.topology (m.sceneChildren n)) loops) ∧
      ∀ pair ∈ drawn m raster.topology (m.sceneChildren n),
        .require .pixel s!"Scene{raster.topology.label}s{pair.1}" (arrayText raster.topology pair) ∈
          (rasterPixels n raster (m.sceneChildren n)).events m ∧
        (m.hasFunction .pixel s!"Scene{raster.topology.label}s{pair.1}" = false →
          .write .pixel .functions (arrayText raster.topology pair ++ "\n") ∈
            (rasterPixels n raster (m.sceneChildren n)).events m) := by
  refine ⟨rasterPixels_missing_iff, rasterPosition_missing_iff, fun after ended => ?_⟩
  obtain ⟨clip, resolution, events, early, collects, written⟩ :=
    rasterPixels_ok (fun id child => sceneOf_of_mem child) ended
  constructor
  · refine ⟨clip, resolution, lineWidth resolution raster.topology,
      (drawn m raster.topology (m.sceneChildren n)).map fun pair => rasterLoop n
        (rasterFunction n raster).1 (lineWidth resolution raster.topology)
        (arrayOf raster.topology pair), ?_, ?_, ?_, ?_⟩
    · rw [rasterCode, List.flatMap_map] at written
      exact written
    · intro same
      rw [same]
      rfl
    · intro same
      rw [same]
      rfl
    · rw [List.forall₂_map_right_iff, List.forall₂_same]
      exact fun pair _ => searches_rasterLoop n raster _ pair
  · intro pair member
    refine ⟨early (collects.asked pair member), fun new => ?_⟩
    obtain ⟨first, asked, written⟩ := collects.supplied _ _ _ (collects.asked pair member) new
    rcases collects.only _ _ asked with same | ⟨other, drawn, same, rfl⟩
    · exact absurd same.symm (label_ne_arrayName pair.1)
    · -- The scene of a name is the only one.
      have id := arrayName_inj same
      have scene := (mem_drawn.1 member).2.1
      rw [id, (mem_drawn.1 drawn).2.1] at scene
      have closed : helperText (arrayText raster.topology other) = _ :=
        helperText_of_last (Text.toList_block_append (_ :: _) ");") rfl (by decide)
      rw [closed] at written
      rw [show pair = other from Prod.ext id (Except.ok.inj scene).symm]
      exact early written

/-- A raster of lines above an empty scene and a scene with one line. -/
def twoScenes : Construct :=
  ⟨.material, none, [], [],
    [⟨.raster, none, [⟨.topology, none, some (.string "Line")⟩], [],
      [⟨.scene, none, [], [], []⟩,
        ⟨.scene, none, [], [], [⟨.geometry, some "line", [], [], []⟩]⟩]⟩]⟩

theorem raster_paths_agree_of_lines :
    ∃ m after clip resolution loop, ofConstruct twoScenes = .ok m ∧ m.sceneChildren 1 = [2, 3] ∧
      rasterPixels 1 ⟨.line, .normal⟩ [2, 3] m = .ok () after ∧
      .write .pixel .texturize (searchText 1 clip resolution [loop]) ∈
        (rasterPixels 1 ⟨.line, .normal⟩ [2, 3]).events m ∧
      Searches 1 .line s!", 2.0 / {resolution}.y" 3 1 loop ∧
      .write .pixel .functions ("const Line SceneLines3[1] = Line[1](\n" ++
        "    Line(vec3(-0.5, 0.0, 0.0), vec3(0.5, 0.0, 0.0), vec2(0.0, 0.0), vec2(1.0, 0.0))\n" ++
        ");\n") ∈ (rasterPixels 1 ⟨.line, .normal⟩ [2, 3]).events m := by
  -- The helpers are long. Where they are known already, there is less to read for the kernel.
  let helpers := ["Line", "SceneLines3", "RasterizeResult", "RasterizeLine1"]
  have evaluated : (ofConstruct twoScenes).toOption.any (fun m => m.sceneChildren 1 = [2, 3] &&
      (drawn m .line [2, 3]).map (fun pair => (pair.1, (pair.2.entries .line).length,
        arrayText .line pair ++ "\n")) = [(3, 1, "const Line SceneLines3[1] = Line[1](\n" ++
        "    Line(vec3(-0.5, 0.0, 0.0), vec3(0.5, 0.0, 0.0), vec2(0.0, 0.0), vec2(1.0, 0.0))\n" ++
        ");\n")] &&
      ((rasterPixels 1 ⟨.line, .normal⟩ [2, 3]).ended? (m.bare helpers)).any
        fun _ => true) = true := by
    decide +kernel
  obtain ⟨m, built, computed⟩ := exists_ok_of_any evaluated
  simp only [Bool.and_eq_true, decide_eq_true_eq] at computed
  obtain ⟨⟨children, shown⟩, known⟩ := computed
  obtain ⟨_, _, known, -⟩ := Action.exists_ok_of_any known
  have fresh := fresh_ofConstruct built
  have steady := (parallel (· ≠ .pixel) 1 (.raster ⟨.line, .normal⟩)).rasterPixels [2, 3]
  have ends := (steady _ m (((Twin.refl fresh.marked).bare helpers).mono fun _ => .inl)).2
  rw [known] at ends
  obtain ⟨after, ended, -⟩ := ends.exists_second
  obtain ⟨pair, one, same⟩ := List.map_eq_singleton_iff.1 shown
  obtain ⟨id, same⟩ := Prod.mk.inj same
  obtain ⟨size, text⟩ := Prod.mk.inj same
  have agree := (raster_paths_agree m 1 ⟨.line, .normal⟩).2.2 after
  rw [children, one] at agree
  obtain ⟨⟨clip, resolution, width, loops, code, -, wide, searches⟩, arrays⟩ := agree ended
  obtain rfl := wide rfl
  obtain ⟨loop, rest, search, none, rfl⟩ := List.forall₂_cons_left_iff.1 searches
  obtain rfl := List.forall₂_nil_left_iff.1 none
  rw [id, size] at search
  refine ⟨m, after, clip, resolution, loop, built, children, ended, code, search, ?_⟩
  rw [← text]
  exact (arrays pair List.mem_cons_self).2 (by simp [hasFunction, fresh.functions])

end Emission

end GlslMaterial
