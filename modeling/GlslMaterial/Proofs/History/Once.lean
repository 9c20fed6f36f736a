import GlslMaterial.Proofs.History.Completing

/-!
Declared once, assigned once. Names have no blanks, so that the text of a declaration or of an
assignment shows whose it is, and names that differ have different lines.
-/

set_option autoImplicit false

namespace GlslMaterial

theorem Text.eq_of_isPrefix {mark : Char} {first second rest more : List Char}
    (one : mark ∉ first) (two : mark ∉ second)
    (begins : first ++ mark :: rest <+: second ++ mark :: more) : first = second := by
  induction first generalizing second with
  | nil =>
    cases second with
    | nil => rfl
    | cons c second =>
      have same : mark = c := (List.cons_prefix_cons.1 begins).1
      exact absurd (same ▸ List.mem_cons_self) two
  | cons c first ih =>
    cases second with
    | nil =>
      have same : c = mark := (List.cons_prefix_cons.1 begins).1
      exact absurd (same ▸ List.mem_cons_self) one
    | cons d second =>
      obtain ⟨same, later⟩ := List.cons_prefix_cons.1 begins
      rw [same, ih (fun member => one (List.mem_cons_of_mem c member))
        (fun member => two (List.mem_cons_of_mem d member)) later]

/-- Whether a line declares a name: it ends in the name and the end of the statement. -/
def isDeclarationOf (name line : String) : Bool :=
  s!" {name};".toList.isSuffixOf line.toList

/-- Whether a statement gives a name its value. -/
def isAssignmentTo (name statement : String) : Bool :=
  s!"{name} = ".toList.isPrefixOf statement.toList

variable {name direction : String}

theorem isDeclarationOf_declaration {b : Binding} (named : isSpelled b.name = true)
    (spelled : isSpelled name = true) {location : Nat} {line : String}
    (made : b.declaration direction location = .ok line) :
    isDeclarationOf name line = (b.name == name) := by
  obtain ⟨spelling, -, made⟩ := eq_ok_of_bind made
  obtain ⟨start, text⟩ : ∃ start : List Char,
      line.toList = start ++ ' ' :: (b.name.toList ++ [';']) := by
    refine ⟨s!"layout(location = {location}) {direction} {spelling}".toList, ?_⟩
    rw [← Except.ok.inj made]
    simp
  have wanted : s!" {name};".toList = ' ' :: (name.toList ++ [';']) := by simp
  apply Bool.eq_iff_iff.2
  rw [isDeclarationOf, List.isSuffixOf_iff_suffix, beq_iff_eq, wanted, text]
  constructor
  · intro ends
    -- Read backwards, both texts have the name before their first blank.
    have backwards := List.reverse_prefix.2 ends
    simp only [List.reverse_append, List.reverse_cons, List.reverse_nil, List.nil_append,
      List.append_assoc, List.cons_append, List.cons_prefix_cons, true_and] at backwards
    have same := Text.eq_of_isPrefix (by simpa using blank_notMem_of_isSpelled spelled)
      (by simpa using blank_notMem_of_isSpelled named) backwards
    exact String.toList_inj.1 (List.reverse_inj.1 same).symm
  · intro same
    rw [same]
    exact List.suffix_append _ _

theorem isAssignmentTo_assignment {output : String} (named : isSpelled output = true)
    (spelled : isSpelled name = true) (value : String) :
    isAssignmentTo name (Material.assignment output value) = (output == name) := by
  have text : (Material.assignment output value).toList =
      output.toList ++ ' ' :: ("= ".toList ++ value.toList ++ [';']) := by
    simp [Material.assignment]
  have wanted : s!"{name} = ".toList = name.toList ++ ' ' :: "= ".toList := by simp
  apply Bool.eq_iff_iff.2
  rw [isAssignmentTo, List.isPrefixOf_iff_prefix, beq_iff_eq, wanted, text]
  constructor
  · intro begins
    exact (String.toList_inj.1 (Text.eq_of_isPrefix (blank_notMem_of_isSpelled spelled)
      (blank_notMem_of_isSpelled named) begins)).symm
  · intro same
    exact ⟨value.toList ++ [';'], by simp [same]⟩

theorem map_isDeclarationOf {bindings : List Binding}
    (named : ∀ b ∈ bindings, isSpelled b.name = true)
    (spelled : isSpelled name = true) {lines : List String}
    (made : ((Material.located bindings).mapM fun (b, location) =>
      b.declaration direction location) = .ok lines) :
    lines.map (isDeclarationOf name) = bindings.map fun b => b.name == name := by
  have values := map_eq_of_mapM made
  let declares : Except Failure String → Bool
    | .ok line => isDeclarationOf name line
    | .error _ => false
  have each : ∀ declared ∈ Material.located bindings,
      declares (declared.1.declaration direction declared.2) = (declared.1.name == name) := by
    intro declared member
    have known := named declared.1 (List.of_mem_zip member).1
    have success : declared.1.declaration direction declared.2 ∈ lines.map .ok := by
      rw [← values]
      exact List.mem_map_of_mem (f := fun (b, location) => b.declaration direction location) member
    obtain ⟨line, -, same⟩ := List.mem_map.1 success
    rw [← same]
    exact isDeclarationOf_declaration known spelled same.symm
  calc lines.map (isDeclarationOf name)
    _ = (lines.map .ok).map declares := by rw [List.map_map]; rfl
    _ = (Material.located bindings).map fun declared => declared.1.name == name := by
      rw [← values, List.map_map]
      exact List.map_congr_left each
    _ = bindings.map fun b => b.name == name := by
      rw [← congrArg (List.map fun b => b.name == name) (Material.map_fst_located bindings),
        List.map_map]
      rfl

theorem exists_line {bindings : List Binding} {lines : List String}
    (made : ((Material.located bindings).mapM fun (b, location) =>
      b.declaration direction location) = .ok lines) {b : Binding} (member : b ∈ bindings) :
    ∃ location line, b.declaration direction location = .ok line ∧ line ∈ lines := by
  rw [← Material.map_fst_located bindings] at member
  obtain ⟨⟨_, location⟩, listed, rfl⟩ := List.mem_map.1 member
  have success := List.mem_map_of_mem (f := fun (b, location) => b.declaration direction location)
    listed
  rw [map_eq_of_mapM made] at success
  obtain ⟨line, inside, same⟩ := List.mem_map.1 success
  exact ⟨location, line, same.symm, inside⟩

/-- Of the lines that were committed at the interface markers of a stage, the only one that declares
the name of a binding is its declaration, and that stands at `marker`. -/
def DeclaredOnce (events : List Event) (stage : Stage) (marker : Marker) (direction : String)
    (b : Binding) : Prop :=
  ∃ location line, b.declaration direction location = .ok line ∧
    line ∈ committed stage marker events ∧
    (committed stage .input events ++ committed stage .output events).filter
      (isDeclarationOf b.name) = [line]

namespace Material

/-- Where the lines at the interface markers are the declarations of the tables, every binding of
the stage is declared once. -/
theorem declaredOnce {m : Material} (spelled : m.Spelled) (formed : m.Formed) {stage : Stage}
    {events : List Event}
    (inputs : m.inputLines stage = .ok (committed stage .input events))
    (outputs : m.outputLines stage = .ok (committed stage .output events)) :
    (∀ b ∈ m.inputsAt (.stage stage), DeclaredOnce events stage .input "in" b) ∧
      ∀ b ∈ m.outputsAt (.stage stage), DeclaredOnce events stage .output "out" b := by
  let all := m.inputsAt (.stage stage) ++ m.outputsAt (.stage stage)
  let lines := committed stage .input events ++ committed stage .output events
  have entering : ∀ b ∈ m.inputsAt (.stage stage), isSpelled b.name = true :=
    fun b member => spelled.input (mem_filter_rate.1 member).1
  have leaving : ∀ b ∈ m.outputsAt (.stage stage), isSpelled b.name = true :=
    fun b member => spelled.output (mem_filter_rate.1 member).1
  have nodup : (all.map Binding.name).Nodup := by
    have apart := formed.nodup_visible stage
    rw [visible, List.map_append] at apart
    exact (List.nodup_append.1 apart).1
  -- One binding has the name, so one line declares it.
  have single {b : Binding} (member : b ∈ all) (word : isSpelled b.name = true)
      {direction line : String} {location : Nat} (listed : line ∈ lines)
      (made : b.declaration direction location = .ok line) :
      lines.filter (isDeclarationOf b.name) = [line] := by
    have marks : lines.map (isDeclarationOf b.name) =
        all.map fun other => other.name == b.name := by
      rw [List.map_append, List.map_append, map_isDeclarationOf entering word inputs,
        map_isDeclarationOf leaving word outputs]
    have count : (lines.filter (isDeclarationOf b.name)).length = 1 := by
      calc (lines.filter (isDeclarationOf b.name)).length
        _ = (lines.map (isDeclarationOf b.name)).countP id := by
          rw [List.countP_map, ← List.countP_eq_length_filter]
          rfl
        _ = (all.map Binding.name).count b.name := by
          rw [marks, List.countP_map, List.count_eq_countP, List.countP_map]
          rfl
        _ = 1 := by
          rw [nodup.count, if_pos (List.mem_map_of_mem member)]
    obtain ⟨only, same⟩ := List.length_eq_one_iff.1 count
    have declares : isDeclarationOf b.name line = true := by
      rw [isDeclarationOf_declaration word word made, beq_self_eq_true]
    have inside : line ∈ lines.filter (isDeclarationOf b.name) :=
      List.mem_filter.2 ⟨listed, declares⟩
    rw [same, List.mem_singleton] at inside
    rw [same, inside]
  constructor
  · intro b member
    obtain ⟨location, line, made, listed⟩ := exists_line inputs member
    exact ⟨location, line, made, listed, single (List.mem_append_left _ member)
      (entering b member) (List.mem_append_left _ listed) made⟩
  · intro b member
    obtain ⟨location, line, made, listed⟩ := exists_line outputs member
    exact ⟨location, line, made, listed, single (List.mem_append_right _ member)
      (leaving b member) (List.mem_append_right _ listed) made⟩

end Material

namespace InOrder

variable {base : Material} {past : List Event}

/-- The statements that give an output its value are its assignments. -/
theorem filter_isAssignmentTo (fresh : base.Fresh) (orderly : InOrder base past) (stage : Stage)
    {name : String} (spelled : isSpelled name = true) :
    (committed stage .colorize past).filter (isAssignmentTo name) =
      (assigned past stage name).map (Material.assignment name) := by
  induction orderly with
  | nil => rfl
  | @snoc past event before allowed ih =>
    have last : (committed stage .colorize [event]).filter (isAssignmentTo name) =
        (assigned [event] stage name).map (Material.assignment name) := by
      cases event with
      | assign other output value =>
        obtain ⟨-, ⟨key, o, member, -, named, -⟩, -⟩ := allowed
        have word : isSpelled output = true :=
          named ▸ (fresh.spelled.replay past).output member
        have own := isAssignmentTo_assignment word spelled value
        by_cases here : other = stage
        · by_cases same : output = name
          · subst same
            simp [committed, Event.code?, assigned, here, own]
          · simp [committed, Event.code?, assigned, here, own, same]
        · simp [committed, Event.code?, assigned, here]
      | write other marker code =>
        have elsewhere : marker ≠ .colorize := allowed.2.place.2
        simp [committed, Event.code?, assigned, elsewhere]
      | _ => rfl
    rw [committed_append, assigned_append, List.filter_append, List.map_append, ih, last]

end InOrder

end GlslMaterial
