import GlslMaterial.Proofs.Glsl.Conversion
import GlslMaterial.Proofs.Lookup.Templates

/-!
Legible materials: what their nodes show and the names of their inputs can be read as expressions.
So can all that is found by a lookup. While the stages of a material are written it is legible at
every moment.
-/

set_option autoImplicit false

namespace GlslMaterial

open GlslMaterial.Action (Keeps ok_of_bind ok_of_read ok_of_ofExcept)

namespace Glsl

/-- The text of a name, perhaps with parts. -/
def IsNamed (text : String) : Prop :=
  ∃ tree, Spells .operand text.toList tree ∧ tree.isNumber = false

theorem IsNamed.legible {text : String} (named : IsNamed text) (type : DataType) :
    Legible text type := by
  obtain ⟨tree, spells, plain⟩ := named
  exact ⟨tree, spells.operand, by simp [plain]⟩

theorem isNamed_of_isName {text : String} (named : isName text.toList = true) : IsNamed text :=
  ⟨_, .name named, rfl⟩

end Glsl

namespace Material

/-- What nodes show and the names of inputs can be read. -/
structure Legible (m : Material) : Prop where
  inputs : ∀ b ∈ m.inputs, Glsl.IsNamed b.name
  shown : ∀ n key (symbol : Symbol), (key, symbol) ∈ (m.node n).outputs →
    Glsl.Legible symbol.expr symbol.type

theorem isNamed_freshName (rate : Rate) (id : TraitId) (taken : List String) :
    Glsl.IsNamed (freshName taken (inputName rate id)) := by
  obtain ⟨digits, numeric, name⟩ := exists_digits_freshName taken (inputName rate id)
  have label : id.label.toList ≠ [] := by cases id <;> decide
  have field := Glsl.isName_of_alpha label id.isAlpha_of_mem_label numeric
  by_cases uniform : rate.isUniform = true
  · obtain ⟨own, rfl⟩ : ∃ own, rate = .uniform own := by
      cases rate with
      | uniform own => exact ⟨own, rfl⟩
      | _ => cases uniform
    have block : Glsl.isName ((Rate.uniform own).name.toList ++ []) = true :=
      Glsl.isName_of_alpha (by cases own <;> decide) own.isAlpha_of_mem_name (by simp)
    rw [List.append_nil] at block
    have base : (inputName (.uniform own) id).toList =
        (Rate.uniform own).name.toList ++ '.' :: id.label.toList := by
      rw [inputName, if_pos uniform]
      simp
    let label := String.ofList (id.label.toList ++ digits)
    have shape : freshName taken (inputName (.uniform own) id) =
        s!"{(Rate.uniform own).name}.{label}" := by
      refine String.toList_inj.1 ?_
      rw [name, base]
      simp [label]
    refine ⟨.field (.name (Rate.uniform own).name) label, ?_, rfl⟩
    rw [shape]
    exact .part (.name block) rfl (by rwa [String.toList_ofList])
  · have base : (inputName rate id).toList = "in".toList ++ id.label.toList := by
      simp [inputName, uniform]
    rw [base, List.append_assoc] at name
    have alpha : ∀ c ∈ "in".toList ++ id.label.toList, c.isAlpha = true := by
      intro c member
      rcases List.mem_append.1 member with early | late
      · exact List.all_eq_true.1 (show "in".toList.all Char.isAlpha = true by decide) c early
      · exact id.isAlpha_of_mem_label c late
    refine Glsl.isNamed_of_isName ?_
    rw [name, ← List.append_assoc]
    exact Glsl.isName_of_alpha (by simp) alpha numeric

variable {m after : Material}

theorem isNamed_apply (named : ∀ b ∈ m.inputs, Glsl.IsNamed b.name) (event : Event) :
    ∀ b ∈ (m.apply event).inputs, Glsl.IsNamed b.name := by
  refine inputs_apply ?_ ?_ ?_ named event
  · intro a b held named
    obtain ⟨-, -, name⟩ := Binding.entry_eq_iff.1 (congrArg Prod.fst held)
    exact name ▸ named
  · intro key slot _
    have numbered := Glsl.isName_numbered (show Glsl.isName "Texture".toList = true by decide) slot
    exact Glsl.isNamed_of_isName numbered
  · exact fun rate key taken _ => isNamed_freshName rate key.id taken

/-- All that is shown can be read. -/
abbrev Clear : Law :=
  Showing fun _ symbol => Glsl.Legible symbol.expr symbol.type

theorem Legible.replay (legible : m.Legible) {past : List Event} (lawful : Lawful Clear m past) :
    (m.replay past).Legible where
  inputs := by
    induction lawful with
    | nil => exact legible.inputs
    | snoc _ _ ih =>
      rw [replay_append]
      exact isNamed_apply ih _
  shown := lawful.shown legible.shown

/-- Wherever the action ends well on a legible material, it leaves one, and its value is good. -/
def Reads {α : Type} (action : Action α) (good : α → Prop) : Prop :=
  ∀ m, m.Legible → ∀ a after, action m = .ok a after → after.Legible ∧ good a

namespace Reads

variable {α β : Type} {good : α → Prop} {fine : β → Prop}

theorem pure {a : α} (is : good a) : Reads (Pure.pure a) good := by
  rintro m legible _ _ ⟨⟩
  exact ⟨legible, is⟩

theorem bind {first : Action α} {next : α → Action β} (begins : Reads first good)
    (goes : ∀ a, good a → Reads (next a) fine) : Reads (first >>= next) fine := by
  intro m legible b after ended
  obtain ⟨a, middle, one, two, -⟩ := ok_of_bind ended
  obtain ⟨kept, is⟩ := begins m legible a middle one
  exact goes a is middle kept b after two

theorem ofExcept {value : Except Failure α} (is : ∀ a, value = .ok a → good a) :
    Reads (Action.ofExcept value) good := by
  intro m legible a after ended
  obtain ⟨given, rfl⟩ := ok_of_ofExcept ended
  exact ⟨legible, is a given⟩

theorem of_heeds {action : Action α}
    (heeds : ∀ base, Heeds Clear base action fun _ => True) : Reads action fun _ => True := by
  intro m legible a after ended
  have lawful := (heeds m [] trivial .nil).1
  rw [Action.material_of_ok ended]
  exact ⟨legible.replay lawful, trivial⟩

end Reads

theorem reads_symbolOrInput (viewer : NodeId) (key : Trait) (rate : Rate) :
    Reads (symbolOrInput viewer key rate) fun found => Glsl.Legible found.expr found.type := by
  intro m legible symbol after ended
  have kept : after.Legible :=
    (Reads.of_heeds (fun base => (heeding (lenient_showing _ base)).symbolOrInput viewer key rate)
      m legible symbol after ended).1
  refine ⟨kept, ?_⟩
  rcases symbolOrInput_found ended with ⟨n, trait, shown, -⟩ | ⟨⟨_, -, b, member, -, named, -⟩, -⟩
  · exact legible.shown n trait symbol shown
  · exact named ▸ (kept.inputs b member).legible symbol.type

theorem legible_spread (n : NodeId) (id : TraitId) :
    Glsl.Legible (Emission.spread n id).1 (Emission.spread n id).2 := by
  have named : Glsl.isName "fbm".toList = true := by decide
  have sum : Glsl.Spells .operand s!"fbm{n}".toList (.name s!"fbm{n}") :=
    .name (Glsl.isName_numbered named n)
  -- A constructor with the sum for its first argument.
  have called (function : String) (named : Glsl.isName function.toList = true) :
      ∃ tree, Glsl.Spells .operand (Glsl.call function [s!"fbm{n}"]).toList tree ∧
        tree.isNumber = false :=
    ⟨_, .call named (.cons sum.operand .nil) (by simp), Glsl.Tree.isNumber_call _ _⟩
  unfold Emission.spread
  split
  · obtain ⟨three, spells, -⟩ := called "vec3" (by decide)
    have one : Glsl.Spells .operand "1.0".toList (.number "1.0") := .unsigned (by decide)
    have four := Glsl.Spells.call (show Glsl.isName "vec4".toList = true by decide)
      (.cons spells.operand (.cons one.operand .nil)) (by simp)
    have whole : Glsl.call "vec4" [Glsl.call "vec3" [s!"fbm{n}"], "1.0"] =
        s!"vec4(vec3(fbm{n}), 1.0)" :=
      String.toList_inj.1 (by simp [Glsl.call])
    rw [whole] at four
    exact ⟨_, four.operand, by simp [Glsl.Tree.isNumber_call]⟩
  · obtain ⟨tree, spells, plain⟩ := called "vec3" (by decide)
    exact ⟨tree, spells.operand, by simp [plain]⟩
  · obtain ⟨tree, spells, plain⟩ := called "vec2" (by decide)
    exact ⟨tree, spells.operand, by simp [plain]⟩
  · exact ⟨_, sum.operand, fun _ => rfl⟩

theorem legible_of_publishes {given : Emission.Given} {n : NodeId} {config : Config}
    {piece : Emission.Piece} (publishes : Emission.Publishes given n config piece) :
    ∀ each ∈ piece.shown, Glsl.Legible each.2.expr each.2.type := by
  have words : ∀ stem ∈ Emission.shownStems, Glsl.isName stem.toList = true := by decide
  have parts : ∀ part ∈ [".uv", ".normal", ".depth"], part.toList = '.' :: part.toList.tail ∧
      Glsl.isName part.toList.tail = true := by decide
  have called {arguments : List String} (numbers : ∀ a ∈ arguments, Glsl.IsNumber .float a.toList)
      (filled : arguments ≠ []) : Glsl.Legible (Glsl.call "mat4" arguments) .mat4 := by
    have matrix : Glsl.isName "mat4".toList = true := by decide
    obtain ⟨tree, spells, plain, -⟩ := Glsl.exists_typed_call matrix numbers filled
      ⟨fun _ => none, fun _ _ => none⟩
    exact ⟨tree, spells.operand, by simp [plain]⟩
  refine Emission.shown_of_publishes (p := Glsl.Legible) ?_ ?_ ?_ (fun m => ?_) (legible_spread n)
    publishes
  · intro stem member type
    exact (Glsl.isNamed_of_isName (Glsl.isName_numbered (words stem member) n)).legible type
  · intro part member type
    obtain ⟨dotted, named⟩ := parts part member
    have whole : Glsl.isName "raster".toList = true := by decide
    let raster := s!"raster{n}"
    let field := String.ofList part.toList.tail
    have shape : s!"raster{n}{part}" = s!"{raster}.{field}" := by
      refine String.toList_inj.1 ?_
      simp [raster, field, ← dotted]
    rw [shape]
    refine Glsl.IsNamed.legible ⟨_, .part (.name (Glsl.isName_numbered whole n)) rfl ?_, rfl⟩ type
    rwa [String.toList_ofList]
  · exact called (List.forall_mem_singleton.2 ⟨false, "1.0".toList, by decide, by decide, rfl⟩)
      (by simp)
  · exact called (List.forall_mem_map.2 fun x _ => Glsl.isNumber_float32 x)
      (by simp [Mat4.toList, Vec4.toList])

theorem Reached.legible {base : Material} {past : List Event} (fresh : base.Fresh)
    (reached : Reached base past) : (base.replay past).Legible := by
  have begins : base.Legible :=
    ⟨by simp [fresh.inputs], fun n key symbol member => by simp [fresh.shown] at member⟩
  exact begins.replay (reached.lawful_showing fun _ _ publishes => legible_of_publishes publishes)

end Material

end GlslMaterial
