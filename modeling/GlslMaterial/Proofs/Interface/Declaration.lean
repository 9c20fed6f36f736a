import GlslMaterial.Proofs.Interface.Access
import GlslMaterial.Proofs.Source.Mention
import Mathlib.Data.List.Forall2

/-!
Uniform declarations: the blocks of the uniform rates and the samplers of a material, what their
texts say, and that no text says anything of the names that a later one declares.
-/

set_option autoImplicit false

namespace GlslMaterial

open Material (uniformBlock)

/-- A declaration at the uniform marker: the block of a rate, or a sampler. -/
inductive Declaration where
  | block (rate : UniformRate) (members : List Binding)
  | sampler (b : Binding)

namespace Declaration

/-- The names that code uses what is declared by. -/
def names : Declaration → List String
  | block _ members => members.map Binding.name
  | sampler b => [b.name]

/-- Set and binding. -/
def place : Declaration → Nat × Nat
  | block rate _ => rate.binding
  | sampler b => (2, b.sampler.getD 0)

def text : Declaration → Except Failure String
  | block rate members => uniformBlock rate members
  | sampler b =>
    .ok s!"layout(set = 2, binding = {b.sampler.getD 0}) uniform sampler2D {b.name};"

/-- The line that opens a block. -/
def opening (rate : UniformRate) : String :=
  let name := (Rate.uniform rate).name
  s!"layout(set = {rate.binding.1}, binding = {rate.binding.2}) uniform UniformBuffer{name} \x7b"

/-- What a declaration says. A block has one line for each member, with the type and the field of
the member. -/
inductive Reads : Declaration → String → Prop
  | block {rate : UniformRate} {members : List Binding} {lines : List String} :
    List.Forall₂ (fun b line => ∃ type, b.spelling = .ok type ∧ line = s!"    {type} {b.field};")
      members lines →
    Reads (.block rate members)
      (Text.block ([opening rate] ++ lines ++ [s!"\x7d {(Rate.uniform rate).name};", ""]))
  | sampler {b : Binding} {slot : Nat} : b.sampler = some slot →
    Reads (.sampler b) s!"layout(set = 2, binding = {slot}) uniform sampler2D {b.name};"

end Declaration

/-- What a step gives for each item, where all steps succeed. -/
theorem forall₂_of_mapM {α β : Type} {f : α → Except Failure β} {items : List α} {values : List β}
    (made : items.mapM f = .ok values) : List.Forall₂ (fun a b => f a = .ok b) items values := by
  have same := map_eq_of_mapM made
  rwa [← List.forall₂_eq_eq_eq, List.forall₂_map_left_iff, List.forall₂_map_right_iff] at same

namespace Declaration

theorem reads_block {rate : UniformRate} {members : List Binding} {text : String}
    (made : uniformBlock rate members = .ok text) : Reads (.block rate members) text := by
  obtain ⟨lines, fields, made⟩ := eq_ok_of_bind made
  rw [← Except.ok.inj made]
  refine .block ((forall₂_of_mapM fields).imp fun b line field => ?_)
  obtain ⟨type, spelled, line_eq⟩ := eq_ok_of_bind field
  exact ⟨type, spelled, (Except.ok.inj line_eq).symm⟩

end Declaration

theorem Text.infix_of_append_right {word text pad : List Char} (other : ∀ c ∈ pad, c ∉ word)
    (found : word <:+: text ++ pad) : word <:+: text := by
  rw [← List.reverse_infix, List.reverse_append] at found
  rw [← List.reverse_infix]
  refine Text.infix_of_append (fun c member inside => ?_) found
  exact other c (List.mem_reverse.1 member) (List.mem_reverse.1 inside)

theorem Binding.spelling_word {b : Binding} {type : String} (spelled : b.spelling = .ok type) :
    '.' ∉ type.toList ∧ ¬ "Texture".toList <:+: type.toList := by
  obtain ⟨decayed, -, given⟩ := eq_ok_of_bind (eq_ok_of_withContext spelled)
  rw [← Text.contains_iff]
  unfold DataType.spelling at given
  cases decayed <;> simp [DataType.glsl?] at given <;> subst given <;> decide

theorem TraitId.not_infix_label {id : TraitId} (other : id ≠ .texture) :
    ¬ "Texture".toList <:+: id.label.toList := by
  rw [← Text.contains_iff]
  cases id with
  | texture => exact absurd rfl other
  | _ => decide

/-- The inputs that stand in the block of a rate. -/
structure Binding.IsMember (rate : UniformRate) (b : Binding) : Prop where
  numbered : b.IsNumbered
  plain : b.key.isTexture = false
  here : b.rate = .uniform rate

namespace Binding.IsMember

variable {b : Binding} {rate : UniformRate}

theorem dot_notMem_field (member : b.IsMember rate) : '.' ∉ b.field.toList := by
  obtain ⟨digits, numeric, field, -⟩ := member.numbered.field_toList member.plain member.here
  rw [field, List.mem_append]
  rintro (letter | digit)
  · exact Text.dot_notMem_of_alpha b.key.id.isAlpha_of_mem_label letter
  · exact absurd (numeric '.' digit) (by decide)

theorem not_infix_field (member : b.IsMember rate) (other : b.key.id ≠ .texture) :
    ¬ "Texture".toList <:+: b.field.toList := by
  obtain ⟨digits, numeric, field, -⟩ := member.numbered.field_toList member.plain member.here
  rw [field]
  intro found
  refine TraitId.not_infix_label other (Text.infix_of_append_right (fun c digit inside => ?_) found)
  have letters : "Texture".toList.all (fun c => !c.isDigit) = true := by decide
  have other := List.all_eq_true.1 letters c inside
  simp [numeric c digit] at other

theorem dot_mem_name (member : b.IsMember rate) : '.' ∈ b.name.toList := by
  obtain ⟨_, -, name⟩ := member.numbered.exists_digits member.plain member.here
  simp [name]

end Binding.IsMember

namespace Declaration

variable {rate : UniformRate} {members : List Binding} {text : String}

theorem infix_of_line {word : List Char} {type field : String} (filled : word ≠ [])
    (blank : ' ' ∉ word) (stop : ';' ∉ word)
    (found : word <:+: s!"    {type} {field};".toList) :
    word <:+: type.toList ∨ word <:+: field.toList := by
  have parts : word <:+: "    ".toList ++ (type.toList ++ ' ' :: (field.toList ++ ';' :: [])) := by
    simpa using found
  have pad : ∀ c ∈ "    ".toList, c ∉ word := by simpa using blank
  rcases Text.infix_of_separated blank (Text.infix_of_append pad parts) with early | late
  · exact .inl early
  · rcases Text.infix_of_separated stop late with inside | nothing
    · exact .inr inside
    · exact absurd (List.infix_nil.1 nothing) filled

theorem exists_of_mem_lines {lines : List String} {line : String} {tells : Binding → String → Prop}
    (fields : List.Forall₂ tells members lines) (member : line ∈ lines) :
    ∃ b ∈ members, tells b line := by
  induction fields with
  | nil => simp at member
  | cons first _ ih =>
    rcases List.mem_cons.1 member with rfl | later
    · exact ⟨_, List.mem_cons_self, first⟩
    · obtain ⟨b, listed, told⟩ := ih later
      exact ⟨b, List.mem_cons_of_mem _ listed, told⟩

theorem Reads.infix_cases (reads : Reads (.block rate members) text) {word : List Char}
    (filled : word ≠ []) (newline : '\n' ∉ word) (blank : ' ' ∉ word) (stop : ';' ∉ word)
    (found : word <:+: text.toList) :
    (∃ b ∈ members, ∃ type, b.spelling = .ok type ∧
      (word <:+: type.toList ∨ word <:+: b.field.toList)) ∨
    ∃ part ∈ [opening rate, s!"\x7d {(Rate.uniform rate).name};"], word <:+: part.toList := by
  cases reads with
  | block fields =>
    obtain ⟨part, listed, inside⟩ := Text.exists_infix_of_block filled newline found
    simp only [List.mem_append, List.mem_cons, List.not_mem_nil, or_false] at listed
    rcases listed with (rfl | line) | rfl | rfl
    · exact .inr ⟨_, List.mem_cons_self, inside⟩
    · obtain ⟨b, member, type, spelled, rfl⟩ := exists_of_mem_lines fields line
      exact .inl ⟨b, member, type, spelled, infix_of_line filled blank stop inside⟩
    · exact .inr ⟨_, List.mem_cons_of_mem _ List.mem_cons_self, inside⟩
    · exact absurd (List.infix_nil.1 inside) filled

theorem Reads.dot_notMem (reads : Reads (.block rate members) text)
    (proper : ∀ b ∈ members, b.IsMember rate) : '.' ∉ text.toList := by
  intro dot
  have found : ['.'] <:+: text.toList := by
    obtain ⟨before, after, cut⟩ := List.append_of_mem dot
    exact ⟨before, after, by simp [cut]⟩
  rcases reads.infix_cases (by decide) (by decide) (by decide) (by decide) found with
    ⟨b, member, type, spelled, inside | inside⟩ | ⟨part, listed, inside⟩
  · exact (Binding.spelling_word spelled).1 (inside.subset List.mem_cons_self)
  · exact (proper b member).dot_notMem_field (inside.subset List.mem_cons_self)
  · rw [← Text.contains_iff] at inside
    revert part
    cases rate <;> decide +kernel

theorem Reads.not_infix_texture (reads : Reads (.block rate members) text)
    (proper : ∀ b ∈ members, b.IsMember rate) (other : ∀ b ∈ members, b.key.id ≠ .texture) :
    ¬ "Texture".toList <:+: text.toList := by
  intro found
  rcases reads.infix_cases (by decide) (by decide) (by decide) (by decide) found with
    ⟨b, member, type, spelled, inside | inside⟩ | ⟨part, listed, inside⟩
  · exact (Binding.spelling_word spelled).2 inside
  · exact (proper b member).not_infix_field (other b member) inside
  · rw [← Text.contains_iff] at inside
    revert part
    cases rate <;> decide +kernel

end Declaration

/-- A number that ends where no identifier goes on is read as a whole. -/
theorem eq_of_digits_append {a b : Nat} {right rest : List Char}
    (stop : ∀ c, right.head? = some c → c.isDigit = false)
    (other : ∀ c, rest.head? = some c → c.isDigit = false)
    (same : a.repr.toList ++ right = b.repr.toList ++ rest) : a = b := by
  have whole (n : Nat) {tail : List Char} (stop : ∀ c, tail.head? = some c → c.isDigit = false) :
      (n.repr.toList ++ tail).takeWhile Char.isDigit = n.repr.toList := by
    have digits : ∀ c ∈ n.repr.toList, c.isDigit = true := fun c member =>
      isDigit_of_mem_repr member
    rw [List.takeWhile_append_of_pos digits]
    cases tail with
    | nil => simp
    | cons c tail => simp [stop c rfl]
  apply repr_injective
  apply String.toList_injective
  rw [← whole a stop, same, whole b other]

theorem eq_of_occurs_textureName {a b : Nat} {front : List Char} (plain : 'T' ∉ front)
    (occurs : Text.Occurs (textureName a).toList
      (front ++ (textureName b).toList ++ [';'])) : a = b := by
  obtain ⟨left, right, split, bounded⟩ := occurs
  simp only [toList_textureName, List.append_assoc] at split
  have digits (n : Nat) : n.repr.toList.count 'T' = 0 := by
    refine List.count_eq_zero.2 fun member => ?_
    exact absurd (isDigit_of_mem_repr member) (by decide)
  -- There is only one capital letter of this kind on either side.
  have single : left.count 'T' + right.count 'T' = 0 := by
    have counted := congrArg (List.count 'T') split
    simp only [List.count_append, digits, List.count_eq_zero.2 plain] at counted
    have word : "Texture".toList.count 'T' = 1 := by decide
    have last : [';'].count 'T' = 0 := by decide
    omega
  have absent : 'T' ∉ left := List.count_eq_zero.1 (by omega)
  have begins (start rest : List Char) (free : 'T' ∉ start) :
      (start ++ ("Texture".toList ++ rest)).takeWhile (· != 'T') = start := by
    have all : ∀ c ∈ start, (c != 'T') = true := fun c member =>
      bne_iff_ne.2 fun same => free (same ▸ member)
    rw [List.takeWhile_append_of_pos all]
    simp
  obtain rfl : left = front := by
    rw [← begins left (a.repr.toList ++ right) absent, split, begins front _ plain]
  have rest := List.append_cancel_left (List.append_cancel_left split)
  refine eq_of_digits_append (fun c next => ?_) (fun c next => ?_) rest
  · have filled : a.repr.toList ≠ [] := by simp [Nat.toDigits_ne_nil]
    have ends : (textureName a).toList.getLast? = some (a.repr.toList.getLast filled) := by
      rw [toList_textureName, List.getLast?_append_of_ne_nil _ filled,
        List.getLast?_eq_some_getLast filled]
    have last := isDigit_of_mem_repr (List.getLast_mem filled)
    have outside := Text.rightBoundary_of_delimited ends (Text.isIdentifierChar_of_isDigit last)
      (next ▸ bounded)
    refine Bool.eq_false_iff.2 fun digit => ?_
    simp [Text.isIdentifierChar_of_isDigit digit] at outside
  · obtain rfl : ';' = c := by simpa using next
    decide

namespace Declaration

/-- What a declaration says is silent about the names of another. -/
def Quiet (earlier later : Declaration) : Prop :=
  ∀ text, earlier.text = .ok text → ∀ name ∈ later.names, Source.IsSilent name.toList text

variable {rate : UniformRate} {members : List Binding}

theorem quiet_block_block (proper : ∀ b ∈ members, b.IsMember rate) {other : UniformRate}
    {others : List Binding} (proper_others : ∀ b ∈ others, b.IsMember other)
    (spelled : ∀ b ∈ others, isSpelled b.name = true) :
    Quiet (.block rate members) (.block other others) := by
  intro text made name listed
  obtain ⟨b, member, rfl⟩ := List.mem_map.1 listed
  have dot := (proper_others b member).dot_mem_name
  refine Source.isSilent_of_not_infix (blank_notMem_of_isSpelled (spelled b member)) ?_
  exact fun found => (reads_block made).dot_notMem proper (found.subset dot)

theorem quiet_block_sampler (proper : ∀ b ∈ members, b.IsMember rate)
    (other : ∀ b ∈ members, b.key.id ≠ .texture) {sampler : Binding} {slot : Nat}
    (named : sampler.name = textureName slot) :
    Quiet (.block rate members) (.sampler sampler) := by
  intro text made name listed
  obtain rfl : name = sampler.name := by simpa [names] using listed
  rw [named]
  have blank := blank_notMem_of_isSpelled (isSpelled_textureName slot)
  refine Source.isSilent_of_not_infix blank fun found => ?_
  have word : "Texture".toList <:+: (textureName slot).toList := by
    rw [toList_textureName]
    exact (List.prefix_append _ _).isInfix
  exact (reads_block made).not_infix_texture proper other (word.trans found)

theorem quiet_sampler_sampler {a b : Binding} {one two : Nat} (a_named : a.name = textureName one)
    (b_named : b.name = textureName two) (different : one ≠ two) :
    Quiet (.sampler a) (.sampler b) := by
  intro text made name listed line inside pad spaces
  obtain rfl : name = b.name := by simpa [names] using listed
  let front := "layout(set = 2, binding = " ++ (a.sampler.getD 0).repr ++ ") uniform sampler2D "
  have front_lacks {c : Char} (early : c ∉ "layout(set = 2, binding = ".toList)
      (digit : c.isDigit = false) (late : c ∉ ") uniform sampler2D ".toList) :
      c ∉ front.toList := by
    have number : c ∉ (a.sampler.getD 0).repr.toList := fun member => by
      simp [isDigit_of_mem_repr member] at digit
    simp only [front, String.toList_append, List.mem_append, not_or]
    exact ⟨⟨early, number⟩, late⟩
  have shape : text.toList = front.toList ++ (textureName one).toList ++ [';'] := by
    rw [← Except.ok.inj made, a_named]
    simp [front]
  have single : '\n' ∉ text.toList := by
    have name : '\n' ∉ (textureName one).toList :=
      Text.notMem_of_madeOf (isSpelled_textureName one) (by decide)
    have start := front_lacks (c := '\n') (by decide) (by decide) (by decide)
    simp [shape, start, name]
  rw [Source.codeLines_of_notMem single, List.mem_singleton] at inside
  refine Bool.eq_false_iff.2 fun has => different ?_
  have occurs := Text.occurs_of_hasKeyword has
  rw [inside, shape, Source.laid_concat _ _ (by decide), b_named, ← List.append_assoc,
    ← List.append_assoc] at occurs
  refine (eq_of_occurs_textureName ?_ occurs).symm
  have blank : 'T' ∉ pad := fun member => absurd (spaces 'T' member) (by decide)
  have start := front_lacks (c := 'T') (by decide) (by decide) (by decide)
  simp [blank, start]

end Declaration

namespace Material

/-- The inputs of a uniform rate that are not textures. -/
def blockMembers (m : Material) (rate : UniformRate) : List Binding :=
  (m.inputsAt (.uniform rate)).filter fun b => !b.key.isTexture

/-- All that can be declared at the uniform marker: the blocks and then the samplers. -/
def declarations (m : Material) : List Declaration :=
  UniformRate.all.map (fun rate => .block rate (m.blockMembers rate)) ++
    m.textures.map Declaration.sampler

variable {m : Material}

theorem mem_blockMembers {rate : UniformRate} {b : Binding} :
    b ∈ m.blockMembers rate ↔
      b ∈ m.inputs ∧ b.rate = .uniform rate ∧ b.key.isTexture = false := by
  rw [blockMembers, inputsAt, List.mem_filter, mem_filter_rate, and_assoc, Bool.not_eq_true']

theorem isMember_of_mem (numbered : ∀ b ∈ m.inputs, b.IsNumbered) {rate : UniformRate} :
    ∀ b ∈ m.blockMembers rate, b.IsMember rate := by
  intro b member
  obtain ⟨known, here, plain⟩ := mem_blockMembers.1 member
  exact ⟨numbered b known, plain, here⟩

/-- Textures stand in the order of their slots. -/
theorem Formed.pairwise_textures (formed : m.Formed) :
    m.textures.Pairwise fun a b => ∃ one two, one ≠ two ∧
      a.sampler = some one ∧ b.sampler = some two ∧
      a.name = textureName one ∧ b.name = textureName two := by
  have slots : (m.textures.map fun b => (b.sampler, b.name)).Pairwise fun a b =>
      ∃ one two, one ≠ two ∧ a.1 = some one ∧ b.1 = some two ∧
        a.2 = textureName one ∧ b.2 = textureName two := by
    rw [formed.slots]
    refine List.Pairwise.map _ (fun one two different => ?_) List.nodup_range
    exact ⟨one, two, different, rfl, rfl, rfl, rfl⟩
  exact List.pairwise_map.1 slots

theorem Formed.pairwise_quiet (formed : m.Formed) (numbered : ∀ b ∈ m.inputs, b.IsNumbered)
    (spelled : m.Spelled)
    (textured : ∀ b ∈ m.inputs, b.key.id = .texture → b.key.isTexture = true) :
    m.declarations.Pairwise Declaration.Quiet := by
  refine List.pairwise_append.2 ⟨?_, ?_, ?_⟩
  · refine List.pairwise_map.2 (List.pairwise_of_forall fun one two => ?_)
    exact Declaration.quiet_block_block (isMember_of_mem numbered) (isMember_of_mem numbered)
      fun b member => spelled.input (mem_blockMembers.1 member).1
  · refine List.pairwise_map.2 (formed.pairwise_textures.imp ?_)
    rintro a b ⟨one, two, different, -, -, a_named, b_named⟩
    exact Declaration.quiet_sampler_sampler a_named b_named different
  · intro d block other sampler
    obtain ⟨rate, -, rfl⟩ := List.mem_map.1 block
    obtain ⟨b, texture, rfl⟩ := List.mem_map.1 sampler
    obtain ⟨known, is⟩ := List.mem_filter.1 texture
    obtain ⟨slot, -, -, named⟩ := formed.exists_slot known is
    refine Declaration.quiet_block_sampler (isMember_of_mem numbered) (fun a member same => ?_)
      named
    obtain ⟨a_known, -, plain⟩ := mem_blockMembers.1 member
    simp [textured a a_known same] at plain

theorem Formed.nodup_places (formed : m.Formed) :
    (m.declarations.map Declaration.place).Nodup := by
  have static : ∀ rate ∈ UniformRate.all, rate.binding.1 ≠ 2 := by decide
  rw [declarations, List.map_append, List.map_map, List.map_map]
  refine List.pairwise_append.2 ⟨?_, ?_, ?_⟩
  · show (UniformRate.all.map UniformRate.binding).Nodup
    decide
  · refine List.pairwise_map.2 (formed.pairwise_textures.imp ?_)
    rintro a b ⟨one, two, different, a_slot, b_slot, -⟩ same
    simp [Declaration.place, a_slot, b_slot, different] at same
  · intro place block other sampler same
    obtain ⟨rate, listed, rfl⟩ := List.mem_map.1 block
    obtain ⟨b, -, rfl⟩ := List.mem_map.1 sampler
    exact static rate listed (congrArg Prod.fst same)

theorem Formed.searchable (formed : m.Formed) (numbered : ∀ b ∈ m.inputs, b.IsNumbered)
    (spelled : m.Spelled) : ∀ d ∈ m.declarations, ∀ name ∈ d.names,
      name.toList ≠ [] ∧ '\n' ∉ name.toList ∧ Text.IsApart name.toList := by
  intro d member name listed
  have newline {b : Binding} (known : b ∈ m.inputs) : '\n' ∉ b.name.toList :=
    Text.notMem_of_madeOf (spelled.input known) (by decide)
  rcases List.mem_append.1 member with block | sampler
  · obtain ⟨rate, -, rfl⟩ := List.mem_map.1 block
    obtain ⟨b, inside, rfl⟩ := List.mem_map.1 listed
    have proper := isMember_of_mem numbered b inside
    exact ⟨List.ne_nil_of_mem proper.dot_mem_name, newline (mem_blockMembers.1 inside).1,
      proper.numbered.isApart proper.plain proper.here⟩
  · obtain ⟨b, texture, rfl⟩ := List.mem_map.1 sampler
    obtain rfl : name = b.name := by simpa [Declaration.names] using listed
    obtain ⟨known, is⟩ := List.mem_filter.1 texture
    obtain ⟨slot, -, -, named⟩ := formed.exists_slot known is
    refine ⟨?_, newline known, named ▸ isApart_textureName slot⟩
    simp [named, toList_textureName]

end Material

end GlslMaterial
