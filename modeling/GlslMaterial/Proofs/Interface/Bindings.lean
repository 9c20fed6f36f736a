import GlslMaterial.Material.Event
import GlslMaterial.Proofs.Interface.Names

/-!
Bindings: what asking for an input or an output does to the tables of a material, and that two
bindings of one stage never have the same name or the same trait.
-/

set_option autoImplicit false

namespace GlslMaterial

variable {key : Trait} {b : Binding} {new old : List Binding} {rate : Rate} {duplicates : Bool}
  {name : String}

theorem Trait.resolved_eq_ok {typed : Trait} (resolved : key.resolved = .ok typed) :
    typed.id = key.id ∧ typed.type.isSome = true ∧ (key.type.isSome = true → typed = key) := by
  unfold Trait.resolved at resolved
  cases given : key.type with
  | some type =>
    obtain rfl : key = typed := by simpa [given] using resolved
    exact ⟨rfl, by simp [given], fun _ => rfl⟩
  | none =>
    cases default : key.id.defaultType? with
    | some type =>
      obtain rfl : { key with type := some type } = typed := by
        simpa [given, default] using resolved
      exact ⟨rfl, rfl, fun impossible => by simp at impossible⟩
    | none => simp [given, default] at resolved

theorem Trait.resolved_of_isSome (given : key.type.isSome = true) : key.resolved = .ok key := by
  obtain ⟨type, given⟩ := Option.isSome_iff_exists.1 given
  simp [resolved, given]

@[simp] theorem Trait.resolved_typed (id : TraitId) (type : DataType) :
    (Trait.typed id type).resolved = .ok (.typed id type) := rfl

theorem Trait.agrees_iff {a b : Trait} (left : a.type.isSome = true)
    (right : b.type.isSome = true) :
    a.agrees b = true ↔ a.id = b.id ∧ a.type = b.type := by
  obtain ⟨s, hs⟩ := Option.isSome_iff_exists.1 left
  obtain ⟨t, ht⟩ := Option.isSome_iff_exists.1 right
  simp [Trait.agrees, hs, ht]

/-- What a binding keeps from its declaration on. -/
structure Entry where
  rate : Rate
  key : Trait
  name : String

def Binding.entry (b : Binding) : Entry :=
  ⟨b.rate, b.key, b.name⟩

theorem Binding.entry_eq_iff {a : Binding} :
    a.entry = b.entry ↔ a.rate = b.rate ∧ a.key = b.key ∧ a.name = b.name := by
  simp [Binding.entry]

/-- There is one entry of this kind for a trait. Only textures may have several. -/
def Entry.IsSingle (e : Entry) : Prop :=
  e.rate.stage?.isSome = true ∨ e.key.isTexture = false

/-- An entry has another name than an earlier one of its rate, and their traits do not agree. -/
def Entry.Apart (a b : Entry) : Prop :=
  a.rate = b.rate → b.IsSingle → a.name ≠ b.name ∧ a.key.agrees b.key = false

/-- All bindings have a type, and any two of them are apart. -/
structure Distinct (bindings : List Binding) : Prop where
  typed : ∀ b ∈ bindings, b.key.type.isSome = true
  apart : (bindings.map Binding.entry).Pairwise Entry.Apart

/-- What asking for a binding of a trait does to the bindings that there are. -/
inductive Asked (old : List Binding) (rate : Rate) (key : Trait) (duplicates : Bool)
    (name : String) : List Binding → Prop
  | known (b : Binding) (member : b ∈ old) (single : duplicates = false) (at_rate : b.rate = rate)
      (agrees : b.key.agrees key = true) (named : b.name = name) :
      Asked old rate key duplicates name old
  | fresh (b : Binding) (at_rate : b.rate = rate) (same : b.key = key) (named : b.name = name)
      (unplaced : b.location = none)
      (free : b.entry.IsSingle → ∀ a ∈ old, a.rate = rate → a.name ≠ name)
      (absent : duplicates = false → ∀ a ∈ old, a.rate = rate → a.key.agrees key = false) :
      Asked old rate key duplicates name (old ++ [b])

theorem exists_entry_eq
    (entries : new.map Binding.entry = old.map Binding.entry) (member : b ∈ new) :
    ∃ a ∈ old, a.entry = b.entry :=
  List.mem_map.1 (entries ▸ List.mem_map_of_mem (f := Binding.entry) member)

theorem Distinct.of_entries (distinct : Distinct old)
    (same : new.map Binding.entry = old.map Binding.entry) : Distinct new where
  typed b member := by
    obtain ⟨a, known, entry⟩ := exists_entry_eq same member
    exact (Binding.entry_eq_iff.1 entry).2.1 ▸ distinct.typed a known
  apart := same ▸ distinct.apart

theorem Asked.distinct (asked : Asked old rate key duplicates name new) (distinct : Distinct old)
    (typed : key.type.isSome = true)
    (single : duplicates = true → rate.stage?.isSome = false ∧ key.isTexture = true) :
    Distinct new := by
  cases asked with
  | known => exact distinct
  | fresh b at_rate same named unplaced free absent =>
    constructor
    · intro other member
      rcases List.mem_append.1 member with earlier | last
      · exact distinct.typed other earlier
      · rw [List.mem_singleton.1 last, same]
        exact typed
    · rw [List.map_append, List.pairwise_append]
      refine ⟨distinct.apart, List.pairwise_singleton _ _, ?_⟩
      intro first earlier second last here once
      obtain ⟨a, member, rfl⟩ := List.mem_map.1 earlier
      obtain rfl : second = b.entry := by simpa using last
      have a_rate : a.rate = rate := here.trans at_rate
      have alone : duplicates = false := by
        cases duplicates with
        | false => rfl
        | true =>
          obtain ⟨unstaged, texture⟩ := single rfl
          rcases once with staged | plain
          · simp [Binding.entry, at_rate, unstaged] at staged
          · simp [Binding.entry, same, texture] at plain
      refine ⟨?_, ?_⟩
      · show a.name ≠ b.name
        rw [named]
        exact free once a member a_rate
      · show a.key.agrees b.key = false
        rw [same]
        exact absent alone a member a_rate

theorem Asked.entries (asked : Asked old rate key duplicates name new) :
    old.map Binding.entry <+: new.map Binding.entry := by
  cases asked with
  | known => exact List.prefix_refl _
  | fresh => simp

theorem Asked.mem (asked : Asked old rate key duplicates name new) (member : b ∈ new) :
    b ∈ old ∨ b.rate = rate ∧ b.key = key ∧ b.name = name ∧ b.location = none := by
  cases asked with
  | known => exact .inl member
  | fresh last at_rate same named unplaced =>
    rcases List.mem_append.1 member with earlier | new
    · exact .inl earlier
    · rw [List.mem_singleton.1 new]
      exact .inr ⟨at_rate, same, named, unplaced⟩

theorem Asked.exists_mem (asked : Asked old rate key duplicates name new) :
    ∃ b ∈ new, b.rate = rate ∧ b.name = name ∧ b.key.agrees key = true := by
  cases asked with
  | known b member single at_rate agrees named => exact ⟨b, member, at_rate, named, agrees⟩
  | fresh b at_rate same named => exact ⟨b, by simp, at_rate, named, by simp [same]⟩

namespace Distinct

variable {bindings : List Binding} {a b : Binding}

theorem eq_or_apart (distinct : Distinct bindings) (first : a ∈ bindings) (second : b ∈ bindings) :
    a = b ∨ a.entry.Apart b.entry ∨ b.entry.Apart a.entry := by
  have pairs := List.pairwise_iff_getElem.1 (List.pairwise_map.1 distinct.apart)
  obtain ⟨i, hi, rfl⟩ := List.getElem_of_mem first
  obtain ⟨j, hj, rfl⟩ := List.getElem_of_mem second
  rcases Nat.lt_trichotomy i j with before | rfl | behind
  · exact .inr (.inl (pairs i j hi hj before))
  · exact .inl rfl
  · exact .inr (.inr (pairs j i hj hi behind))

theorem eq_of_name (distinct : Distinct bindings) (first : a ∈ bindings) (second : b ∈ bindings)
    (here : a.rate = b.rate) (staged : a.rate.stage?.isSome = true) (same : a.name = b.name) :
    a = b := by
  have staged_b : b.rate.stage?.isSome = true := here ▸ staged
  rcases distinct.eq_or_apart first second with equal | apart | apart
  · exact equal
  · exact absurd same (apart here (.inl staged_b)).1
  · exact absurd same.symm (apart here.symm (.inl staged)).1

theorem eq_of_agrees (distinct : Distinct bindings) (first : a ∈ bindings) (second : b ∈ bindings)
    (here : a.rate = b.rate) (staged : a.rate.stage?.isSome = true)
    (agrees : a.key.agrees b.key = true) : a = b := by
  have staged_b : b.rate.stage?.isSome = true := here ▸ staged
  rcases distinct.eq_or_apart first second with equal | apart | apart
  · exact equal
  · have disagree : a.key.agrees b.key = false := (apart here (.inl staged_b)).2
    simp [disagree] at agrees
  · have disagree : b.key.agrees a.key = false := (apart here.symm (.inl staged)).2
    rw [Trait.agrees_comm, disagree] at agrees
    simp at agrees

end Distinct

namespace Material

variable {bindings : List Binding} {rate : Rate} {key : Trait} {duplicates : Bool}

theorem mem_filter_rate {b : Binding} :
    b ∈ bindings.filter (fun b => b.rate = rate) ↔ b ∈ bindings ∧ b.rate = rate := by
  simp

theorem find?_agrees : match (bindings.filter fun b => b.rate = rate).find?
      fun b => !duplicates && b.key.agrees key with
    | some b => b ∈ bindings ∧ duplicates = false ∧ b.rate = rate ∧ b.key.agrees key = true
    | none => duplicates = false → ∀ a ∈ bindings, a.rate = rate → a.key.agrees key = false := by
  split
  · rename_i b found
    have matched := List.find?_some found
    have member := mem_filter_rate.1 (List.mem_of_find?_eq_some found)
    simp only [Bool.and_eq_true, Bool.not_eq_true'] at matched
    exact ⟨member.1, matched.1, member.2, matched.2⟩
  · rename_i missing
    intro single a member here
    have different := List.find?_eq_none.1 missing a (mem_filter_rate.2 ⟨member, here⟩)
    simpa [single] using different

theorem freshName_ne {base : String} {a : Binding} (member : a ∈ bindings) (here : a.rate = rate) :
    a.name ≠ freshName ((bindings.filter fun b => b.rate = rate).map Binding.name) base := by
  intro same
  have listed := List.mem_map.2 ⟨a, mem_filter_rate.2 ⟨member, here⟩, same⟩
  exact freshName_notMem _ base listed

theorem inputRate_texture {kept : Rate} (texture : key.isTexture = true)
    (given : inputRate rate key = .ok kept) : kept = .uniform .renderable := by
  unfold inputRate at given
  split at given
  · simp at given
  · simpa [texture] using given.symm

theorem addInput_eq_ok {m after : Material} {kept : Rate}
    {name : String} (added : m.addInput rate key duplicates = .ok ((name, kept), after)) :
    ∃ typed, key.resolved = .ok typed ∧ inputRate rate typed = .ok kept ∧
      Asked m.inputs kept typed duplicates name after.inputs ∧
      after = { m with inputs := after.inputs, samplers := after.samplers } := by
  unfold addInput at added
  cases resolved : key.resolved with
  | error failure => simp [resolved, bind, Except.bind] at added
  | ok typed =>
    cases given : inputRate rate typed with
    | error failure => simp [resolved, given, bind, Except.bind] at added
    | ok stored =>
      have searched := @find?_agrees m.inputs stored typed duplicates
      simp only [resolved, given, bind, Except.bind, inputsAt] at added
      split at searched
      · rename_i b found
        simp only [found, pure, Except.pure, Except.ok.injEq, Prod.mk.injEq] at added
        obtain ⟨⟨rfl, rfl⟩, rfl⟩ := added
        obtain ⟨member, single, here, agrees⟩ := searched
        exact ⟨typed, rfl, given, .known b member single here agrees rfl, rfl⟩
      · rename_i missing
        simp only [missing, pure, Except.pure, Except.ok.injEq, Prod.mk.injEq] at added
        obtain ⟨⟨rfl, rfl⟩, rfl⟩ := added
        refine ⟨typed, rfl, given, ?_⟩
        split
        · rename_i texture
          refine ⟨.fresh _ rfl rfl rfl rfl (fun once => ?_) searched, rfl⟩
          rcases once with staged | plain
          · have uniform := inputRate_texture texture given
            simp [Binding.entry, uniform, Rate.stage?] at staged
          · simp [Binding.entry, texture] at plain
        · exact ⟨.fresh _ rfl rfl rfl rfl (fun _ a member here => freshName_ne member here)
            searched, rfl⟩

theorem addOutput_eq_ok {m after : Material} {created : Bool}
    {name : String} (added : m.addOutput rate key duplicates = .ok ((name, created), after)) :
    ∃ typed, key.resolved = .ok typed ∧ rate.stage?.isSome = true ∧
      Asked m.outputs rate typed duplicates name after.outputs ∧
      (created = false → after = m) ∧
      (created = true → ∀ a ∈ m.outputs, a.rate = rate → a.name ≠ name) ∧
      after = { m with outputs := after.outputs } := by
  unfold addOutput at added
  cases staged : rate.stage? with
  | none => simp [staged, bind, Except.bind, throw, throwThe, MonadExceptOf.throw] at added
  | some stage =>
    cases resolved : key.resolved with
    | error failure => simp [staged, resolved, bind, Except.bind] at added
    | ok typed =>
      have searched := @find?_agrees m.outputs rate typed duplicates
      simp only [staged, resolved, bind, Except.bind, outputsAt, Option.isNone_some,
        Bool.false_eq_true, if_false, pure, Except.pure] at added
      split at searched
      · rename_i b found
        simp only [found, Except.ok.injEq, Prod.mk.injEq] at added
        obtain ⟨⟨rfl, rfl⟩, rfl⟩ := added
        obtain ⟨member, single, here, agrees⟩ := searched
        exact ⟨typed, rfl, rfl, .known b member single here agrees rfl, fun _ => rfl,
          fun impossible => by simp at impossible, rfl⟩
      · rename_i missing
        simp only [missing, Except.ok.injEq, Prod.mk.injEq] at added
        obtain ⟨⟨rfl, rfl⟩, rfl⟩ := added
        have free : ∀ a ∈ m.outputs, a.rate = rate →
            a.name ≠ freshName (((m.outputs.filter fun b => b.rate = rate)).map Binding.name)
              s!"out{typed.id.label}" := fun a member here => freshName_ne member here
        exact ⟨typed, rfl, rfl, .fresh _ rfl rfl rfl rfl (fun _ => free) searched,
          fun impossible => by simp at impossible, fun _ => free, rfl⟩

theorem map_entry_updateNamed (rate : Rate) (name : String) {change : Binding → Binding}
    (keeps : ∀ b, (change b).entry = b.entry) (bindings : List Binding) :
    (updateNamed rate name change bindings).map Binding.entry = bindings.map Binding.entry := by
  rw [updateNamed, List.map_map]
  apply List.map_congr_left
  intro b _
  show (if b.isNamed rate name then change b else b).entry = b.entry
  split
  · exact keeps b
  · rfl

@[simp] theorem map_entry_placeInput (m : Material) (rate : Rate) (name : String)
    (location : Nat) :
    (m.placeInput rate name location).inputs.map Binding.entry = m.inputs.map Binding.entry := by
  apply map_entry_updateNamed rate name
  intro b
  rfl

@[simp] theorem map_entry_placeOutput (m : Material) (rate : Rate) (name : String)
    (location : Nat) :
    (m.placeOutput rate name location).outputs.map Binding.entry = m.outputs.map Binding.entry := by
  apply map_entry_updateNamed rate name
  intro b
  rfl

@[simp] theorem map_entry_markWired (m : Material) (rate : Rate) (name : String) :
    (m.markWired rate name).outputs.map Binding.entry = m.outputs.map Binding.entry := by
  apply map_entry_updateNamed rate name
  intro b
  rfl

theorem map_entry_link (m : Material) (outputRate : Rate) (output : String) (rate : Rate)
    (input : String) :
    (m.link outputRate output rate input).inputs.map Binding.entry = m.inputs.map Binding.entry ∧
      (m.link outputRate output rate input).outputs.map Binding.entry =
        m.outputs.map Binding.entry := by
  unfold link
  split
  · split
    · exact ⟨rfl, rfl⟩
    · exact ⟨map_entry_placeInput m rate input _, rfl⟩
    · exact ⟨map_entry_placeInput _ rate input _, map_entry_placeOutput _ outputRate output _⟩
  · exact ⟨rfl, rfl⟩

end Material

end GlslMaterial
