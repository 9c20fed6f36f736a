import GlslMaterial.Proofs.History.Tables

/-!
Locations of bindings: only a link gives one, to an output and to the input that reads it, and a
binding that has a location keeps it.
-/

set_option autoImplicit false

namespace GlslMaterial

/-- The binding of an entry has this location. -/
def Placed (bindings : List Binding) (entry : Entry) (location : Nat) : Prop :=
  ∃ b ∈ bindings, b.entry = entry ∧ b.location = some location

/-- The binding for a trait at a rate has this location. -/
def PlacedFor (bindings : List Binding) (rate : Rate) (key : Trait) (location : Nat) : Prop :=
  ∃ b ∈ bindings, b.rate = rate ∧ b.key.agrees key = true ∧ b.location = some location

variable {key : Trait}

theorem placedFor_iff {bindings : List Binding} {rate : Rate} {location : Nat} :
    PlacedFor bindings rate key location ↔
      ∃ entry, entry.rate = rate ∧ entry.key.agrees key = true ∧
        Placed bindings entry location := by
  constructor
  · rintro ⟨b, member, here, agrees, placed⟩
    exact ⟨b.entry, here, agrees, b, member, rfl, placed⟩
  · rintro ⟨_, here, agrees, b, member, rfl, placed⟩
    exact ⟨b, member, here, agrees, placed⟩

theorem Asked.placed_iff {old new : List Binding} {rate : Rate} {duplicates : Bool}
    {name : String} (asked : Asked old rate key duplicates name new) {entry : Entry}
    {location : Nat} : Placed new entry location ↔ Placed old entry location := by
  constructor
  · rintro ⟨b, member, same, placed⟩
    rcases asked.mem member with earlier | ⟨-, -, -, unplaced⟩
    · exact ⟨b, earlier, same, placed⟩
    · simp [unplaced] at placed
  · rintro ⟨b, member, rest⟩
    refine ⟨b, ?_, rest⟩
    cases asked with
    | known => exact member
    | fresh => exact List.mem_append_left _ member

theorem Trait.agrees_of_both {a b : Trait} (a_typed : a.type.isSome = true)
    (b_typed : b.type.isSome = true) (typed : key.type.isSome = true)
    (left : a.agrees key = true) (right : b.agrees key = true) : a.agrees b = true := by
  rw [agrees_iff a_typed typed] at left
  rw [agrees_iff b_typed typed] at right
  exact (agrees_iff a_typed b_typed).2 ⟨left.1.trans right.1.symm, left.2.trans right.2.symm⟩

theorem Distinct.eq_of_key {bindings : List Binding} (distinct : Distinct bindings)
    (typed : key.type.isSome = true) {a b : Binding} (first : a ∈ bindings) (second : b ∈ bindings)
    (here : a.rate = b.rate) (staged : b.rate.stage?.isSome = true)
    (left : a.key.agrees key = true) (right : b.key.agrees key = true) : a = b :=
  distinct.eq_of_agrees first second here (here ▸ staged)
    (Trait.agrees_of_both (distinct.typed a first) (distinct.typed b second) typed left right)

theorem Distinct.entry_of_key {old new : List Binding} (distinct : Distinct old)
    (entries : new.map Binding.entry = old.map Binding.entry)
    (typed : key.type.isSome = true) {a b : Binding} (first : a ∈ new) (second : b ∈ old)
    (here : a.rate = b.rate) (staged : b.rate.stage?.isSome = true)
    (left : a.key.agrees key = true) (right : b.key.agrees key = true) : a.entry = b.entry := by
  obtain ⟨c, known, entry⟩ := exists_entry_eq entries first
  obtain ⟨rate, same, -⟩ := Binding.entry_eq_iff.1 entry
  obtain rfl :=
    distinct.eq_of_key typed known second (rate.trans here) staged (same ▸ left) right
  exact entry.symm

namespace Material

variable {m : Material}

theorem mem_updateNamed {rate : Rate} {name : String} {change : Binding → Binding}
    {bindings : List Binding} {b : Binding} :
    b ∈ updateNamed rate name change bindings ↔
      ∃ a ∈ bindings, (if a.isNamed rate name then change a else a) = b :=
  List.mem_map

theorem placed_markWired_iff {rate : Rate} {name : String} {entry : Entry} {location : Nat} :
    Placed (m.markWired rate name).outputs entry location ↔ Placed m.outputs entry location := by
  have same (a : Binding) :
      (if a.isNamed rate name then { a with wired := true } else a).entry = a.entry ∧
        (if a.isNamed rate name then { a with wired := true } else a).location = a.location := by
    split <;> exact ⟨rfl, rfl⟩
  constructor
  · rintro ⟨b, member, is, placed⟩
    obtain ⟨a, inside, rfl⟩ := mem_updateNamed.1 member
    exact ⟨a, inside, (same a).1.symm.trans is, (same a).2.symm.trans placed⟩
  · rintro ⟨a, inside, is, placed⟩
    exact ⟨_, mem_updateNamed.2 ⟨a, inside, rfl⟩, (same a).1.trans is, (same a).2.trans placed⟩

end Material

def Event.isLink : Event → Bool
  | .link _ _ _ _ => true
  | _ => false

namespace Material

variable {m : Material}

theorem placed_apply_iff {event : Event} (other : event.isLink = false) (entry : Entry)
    (location : Nat) :
    (Placed (m.apply event).inputs entry location ↔ Placed m.inputs entry location) ∧
      (Placed (m.apply event).outputs entry location ↔ Placed m.outputs entry location) := by
  by_cases about : event.isInterface = false
  · obtain ⟨inputs, outputs, -⟩ := m.apply_interface about
    rw [inputs, outputs]
    exact ⟨Iff.rfl, Iff.rfl⟩
  · cases event with
    | input rate key duplicates =>
      simp only [apply]
      rw [(m.withInput_frame rate key duplicates).1]
      rcases m.withInput_spec rate key duplicates with ⟨_, _, _, _, _, asked, -⟩ | same
      · exact ⟨asked.placed_iff, Iff.rfl⟩
      · rw [same]
        exact ⟨Iff.rfl, Iff.rfl⟩
    | output rate key duplicates =>
      simp only [apply]
      rw [(m.withOutput_frame rate key duplicates).1]
      rcases m.withOutput_spec rate key duplicates with ⟨_, _, _, _, asked, -⟩ | same
      · exact ⟨Iff.rfl, asked.placed_iff⟩
      · rw [same]
        exact ⟨Iff.rfl, Iff.rfl⟩
    | wire rate output => exact ⟨Iff.rfl, placed_markWired_iff⟩
    | link => simp [Event.isLink] at other
    | _ => simp [Event.isInterface] at about

theorem varyings_apply {event : Event} (other : event.isLink = false) :
    (m.apply event).varyings = m.varyings := by
  by_cases about : event.isInterface = false
  · exact (m.apply_interface about).2.2.1
  · cases event with
    | input rate key duplicates => exact (m.withInput_frame rate key duplicates).2
    | output rate key duplicates => exact (m.withOutput_frame rate key duplicates).2
    | wire rate output => rfl
    | link => simp [Event.isLink] at other
    | _ => simp [Event.isInterface] at about

theorem placed_replay_iff {events : List Event} (other : ∀ event ∈ events, event.isLink = false)
    (entry : Entry) (location : Nat) :
    (Placed (m.replay events).inputs entry location ↔ Placed m.inputs entry location) ∧
      (Placed (m.replay events).outputs entry location ↔ Placed m.outputs entry location) := by
  induction events generalizing m with
  | nil => exact ⟨Iff.rfl, Iff.rfl⟩
  | cons event events ih =>
    have first := placed_apply_iff (m := m) (other event List.mem_cons_self) entry location
    have rest := ih (m := m.apply event) fun event member =>
      other event (List.mem_cons_of_mem _ member)
    exact ⟨rest.1.trans first.1, rest.2.trans first.2⟩

theorem placedFor_replay_iff {events : List Event}
    (other : ∀ event ∈ events, event.isLink = false) (rate : Rate) (key : Trait) (location : Nat) :
    (PlacedFor (m.replay events).inputs rate key location ↔
      PlacedFor m.inputs rate key location) ∧
    (PlacedFor (m.replay events).outputs rate key location ↔
      PlacedFor m.outputs rate key location) := by
  have same (entry : Entry) := placed_replay_iff (m := m) other entry location
  simp only [placedFor_iff, fun entry => (same entry).1, fun entry => (same entry).2, and_self]

end Material

namespace Distinct

variable {bindings : List Binding}

theorem placed_iff_location (distinct : Distinct bindings) {b : Binding} (member : b ∈ bindings)
    (single : b.entry.IsSingle) (location : Nat) :
    Placed bindings b.entry location ↔ b.location = some location := by
  constructor
  · rintro ⟨a, inside, same, placed⟩
    obtain rfl := distinct.eq_of_entry inside member same single
    exact placed
  · intro placed
    exact ⟨b, member, rfl, placed⟩

theorem placedFor_iff_placed (distinct : Distinct bindings) {b : Binding} (member : b ∈ bindings)
    (staged : b.rate.stage?.isSome = true) {key : Trait} (typed : key.type.isSome = true)
    (agrees : b.key.agrees key = true) {location : Nat} :
    PlacedFor bindings b.rate key location ↔ Placed bindings b.entry location := by
  constructor
  · rintro ⟨a, inside, here, also, placed⟩
    obtain rfl := distinct.eq_of_key typed inside member here staged also agrees
    exact ⟨a, member, rfl, placed⟩
  · intro placed
    exact ⟨b, member, rfl, agrees, (distinct.placed_iff_location member (.inl staged) _).1 placed⟩

theorem placed_place_iff (distinct : Distinct bindings) {b : Binding} (member : b ∈ bindings)
    (loose : b.location = none) (location : Nat) {entry : Entry}
    (staged : b.rate.stage?.isSome = true ∨ entry.rate.stage?.isSome = true) {found : Nat} :
    Placed (Material.updateNamed b.rate b.name (fun b => { b with location := some location })
        bindings) entry found ↔
      Placed bindings entry found ∨ entry = b.entry ∧ found = location := by
  have named {a : Binding} (inside : a ∈ bindings) (same : a.entry = entry)
      (is : a.isNamed b.rate b.name = true) : a = b := by
    have at_entry : a.rate = entry.rate := congrArg Entry.rate same
    simp only [Binding.isNamed, Bool.and_eq_true, decide_eq_true_eq, beq_iff_eq] at is
    rw [← is.1, ← at_entry, or_self] at staged
    exact distinct.eq_of_name inside member is.1 staged is.2
  constructor
  · rintro ⟨_, inside, same, placed⟩
    obtain ⟨a, known, rfl⟩ := Material.mem_updateNamed.1 inside
    split at same
    · rename_i is
      obtain rfl := named known same is
      rw [if_pos is] at placed
      exact .inr ⟨same.symm, (Option.some.inj placed).symm⟩
    · rename_i other
      rw [if_neg other] at placed
      exact .inl ⟨a, known, same, placed⟩
  · rintro (⟨a, known, same, placed⟩ | ⟨rfl, rfl⟩)
    · have other : ¬ a.isNamed b.rate b.name = true := by
        intro is
        obtain rfl := named known same is
        simp [loose] at placed
      exact ⟨a, Material.mem_updateNamed.2 ⟨a, known, if_neg other⟩, same, placed⟩
    · have is : b.isNamed b.rate b.name = true := by simp [Binding.isNamed]
      exact ⟨_, Material.mem_updateNamed.2 ⟨b, member, if_pos is⟩, rfl, rfl⟩

end Distinct

namespace Material

/-- What a link from a source to a target does. A target that has a location keeps it, a source
that has one gives it to its target, and otherwise both get the next one of the target's rate. -/
inductive Linked (m after : Material) (source target : Entry) : Prop
  | kept (location : Nat) (taken : Placed m.inputs target location) (same : after = m)
  | copied (location : Nat) (loose : ∀ found, ¬ Placed m.inputs target found)
      (known : Placed m.outputs source location) (outputs : after.outputs = m.outputs)
      (varyings : after.varyings = m.varyings)
      (inputs : ∀ entry : Entry, entry.rate.stage?.isSome = true → ∀ found,
        Placed after.inputs entry found ↔
          Placed m.inputs entry found ∨ entry = target ∧ found = location)
  | drawn (loose : ∀ found, ¬ Placed m.inputs target found)
      (free : ∀ found, ¬ Placed m.outputs source found)
      (outputs : ∀ entry found, Placed after.outputs entry found ↔
        Placed m.outputs entry found ∨ entry = source ∧ found = m.varyings target.rate)
      (varyings : after.varyings = fun rate =>
        if rate = target.rate then m.varyings target.rate + target.key.slots else m.varyings rate)
      (inputs : ∀ entry : Entry, entry.rate.stage?.isSome = true → ∀ found,
        Placed after.inputs entry found ↔
          Placed m.inputs entry found ∨ entry = target ∧ found = m.varyings target.rate)

theorem Tabled.linked {m : Material} (tabled : m.Tabled) {o i : Binding}
    (output : o ∈ m.outputs) (input : i ∈ m.inputs) (single : i.entry.IsSingle) :
    Linked m (m.link o.rate o.name i.rate i.name) o.entry i.entry := by
  have target := tabled.inputs.placed_iff_location input single
  have source := tabled.outputs.placed_iff_location output (.inl (tabled.staged o output))
  rw [tabled.link_eq output input single]
  cases i_placed : i.location with
  | some location => exact .kept location ((target location).2 i_placed) rfl
  | none =>
    have loose (found : Nat) : ¬ Placed m.inputs i.entry found := by
      simp [target, i_placed]
    cases o_placed : o.location with
    | some location =>
      have known := (source location).2 o_placed
      refine .copied location loose known rfl rfl fun entry staged found => ?_
      exact tabled.inputs.placed_place_iff input i_placed location (.inr staged)
    | none =>
      have free (found : Nat) : ¬ Placed m.outputs o.entry found := by
        simp [source, o_placed]
      refine .drawn loose free (fun entry found => ?_) rfl fun entry staged found => ?_
      · exact tabled.outputs.placed_place_iff output o_placed _ (.inl (tabled.staged o output))
      · exact tabled.inputs.placed_place_iff input i_placed _ (.inr staged)

theorem Linked.placed_input {m after : Material} {source target input : Entry}
    (linked : Linked m after source target) (staged : input.rate.stage?.isSome = true)
    {location : Nat} (placed : Placed after.inputs input location) :
    Placed m.inputs input location ∨ input = target ∧
      (∀ found, ¬ Placed m.inputs target found) ∧ Placed after.outputs source location := by
  cases linked with
  | kept own taken same => exact .inl (same ▸ placed)
  | copied given loose known outputs varyings inputs =>
    refine ((inputs input staged location).1 placed).imp_right ?_
    rintro ⟨rfl, rfl⟩
    exact ⟨rfl, loose, outputs ▸ known⟩
  | drawn loose free outputs varyings inputs =>
    refine ((inputs input staged location).1 placed).imp_right ?_
    rintro ⟨rfl, rfl⟩
    exact ⟨rfl, loose, (outputs source _).2 (.inr ⟨rfl, rfl⟩)⟩

theorem Linked.shares_iff {m after : Material} {source target : Entry}
    (linked : Linked m after source target)
    (unique : ∀ first second, Placed m.inputs target first → Placed m.inputs target second →
      first = second)
    (consumed : target.rate.stage?.isSome = true) :
    (∃ location, Placed after.inputs target location ∧ Placed after.outputs source location) ↔
      ∀ location, Placed m.inputs target location → Placed m.outputs source location := by
  cases linked with
  | kept own taken same =>
    subst same
    constructor
    · rintro ⟨location, here, there⟩ other also
      exact unique _ _ here also ▸ there
    · intro connected
      exact ⟨own, taken, connected own taken⟩
  | copied location loose known outputs varyings inputs =>
    refine iff_of_true ⟨location, ?_, outputs ▸ known⟩ fun found taken => absurd taken (loose found)
    exact (inputs target consumed location).2 (.inr ⟨rfl, rfl⟩)
  | drawn loose free outputs varyings inputs =>
    refine iff_of_true ⟨m.varyings target.rate, ?_, ?_⟩ fun found taken =>
      absurd taken (loose found)
    · exact (inputs target consumed _).2 (.inr ⟨rfl, rfl⟩)
    · exact (outputs source _).2 (.inr ⟨rfl, rfl⟩)

theorem Tabled.linked_of_legal {declaring : Bool} {base : Material} {past : List Event}
    (tabled : (base.replay past).Tabled) {outputRate rate : Rate} {output input : String}
    (allowed : Legal declaring base past (.link outputRate output rate input)) :
    ∃ source target : Entry,
      Event.link outputRate output rate input =
          .link source.rate source.name target.rate target.name ∧
        source.key.id = target.key.id ∧ source.key.type = target.key.type ∧
        Linked (base.replay past) ((base.replay past).link outputRate output rate input)
          source target := by
  obtain ⟨key, typed, plain, ⟨o, o_member, rfl, rfl, carries⟩, ⟨i, i_member, rfl, rfl, takes⟩⟩ :=
    allowed
  have o_typed := tabled.outputs.typed o o_member
  have i_typed := tabled.inputs.typed i i_member
  have agree := Trait.agrees_of_both o_typed i_typed typed carries takes
  have same_type : i.key.type = key.type := ((Trait.agrees_iff i_typed typed).1 takes).2
  have single : i.entry.IsSingle := .inr (by
    show i.key.isTexture = false
    rw [← plain, Trait.isTexture, Trait.isTexture, same_type])
  obtain ⟨one_trait, one_type⟩ := (Trait.agrees_iff o_typed i_typed).1 agree
  exact ⟨o.entry, i.entry, rfl, one_trait, one_type, tabled.linked o_member i_member single⟩

end Material

end GlslMaterial
