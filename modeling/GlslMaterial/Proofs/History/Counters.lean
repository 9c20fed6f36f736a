import GlslMaterial.Proofs.History.Placement
import GlslMaterial.Proofs.Interface.Locations

/-!
Counters: a link that finds neither of its ends placed draws their location from the counter of the
rate that reads. Outputs that draw from the same counter are kept apart, and an input has the
location of the output that it reads.
-/

set_option autoImplicit false

namespace GlslMaterial

/-- An event gave an entry of a table its location. -/
def PlacedBy (base : Material) (past : List Event) (table : Material → List Binding)
    (entry : Entry) (event : Event) (location : Nat) : Prop :=
  ∃ before later, past = before ++ event :: later ∧
    (∀ found, ¬ Placed (table (base.replay before)) entry found) ∧
    Placed (table ((base.replay before).apply event)) entry location

/-- An output drew its location from the counter of a rate: the link that gave it one was to an
input of this rate. -/
def DrawnFrom (base : Material) (past : List Event) (output : Entry) (rate : Rate)
    (location : Nat) : Prop :=
  ∃ input, PlacedBy base past Material.outputs output (.link output.rate output.name rate input)
    location

/-- An input got its location from an output of its trait and type, which drew it from the counter
of a rate. -/
def FedFrom (base : Material) (past : List Event) (input : Entry) (rate : Rate)
    (location : Nat) : Prop :=
  ∃ output : Entry, output.key.id = input.key.id ∧ output.key.type = input.key.type ∧
    PlacedBy base past Material.inputs input
      (.link output.rate output.name input.rate input.name) location ∧
    DrawnFrom base past output rate location

section History

variable {base : Material} {past : List Event} {last : Event}

theorem placedBy_snoc_iff {table : Material → List Binding} {entry : Entry} {event : Event}
    {location : Nat} :
    PlacedBy base (past ++ [last]) table entry event location ↔
      PlacedBy base past table entry event location ∨ event = last ∧
        (∀ found, ¬ Placed (table (base.replay past)) entry found) ∧
        Placed (table ((base.replay past).apply last)) entry location := by
  constructor
  · rintro ⟨before, later, split, loose, placed⟩
    rcases later.eq_nil_or_concat with rfl | ⟨later, final, rfl⟩
    · obtain ⟨rfl, same⟩ := List.append_inj' split rfl
      obtain rfl : last = event := by simpa using same
      exact .inr ⟨rfl, loose, placed⟩
    · rw [List.concat_eq_append, ← List.cons_append, ← List.append_assoc] at split
      exact .inl ⟨before, later, (List.append_inj' split rfl).1, loose, placed⟩
  · rintro (⟨before, later, rfl, loose, placed⟩ | ⟨rfl, loose, placed⟩)
    · exact ⟨before, later ++ [last], by simp, loose, placed⟩
    · exact ⟨past, [], rfl, loose, placed⟩

theorem DrawnFrom.later {output : Entry} {rate : Rate} {location : Nat}
    (drawn : DrawnFrom base past output rate location) (last : Event) :
    DrawnFrom base (past ++ [last]) output rate location := by
  obtain ⟨input, placed⟩ := drawn
  exact ⟨input, placedBy_snoc_iff.2 (.inl placed)⟩

theorem drawnFrom_keep_iff
    (same : ∀ entry location, Placed ((base.replay past).apply last).outputs entry location ↔
      Placed (base.replay past).outputs entry location)
    (output : Entry) (rate : Rate) (location : Nat) :
    DrawnFrom base (past ++ [last]) output rate location ↔
      DrawnFrom base past output rate location := by
  constructor
  · rintro ⟨input, placed⟩
    rcases placedBy_snoc_iff.1 placed with earlier | ⟨-, loose, placed⟩
    · exact ⟨input, earlier⟩
    · exact absurd ((same output location).1 placed) (loose location)
  · exact fun drawn => drawn.later last

theorem drawnFrom_draw_iff {source target : Entry} {next : Nat}
    (event : last = .link source.rate source.name target.rate target.name)
    (free : ∀ found, ¬ Placed (base.replay past).outputs source found)
    (outputs : ∀ entry found, Placed ((base.replay past).apply last).outputs entry found ↔
      Placed (base.replay past).outputs entry found ∨ entry = source ∧ found = next)
    (output : Entry) (rate : Rate) (location : Nat) :
    DrawnFrom base (past ++ [last]) output rate location ↔
      DrawnFrom base past output rate location ∨
        output = source ∧ rate = target.rate ∧ location = next := by
  constructor
  · rintro ⟨input, placed⟩
    rcases placedBy_snoc_iff.1 placed with earlier | ⟨link, loose, placed⟩
    · exact .inl ⟨input, earlier⟩
    · obtain ⟨same, here⟩ := ((outputs _ _).1 placed).resolve_left (loose location)
      rw [event] at link
      injection link with _ _ at_rate _
      exact .inr ⟨same, at_rate, here⟩
  · rintro (drawn | ⟨rfl, rfl, rfl⟩)
    · exact drawn.later last
    · exact ⟨target.name, placedBy_snoc_iff.2
        (.inr ⟨event.symm, free, (outputs _ _).2 (.inr ⟨rfl, rfl⟩)⟩)⟩

theorem FedFrom.later {input : Entry} {rate : Rate} {location : Nat}
    (fed : FedFrom base past input rate location) (last : Event) :
    FedFrom base (past ++ [last]) input rate location := by
  obtain ⟨output, one_trait, one_type, placed, drawn⟩ := fed
  exact ⟨output, one_trait, one_type, placedBy_snoc_iff.2 (.inl placed), drawn.later last⟩

end History

/-- Every output that has a location drew it, a counter is behind all that was drawn from it, and
what was drawn from the same counter is apart. -/
structure Counted (base : Material) (past : List Event) : Prop where
  drawn : ∀ {output location}, Placed (base.replay past).outputs output location →
    ∃ rate, DrawnFrom base past output rate location
  below : ∀ {output rate location}, DrawnFrom base past output rate location →
    location + output.key.slots ≤ (base.replay past).varyings rate
  apart : ∀ {output other rate location elsewhere}, output ≠ other →
    DrawnFrom base past output rate location → DrawnFrom base past other rate elsewhere →
      SlotsApart output.key location other.key elsewhere

namespace Counted

variable {base : Material} {past : List Event} {last : Event}

theorem nil (fresh : base.Fresh) : Counted base [] := by
  have never {output : Entry} {rate : Rate} {location : Nat} :
      ¬ DrawnFrom base [] output rate location := by
    rintro ⟨input, before, later, split, -⟩
    simp at split
  refine ⟨?_, fun drawn => absurd drawn never, fun _ drawn => absurd drawn never⟩
  rintro output location ⟨b, member, -⟩
  simp [fresh.outputs] at member

theorem keep (counted : Counted base past)
    (same : ∀ entry location, Placed ((base.replay past).apply last).outputs entry location ↔
      Placed (base.replay past).outputs entry location)
    (varyings : ((base.replay past).apply last).varyings = (base.replay past).varyings) :
    Counted base (past ++ [last]) := by
  have drawn := drawnFrom_keep_iff same
  refine ⟨?_, ?_, ?_⟩ <;>
    simp only [Material.replay_append, Material.replay_cons, Material.replay_nil, same, varyings,
      drawn]
  · exact counted.drawn
  · exact counted.below
  · exact counted.apart

theorem draw (counted : Counted base past) {source target : Entry}
    (event : last = .link source.rate source.name target.rate target.name)
    (one_type : source.key.type = target.key.type)
    (free : ∀ found, ¬ Placed (base.replay past).outputs source found)
    (outputs : ∀ entry found, Placed ((base.replay past).apply last).outputs entry found ↔
      Placed (base.replay past).outputs entry found ∨
        entry = source ∧ found = (base.replay past).varyings target.rate)
    (varyings : ((base.replay past).apply last).varyings = fun rate =>
      if rate = target.rate then (base.replay past).varyings target.rate + target.key.slots
      else (base.replay past).varyings rate) :
    Counted base (past ++ [last]) := by
  have drawn := drawnFrom_draw_iff event free outputs
  refine ⟨?_, ?_, ?_⟩ <;>
    simp only [Material.replay_append, Material.replay_cons, Material.replay_nil, drawn, outputs,
      varyings]
  · rintro output location (placed | ⟨rfl, rfl⟩)
    · obtain ⟨rate, earlier⟩ := counted.drawn placed
      exact ⟨rate, .inl earlier⟩
    · exact ⟨target.rate, .inr ⟨rfl, rfl, rfl⟩⟩
  · rintro output rate location (earlier | ⟨rfl, rfl, rfl⟩)
    · have bound := counted.below earlier
      split
      · rename_i same
        subst same
        omega
      · exact bound
    · exact Nat.le_of_eq (by rw [if_pos rfl, Trait.slots, Trait.slots, one_type])
  · rintro output other rate location elsewhere different
      (first | ⟨rfl, rfl, rfl⟩) (second | ⟨rfl, at_rate, rfl⟩)
    · exact counted.apart different first second
    · subst at_rate
      exact .of_le (counted.below first)
    · exact (SlotsApart.of_le (counted.below second)).symm
    · exact absurd rfl different

theorem apply {declaring : Bool} (counted : Counted base past) (tabled : (base.replay past).Tabled)
    (allowed : Legal declaring base past last) : Counted base (past ++ [last]) := by
  by_cases other : last.isLink = false
  · exact counted.keep (fun entry location => (Material.placed_apply_iff other entry location).2)
      (Material.varyings_apply other)
  · cases last with
    | link outputRate output rate input =>
      obtain ⟨source, target, event, -, one_type, linked⟩ := tabled.linked_of_legal allowed
      cases linked with
      | kept location taken same =>
        apply counted.keep <;> simp [Material.apply, same]
      | copied location loose known outputs varyings inputs =>
        apply counted.keep <;> simp [Material.apply, outputs, varyings]
      | drawn loose free outputs varyings inputs =>
        exact counted.draw event one_type free outputs varyings
    | _ => simp [Event.isLink] at other

end Counted

/-- Every input of a stage that has a location got it from an output. -/
structure Connected (base : Material) (past : List Event) : Prop where
  fed : ∀ {input location}, input.rate.stage?.isSome = true →
    Placed (base.replay past).inputs input location → ∃ rate, FedFrom base past input rate location

theorem Connected.apply {declaring : Bool} {base : Material} {past : List Event} {last : Event}
    (connected : Connected base past) (tabled : (base.replay past).Tabled)
    (counted : Counted base (past ++ [last])) (allowed : Legal declaring base past last) :
    Connected base (past ++ [last]) := by
  refine ⟨fun {input location} staged placed => ?_⟩
  have earlier (known : Placed (base.replay past).inputs input location) :
      ∃ rate, FedFrom base (past ++ [last]) input rate location := by
    obtain ⟨rate, fed⟩ := connected.fed staged known
    exact ⟨rate, fed.later last⟩
  have now : base.replay (past ++ [last]) = (base.replay past).apply last := by simp
  rw [now] at placed
  by_cases other : last.isLink = false
  · exact earlier ((Material.placed_apply_iff other input location).1.1 placed)
  · cases last with
    | link outputRate output rate name =>
      obtain ⟨source, target, event, one_trait, one_type, linked⟩ := tabled.linked_of_legal allowed
      rcases linked.placed_input staged placed with known | ⟨rfl, loose, there⟩
      · exact earlier known
      · obtain ⟨rate, drawn⟩ := counted.drawn (show Placed (base.replay _).outputs _ _ by
          rw [now]
          exact there)
        exact ⟨rate, source, one_trait, one_type,
          placedBy_snoc_iff.2 (.inr ⟨event.symm, loose, placed⟩), drawn⟩
    | _ => simp [Event.isLink] at other

namespace Written

variable {declaring : Bool} {base : Material} {past : List Event}

theorem counted (written : Written declaring base past) (fresh : base.Fresh) :
    Counted base past := by
  induction written with
  | nil => exact .nil fresh
  | snoc before allowed ih => exact ih.apply (Written.tabled before fresh) allowed

theorem connected (written : Written declaring base past) (fresh : base.Fresh) :
    Connected base past := by
  induction written with
  | nil =>
    constructor
    rintro input location - ⟨b, member, -⟩
    simp [fresh.inputs] at member
  | snoc before allowed ih =>
    have counted := Written.counted (.snoc before allowed) fresh
    exact ih.apply (Written.tabled before fresh) counted allowed

end Written

theorem Counted.apart_inputs {base : Material} {past : List Event} (counted : Counted base past)
    {a b : Entry} (different : a.key.agrees b.key = false) {rate : Rate} {location elsewhere : Nat}
    (first : FedFrom base past a rate location) (second : FedFrom base past b rate elsewhere) :
    SlotsApart a.key location b.key elsewhere := by
  obtain ⟨output, a_trait, a_type, -, drawn⟩ := first
  obtain ⟨other, b_trait, b_type, -, also⟩ := second
  have two : output ≠ other := by
    rintro rfl
    have agree : a.key.agrees b.key = true := by
      simp only [Trait.agrees, ← a_trait, ← b_trait, ← a_type, ← b_type]
      exact output.key.agrees_self
    simp [agree] at different
  exact (counted.apart two drawn also).congr a_type b_type

end GlslMaterial
