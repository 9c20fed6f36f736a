import GlslMaterial.Proofs.Interface.Handles
import GlslMaterial.Proofs.Interface.Spelling

/-!
Access names: the name of a uniform is that of its rate, a dot and its field, and the field is the
name of a trait, perhaps with a number behind it. A search misses no place where such a name, or the
name of a texture, stands as a word.
-/

set_option autoImplicit false

namespace GlslMaterial

namespace Text

variable {c first : Char} {symbol : List Char}

theorem not_isAlpha_of_isDigit (digit : c.isDigit = true) : c.isAlpha = false := by
  have high : c.val ≤ 57 := of_decide_eq_true (Bool.and_eq_true_iff.1 digit).2
  have low := UInt32.le_iff_toNat_le.1 high
  show (decide (c.val ≥ 65 ∧ c.val ≤ 90) || decide (c.val ≥ 97) && decide (c.val ≤ 122)) = false
  simp only [Bool.or_eq_false_iff, Bool.and_eq_false_imp, decide_eq_true_eq,
    decide_eq_false_iff_not, UInt32.le_iff_toNat_le, ge_iff_le]
  simp at low ⊢
  omega

theorem isIdentifierChar_of_isDigit (digit : c.isDigit = true) : isIdentifierChar c = true := by
  simp [isIdentifierChar, Char.isAlphanum, digit]

theorem delimited_of_isAlpha (starts : symbol.head? = some first)
    (letter : first.isAlpha = true) (before : c.isAlpha = true) (right : Option Char) :
    delimited symbol (some c) right = false := by
  have digit : c.isDigit = false := by
    cases digit : c.isDigit with
    | false => rfl
    | true => simp [not_isAlpha_of_isDigit digit] at before
  unfold delimited
  split
  · rename_i known _
    obtain rfl : first = _ := Option.some.inj (starts.symm.trans known)
    simp [leftBoundary, isIdentifierChar, Char.isAlphanum, letter, before, digit]
  · rfl

theorem delimited_of_getLast {front : List Char}
    (starts : symbol.head? = some first) (letter : first.isAlpha = true) (filled : front ≠ [])
    (ends : (front.getLast filled).isAlpha = true) :
    delimited symbol front.getLast? none = false := by
  rw [List.getLast?_eq_some_getLast filled]
  exact delimited_of_isAlpha starts letter ends none

theorem not_prefix_of_digits {back : List Char}
    (starts : symbol.head? = some first) (letter : first.isAlpha = true) (filled : back ≠ [])
    (numeric : ∀ c ∈ back, c.isDigit = true) : ¬ back <+: symbol := by
  rintro ⟨rest, rfl⟩
  obtain ⟨c, back, rfl⟩ := List.exists_cons_of_ne_nil filled
  obtain rfl : c = first := by simpa using starts
  simp [not_isAlpha_of_isDigit (numeric c List.mem_cons_self)] at letter

variable {letters digits : List Char}

/-- A word with a number behind it, cut in two: the first part ends in a letter, or the second has
digits only. -/
theorem getLast_or_digits (alpha : ∀ c ∈ letters, c.isAlpha = true)
    (numeric : ∀ c ∈ digits, c.isDigit = true) {front back : List Char} (filled : front ≠ [])
    (split : front ++ back = letters ++ digits) :
    (front.getLast filled).isAlpha = true ∨ ∀ c ∈ back, c.isDigit = true := by
  rcases List.append_eq_append_iff.1 split with ⟨more, inside, -⟩ | ⟨more, -, behind⟩
  · left
    apply alpha
    rw [inside]
    exact List.mem_append_left _ (List.getLast_mem filled)
  · exact .inr fun c member => numeric c (behind ▸ List.mem_append_right _ member)

theorem isApart_numbered (filled : letters ≠ []) (alpha : ∀ c ∈ letters, c.isAlpha = true)
    (numeric : ∀ c ∈ digits, c.isDigit = true) : IsApart (letters ++ digits) := by
  intro front back some_front some_back split begins
  obtain ⟨first, rest, rfl⟩ := List.exists_cons_of_ne_nil filled
  have starts : (first :: rest ++ digits).head? = some first := rfl
  have letter := alpha first List.mem_cons_self
  rcases getLast_or_digits alpha numeric some_front split with ends | only
  · exact delimited_of_getLast starts letter some_front ends
  · exact absurd begins (not_prefix_of_digits starts letter some_back only)

theorem dot_notMem_of_alpha (alpha : ∀ c ∈ letters, c.isAlpha = true) : '.' ∉ letters :=
  fun member => absurd (alpha '.' member) (by decide)

theorem prefix_of_dotted {stem rest : List Char} (alpha : ∀ c ∈ letters, c.isAlpha = true)
    (begins : letters <+: stem ++ '.' :: rest) : letters <+: stem := by
  rcases List.prefix_or_prefix_of_prefix begins (List.prefix_append stem ('.' :: rest)) with
    inside | ⟨more, rfl⟩
  · exact inside
  · cases more with
    | nil => simp
    | cons c more =>
      have dot : c = '.' := by
        have same := (List.prefix_append_right_inj stem).1 begins
        exact (List.cons_prefix_cons.1 same).1
      exact absurd (by simp [dot]) (dot_notMem_of_alpha alpha)

/-- A dotted name with a number behind it keeps apart from itself, unless it would begin again
behind its dot. -/
theorem isApart_dotted {stem : List Char} (filled : stem ≠ [])
    (alpha_stem : ∀ c ∈ stem, c.isAlpha = true) (alpha : ∀ c ∈ letters, c.isAlpha = true)
    (numeric : ∀ c ∈ digits, c.isDigit = true) (unlike : ¬ letters <+: stem) :
    IsApart (stem ++ '.' :: (letters ++ digits)) := by
  intro front back some_front some_back split begins
  obtain ⟨first, rest, rfl⟩ := List.exists_cons_of_ne_nil filled
  have starts : (first :: rest ++ '.' :: (letters ++ digits)).head? = some first := rfl
  have letter := alpha_stem first List.mem_cons_self
  have in_stem (inside : front.getLast some_front ∈ first :: rest) :
      delimited (first :: rest ++ '.' :: (letters ++ digits)) front.getLast? none = false :=
    delimited_of_getLast starts letter some_front (alpha_stem _ inside)
  rcases List.append_eq_append_iff.1 split with ⟨more, inside, -⟩ | ⟨more, rfl, behind⟩
  · refine in_stem ?_
    rw [inside]
    exact List.mem_append_left _ (List.getLast_mem some_front)
  · cases more with
    | nil => exact in_stem (by simp only [List.append_nil]; exact List.getLast_mem _)
    | cons c more =>
      obtain ⟨rfl, tail⟩ := List.cons.inj behind
      cases more with
      | nil =>
        -- The name would begin again with the word behind the dot.
        have word : letters <+: back := by
          rw [show back = letters ++ digits from tail.symm]
          exact List.prefix_append letters digits
        exact absurd (prefix_of_dotted alpha (word.trans begins)) unlike
      | cons d more =>
        have some_more : d :: more ≠ [] := List.cons_ne_nil d more
        rcases getLast_or_digits alpha numeric some_more tail.symm with ends | only
        · refine delimited_of_getLast starts letter some_front ?_
          rw [List.getLast_append_of_ne_nil _ (List.cons_ne_nil _ _), List.getLast_cons some_more]
          exact ends
        · exact absurd begins (not_prefix_of_digits starts letter some_back only)

end Text

theorem UniformRate.isAlpha_of_mem_name (rate : UniformRate) :
    ∀ c ∈ (Rate.uniform rate).name.toList, c.isAlpha = true := by
  apply List.all_eq_true.1
  cases rate <;> decide

theorem TraitId.isAlpha_of_mem_label (id : TraitId) : ∀ c ∈ id.label.toList, c.isAlpha = true := by
  apply List.all_eq_true.1
  cases id <;> decide

theorem TraitId.label_not_prefix (id : TraitId) (rate : UniformRate) :
    ¬ id.label.toList <+: (Rate.uniform rate).name.toList := by
  have all : ∀ id ∈ TraitId.all, ∀ rate ∈ UniformRate.all,
      ¬ id.label.toList <+: (Rate.uniform rate).name.toList := by decide +kernel
  exact all id id.mem_all rate rate.mem_all

/-- An input that is not a texture has the name that it was asked for, perhaps with a number. -/
def Binding.IsNumbered (b : Binding) : Prop :=
  b.key.isTexture = false → ∃ digits : List Char, (∀ c ∈ digits, c.isDigit = true) ∧
    b.name.toList = (Material.inputName b.rate b.key.id).toList ++ digits

namespace Material

theorem exists_digits_freshName (taken : List String) (base : String) :
    ∃ digits : List Char, (∀ c ∈ digits, c.isDigit = true) ∧
      (freshName taken base).toList = base.toList ++ digits := by
  rcases freshName_eq taken base with same | ⟨n, same⟩
  · exact ⟨[], by simp, by simp [same]⟩
  · exact ⟨n.repr.toList, fun c member => isDigit_of_mem_repr member, by simp [same]⟩

variable {m : Material}

theorem inputs_apply {holds : Binding → Prop}
    (kept : ∀ a b : Binding, a.held = b.held → holds a → holds b)
    (texture : ∀ key : Trait, ∀ slot, key.isTexture = true →
      holds ⟨.uniform .renderable, key, textureName slot, some slot, false, none⟩)
    (plain : ∀ rate, ∀ key : Trait, ∀ taken, key.isTexture = false →
      holds ⟨rate, key, freshName taken (inputName rate key.id), none, false, none⟩)
    (all : ∀ b ∈ m.inputs, holds b) (event : Event) : ∀ b ∈ (m.apply event).inputs, holds b := by
  by_cases about : event.isInterface = false
  · rw [(m.apply_interface about).1]
    exact all
  · cases event with
    | input rate key duplicates =>
      show ∀ b ∈ (m.withInput rate key duplicates).inputs, holds b
      rcases m.withInput_cases rate key duplicates with
        same | ⟨typed, kept, -, ⟨is, rfl, same⟩ | ⟨isNot, same⟩⟩
      · rw [same]
        exact all
      · rw [same]
        exact List.forall_mem_append.2 ⟨all, List.forall_mem_singleton.2 (texture typed _ is)⟩
      · rw [same]
        exact List.forall_mem_append.2 ⟨all, List.forall_mem_singleton.2 (plain kept typed _ isNot)⟩
    | output rate key duplicates =>
      show ∀ b ∈ (m.withOutput rate key duplicates).inputs, holds b
      rw [(m.withOutput_frame rate key duplicates).1]
      exact all
    | wire rate output => exact all
    | link outputRate output rate input =>
      obtain ⟨inward, _, kept_in, -, inputs, -⟩ := m.exists_kept_link outputRate output rate input
      show ∀ b ∈ (m.link outputRate output rate input).inputs, holds b
      rw [inputs]
      intro b member
      obtain ⟨a, known, rfl⟩ := List.mem_map.1 member
      refine kept a _ ?_ (all a known)
      obtain ⟨rate, key, name, sampler⟩ := kept_in a
      simp [Binding.held, Binding.entry, rate, key, name, sampler]
    | _ => simp [Event.isInterface] at about

theorem numbered_apply (numbered : ∀ b ∈ m.inputs, b.IsNumbered) (event : Event) :
    ∀ b ∈ (m.apply event).inputs, b.IsNumbered := by
  refine inputs_apply ?_ ?_ ?_ numbered event
  · intro a b held a_numbered plain
    obtain ⟨rate, key, name⟩ := Binding.entry_eq_iff.1 (congrArg Prod.fst held)
    rw [← rate, ← key, ← name]
    exact a_numbered (key ▸ plain)
  · intro key slot texture plain
    simp [texture] at plain
  · intro rate key taken _ _
    exact exists_digits_freshName taken (inputName rate key.id)

theorem Reachable.numbered {allowed : Event → Prop} (reachable : Reachable allowed m) :
    ∀ b ∈ m.inputs, b.IsNumbered := by
  induction reachable with
  | begun rate => simp [ofRate]
  | built made => simp [(fresh_ofConstruct made).inputs]
  | happened _ _ ih => exact numbered_apply ih _
  | @edited m change _ ih =>
    obtain ⟨nodes, same⟩ := m.exists_edited_eq change
    rw [same]
    exact ih

end Material

namespace Binding

variable {b : Binding} {rate : UniformRate}

theorem IsNumbered.exists_digits (numbered : b.IsNumbered) (plain : b.key.isTexture = false)
    (here : b.rate = .uniform rate) :
    ∃ digits : List Char, (∀ c ∈ digits, c.isDigit = true) ∧
      b.name.toList =
        (Rate.uniform rate).name.toList ++ '.' :: (b.key.id.label.toList ++ digits) := by
  obtain ⟨digits, numeric, name⟩ := numbered plain
  have base : (Material.inputName (.uniform rate) b.key.id).toList =
      (Rate.uniform rate).name.toList ++ '.' :: b.key.id.label.toList := by
    show ((Rate.uniform rate).name ++ "." ++ b.key.id.label).toList = _
    simp
  rw [here, base] at name
  exact ⟨digits, numeric, by simpa using name⟩

theorem IsNumbered.field_toList (numbered : b.IsNumbered) (plain : b.key.isTexture = false)
    (here : b.rate = .uniform rate) :
    ∃ digits : List Char, (∀ c ∈ digits, c.isDigit = true) ∧
      b.field.toList = b.key.id.label.toList ++ digits ∧
      b.name.toList = (Rate.uniform rate).name.toList ++ '.' :: b.field.toList := by
  obtain ⟨digits, numeric, name⟩ := numbered.exists_digits plain here
  have word : ∀ c ∈ (b.key.id.label.toList ++ digits).reverse, (c != '.') = true := by
    intro c member
    rcases List.mem_append.1 (List.mem_reverse.1 member) with letter | digit
    · have alpha := b.key.id.isAlpha_of_mem_label c letter
      exact bne_iff_ne.2 fun same => by simp [same] at alpha
    · have number := numeric c digit
      exact bne_iff_ne.2 fun same => by simp [same] at number
  have field : b.field.toList = b.key.id.label.toList ++ digits := by
    rw [Binding.field, name, String.toList_ofList, List.reverse_append, List.reverse_cons,
      List.append_assoc, List.takeWhile_append_of_pos word]
    simp
  exact ⟨digits, numeric, field, by rw [field, name]⟩

theorem IsNumbered.name_eq (numbered : b.IsNumbered) (plain : b.key.isTexture = false)
    (here : b.rate = .uniform rate) : b.name = (Rate.uniform rate).name ++ "." ++ b.field := by
  obtain ⟨-, -, -, name⟩ := numbered.field_toList plain here
  apply String.toList_injective
  rw [name]
  simp

theorem IsNumbered.isApart (numbered : b.IsNumbered) (plain : b.key.isTexture = false)
    (here : b.rate = .uniform rate) : Text.IsApart b.name.toList := by
  obtain ⟨digits, numeric, name⟩ := numbered.exists_digits plain here
  rw [name]
  have filled : (Rate.uniform rate).name.toList ≠ [] := by cases rate <;> decide
  exact Text.isApart_dotted filled rate.isAlpha_of_mem_name b.key.id.isAlpha_of_mem_label numeric
    (b.key.id.label_not_prefix rate)

end Binding

theorem isApart_textureName (slot : Nat) : Text.IsApart (textureName slot).toList := by
  have letters : "Texture".toList.all Char.isAlpha = true := by decide
  rw [toList_textureName]
  exact Text.isApart_numbered (by decide) (List.all_eq_true.1 letters)
    fun c member => isDigit_of_mem_repr member

end GlslMaterial
