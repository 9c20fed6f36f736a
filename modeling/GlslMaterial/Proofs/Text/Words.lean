import GlslMaterial.Proofs.Glsl.Scope
import GlslMaterial.Proofs.Text.Lines
import GlslMaterial.Text.Replace

/-!
Words in a text: where a word can stand in a text that is put together from others, if a character
between the parts is none of its own.
-/

set_option autoImplicit false

namespace GlslMaterial.Text

theorem contains_iff (word text : List Char) : contains word text = true ↔ word <:+: text := by
  induction text with
  | nil => simp [contains]
  | cons c rest ih =>
    rw [contains, Bool.or_eq_true, List.isPrefixOf_iff_prefix, ih, List.infix_cons_iff]

variable {word text piece replacement : List Char}

theorem infix_of_separated {left right : List Char} {mark : Char} (other : mark ∉ word)
    (found : word <:+: left ++ mark :: right) : word <:+: left ∨ word <:+: right := by
  obtain ⟨before, after, cut⟩ := found
  rcases List.append_eq_append_iff.1 cut with ⟨rest, inside, -⟩ | ⟨rest, reaches, behind⟩
  · exact .inl ⟨before, rest, inside.symm⟩
  · cases rest with
    | nil => exact .inl ⟨before, [], by simpa using reaches⟩
    | cons first rest =>
      obtain ⟨rfl, rfl⟩ := List.cons.inj behind
      -- The word ends behind the mark, so that it begins there as well.
      rcases List.append_eq_append_iff.1 reaches with ⟨start, -, own⟩ | ⟨start, -, own⟩
      · exact absurd (by simp [own]) other
      · cases start with
        | nil => exact absurd (by simp [← show mark :: rest = word from own]) other
        | cons _ start =>
          obtain ⟨-, rfl⟩ := List.cons.inj own
          exact .inr ⟨start, after, rfl⟩

theorem infix_of_append {pad : List Char} (other : ∀ c ∈ pad, c ∉ word)
    (found : word <:+: pad ++ text) : word <:+: text := by
  induction pad with
  | nil => exact found
  | cons c pad ih =>
    apply ih fun d member => other d (List.mem_cons_of_mem c member)
    have first : c ∉ word := other c List.mem_cons_self
    have behind : word <:+: [] ++ c :: (pad ++ text) := found
    rcases infix_of_separated first behind with nothing | rest
    · rw [List.infix_nil.1 nothing]
      exact List.nil_infix
    · exact rest

theorem exists_infix_of_terminated {lines : List (List Char)}
    (some : word ≠ []) (plain : '\n' ∉ word) (found : word <:+: terminated lines) :
    ∃ line ∈ lines, word <:+: line := by
  induction lines with
  | nil => exact absurd (List.infix_nil.1 found) some
  | cons first lines ih =>
    rw [terminated_cons] at found
    rcases infix_of_separated plain found with here | later
    · exact ⟨first, List.mem_cons_self, here⟩
    · obtain ⟨line, member, inside⟩ := ih later
      exact ⟨line, List.mem_cons_of_mem first member, inside⟩

theorem infix_of_mem_lines {line : List Char} (member : line ∈ lines text) : line <:+: text := by
  have inside {pieces : List (List Char)} (listed : line ∈ pieces) :
      line <:+: joined '\n' pieces := by
    induction pieces with
    | nil => simp at listed
    | cons first rest ih =>
      cases rest with
      | nil =>
        rw [List.mem_singleton.1 listed]
        exact List.infix_rfl
      | cons second rest =>
        rw [joined_cons '\n' first (by simp)]
        rcases List.mem_cons.1 listed with rfl | later
        · exact (List.prefix_append _ _).isInfix
        · exact (ih later).trans ⟨first ++ ['\n'], [], by simp⟩
  have whole := inside member
  rwa [show joined '\n' (lines text) = text from joined_pieces '\n' text] at whole

theorem exists_infix_of_block {parts : List String} (some : word ≠ [])
    (plain : '\n' ∉ word) (found : word <:+: (block parts).toList) :
    ∃ part ∈ parts, word <:+: part.toList := by
  rw [block, String.toList_intercalate] at found
  induction parts with
  | nil => exact absurd (List.infix_nil.1 found) some
  | cons first parts ih =>
    cases parts with
    | nil => exact ⟨first, List.mem_cons_self, by simpa using found⟩
    | cons second parts =>
      rw [List.map_cons, List.intercalate_cons_of_ne_nil (by simp), List.append_assoc] at found
      rcases infix_of_separated plain found with here | later
      · exact ⟨first, List.mem_cons_self, here⟩
      · obtain ⟨part, member, inside⟩ := ih later
        exact ⟨part, List.mem_cons_of_mem first member, inside⟩

/-- A word that begins a text with replacements, and has no character of the replacement, begins
the text before. -/
theorem prefix_of_replaceFrom (some : replacement ≠ []) (other : ∀ c ∈ replacement, c ∉ word)
    (found : word <+: replaceFrom piece replacement 0 text) : word <+: text := by
  induction text generalizing word with
  | nil => simpa [replaceFrom] using found
  | cons c rest ih =>
    cases word with
    | nil => exact List.nil_prefix
    | cons d word =>
      rw [replaceFrom] at found
      split at found
      · obtain ⟨first, others, rfl⟩ := List.exists_cons_of_ne_nil some
        obtain ⟨rfl, -⟩ := List.cons_prefix_cons.1 found
        exact absurd List.mem_cons_self (other d List.mem_cons_self)
      · obtain ⟨rfl, more⟩ := List.cons_prefix_cons.1 found
        have tail := ih (fun c member inside => other c member (List.mem_cons_of_mem d inside)) more
        exact List.cons_prefix_cons.2 ⟨rfl, tail⟩

theorem infix_of_replaceFrom {skip : Nat}
    (some : replacement ≠ []) (other : ∀ c ∈ replacement, c ∉ word)
    (found : word <:+: replaceFrom piece replacement skip text) : word <:+: text := by
  fun_induction replaceFrom piece replacement skip text with
  | case1 => exact found
  | case2 skip c rest ih => exact List.infix_cons (ih found)
  | case3 c rest begins ih => exact List.infix_cons (ih (infix_of_append other found))
  | case4 c rest absent ih =>
    rcases List.infix_cons_iff.1 found with here | later
    · cases word with
      | nil => exact List.nil_infix
      | cons d word =>
        obtain ⟨rfl, more⟩ := List.cons_prefix_cons.1 here
        have tail := prefix_of_replaceFrom some
          (fun c member inside => other c member (List.mem_cons_of_mem d inside)) more
        exact (List.cons_prefix_cons.2 ⟨rfl, tail⟩).isInfix
    · exact List.infix_cons (ih later)

theorem infix_of_replaceAll (some : replacement ≠ []) (other : ∀ c ∈ replacement, c ∉ word)
    (found : word <:+: replaceAll piece replacement text) : word <:+: text := by
  unfold replaceAll at found
  split at found
  · exact found
  · exact infix_of_replaceFrom some other found

theorem infix_of_hasKeyword (has : hasKeyword word text = true) : word <:+: text := by
  obtain ⟨⟨before, after⟩, found⟩ := Option.isSome_iff_exists.1 has
  exact ⟨before, after, (splitKeyword_eq_some found).1⟩

end GlslMaterial.Text
