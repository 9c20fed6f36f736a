import GlslMaterial.Material.Interface

/-! Names of bindings: a name that is made fresh is not taken, and begins as it was asked for. -/

set_option autoImplicit false

namespace GlslMaterial

/-- Different numbers are written differently. -/
theorem repr_injective {a b : Nat} (same : a.repr = b.repr) : a = b := by
  have digits : Nat.toDigits 10 a = Nat.toDigits 10 b := by
    simpa [Nat.repr] using congrArg String.toList same
  have read (n : Nat) : Nat.ofDigitChars 10 (Nat.toDigits 10 n) 0 = n :=
    Nat.ofDigitChars_toDigits (by decide) (by decide)
  rw [← read a, digits, read b]

theorem isDigit_of_mem_repr {n : Nat} {c : Char} (member : c ∈ n.repr.toList) :
    c.isDigit = true := by
  rw [Nat.toList_repr] at member
  exact Nat.isDigit_of_mem_toDigits (b := 10) (n := n) (by decide) (by decide) member

namespace Material

theorem nodup_numbered (base : String) (count : Nat) :
    ((List.range count).map fun n => s!"{base}{n + 1}").Nodup := by
  apply List.Pairwise.map _ _ List.nodup_range
  intro a b different same
  have numbers : (a + 1).repr = (b + 1).repr := (String.append_right_inj base).1 same
  exact different (Nat.succ.inj (repr_injective numbers))

theorem freshName_eq (taken : List String) (base : String) :
    freshName taken base = base ∨ ∃ n : Nat, freshName taken base = base ++ n.repr := by
  unfold freshName
  split
  · cases found : ((List.range (taken.length + 1)).map fun n => s!"{base}{n + 1}").find?
        fun name => !taken.contains name with
    | none => exact .inl (by simp only [found, Option.getD_none])
    | some name =>
      obtain ⟨n, -, rfl⟩ := List.mem_map.1 (List.mem_of_find?_eq_some found)
      refine .inr ⟨n + 1, ?_⟩
      simp only [found, Option.getD_some]
      rfl
  · exact .inl rfl

theorem freshName_notMem (taken : List String) (base : String) : freshName taken base ∉ taken := by
  unfold freshName
  split
  · rename_i known
    cases found : ((List.range (taken.length + 1)).map fun n => s!"{base}{n + 1}").find?
        fun name => !taken.contains name with
    | some name =>
      have free := List.find?_some found
      show (List.find? _ _).getD base ∉ taken
      rw [found]
      simpa using free
    | none =>
      have all := List.find?_eq_none.1 found
      have inside : ((List.range (taken.length + 1)).map fun n => s!"{base}{n + 1}") ⊆ taken := by
        intro name member
        simpa using all name member
      have bound := (nodup_numbered base (taken.length + 1)).length_le_of_subset inside
      rw [List.length_map, List.length_range] at bound
      exact absurd bound (Nat.not_succ_le_self taken.length)
  · rename_i free
    simpa using free

end Material

end GlslMaterial
