import GlslMaterial.Proofs.History.Committed

/-!
Mentions: a source mentions a name where one of its lines does. Code that says nothing of a name, in
whatever indentation, does not change whether a source mentions it.
-/

set_option autoImplicit false

namespace GlslMaterial

/-- No line of the code has the symbol, however it is indented. -/
def Source.IsSilent (symbol : List Char) (code : String) : Prop :=
  ∀ line ∈ codeLines code, ∀ pad : List Char, (∀ c ∈ pad, c = ' ') →
    Text.hasKeyword symbol (laid pad line) = false

theorem Source.isSilent_of_not_infix {symbol : List Char} {code : String} (blank : ' ' ∉ symbol)
    (absent : ¬ symbol <:+: code.toList) : IsSilent symbol code := by
  intro line member pad spaces
  refine Bool.eq_false_iff.2 fun has => absent ?_
  have outside : ∀ c ∈ pad, c ∉ symbol := fun c inside => spaces c inside ▸ blank
  exact (infix_of_laid outside (Text.infix_of_hasKeyword has)).trans (infix_of_mem_codeLines member)

theorem eq_blank_of_mem_indentation {line : List Char} {c : Char}
    (member : c ∈ indentation line) : c = ' ' :=
  Decidable.byContradiction fun different => notMem_indentation line different member

namespace Sections

theorem mentions_add {sections : Sections} {name code : String} (filled : name.toList ≠ [])
    (newline : '\n' ∉ name.toList) (silent : Source.IsSilent name.toList code) (marker : Marker)
    (stage : Stage) :
    ((sections.add marker code).source stage).mentions name =
      (sections.source stage).mentions name := by
  simp only [Source.mentions, source, Text.hasKeyword_terminated filled newline, lines,
    List.any_flatMap]
  congr 1
  funext line
  simp only [List.any_append]
  by_cases holds : Marker.ofLine? line = some marker
  · have nothing : ((Source.codeLines code).map (Source.laid (indentation line))).any
        (Text.hasKeyword name.toList) = false := by
      rw [List.any_map]
      refine List.any_eq_false.2 fun inserted member => ?_
      simpa using silent inserted member _ fun c inside => eq_blank_of_mem_indentation inside
    rw [above_add_self holds, List.any_append, nothing, Bool.or_false]
  · rw [above_add_of_ne holds]

end Sections

end GlslMaterial
