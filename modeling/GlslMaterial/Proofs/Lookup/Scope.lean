import GlslMaterial.Proofs.History.Generation

/-!
Scope of lookups: while a material is written, no lookup gives a symbol that the stage of its user
does not know, or does not know yet.
-/

set_option autoImplicit false

namespace GlslMaterial.Material

/-- A symbol means something in a stage of a material with the history `past`: it names an input of
the stage or of a uniform rate, is a literal that a node gives out once per tick, or is made of a
variable that has been declared in the main function of the stage. -/
inductive InScope (m : Material) (past : List Event) (stage : Stage) (symbol : Symbol) : Prop
  | input (b : Binding) (member : b ∈ m.inputs) (named : b.name = symbol.expr)
      (kept : b.rate = symbol.rate) (reads : b.rate = .stage stage ∨ b.rate.isUniform = true)
  | literal (n : NodeId) (trait : Trait) (exposed : .expose n trait symbol ∈ past)
      (coarse : symbol.rate = .uniform .tick) (closed : Glsl.IsClosedLiteral symbol.expr)
  | declared (n : NodeId) (trait : Trait) (exposed : .expose n trait symbol ∈ past)
      (name code : String) (at_stage : symbol.rate = .stage stage)
      (written : .write stage (.mainBody stage) code ∈ past)
      (declares : Glsl.Declares code name) (uses : Glsl.Over name symbol.expr)

namespace InScope

variable {m base : Material} {past : List Event} {stage : Stage} {symbol : Symbol}

theorem rate (inside : InScope m past stage symbol) :
    symbol.rate = .stage stage ∨ symbol.rate.isUniform = true := by
  cases inside with
  | input b member named kept reads => exact kept ▸ reads
  | literal n trait exposed coarse closed => exact .inr (coarse ▸ rfl)
  | declared n trait exposed name code at_stage written declares uses => exact .inl at_stage

theorem of_provides (provides : m.Provides (.stage stage) symbol) :
    InScope m past stage symbol := by
  obtain ⟨⟨key, -, b, member, kept, named, -⟩, reads⟩ := provides
  exact .input b member named kept (kept ▸ reads (Emission.stage_ne_auto stage))

/-- What a node gives out and a stage may use as it is has been declared there, unless it is a
texture. -/
theorem of_usable {declaring : Bool} (written : Written declaring base past)
    (untextured : ¬ base.WrapsTexture) {n : NodeId} {trait : Trait}
    (exposed : .expose n trait symbol ∈ past) (usable : Usable (.stage stage) symbol) :
    InScope m past stage symbol := by
  obtain ⟨-, texture, known⟩ := written.of_expose exposed
  cases known with
  | literal coarse closed => exact .literal n trait exposed coarse closed
  | declared own name code at_stage committed declares uses =>
    have here : symbol.rate = .stage stage := by
      rcases usable with nowhere | nowhere | same | is
      · simp [at_stage, Rate.stage?] at nowhere
      · simp [Rate.stage?] at nowhere
      · exact same
      · exact absurd (texture is) untextured
    obtain rfl : own = stage := by simpa [at_stage] using here
    exact .declared n trait exposed name code at_stage committed declares uses

end InScope

/-- In a material without values that are textures, each symbol that a stage gets from a lookup, at
any moment while the material is written, is in the scope of that stage at that moment. -/
theorem lookup_inScope {c : Construct} {base after : Material} {past : List Event}
    {viewer : NodeId} {key : Trait} {stage : Stage} {fallback : Fallback} {symbol : Symbol}
    (built : ofConstruct c = .ok base) (untextured : ¬ base.WrapsTexture)
    (early : past <+: generate.events base)
    (found : lookup viewer key (.stage stage) fallback (base.replay past) =
      .ok (some symbol) after) :
    InScope after past stage symbol ∧
      (symbol.rate = .stage stage ∨ symbol.rate.isUniform = true) := by
  have fresh := fresh_ofConstruct built
  have written : Written true base past := (Reached.all .start early).written fresh
  have inside : InScope after past stage symbol := by
    have known := lookup_found found
    rw [concreteRate_of_ne_auto (Emission.stage_ne_auto stage)] at known
    rcases known with ⟨n, trait, shown, usable⟩ | provides
    · rcases outputs_replay shown with start | exposed
      · simp [fresh.shown] at start
      · exact .of_usable written untextured exposed usable
    · exact .of_provides provides
  exact ⟨inside, inside.rate⟩

/-- The second of two values finds the variable of the first. -/
theorem lookup_inScope_of_two_values :
    ∃ base past after,
      ofConstruct ⟨.material, none, [], [],
        [⟨.value, none, [.ofId .aim], [], []⟩, ⟨.value, none, [.ofId .aim], [], []⟩]⟩ = .ok base ∧
      ¬ base.WrapsTexture ∧ past <+: generate.events base ∧
      lookup 2 (.ofId .aim) (.stage .pixel) .input (base.replay past) =
        .ok (some ⟨"value1", .vec3, .stage .pixel⟩) after ∧
      InScope after past .pixel ⟨"value1", .vec3, .stage .pixel⟩ := by
  have evaluated : (ofConstruct ⟨.material, none, [], [],
      [⟨.value, none, [.ofId .aim], [], []⟩, ⟨.value, none, [.ofId .aim], [], []⟩]⟩).toOption.any
      (fun base => !base.WrapsTexture &&
        ((lookup 2 (.ofId .aim) (.stage .pixel) .input).ended?
          (base.replay ((generate.events base).take 15))).any
            (·.1 = some ⟨"value1", .vec3, .stage .pixel⟩)) = true := by
    decide +kernel
  obtain ⟨base, built, evaluated⟩ := exists_ok_of_any evaluated
  simp only [Bool.and_eq_true, Bool.not_eq_true', decide_eq_false_iff_not] at evaluated
  obtain ⟨given, after, found, same⟩ := Action.exists_ok_of_any evaluated.2
  obtain rfl := of_decide_eq_true same
  have early := List.take_prefix 15 (generate.events base)
  exact ⟨base, _, after, built, evaluated.1, early, found,
    (lookup_inScope built evaluated.1 early found).1⟩

end GlslMaterial.Material
