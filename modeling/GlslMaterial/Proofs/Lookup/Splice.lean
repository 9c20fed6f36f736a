import GlslMaterial.Proofs.Emission.Shown
import GlslMaterial.Proofs.Glsl.Atom

/-!
Symbols as operands: whatever a node shows, and whatever a lookup gives, is an atom, which can be
put into an expression as it is.
-/

set_option autoImplicit false

namespace GlslMaterial

/-- An expression that can be put into any text as it is: no parentheses are put around it, those
around it match as they would without it, and it adds no operator at its level. -/
structure Glsl.Splices (expr : String) : Prop where
  atom : Glsl.isAtom expr.toList = true
  bare : Glsl.atom expr = expr
  depth : ∀ left right depth, depthAfter 0 left = some depth →
    depthAfter 0 (left ++ expr.toList ++ right) = depthAfter 0 (left ++ right)
  operators : ∀ left right depth, depthAfter 0 left = some depth →
    (atLevel depth 0 (left ++ expr.toList ++ right)).filter (!isNameChar ·) =
      (atLevel depth 0 (left ++ right)).filter (!isNameChar ·)

theorem Glsl.Splices.of_isAtom {expr : String} (atom : Glsl.isAtom expr.toList = true) :
    Splices expr where
  atom
  bare := by rw [Glsl.atom, if_pos atom]
  depth _ right _ reaches := ((isOperand_of_isAtom atom).splice reaches right).1
  operators _ right _ reaches := ((isOperand_of_isAtom atom).splice reaches right).2

namespace Emission

open Glsl (isAtom_numbered isAtom_part isAtom_call isAtom_of_isClosedLiteral isOperand_of_isAtom)

variable {given : Given} {n : NodeId} {config : Config}

/-- The sum is given as a name, or in a constructor. -/
theorem isAtom_spread (n : NodeId) (id : TraitId) :
    Glsl.isAtom (spread n id).1.toList = true := by
  have name := isAtom_numbered "fbm" (by decide) n
  have whole (type : String) (word : Glsl.isIdentifier type = true) :
      Glsl.isAtom (Glsl.call type [s!"fbm{n}"]).toList = true :=
    isAtom_call word fun a member depth => by
      rw [List.mem_singleton.1 member]
      exact (isOperand_of_isAtom name depth).1
  unfold spread
  split
  · have four : Glsl.isAtom (Glsl.call "vec4" [Glsl.call "vec3" [s!"fbm{n}"], "1.0"]).toList =
      true :=
      isAtom_call (by decide) fun a member depth => by
        rcases List.mem_cons.1 member with rfl | last
        · exact (isOperand_of_isAtom (whole "vec3" (by decide)) depth).1
        · rw [List.mem_singleton.1 last]
          exact Glsl.depthAfter_of_isNumeral (by decide) depth
    simpa [Glsl.call] using four
  · simpa [Glsl.call] using whole "vec3" (by decide)
  · simpa [Glsl.call] using whole "vec2" (by decide)
  · exact name

theorem isAtom_of_publishes {piece : Piece} (publishes : Publishes given n config piece) :
    ∀ each ∈ piece.shown, Glsl.isAtom each.2.expr.toList = true := by
  have words : ∀ stem ∈ shownStems, Glsl.isIdentifier stem = true := by decide
  have parts : ∀ part ∈ [".uv", ".normal", ".depth"], part.toList.all Glsl.isNameChar = true := by
    decide
  refine shown_of_publishes (p := fun expr _ => Glsl.isAtom expr.toList = true) ?_ ?_ (by decide)
    (fun m => isAtom_of_isClosedLiteral (Glsl.isClosedLiteral_mat4 m)) (isAtom_spread n) publishes
  · exact fun stem member _ => isAtom_numbered stem (words stem member) n
  · exact fun part member _ => isAtom_part "raster" part (by decide) (parts part member) n

end Emission

namespace Material

variable {base : Material} {past : List Event}

theorem isAtom_name_of_input {m : Material} (spelled : m.Spelled) (formed : m.Formed) {b : Binding}
    (member : b ∈ m.inputs) : Glsl.isAtom b.name.toList = true := by
  have named : b.name.toList.all Glsl.isNameChar = true := by
    refine List.all_eq_true.2 fun c inside => ?_
    have letter := List.all_eq_true.1 (spelled.input member) c inside
    simp only [Glsl.isSymbolChar, Bool.or_eq_true] at letter
    rcases letter with letter | dot
    · simp [Glsl.isNameChar, letter]
    · simp [Glsl.isNameChar, dot]
  refine Glsl.isAtom_name (fun empty => ?_) named
  cases texture : b.key.isTexture with
  | true =>
    have listed : (b.sampler, b.name) ∈ m.textures.map fun b => (b.sampler, b.name) :=
      List.mem_map.2 ⟨b, List.mem_filter.2 ⟨member, texture⟩, rfl⟩
    rw [formed.slots] at listed
    obtain ⟨slot, -, same⟩ := List.mem_map.1 listed
    have text := congrArg (fun pair => pair.2.toList) same
    rw [empty] at text
    simp [textureName] at text
  | false =>
    have begins := formed.named_inputs b member texture
    rw [empty, List.prefix_nil] at begins
    unfold inputName at begins
    split at begins <;> simp at begins

section Generated

variable {c : Construct} (built : ofConstruct c = .ok base) (early : past <+: generate.events base)

include built early

theorem isAtom_of_shown {n : NodeId} {key : Trait} {symbol : Symbol}
    (shown : (key, symbol) ∈ ((base.replay past).node n).outputs) :
    Glsl.isAtom symbol.expr.toList = true := by
  have reached : Reached base past := .all .start early
  have lawful : Lawful (Showing fun _ symbol => Glsl.isAtom symbol.expr.toList = true) base past :=
    reached.lawful_showing fun _ _ => Emission.isAtom_of_publishes
  refine lawful.shown (fun n key symbol start => ?_) n key symbol shown
  simp [(fresh_ofConstruct built).shown] at start

/-- A lookup gives an atom: what it finds has been shown before, or it names an input. -/
theorem isAtom_of_lookup {viewer : NodeId} {key : Trait} {rate : Rate} {fallback : Fallback}
    {symbol : Symbol} {after : Material}
    (found : lookup viewer key rate fallback (base.replay past) = .ok (some symbol) after) :
    Glsl.isAtom symbol.expr.toList = true := by
  rcases lookup_found found with ⟨n, trait, shown, -⟩ | ⟨⟨_, -, b, member, -, named, -⟩, -⟩
  · exact isAtom_of_shown built early shown
  · have fresh := fresh_ofConstruct built
    rw [Action.material_of_ok found, ← replay_append] at member
    rw [← named]
    exact isAtom_name_of_input (fresh.spelled.replay _) (fresh.formed.replay _) member

end Generated

/-- At every moment while a material is written, the symbols that its nodes show and those that a
lookup would give can be put into expressions as they are. -/
theorem symbols_splice {c : Construct} (built : ofConstruct c = .ok base)
    (early : past <+: generate.events base) :
    (∀ n key symbol, (key, symbol) ∈ ((base.replay past).node n).outputs →
      Glsl.Splices symbol.expr) ∧
    ∀ viewer key rate fallback symbol after,
      lookup viewer key rate fallback (base.replay past) = .ok (some symbol) after →
        Glsl.Splices symbol.expr := by
  refine ⟨fun n key symbol shown => ?_, fun viewer key rate fallback symbol after found => ?_⟩
  · exact .of_isAtom (isAtom_of_shown built early shown)
  · exact .of_isAtom (isAtom_of_lookup built early found)

/-- A transform shows its matrix as a literal. The time comes from an input, whatever the rate. -/
theorem symbols_splice_of_transform :
    ∃ base past matrix time, ∃ after later : Material,
      ofConstruct ⟨.material, none, [], [],
        [⟨.transform, none, [], [], []⟩, ⟨.value, none, [.ofId .aim], [], []⟩]⟩ = .ok base ∧
      past <+: generate.events base ∧
      lookup 2 (.ofId .model) (.stage .pixel) .soft (base.replay past) = .ok (some matrix) after ∧
      lookup 2 (.ofId .time) .auto .input (base.replay past) = .ok (some time) later ∧
      matrix.expr = "mat4(1.0)" ∧ time.expr = "Tick.Time" ∧
      Glsl.Splices matrix.expr ∧ Glsl.Splices time.expr := by
  have evaluated : (ofConstruct ⟨.material, none, [], [],
      [⟨.transform, none, [], [], []⟩, ⟨.value, none, [.ofId .aim], [], []⟩]⟩).toOption.any
      (fun base =>
        let m := base.replay ((generate.events base).take 18)
        ((lookup 2 (.ofId .model) (.stage .pixel) .soft).ended? m).any
            (·.1 = some ⟨"mat4(1.0)", .mat4, .uniform .tick⟩) &&
          ((lookup 2 (.ofId .time) .auto .input).ended? m).any
            (·.1 = some ⟨"Tick.Time", .float, .uniform .tick⟩)) = true := by
    decide +kernel
  obtain ⟨base, built, evaluated⟩ := exists_ok_of_any evaluated
  obtain ⟨one, two⟩ := Bool.and_eq_true_iff.1 evaluated
  obtain ⟨_, after, found, one⟩ := Action.exists_ok_of_any one
  obtain ⟨_, later, given, two⟩ := Action.exists_ok_of_any two
  obtain rfl := of_decide_eq_true one
  obtain rfl := of_decide_eq_true two
  have early := List.take_prefix 18 (generate.events base)
  have splices := (symbols_splice built early).2
  exact ⟨base, _, _, _, after, later, built, early, found, given, rfl, rfl,
    splices _ _ _ _ _ _ found, splices _ _ _ _ _ _ given⟩

end Material

end GlslMaterial
