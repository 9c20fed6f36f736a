import GlslMaterial.Proofs.Glsl.Reserved
import GlslMaterial.Proofs.History.Law
import GlslMaterial.Proofs.History.Sources
import GlslMaterial.Proofs.Interface.Formed

/-!
The order of writing: code goes into stages that have been started and has no directives of its own,
an output is assigned once, and it counts as wired directly after its assignment.
-/

set_option autoImplicit false

namespace GlslMaterial

open Text (madeOf)
open Glsl (isInline)

/-- The statement that gives a vertex its position. -/
def positionStatement (value : String) : String :=
  s!"gl_Position = {value};"

/-- No fractal of a material has one of some words in its code. -/
def Material.Spares (words : List String) (m : Material) : Prop :=
  ∀ n fractal, (m.node n).config = .fractal fractal → lacks words fractal.code = true

theorem Material.Spares.mono {m : Material} {words others : List String}
    (fewer : ∀ word ∈ words, word ∈ others) (spares : m.Spares others) : m.Spares words :=
  fun n fractal coded => lacks_mono fewer (spares n fractal coded)

/-- Code that may be put at a marker of a stage. The places of the version and of assignments are
not for other code, markers are not for any, nor is the version unless a fractal has it, and in the
vertex stage the position is given at the place for it or not at all. -/
structure Writable (base : Material) (stage : Stage) (marker : Marker) (code : String) : Prop where
  place : marker ≠ .version ∧ marker ≠ .colorize
  unmarked : lacks (Marker.all.map Marker.text) code = true
  unversioned : base.Spares ["#version"] → lacks ["#version"] code = true
  position : stage = .vertex → lacks ["gl_Position"] code = true ∨
    marker = .position ∧ ∃ value, (positionStatement value).toList ∈ Source.codeLines code

namespace Writable

variable {base : Material} {stage : Stage} {marker : Marker} {code : String}
  (place : marker ≠ .version ∧ marker ≠ .colorize)

include place

theorem of_directives (unmarked : lacks directives code = true)
    (position : stage = .vertex → lacks ["gl_Position"] code = true ∨
      marker = .position ∧ ∃ value, (positionStatement value).toList ∈ Source.codeLines code) :
    Writable base stage marker code :=
  ⟨place, lacks_mono (by decide) unmarked, fun _ => lacks_mono (by decide) unmarked, position⟩

theorem of_reserved (free : lacks reserved code = true) : Writable base stage marker code :=
  of_directives place (lacks_reserved_iff.1 free).1 fun _ => .inl (lacks_reserved_iff.1 free).2

/-- Code that has reserved words from fractals only. -/
theorem of_spared (spares : base.Spares intrusive)
    (free : ∀ words, (∀ word ∈ words, word ∈ reserved) → base.Spares words →
      lacks words code = true) : Writable base stage marker code := by
  have unmarked := free intrusive mem_reserved_of_mem_intrusive spares
  exact ⟨place, lacks_mono (by decide) unmarked, free _ (by decide),
    fun _ => .inl (lacks_mono (by decide) unmarked)⟩

end Writable

def carriage (stage : Stage) (key : Trait) (output value : String) : List Event :=
  [.output (.stage stage) key false, .start stage, .assign stage output value,
    .wire (.stage stage) output]

/-- What may happen to a material before the version is put into its stages. -/
def Orderly : Law
  | base, past, .write stage marker code =>
    (base.replay past).Uses stage ∧ Writable base stage marker code
  | base, past, .assign stage output value =>
    (base.replay past).Uses stage ∧
      (∃ key, Bound (base.replay past).outputs (.stage stage) key output) ∧
      assigned past stage output = [] ∧ madeOf isInline value = true
  | _, past, .wire rate output =>
    ∃ before stage key value, rate = .stage stage ∧
      past = before ++ [.output (.stage stage) key false, .start stage, .assign stage output value]
  | _, _, .expose _ _ symbol => madeOf isInline symbol.expr = true
  | _, _, .define _ _ => False
  | _, _, .stamp => False
  | _, _, _ => True

/-- A history of writing a material in order. -/
abbrev InOrder (base : Material) (past : List Event) : Prop :=
  Lawful Orderly base past

namespace Material

theorem exists_of_mem_link {m : Material} {outputRate : Rate} {output : String} {rate : Rate}
    {input : String} {b : Binding} (member : b ∈ (m.link outputRate output rate input).outputs) :
    ∃ a ∈ m.outputs, a.rate = b.rate ∧ a.name = b.name ∧ a.wired = b.wired := by
  unfold link at member
  split at member
  · split at member
    · exact ⟨b, member, rfl, rfl, rfl⟩
    · exact ⟨b, member, rfl, rfl, rfl⟩
    · obtain ⟨a, inside, same⟩ := List.mem_map.1 member
      refine ⟨a, inside, ?_⟩
      rw [← same]
      split <;> exact ⟨rfl, rfl, rfl⟩
  · exact ⟨b, member, rfl, rfl, rfl⟩

theorem exists_wired_of_apply {m : Material} {event : Event} {b : Binding}
    (member : b ∈ (m.apply event).outputs) (wired : b.wired = true) :
    (∃ a ∈ m.outputs, a.wired = true ∧ a.rate = b.rate ∧ a.name = b.name) ∨
      event = .wire b.rate b.name := by
  have old (listed : b ∈ m.outputs) :
      (∃ a ∈ m.outputs, a.wired = true ∧ a.rate = b.rate ∧ a.name = b.name) ∨
        event = .wire b.rate b.name :=
    .inl ⟨b, listed, wired, rfl, rfl⟩
  by_cases about : event.isInterface = false
  · exact old ((m.apply_interface about).2.1 ▸ member)
  · cases event with
    | input rate key duplicates => exact old ((m.withInput_frame rate key duplicates).1 ▸ member)
    | output rate key duplicates =>
      have inside : b ∈ (m.withOutput rate key duplicates).outputs := member
      rcases m.withOutput_cases rate key duplicates with same | ⟨typed, -, -, same⟩
      · exact old (same ▸ inside)
      · rw [same] at inside
        rcases List.mem_append.1 inside with earlier | last
        · exact old earlier
        · rw [List.mem_singleton.1 last] at wired
          simp at wired
    | wire rate output =>
      obtain ⟨a, inside, same⟩ := List.mem_map.1 member
      by_cases named : a.isNamed rate output = true
      · have here : a.rate = rate ∧ a.name = output := by simpa [Binding.isNamed] using named
        rw [if_pos named] at same
        rw [← same]
        exact .inr (by simp [here])
      · rw [if_neg named] at same
        exact old (same ▸ inside)
    | link outputRate output rate input =>
      obtain ⟨a, inside, rate, name, flag⟩ := exists_of_mem_link member
      exact .inl ⟨a, inside, flag.trans wired, rate, name⟩
    | _ => simp [Event.isInterface] at about

end Material

namespace InOrder

variable {base : Material} {past : List Event}

theorem assigned_eq_nil (orderly : InOrder base past) {stage : Stage} {output : String}
    (free : ∀ o ∈ (base.replay past).outputs, o.rate = .stage stage → o.name ≠ output) :
    assigned past stage output = [] :=
  Lawful.assigned_eq_nil (fun _ _ _ _ allowed => allowed.2.1) orderly free

theorem inline_of_expose (orderly : InOrder base past) {n : NodeId} {key : Trait} {symbol : Symbol}
    (exposed : .expose n key symbol ∈ past) : madeOf isInline symbol.expr = true := by
  obtain ⟨before, after, rfl⟩ := List.append_of_mem exposed
  exact orderly.allowed

theorem assigned_snoc {event : Event} (orderly : InOrder base (past ++ [event])) {stage : Stage}
    {output : String} (given : assigned past stage output ≠ []) :
    assigned (past ++ [event]) stage output = assigned past stage output := by
  have nothing : assigned [event] stage output = [] := by
    cases event with
    | assign other name value =>
      have first : assigned past other name = [] := orderly.allowed.2.2.1
      have different : ¬ (other = stage ∧ name = output) := by
        intro same
        rw [same.1, same.2] at first
        exact given first
      simp [assigned, different]
    | _ => rfl
  rw [assigned_append, nothing, List.append_nil]

theorem length_assigned_le (orderly : InOrder base past) (stage : Stage) (output : String) :
    (assigned past stage output).length ≤ 1 := by
  induction orderly with
  | nil => exact Nat.zero_le 1
  | @snoc past event before allowed ih =>
    by_cases given : assigned past stage output = []
    · rw [assigned_append, given, List.nil_append]
      exact List.length_filterMap_le _ [event]
    · rw [assigned_snoc (before.snoc allowed) given]
      exact ih

theorem assigned_of_wired (fresh : base.Fresh) (orderly : InOrder base past) {b : Binding}
    (member : b ∈ (base.replay past).outputs) (wired : b.wired = true) :
    ∃ stage key value, b.rate = .stage stage ∧ assigned past stage b.name = [value] ∧
      carriage stage key b.name value <:+: past := by
  induction orderly generalizing b with
  | nil =>
    rw [Material.replay_nil, fresh.outputs] at member
    simp at member
  | @snoc past event before allowed ih =>
    rw [Material.replay_append] at member
    rcases Material.exists_wired_of_apply member wired with
      ⟨a, known, earlier, rate, name⟩ | same
    · obtain ⟨stage, key, value, staged, given, inside⟩ := ih known earlier
      rw [rate] at staged
      rw [name] at given inside
      refine ⟨stage, key, value, staged, ?_, inside.trans (List.prefix_append past [event]).isInfix⟩
      rw [assigned_snoc (before.snoc allowed) (by simp [given]), given]
    · subst same
      obtain ⟨early, stage, key, value, staged, ends⟩ := allowed
      have cut : past = (early ++ [.output (.stage stage) key false, .start stage]) ++
          [.assign stage b.name value] := by simp [ends]
      have first : assigned (early ++ [.output (.stage stage) key false, .start stage]) stage
          b.name = [] := by
        rw [cut] at before
        exact before.of_snoc.2.2.2.1
      refine ⟨stage, key, value, staged, ?_, early, [], ?_⟩
      · rw [assigned_append, cut, assigned_append, first]
        simp [assigned]
      · simp [ends, staged, carriage]

end InOrder

end GlslMaterial
