import GlslMaterial.Proofs.Glsl.Letters
import GlslMaterial.Proofs.Source.Insertion

/-!
Reserved words: the markers of templates, the version directive and the position that the pipeline
reads. Code that lacks them stays without them wherever it is put, and so do the octaves of a
fractal.
-/

set_option autoImplicit false

namespace GlslMaterial

/-- The markers of templates and the version directive. -/
def directives : List String :=
  Marker.all.map Marker.text ++ ["#version"]

/-- The words that a descriptor must not put into code. -/
def reserved : List String :=
  directives ++ ["gl_Position"]

/-- The words by which the code of a fractal could reach into the rest of its stage: the places
where other code is put, and the position, which is only given where nothing mentions it. -/
def intrusive : List String :=
  Marker.all.map Marker.text ++ ["gl_Position"]

/-- Whether a text has none of some words. -/
def lacks (words : List String) (text : String) : Bool :=
  words.all fun word => !Text.contains word.toList text.toList

variable {text word : String}

theorem lacks_iff {words : List String} :
    lacks words text = true ↔ ∀ word ∈ words, ¬ word.toList <:+: text.toList := by
  simp only [lacks, List.all_eq_true, Bool.not_eq_true', Bool.eq_false_iff, ne_eq,
    Text.contains_iff]

theorem lacks_reserved_iff : lacks reserved text = true ↔
      lacks directives text = true ∧ lacks ["gl_Position"] text = true := by
  rw [lacks, reserved, List.all_append, Bool.and_eq_true]
  rfl

theorem lacks_mono {words others : List String} (fewer : ∀ word ∈ words, word ∈ others)
    (free : lacks others text = true) : lacks words text = true :=
  lacks_iff.2 fun word member => lacks_iff.1 free word (fewer word member)

theorem mem_reserved_of_mem_intrusive : ∀ word ∈ intrusive, word ∈ reserved := by
  decide

theorem notMem_reserved (member : word ∈ reserved) {c : Char}
    (other : (c == '\n' || c == ' ' || c == ';' || Glsl.isNumberChar c) = true) :
    c ∉ word.toList := by
  have plain : ∀ word ∈ reserved, word.toList.all
      (fun c => !(c == '\n' || c == ' ' || c == ';' || Glsl.isNumberChar c)) = true := by
    decide
  intro inside
  have free := List.all_eq_true.1 (plain word member) c inside
  rw [other] at free
  cases free

theorem reserved_ne_nil (member : word ∈ reserved) : word.toList ≠ [] := by
  have filled : ∀ word ∈ reserved, word.toList ≠ [] := by decide
  exact filled word member

section Lacks

variable {words : List String} (known : ∀ word ∈ words, word ∈ reserved)

include known

theorem lacks_block {parts : List String} (each : ∀ part ∈ parts, lacks words part = true) :
    lacks words (Text.block parts) = true := by
  apply lacks_iff.2
  intro word member found
  obtain ⟨part, listed, inside⟩ := Text.exists_infix_of_block (reserved_ne_nil (known word member))
    (notMem_reserved (known word member) (by decide)) found
  exact lacks_iff.1 (each part listed) word member inside

/-- The form in which a helper is written. -/
theorem lacks_trimmed {body : String} (free : lacks words body = true) :
    lacks words (String.ofList (Text.trimRight body.toList) ++ "\n") = true := by
  apply lacks_iff.2
  intro word member found
  have split : word.toList <:+: Text.trimRight body.toList ++ '\n' :: [] := by simpa using found
  have plain : '\n' ∉ word.toList := notMem_reserved (known word member) (by decide)
  rcases Text.infix_of_separated plain split with inside | nothing
  · have whole := (Text.dropWhileRight_isPrefix Text.isBlank body.toList).isInfix
    exact lacks_iff.1 free word member (inside.trans whole)
  · exact reserved_ne_nil (known word member) (List.infix_nil.1 nothing)

theorem lacks_statement {start code : String} (before : lacks words start = true)
    (free : lacks words code = true) : lacks words s!"{start} {code};" = true := by
  apply lacks_iff.2
  intro word member found
  have split : word.toList <:+: start.toList ++ ' ' :: (code.toList ++ ';' :: []) := by
    simpa using found
  have blank : ' ' ∉ word.toList := notMem_reserved (known word member) (by decide)
  have stop : ';' ∉ word.toList := notMem_reserved (known word member) (by decide)
  rcases Text.infix_of_separated blank split with early | late
  · exact lacks_iff.1 before word member early
  · rcases Text.infix_of_separated stop late with inside | nothing
    · exact lacks_iff.1 free word member inside
    · exact reserved_ne_nil (known word member) (List.infix_nil.1 nothing)

theorem lacks_replaceAll {piece replacement text : List Char} (some : replacement ≠ [])
    (number : replacement.all Glsl.isNumberChar = true)
    (free : lacks words (String.ofList text) = true) :
    lacks words (String.ofList (Text.replaceAll piece replacement text)) = true := by
  apply lacks_iff.2
  intro word member found
  rw [String.toList_ofList] at found
  have other : ∀ c ∈ replacement, c ∉ word.toList := by
    intro c inside
    have digit := List.all_eq_true.1 number c inside
    exact notMem_reserved (known word member) (by simp [digit])
  have original := Text.infix_of_replaceAll some other found
  exact lacks_iff.1 free word member (by simpa using original)

end Lacks

namespace Glsl

open Text (madeOf madeOf_append madeOf_block)

theorem madeOf_literal {p : Char → Bool} {text : List Char} (all : text.all p = true) :
    madeOf p (String.ofList text) = true := by
  rw [Text.madeOf_ofList, all]

/-- Words with characters that a text is not made of. -/
theorem lacks_of_madeOf {words : List String} {p : Char → Bool} {code : String}
    (marked : ∀ word ∈ words, word.toList.any (fun c => !p c) = true)
    (made : madeOf p code = true) : lacks words code = true := by
  apply lacks_iff.2
  intro word member found
  obtain ⟨c, inside, special⟩ := List.any_eq_true.1 (marked word member)
  exact Text.notMem_of_madeOf made (by simpa using special) (found.subset inside)

theorem lacks_of_ordinary {code : String} (ordinary : madeOf isOrdinary code = true) :
    lacks reserved code = true :=
  lacks_of_madeOf (by decide) ordinary

theorem lacks_of_unmarked {code : String} (unmarked : madeOf isUnmarked code = true) :
    lacks directives code = true :=
  lacks_of_madeOf (by decide) unmarked

theorem lacks_of_inline {code : String} (inline : madeOf isInline code = true) :
    lacks reserved code = true :=
  lacks_of_ordinary (admits_ordinary.madeOf inline)

end Glsl

namespace Fractal

open Glsl (isNumberChar lacks_of_ordinary madeOf_literal)

theorem lacks_defaultCode : lacks reserved defaultCode = true :=
  lacks_of_ordinary (madeOf_literal (by decide))

section Lacks

variable {words : List String} (known : ∀ word ∈ words, word ∈ reserved) {f : Fractal}
  (free : lacks words f.code = true)

include known free

theorem lacks_octaveCode (octave : Nat) : lacks words (f.octaveCode octave) = true := by
  have weight := Glsl.isNumeral_float64 (f.weight octave)
  obtain ⟨some, number⟩ := Bool.and_eq_true_iff.1 weight
  have filled : (Glsl.float64 (f.weight octave)).toList ≠ [] := by simpa using some
  have digits : Decimal.digitText octave ≠ [] := by
    rw [Decimal.digitText]
    exact Nat.toDigits_ne_nil
  apply lacks_replaceAll known digits (Glsl.isNumberChar_digitText octave)
  apply lacks_replaceAll known filled number
  simpa using free

theorem lacks_function {name : String} (named : Text.madeOf Glsl.isInline name = true) :
    lacks words (f.function name) = true := by
  have literal {text : List Char} (plain : text.all Glsl.isOrdinary = true) :
      lacks words (String.ofList text) = true :=
    lacks_mono known (lacks_of_ordinary (madeOf_literal plain))
  have header : lacks words s!"float {name}(in vec2 point) \x7b" = true := by
    refine lacks_mono known (lacks_of_ordinary ?_)
    simp only [toString_string, Text.madeOf_append, Glsl.admits_ordinary.madeOf named,
      Bool.and_true, Bool.and_eq_true]
    and_intros <;> exact madeOf_literal (by decide)
  have sum (octave : Nat) : lacks words s!"    total += {f.octaveCode octave};" = true := by
    have start : lacks words "    total +=" = true := literal (by decide)
    have statement := lacks_statement known start (lacks_octaveCode known free octave)
    simpa [String.append_assoc] using statement
  apply lacks_block known
  intro part listed
  simp only [List.mem_append, List.mem_flatMap] at listed
  rcases listed with (first | ⟨octave, -, line⟩) | last
  · rcases List.mem_cons.1 first with rfl | total
    · exact header
    · rw [List.mem_singleton.1 total]
      exact literal (by decide)
  · unfold octaveLines at line
    dsimp only at line
    split at line
    · rw [List.mem_singleton.1 line]
      exact sum octave
    · rcases List.mem_cons.1 line with rfl | added
      · exact literal (by decide)
      · rw [List.mem_singleton.1 added]
        exact sum octave
  · rcases List.mem_cons.1 last with rfl | brace
    · exact literal (by decide)
    · rw [List.mem_singleton.1 brace]
      exact literal (by decide)

end Lacks

end Fractal

end GlslMaterial
