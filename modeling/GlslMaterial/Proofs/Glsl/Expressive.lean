import GlslMaterial.Glsl.Conversion
import GlslMaterial.Glsl.Value
import GlslMaterial.Proofs.Glsl.Scope
import GlslMaterial.Proofs.Interface.Names

/-!
Classes of texts that are closed under the ways in which expressions are built. Literals belong to
every such class, and what is converted stays in the class that it belongs to.
-/

set_option autoImplicit false

namespace GlslMaterial.Glsl

/-- Characters of numbers and of words that begin with a small letter. -/
def isSmall (c : Char) : Bool :=
  c.isLower || isNumberChar c

/-- The operators of expressions, with the blanks around them. -/
def signs : List String :=
  [" + ", " - ", " * ", " / "]

/-- Numbers and the names of types are in the class, and what is built from its texts is. -/
structure Expressive (p : String → Prop) : Prop where
  small : ∀ {text : String}, text.toList.all isSmall = true → p text
  spelling : ∀ {type : DataType} {spelling : String}, type.spelling = .ok spelling → p spelling
  enclosed : ∀ {code : String}, p code → p s!"({code})"
  call : ∀ {function : String} {arguments : List String}, p function →
    (∀ argument ∈ arguments, p argument) → p (call function arguments)
  part : ∀ {code field : String}, p code → field.toList.all isSmall = true → p s!"{code}.{field}"
  item : ∀ {code : String} (i : Nat), p code → p s!"{code}[{i}]"
  operator : ∀ {sign left right : String}, sign ∈ signs → p left → p right →
    p (left ++ sign ++ right)

/-- All texts are such a class. -/
theorem expressive_any : Expressive fun _ => True := by
  constructor <;> intros <;> trivial

theorem isSmall_numeral {text : String} (number : isNumeral text = true) :
    text.toList.all isSmall = true := by
  apply List.all_eq_true.2
  intro c member
  have digit := List.all_eq_true.1 (Bool.and_eq_true_iff.1 number).2 c member
  simp [isSmall, digit]

theorem isSmall_nat (n : Nat) : (toString n).toList.all isSmall = true := by
  apply List.all_eq_true.2
  intro c member
  simp [isSmall, isNumberChar, isDigit_of_mem_repr member]

theorem isSmall_int (i : Int) : (toString i).toList.all isSmall = true := by
  cases i with
  | ofNat n => exact isSmall_nat n
  | negSucc n =>
    show ("-" ++ toString (n + 1)).toList.all isSmall = true
    rw [String.toList_append, List.all_append, isSmall_nat]
    rfl

theorem isSmall_leading (count : Nat) : (leading count).toList.all isSmall = true := by
  have letters : ['x', 'y', 'z', 'w'].all isSmall = true := by decide
  rw [leading, String.toList_ofList]
  exact List.all_eq_true.2 fun c member =>
    List.all_eq_true.1 letters c (List.mem_of_mem_take member)

namespace Expressive

variable {p : String → Prop}

theorem float32 (expressive : Expressive p) (x : Float32) : p (float32 x) :=
  expressive.small (isSmall_numeral (isNumeral_float32 x))

theorem float64 (expressive : Expressive p) (x : Float) : p (float64 x) :=
  expressive.small (isSmall_numeral (isNumeral_float64 x))

theorem atom (expressive : Expressive p) {code : String} (inside : p code) : p (atom code) := by
  unfold Glsl.atom
  split
  · exact inside
  · exact expressive.enclosed inside

theorem convertVector (expressive : Expressive p) {code target filler : String} (inside : p code)
    (spelled : p target) (filled : p filler) (family targetFamily : Family) (count width : Nat) :
    p (convertVector code family count target targetFamily width filler) := by
  have swizzled : p s!"{Glsl.atom code}.{leading width}" :=
    expressive.part (expressive.atom inside) (isSmall_leading width)
  have padded : ∀ text ∈ padding count width filler, p text := by
    intro text member
    obtain ⟨i, -, rfl⟩ := List.mem_map.1 member
    split
    · exact expressive.small (by decide)
    · exact filled
  unfold Glsl.convertVector
  split
  · dsimp only
    split
    · exact swizzled
    · exact expressive.call spelled (by simpa using swizzled)
  · split
    · exact expressive.call spelled (List.forall_mem_cons.2 ⟨inside, padded⟩)
    · exact expressive.call spelled (by simpa using inside)

theorem grownColumn (expressive : Expressive p) {base filler : String} (inside : p base)
    (filled : p filler) (count width column : Nat) :
    p (grownColumn base count width filler column) := by
  have zero : p "0.0" := expressive.small (by decide)
  have vector : p s!"vec{width}" := by
    apply expressive.small
    simp only [toString_string, String.toList_append, List.all_append, isSmall_nat]
    decide
  refine expressive.call vector ?_
  split
  · intro text member
    rcases List.mem_cons.1 member with rfl | added
    · exact expressive.item column inside
    · exact List.eq_of_mem_replicate added ▸ zero
  · intro text member
    obtain ⟨row, -, rfl⟩ := List.mem_map.1 member
    split
    · exact zero
    · split
      · exact expressive.small (by decide)
      · exact filled

theorem convert (expressive : Expressive p) {code filler converted : String}
    {source target : DataType} (inside : p code) (filled : p filler)
    (given : convert code source target filler = .ok converted) : p converted := by
  unfold Glsl.convert at given
  split at given
  · exact Except.ok.inj given ▸ inside
  · obtain ⟨source, -, given⟩ := eq_ok_of_bind given
    obtain ⟨target, -, given⟩ := eq_ok_of_bind given
    split at given
    · exact Except.ok.inj given ▸ inside
    · split at given
      · obtain ⟨spelling, spelled, given⟩ := eq_ok_of_bind given
        rw [← Except.ok.inj given]
        exact expressive.convertVector inside (expressive.spelling spelled) filled _ _ _ _
      · split at given
        · obtain ⟨spelling, spelled, given⟩ := eq_ok_of_bind given
          split at given
          · rw [← Except.ok.inj given]
            exact expressive.call (expressive.spelling spelled) (by simpa using inside)
          · rw [← Except.ok.inj given]
            refine expressive.call (expressive.spelling spelled) ?_
            intro text member
            obtain ⟨column, -, rfl⟩ := List.mem_map.1 member
            exact expressive.grownColumn (expressive.atom inside) filled _ _ column
        · cases given

theorem ofNumber (expressive : Expressive p) {x : Float} {type : DataType} {literal : String}
    (given : ofNumber x type = .ok literal) : p literal := by
  unfold Glsl.ofNumber at given
  split at given
  · rw [← Except.ok.inj given]
    exact expressive.small (isSmall_int _)
  · rw [← Except.ok.inj given]
    apply expressive.small
    simp only [toString_string, String.toList_append, List.all_append, isSmall_int]
    decide
  · rw [← Except.ok.inj given]
    split <;> exact expressive.small (by decide)
  · rw [← Except.ok.inj given]
    apply expressive.small
    rw [String.toList_append, List.all_append, isSmall_numeral (isNumeral_float64 x)]
    decide
  · rw [← Except.ok.inj given]
    exact expressive.float64 x
  · obtain ⟨decayed, -, given⟩ := eq_ok_of_bind given
    obtain ⟨spelling, spelled, given⟩ := eq_ok_of_bind given
    rw [← Except.ok.inj given]
    exact expressive.call (expressive.spelling spelled) (by simpa using expressive.float64 x)

theorem ofComponents (expressive : Expressive p) {values : List Float} {type : DataType}
    {literal : String} (given : ofComponents values type = .ok literal) : p literal := by
  obtain ⟨expected, -, given⟩ := eq_ok_of_bind given
  dsimp only at given
  split at given
  · obtain ⟨_, impossible, -⟩ := eq_ok_of_bind given
    cases impossible
  · split at given
    · rw [← Except.ok.inj given]
      exact expressive.float64 _
    · obtain ⟨spelling, spelled, given⟩ := eq_ok_of_bind given
      rw [← Except.ok.inj given]
      refine expressive.call (expressive.spelling spelled) ?_
      intro text member
      obtain ⟨x, -, rfl⟩ := List.mem_map.1 member
      exact expressive.float64 x

theorem ofJson (expressive : Expressive p) {value : Json} {type : Option DataType}
    {literal : Expression} (given : ofJson value type = .ok literal) : p literal.code := by
  unfold Glsl.ofJson at given
  split at given
  · rw [← Except.ok.inj given]
    dsimp only
    split <;> exact expressive.small (by decide)
  · obtain ⟨text, made, given⟩ := eq_ok_of_bind given
    rw [← Except.ok.inj given]
    exact expressive.ofNumber made
  · obtain ⟨values, -, given⟩ := eq_ok_of_bind given
    dsimp only at given
    split at given
    all_goals
      obtain ⟨type, -, given⟩ := eq_ok_of_bind given
      obtain ⟨text, made, given⟩ := eq_ok_of_bind given
      rw [← Except.ok.inj given]
      exact expressive.ofComponents made
  · cases given

theorem components (expressive : Expressive p) {type : String} (word : p type)
    (values : List Float32) : p (components type values) := by
  refine expressive.call word ?_
  intro text member
  obtain ⟨x, -, rfl⟩ := List.mem_map.1 member
  exact expressive.float32 x

end Expressive

end GlslMaterial.Glsl
