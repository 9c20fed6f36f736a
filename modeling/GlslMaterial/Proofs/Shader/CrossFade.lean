import GlslMaterial.Proofs.Decimal.Order
import GlslMaterial.Proofs.Generation.Sampling
import GlslMaterial.Proofs.Glsl.Grouping
import GlslMaterial.Proofs.Shader.Execution
import Mathlib.Data.Nat.Find

/-!
Cross-fades. The code of a texture with several keys looks for the last key that is not after the
time, and shows the next one to the extent to which the time has come near to it.
-/

set_option autoImplicit false

namespace GlslMaterial.Shader

open Emission (blendCode)
open Glsl (Spells Tree isName isName_numbered spaced)

/-- The share of the second of two keys. -/
def weightCode (n : NodeId) : String :=
  let time := s!"textureTime{n}"
  let one := s!"textureIndex{n}"
  let other := s!"textureNext{n}"
  let start := s!"TextureKeyTimes{n}[{one}]"
  let stop := s!"TextureKeyTimes{n}[{other}]"
  let passed := s!"({time} - {start})"
  let whole := s!"({stop} - {start})"
  let same := s!"{other} == {one}"
  let share := Glsl.call "clamp" [s!"{passed} / {whole}", "0.0", "1.0"]
  s!"{same} ? 0.0 : {share}"

/-- The statements that choose two keys. -/
def fade (n : NodeId) (last : Nat) (time : String) : List Statement :=
  [.declare "float" s!"textureTime{n}" time,
   .declare "int" s!"textureIndex{n}" "0",
   .count "i" last
    (.check s!"textureTime{n} >= TextureKeyTimes{n}[i + 1]" s!"textureIndex{n}" "i + 1"),
   .declare "int" s!"textureNext{n}" s!"min(textureIndex{n} + 1, {last})",
   .declare "float" s!"textureBlend{n}" (weightCode n)]

set_option maxRecDepth 2000 in
theorem blendCode_eq_fade (n : NodeId) (last : Nat) (time uv : String) :
    blendCode n last time uv = Text.block
      ((fade n last time).flatMap Statement.lines ++ [Material.sampleLine n uv]) := by
  rw [Material.blendCode_eq]
  congr 2
  refine List.cons_eq_cons.2 ⟨?_, List.cons_eq_cons.2 ⟨?_, List.cons_eq_cons.2 ⟨?_,
    List.cons_eq_cons.2 ⟨?_, List.cons_eq_cons.2 ⟨rfl, List.cons_eq_cons.2 ⟨?_,
      List.cons_eq_cons.2 ⟨?_, rfl⟩⟩⟩⟩⟩⟩⟩
  iterate 5 exact String.toList_inj.1 (by simp)
  delta weightCode
  exact String.toList_inj.1 (by simp [Glsl.call])

section Searching

variable {times : List ℚ} {t : ℚ} {last index next k : Nat}

/-- The last key up to some place that is not after a time, and the first key if there is none. -/
def lastUpTo (times : List ℚ) (t : ℚ) (k : Nat) : Nat :=
  Nat.findGreatest (times.getD · 0 ≤ t) k

theorem lastUpTo_succ (times : List ℚ) (t : ℚ) (k : Nat) : lastUpTo times t (k + 1) =
    if times.getD (k + 1) 0 ≤ t then k + 1 else lastUpTo times t k :=
  Nat.findGreatest_succ k

theorem lastUpTo_le (times : List ℚ) (t : ℚ) (k : Nat) : lastUpTo times t k ≤ k :=
  Nat.findGreatest_le k

theorem lastUpTo_reached (times : List ℚ) (t : ℚ) (k : Nat) :
    lastUpTo times t k = 0 ∨ times.getD (lastUpTo times t k) 0 ≤ t :=
  (Nat.eq_zero_or_pos _).imp_right fun pos => Nat.findGreatest_of_ne_zero rfl pos.ne'

/-- The way from one key to the next, up to a time. -/
def weightOf (times : List ℚ) (t : ℚ) (index next : Nat) : Except Fault ℚ :=
  let divisor := times.getD next 0 - times.getD index 0
  if next = index then .ok 0
  else if divisor = 0 then .error .divisionByZero
  else .ok (min (max ((t - times.getD index 0) / divisor) 0) 1)

/-- What is shown at a time: two keys, and the share of the second. -/
structure Shown (times : List ℚ) (last : Nat) (t : ℚ) (index next : Nat) (blend : ℚ) : Prop where
  weight : weightOf times t index next = .ok blend
  divisor_pos : next ≠ index → 0 < times.getD next 0 - times.getD index 0
  early : t ≤ times.getD 0 0 → blend = 0
  exact : ∀ k ≤ last, times.getD k 0 = t → blend = 0 ∧ times.getD index 0 = t ∧ k ≤ index

variable (sorted : ∀ i j, i ≤ j → j ≤ last → times.getD i 0 ≤ times.getD j 0)
  (indexed : lastUpTo times t last = index) (followed : min (index + 1) last = next)
include sorted indexed followed

/-- Two keys have different times unless they are the first, and still to come. -/
theorem getD_lt_getD (safe : ¬(t < times.getD 0 0 ∧ times.getD 0 0 = times.getD 1 0))
    (other : next ≠ index) : times.getD index 0 < times.getD next 0 := by
  have le : index ≤ last := indexed ▸ lastUpTo_le times t last
  obtain rfl : next = index + 1 := by omega
  -- The search has gone through all keys.
  have later : t < times.getD (index + 1) 0 := by
    refine lt_of_not_ge fun reached => ?_
    have further : index + 1 ≤ lastUpTo times t last := Nat.le_findGreatest (by omega) reached
    omega
  refine lt_of_le_of_ne (sorted _ _ (by omega) (by omega)) fun equal => ?_
  rcases lastUpTo_reached times t last with first | reached
  · obtain rfl : index = 0 := by omega
    exact safe ⟨equal ▸ later, equal⟩
  · rw [indexed, equal] at reached
    exact absurd later (not_lt.2 reached)

theorem weightOf_eq_error_iff (several : 1 ≤ last) :
    weightOf times t index next = .error .divisionByZero ↔
      t < times.getD 0 0 ∧ times.getD 0 0 = times.getD 1 0 := by
  constructor
  · intro fault
    by_contra safe
    rw [weightOf] at fault
    split at fault
    · cases fault
    · rename_i other
      rw [if_neg (sub_pos.2 (getD_lt_getD sorted indexed followed safe other)).ne'] at fault
      cases fault
  · rintro ⟨early, equal⟩
    obtain rfl : index = 0 := by
      rcases lastUpTo_reached times t last with first | reached
      · omega
      · have order := sorted 0 _ (Nat.zero_le _) (lastUpTo_le times t last)
        exact absurd early (not_lt.2 (order.trans reached))
    obtain rfl : next = 1 := by omega
    rw [weightOf, if_neg (by decide), if_pos (sub_eq_zero.2 equal.symm)]

theorem exists_shown (safe : ¬(t < times.getD 0 0 ∧ times.getD 0 0 = times.getD 1 0)) :
    ∃ blend, Shown times last t index next blend := by
  have le : index ≤ last := indexed ▸ lastUpTo_le times t last
  have apart (other : next ≠ index) :=
    sub_pos.2 (getD_lt_getD sorted indexed followed safe other)
  obtain ⟨blend, weight, still⟩ : ∃ blend, weightOf times t index next = .ok blend ∧
      (t ≤ times.getD index 0 → blend = 0) := by
    by_cases same : next = index
    · exact ⟨0, if_pos same, fun _ => rfl⟩
    · refine ⟨_, (if_neg same).trans (if_neg (apart same).ne'), fun early => ?_⟩
      have low := div_nonpos_of_nonpos_of_nonneg (sub_nonpos.2 early) (apart same).le
      rw [max_eq_right low, min_eq_left zero_le_one]
  refine ⟨blend, weight, apart, fun early => still ?_, fun k bound equal => ?_⟩
  · exact early.trans (sorted 0 index (Nat.zero_le _) le)
  · have further : k ≤ index := indexed ▸ Nat.le_findGreatest bound equal.le
    have reached : times.getD index 0 ≤ t := by
      rcases lastUpTo_reached times t last with first | reached
      · obtain rfl : k = index := by omega
        exact equal.le
      · exact indexed ▸ reached
    have same := le_antisymm reached (equal ▸ sorted k index further le)
    exact ⟨still same.ge, same, further⟩

end Searching

section Running

variable {m : Meaning} {n : NodeId} {times : List ℚ} {last k index next : Nat} {t : ℚ}
  {locals : Locals} {value : Value}

/-- The variables of the search. -/
def found (n : NodeId) (t : ℚ) (index : Nat) : Locals :=
  [(s!"textureIndex{n}", .scalar .int index), (s!"textureTime{n}", .scalar .float t)]

theorem denotes_numbered {stem : String} (named : isName stem.toList = true)
    (found : locals.lookup s!"{stem}{n}" = some value) :
    Denotes (m.within locals) .operand s!"{stem}{n}" value :=
  .ofLookup (isName_numbered named n) found

/-- One more than a number. -/
theorem denotes_more {name : String}
    (denotes : Denotes (m.within locals) .operand name (.scalar .int k)) :
    Denotes (m.within locals) .sum s!"{name} + 1" (.scalar .int (k + 1 : Nat)) := by
  have one : Denotes (m.within locals) .operand "1" (.scalar .int (1 : Nat)) := .nat _ 1
  exact .operation .add (by decide) denotes one (by simp [spaced, Glsl.Operator.mark])
    (by simp [operate])

theorem denotes_difference {one other : String} {x y : ℚ}
    (first : Denotes (m.within locals) .operand one (.scalar .float x))
    (second : Denotes (m.within locals) .operand other (.scalar .float y)) :
    Denotes (m.within locals) .operand s!"({one} - {other})" (.scalar .float (x - y)) := by
  have shape : s!"({one} - {other})".toList = '(' :: (s!"{one} - {other}".toList ++ [')']) := by
    simp
  have difference : Denotes (m.within locals) .sum s!"{one} - {other}" (.scalar .float (x - y)) :=
    .operation .subtract (by decide) first second (by simp [spaced, Glsl.Operator.mark]) rfl
  obtain ⟨tree, spells, valued⟩ := difference
  rw [Denotes, shape]
  exact ⟨tree, spells.group, valued⟩

theorem value_next (t : ℚ) (index last : Nat) :
    (m.within (found n t index)).value s!"min(textureIndex{n} + 1, {last})" =
      .ok (.scalar .int (min (index + 1) last : Nat)) := by
  have shape : s!"min(textureIndex{n} + 1, {last})" =
      Glsl.call "min" [s!"textureIndex{n} + 1", toString last] :=
    String.toList_inj.1 (by simp [Glsl.call])
  have indexed : Denotes (m.within (found n t index)) .operand s!"textureIndex{n}" _ :=
    denotes_numbered (by decide) (List.lookup_cons_self ..)
  obtain ⟨more, spells, valued⟩ := denotes_more indexed
  obtain ⟨end_, also, known⟩ := Denotes.nat (m.within (found n t index)) last
  have whole : Spells .sum (Glsl.call "min" [s!"textureIndex{n} + 1", toString last]).toList _ :=
    (Spells.call (by decide) (.cons (spells.weaken (by decide)) (.cons also.operand .nil))
      (by simp)).operand
  rw [shape, value_of_spells whole, evaluate_call_of_forall₂ (.cons valued (.cons known .nil)),
    call_within (by decide)]
  simp [choose]

variable (known : m.named s!"TextureKeyTimes{n}" = some (.vector .float times))
include known

theorem denotes_keyTime {place : String} (free : locals.lookup s!"TextureKeyTimes{n}" = none)
    (placed : Denotes (m.within locals) (.upTo 13) place (.scalar .int k))
    (bound : k < times.length) :
    Denotes (m.within locals) .operand s!"TextureKeyTimes{n}[{place}]"
      (.scalar .float (times.getD k 0)) := by
  have named : isName s!"TextureKeyTimes{n}".toList = true := isName_numbered (by decide) n
  obtain ⟨tree, spells, valued⟩ := placed
  have table : evaluate (m.within locals) (.name s!"TextureKeyTimes{n}") =
      .ok (.vector .float times) := by
    simp only [evaluate, Meaning.within, free, known, Option.none_or]
  refine ⟨_, (Spells.name named).item spells, ?_⟩
  rw [evaluate, table, valued]
  simp [bind, Except.bind, Value.place, Value.item, bound]

/-- One round of the search. -/
theorem run_reached (bound : k + 1 < times.length) :
    (Statement.check s!"textureTime{n} >= TextureKeyTimes{n}[i + 1]" s!"textureIndex{n}"
      "i + 1").run m (("i", .scalar .int k) :: found n t (lastUpTo times t k)) =
      .ok (("i", .scalar .int k) :: found n t (lastUpTo times t (k + 1))) := by
  let place := "i + 1"
  set locals : Locals := ("i", .scalar .int k) :: found n t (lastUpTo times t k) with shape
  have counts : Denotes (m.within locals) .sum place (.scalar .int (k + 1 : Nat)) :=
    denotes_more (.ofLookup (by decide) (List.lookup_cons_self ..))
  have timed : Denotes (m.within locals) .operand s!"textureTime{n}" (.scalar .float t) :=
    denotes_numbered (by decide) (by simp [shape, found, lookup_cons, ← String.toList_inj])
  have key := denotes_keyTime known (by simp [shape, found, lookup_cons, ← String.toList_inj])
    (counts.weaken (by decide)) bound
  have test : Denotes (m.within locals) (.upTo 4)
      s!"textureTime{n} >= TextureKeyTimes{n}[i + 1]" (.truth (times.getD (k + 1) 0 ≤ t)) :=
    .operation .atLeast (by decide) timed key (by simp [spaced, Glsl.Operator.mark, place]) rfl
  have other : "i" ≠ s!"textureIndex{n}" := by simp [← String.toList_inj]
  rw [Statement.run, test.value_eq, counts.value_eq, lastUpTo_succ]
  generalize times.getD (k + 1) 0 = moment
  by_cases reached : moment ≤ t
  · rw [if_pos reached]
    have assigned : assign s!"textureIndex{n}" (.scalar .int (k + 1 : Nat)) locals =
        .ok (("i", .scalar .int k) :: found n t (k + 1)) := by
      rw [shape, assign, if_neg other, found, assign, if_pos rfl]
      rfl
    rw [← assigned]
    simp [reached, Value.isTrue, bind, Except.bind]
  · rw [if_neg reached]
    simp [reached, Value.isTrue, bind, Except.bind, pure, Except.pure, shape]

omit known in
/-- A part of a whole, kept between two bounds, unless there is no way to go. -/
theorem evaluate_progress {test above below low high : Tree} {same : Prop} [Decidable same]
    {x y : ℚ} (tested : evaluate (m.within locals) test = .ok (.truth same))
    (part : evaluate (m.within locals) above = .ok (.scalar .float x))
    (whole : evaluate (m.within locals) below = .ok (.scalar .float y))
    (zero : evaluate (m.within locals) low = .ok (.scalar .float 0))
    (one : evaluate (m.within locals) high = .ok (.scalar .float 1)) :
    evaluate (m.within locals)
      (.choice test low (.call "clamp" [.binary .divide above below, low, high])) =
      Except.map (Value.scalar .float) (if same then .ok 0 else if y = 0 then .error .divisionByZero
        else .ok (min (max (x / y) 0) 1)) := by
  rw [evaluate, tested, zero, evaluate_call, List.mapM_cons,
    evaluate_operate (by decide) part whole, mapM_evaluate (.cons zero (.cons one .nil))]
  by_cases still : same
  · simp [still, Value.isTrue, bind, Except.bind, Except.map]
  · by_cases none : y = 0
    · simp [operate, still, Value.isTrue, bind, Except.bind, Except.map, none]
    · simp [operate, still, Value.isTrue, bind, Except.bind, Except.map, none, pure, Except.pure,
        call_within (show constructor? "clamp" = .none by decide), choose, convertedTo]

theorem value_weightCode (bound : index < times.length) (further : next < times.length) :
    (m.within ((s!"textureNext{n}", .scalar .int next) :: found n t index)).value (weightCode n) =
      (weightOf times t index next).map (Value.scalar .float) := by
  set locals : Locals := (s!"textureNext{n}", .scalar .int next) :: found n t index with places
  have timed : Denotes (m.within locals) .operand s!"textureTime{n}" (.scalar .float t) :=
    denotes_numbered (by decide) (by simp [places, found, lookup_cons, ← String.toList_inj])
  have indexed : Denotes (m.within locals) .operand s!"textureIndex{n}" (.scalar .int index) :=
    denotes_numbered (by decide) (by simp [places, found, lookup_cons, ← String.toList_inj])
  have followed : Denotes (m.within locals) .operand s!"textureNext{n}" (.scalar .int next) :=
    denotes_numbered (by decide) (List.lookup_cons_self ..)
  have free : locals.lookup s!"TextureKeyTimes{n}" = none := by
    simp [places, found, lookup_cons, ← String.toList_inj]
  -- The text is put together from its parts, the innermost first.
  have begins := denotes_keyTime known free (indexed.upTo 13) bound
  have ends := denotes_keyTime known free (followed.upTo 13) further
  have compared (one other : String) : s!"{one} == {other}".toList =
      spaced one.toList .equal other.toList := by simp [spaced, Glsl.Operator.mark]
  obtain ⟨test, asked, tested⟩ : Denotes (m.within locals) (.upTo 5) _ (.truth (next = index)) :=
    .operation .equal (by decide) followed indexed (compared _ _) (by simp [operate])
  obtain ⟨above, spells, valued⟩ := denotes_difference timed begins
  obtain ⟨below, also, valuedToo⟩ := denotes_difference ends begins
  obtain ⟨_, zero, low⟩ := Denotes.zero (m.within locals)
  obtain ⟨_, ones, high⟩ := Denotes.one (m.within locals)
  have divided (one other : String) : s!"{one} / {other}".toList =
      spaced one.toList .divide other.toList := by simp [spaced, Glsl.Operator.mark]
  have quotient := Spells.binary .divide spells.operand also.operand
  rw [← divided] at quotient
  have chosen (test share : String) : s!"{test} ? 0.0 : {share}".toList = test.toList ++
      ([' ', '?', ' '] ++ ("0.0".toList ++ ([' ', ':', ' '] ++ share.toList))) := by simp
  have code := Spells.choice (asked.weaken (by decide)) zero.operand
    (Spells.call (show isName "clamp".toList = true by decide) (.cons (quotient.weaken (by decide))
      (.cons zero.operand (.cons ones.operand .nil))) (by simp)).operand
  rw [← chosen] at code
  delta weightCode
  rw [value_of_spells code]
  exact evaluate_progress tested valued valuedToo low high

theorem run_fade {time : String} (timed : Denotes (m.within []) .sum time (.scalar .float t))
    (length : times.length = last + 1) :
    let index := lastUpTo times t last
    let next := min (index + 1) last
    runAll m (fade n last time) [] = (weightOf times t index next).map fun blend =>
      (s!"textureBlend{n}", .scalar .float blend) :: (s!"textureNext{n}", .scalar .int next) ::
        found n t index := by
  intro index next
  have le : index ≤ last := lastUpTo_le times t last
  have more : next ≤ last := Nat.min_le_right _ _
  have begun : (Statement.declare "float" s!"textureTime{n}" time).run m [] = _ :=
    run_declare timed.value_eq
  have first : (Statement.declare "int" s!"textureIndex{n}" "0").run m
      [(s!"textureTime{n}", .scalar .float t)] = .ok (found n t (lastUpTo times t 0)) :=
    run_declare (((Denotes.nat _ 0).upTo 0).value_eq)
  have searched := run_count (fun k => found n t (lastUpTo times t k))
    fun k (less : k < last) => ⟨_, run_reached known (by omega), rfl⟩
  have chosen : (Statement.declare "int" s!"textureNext{n}"
      s!"min(textureIndex{n} + 1, {last})").run m (found n t index) = _ :=
    run_declare (value_next t index last)
  have weighed : (Statement.declare "float" s!"textureBlend{n}" (weightCode n)).run m
      ((s!"textureNext{n}", .scalar .int next) :: found n t index) = _ :=
    run_declare (value_weightCode known (by omega) (by omega))
  rw [fade, runAll_of_run begun, runAll_of_run first, runAll_of_run searched,
    runAll_of_run chosen, runAll, List.foldlM_cons, weighed]
  cases weightOf times t index next <;> rfl

end Running

section Textures

theorem pairwise_times {c : Construct} {texture : Texture} {times : List ℚ}
    (built : Texture.ofConstruct c = .ok texture)
    (exact : texture.keys.map (Decimal.rational? ·.time) = times.map some) :
    times.Pairwise (· ≤ ·) := by
  obtain ⟨keys, -, sorted, -⟩ := Texture.exists_keys built
  have ranked : (times.map some).Pairwise fun x y => ∀ a b, x = some a → y = some b → a ≤ b := by
    rw [← exact, List.pairwise_map, sorted]
    refine (pairwise_sortBy (fun key : ChannelKey => orderKey key.time) keys).imp ?_
    exact fun le a b => Decimal.rational?_le le
  exact (List.pairwise_map.1 ranked).imp fun le => le _ _ rfl rfl

/-- The cross-fade of a texture over exact arithmetic, where a table has the times of the keys. It
divides by zero before the first key if the second has the same time, and else shows a key at its
time, and the first one until then. -/
theorem blendCode_fades {c : Construct} {texture : Texture}
    (built : Texture.ofConstruct c = .ok texture) (several : 2 ≤ texture.keys.length)
    {times : List ℚ} (exact : texture.keys.map (Decimal.rational? ·.time) = times.map some)
    {m : Meaning} {n : NodeId}
    (known : m.named s!"TextureKeyTimes{n}" = some (.vector .float times)) {time : String} {t : ℚ}
    (timed : Denotes (m.within []) .sum time (.scalar .float t)) (uv : String) :
    let last := texture.keys.length - 1
    let tied := t < times.getD 0 0 ∧ times.getD 0 0 = times.getD 1 0
    blendCode n last time uv = Text.block
      ((fade n last time).flatMap Statement.lines ++ [Material.sampleLine n uv]) ∧
    ∃ index next, index ≤ last ∧ next ≤ last ∧
      runAll m (fade n last time) [] = ((weightOf times t index next).map fun blend =>
        [(s!"textureBlend{n}", .scalar .float blend), (s!"textureNext{n}", .scalar .int next),
          (s!"textureIndex{n}", .scalar .int index), (s!"textureTime{n}", .scalar .float t)]) ∧
      (weightOf times t index next = .error .divisionByZero ↔ tied) ∧
      (¬tied → ∃ blend, Shown times last t index next blend) := by
  intro last tied
  have length : times.length = last + 1 := by
    have same := congrArg List.length exact
    rw [List.length_map, List.length_map] at same
    omega
  have sorted (i j : Nat) (le : i ≤ j) (bound : j ≤ last) : times.getD i 0 ≤ times.getD j 0 := by
    rcases Nat.eq_or_lt_of_le le with rfl | less
    · exact le_refl _
    · have order := List.pairwise_iff_getElem.1 (pairwise_times built exact) i j
        (by omega) (by omega)
      simpa [show i < times.length by omega, show j < times.length by omega] using order less
  refine ⟨blendCode_eq_fade .., _, _, lastUpTo_le .., Nat.min_le_right _ _,
    run_fade known timed length,
    weightOf_eq_error_iff sorted rfl rfl (by omega), exists_shown sorted rfl rfl⟩

/-- A texture of two files, with a key for each. -/
def twoKeys (first second : Int) : Construct :=
  let file (name : String) : Construct := ⟨.file, some name, [], [], []⟩
  let key (time channel : Int) : Construct := ⟨.keyframe, none,
    [⟨.time, none, some (.number (.int time))⟩, ⟨.count, none, some (.number (.int channel))⟩], [],
    []⟩
  ⟨.texture, none, [], [], [file "a.png", file "b.png", key first 0, key second 1]⟩

/-- A table of times, and no other names. -/
def tabled (n : NodeId) (times : List ℚ) : Meaning where
  named name := if name = s!"TextureKeyTimes{n}" then some (.vector .float times) else none
  member _ _ := none
  number _ := none
  unary _ _ := .error .stuck
  binary := operate
  function := choose

/-- At the time of the last key, that key is shown alone. -/
theorem blendCode_fades_last : ∃ texture next, Texture.ofConstruct (twoKeys 1 2) = .ok texture ∧
    texture.keys.map (Decimal.rational? ·.time) = [some 1, some 2] ∧
    runAll (tabled 3 [1, 2]) (fade 3 1 "2.0") [] =
      .ok [("textureBlend3", .scalar .float 0), ("textureNext3", .scalar .int (next : Nat)),
        ("textureIndex3", .scalar .int 1), ("textureTime3", .scalar .float 2)] := by
  have evaluated : (Texture.ofConstruct (twoKeys 1 2)).toOption.any (fun texture =>
      texture.keys.map (Decimal.rational? ·.time) = [some 1, some 2]) = true := by
    decide +kernel
  obtain ⟨texture, built, exact⟩ := Material.exists_ok_of_any evaluated
  have exact := of_decide_eq_true exact
  have size : texture.keys.length = 2 := by simpa using congrArg List.length exact
  have two : Denotes ((tabled 3 [1, 2]).within []) .operand "2.0" (.scalar .float 2) :=
    .literal (by decide) (by decide +kernel)
  obtain ⟨-, index, next, le, -, ran, -, shows⟩ := @blendCode_fades _ _ built (by omega) [1, 2]
    exact (tabled 3 [1, 2]) 3 rfl _ _ (two.upTo 2) "uv"
  rw [size] at le ran shows
  obtain ⟨blend, shown⟩ := shows (by decide +kernel)
  obtain ⟨rfl, -, late⟩ := shown.exact 1 (by decide) rfl
  obtain rfl : index = 1 := Nat.le_antisymm le late
  rw [shown.weight] at ran
  exact ⟨texture, next, built, exact, ran⟩

/-- Before two keys with one time, the code divides by zero. -/
theorem blendCode_divides_by_zero : ∃ texture, Texture.ofConstruct (twoKeys 1 1) = .ok texture ∧
    texture.keys.map (Decimal.rational? ·.time) = [some 1, some 1] ∧
    blendCode 3 1 "0.0" "uv" = Text.block
      ((fade 3 1 "0.0").flatMap Statement.lines ++ [Material.sampleLine 3 "uv"]) ∧
    runAll (tabled 3 [1, 1]) (fade 3 1 "0.0") [] = .error .divisionByZero := by
  have evaluated : (Texture.ofConstruct (twoKeys 1 1)).toOption.any (fun texture =>
      texture.keys.map (Decimal.rational? ·.time) = [some 1, some 1]) = true := by
    decide +kernel
  obtain ⟨texture, built, exact⟩ := Material.exists_ok_of_any evaluated
  refine ⟨texture, built, of_decide_eq_true exact, blendCode_eq_fade .., ?_⟩
  rw [@run_fade (tabled 3 [1, 1]) 3 [1, 1] 1 0 rfl _ ((Denotes.zero _).upTo 2) rfl]
  norm_num [lastUpTo, weightOf, Except.map]

end Textures

end GlslMaterial.Shader
