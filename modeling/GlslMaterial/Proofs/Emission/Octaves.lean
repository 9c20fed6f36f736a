import GlslMaterial.Proofs.Glsl.Reserved

/-!
Octaves: the function of a fractal written out. Main statement: it adds one expression for each
weight, in order, and turns the plane between each two; in the expressions both placeholders are
replaced at once.
-/

set_option autoImplicit false

namespace GlslMaterial

namespace Text

/-- Replaces the pieces of a table at once, from the left, with `skip` characters of an occurrence
still to be dropped. What stands for a piece is not read again. -/
def substituteFrom (table : List (List Char × List Char)) : Nat → List Char → List Char
  | _, [] => []
  | skip + 1, _ :: rest => substituteFrom table skip rest
  | 0, c :: rest =>
    match table.find? fun entry => entry.1.isPrefixOf (c :: rest) with
    | some (piece, replacement) => replacement ++ substituteFrom table (piece.length - 1) rest
    | none => c :: substituteFrom table 0 rest

def substitute (table : List (List Char × List Char)) (text : List Char) : List Char :=
  substituteFrom table 0 text

theorem replaceFrom_drop (piece replacement : List Char) (skip : Nat) (text : List Char) :
    replaceFrom piece replacement skip text = replaceFrom piece replacement 0 (text.drop skip) := by
  induction text generalizing skip with
  | nil => simp [replaceFrom]
  | cons c rest ih =>
    cases skip with
    | zero => rfl
    | succ skip => exact ih skip

section Marked

variable {mark : Char} {tail replacement : List Char}

/-- Text without the first character of a piece is kept. -/
theorem replaceFrom_append_of_notMem {front : List Char} (plain : mark ∉ front) (rest : List Char) :
    replaceFrom (mark :: tail) replacement 0 (front ++ rest) =
      front ++ replaceFrom (mark :: tail) replacement 0 rest := by
  induction front with
  | nil => rfl
  | cons c front ih =>
    obtain ⟨other, later⟩ := not_or.1 (mt List.mem_cons.2 plain)
    rw [List.cons_append, replaceFrom, if_neg (by simp [other]), ih later, List.cons_append]

theorem replaceFrom_append_self (rest : List Char) :
    replaceFrom (mark :: tail) replacement 0 (mark :: tail ++ rest) =
      replacement ++ replaceFrom (mark :: tail) replacement 0 rest := by
  rw [List.cons_append, replaceFrom, if_pos (by simp), replaceFrom_drop]
  simp

end Marked

/-- Two pieces that begin with one mark, and have it nowhere else, are replaced one after the other
as they are at once, when what stands for the first has no character of the second. -/
theorem replaceAll_replaceAll {mark : Char} {first second filling other : List Char}
    (unmarked : mark ∉ second) (filled : filling ≠ []) (apart : ∀ c ∈ filling, c ∉ mark :: second)
    (text : List Char) :
    replaceAll (mark :: second) other (replaceAll (mark :: first) filling text) =
      substitute [(mark :: first, filling), (mark :: second, other)] text := by
  suffices ∀ skip, replaceFrom (mark :: second) other 0
      (replaceFrom (mark :: first) filling skip text) =
        substituteFrom [(mark :: first, filling), (mark :: second, other)] skip text by
    simpa [replaceAll, substitute] using this 0
  intro skip
  fun_induction substituteFrom [(mark :: first, filling), (mark :: second, other)] skip text with
  | case1 => simp [replaceFrom]
  | case2 skip c rest ih => exact ih
  | case3 c rest piece replacement found ih =>
    rw [List.find?_cons] at found
    split at found
    · next begins =>
      obtain ⟨rfl, rfl⟩ := Prod.mk.inj (Option.some.inj found)
      have plain : mark ∉ filling := fun member => apart mark member List.mem_cons_self
      rw [replaceFrom, if_pos begins, replaceFrom_append_of_notMem plain, ih]
    · next absent =>
      obtain ⟨⟨rfl, after, rfl⟩, rfl, rfl⟩ : (mark = c ∧ second <+: rest) ∧
          mark :: second = piece ∧ other = replacement := by simpa using found
      -- the first replacement passes over the second piece, which has the mark at its start only
      have passed : replaceFrom (mark :: first) filling second.length (second ++ after) =
          replaceFrom (mark :: first) filling 0 after := by
        rw [replaceFrom_drop, List.drop_left]
      rw [replaceFrom, if_neg (Bool.eq_false_iff.1 absent), replaceFrom_append_of_notMem unmarked,
        ← List.cons_append, replaceFrom_append_self, ← ih, List.length_cons, Nat.add_sub_cancel,
        passed]
  | case4 c rest found ih =>
    have absent := List.find?_eq_none.1 found
    have first_absent := absent _ List.mem_cons_self
    have second_absent := absent _ (List.mem_cons_of_mem _ List.mem_cons_self)
    have step : replaceFrom (mark :: first) filling 0 (c :: rest) =
        c :: replaceFrom (mark :: first) filling 0 rest := by
      rw [replaceFrom, if_neg first_absent]
    rw [step, replaceFrom, if_neg, ih]
    rw [← step, List.isPrefixOf_iff_prefix]
    intro begins
    have still := prefix_of_replaceFrom filled apart begins
    exact second_absent <| List.isPrefixOf_iff_prefix.2 still

theorem intercalate_cons (between first : List Char) (others : List (List Char)) :
    between.intercalate (first :: others) = first ++ others.flatMap (between ++ ·) := by
  induction others generalizing first with
  | nil => simp
  | cons second others ih =>
    rw [List.intercalate_cons_of_ne_nil (by simp), ih, List.flatMap_cons]
    simp

end Text

namespace Fractal

/-- An octave's expression with its weight and its index in the place of their placeholders. -/
def filledCode (f : Fractal) (weight : Float) (octave : Nat) : String :=
  String.ofList (Text.substitute [("$WEIGHT".toList, (Glsl.float64 weight).toList),
    ("$INDEX".toList, (toString octave).toList)] f.code.toList)

theorem octaveCode_eq_filledCode (f : Fractal) (octave : Nat) :
    f.octaveCode octave = f.filledCode (f.weight octave) octave := by
  obtain ⟨some, number⟩ := Bool.and_eq_true_iff.1 (Glsl.isNumeral_float64 (f.weight octave))
  have filled : (Glsl.float64 (f.weight octave)).toList ≠ [] := by simpa using some
  have apart : ∀ c ∈ (Glsl.float64 (f.weight octave)).toList, c ∉ '$' :: "INDEX".toList := by
    intro c member inside
    have letters : ∀ c ∈ '$' :: "INDEX".toList, Glsl.isNumberChar c = false := by
      simp [Glsl.isNumberChar]
    exact absurd (List.all_eq_true.1 number c member) (by simp [letters c inside])
  have weightMark : "$WEIGHT".toList = '$' :: "WEIGHT".toList := rfl
  have indexMark : "$INDEX".toList = '$' :: "INDEX".toList := rfl
  rw [octaveCode, filledCode, Decimal.toList_toString, weightMark, indexMark]
  exact congrArg String.ofList (Text.replaceAll_replaceAll (by decide) filled apart f.code.toList)

theorem weights_zipIdx (f : Fractal) :
    f.weights.zipIdx = (List.range f.octaves).map fun octave => (f.weight octave, octave) := by
  apply List.ext_getElem <;> simp [weights]

theorem terminated_octaveLines (f : Fractal) (n : Nat) :
    Text.terminated (((List.range n).flatMap f.octaveLines).map String.toList) =
      (rotation ++ "\n").toList.intercalate
        ((List.range n).map fun octave => s!"    total += {f.octaveCode octave};\n".toList) := by
  cases n with
  | zero => rfl
  | succ n =>
    rw [List.range_succ_eq_map, List.flatMap_cons, List.map_append, Text.terminated_append,
      List.map_cons, Text.intercalate_cons]
    refine congr (congrArg HAppend.hAppend ?_) ?_
    · simp [octaveLines]
    · simp [Text.terminated, List.flatMap_map, List.map_flatMap, List.flatMap_assoc, octaveLines]

/-- The function of a fractal is its header, the sums of its octaves with the turn of the plane
between each two of them, and its end. There is one sum for each weight; its expression is the
fractal's code in which the literal of the weight and the numeral of the octave stand for the
placeholders, replaced at once. -/
theorem function_unrolls (f : Fractal) (name : String) :
    f.weights.length = f.octaves ∧
    f.function name =
      "float " ++ name ++ "(in vec2 point) \x7b\n    float total = 0.0;\n" ++
      "    point = mat2(1.6, 1.2, -1.2, 1.6) * point;\n".intercalate
        (f.weights.zipIdx.map fun octave =>
          "    total += " ++ f.filledCode octave.1 octave.2 ++ ";\n") ++
      "    return total;\n\x7d" := by
  refine ⟨by simp [weights], String.toList_injective ?_⟩
  have sums (octave : Nat) : s!"    total += {f.octaveCode octave};\n" =
      "    total += " ++ f.filledCode (f.weight octave) octave ++ ";\n" := by
    rw [octaveCode_eq_filledCode]
    rfl
  rw [function, List.append_cons _ "    return total;", Text.toList_block_append]
  simp only [List.map_append, Text.terminated_append, terminated_octaveLines, sums]
  simp [weights_zipIdx, String.toList_intercalate, Text.terminated, rotation, Function.comp_def]

end Fractal

end GlslMaterial
