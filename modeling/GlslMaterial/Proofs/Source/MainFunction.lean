import GlslMaterial.Proofs.History.Version
import GlslMaterial.Proofs.Source.Mention
import GlslMaterial.Proofs.Twin.Parallel

/-!
The main function of a source: what follows the line that begins it depends on those sections only
that are not for helpers, declarations and the version.
-/

set_option autoImplicit false

namespace GlslMaterial

/-- The line with which a main function begins. -/
def mainLine : List Char :=
  "void main () \x7b".toList

/-- The lines that follow the last one with which a main function begins. -/
def mainLines (text : List Char) : List (List Char) :=
  ((Text.linesWithEnds text).reverse.takeWhile (· != mainLine ++ ['\n'])).reverse

def mainPart (text : String) : List (List Char) :=
  mainLines text.toList

theorem mainPart_compiled_eq (s : Source) : mainPart s.compiled =
    mainLines ((Text.linesWithEnds s.text).filter fun line =>
      !Source.isMarkerLine line).flatten := by
  rw [mainPart, Source.compiled, String.toList_ofList]

/-- Whether what is put at a marker comes into the main function or into the interface, which do not
depend on the code of fractals. -/
def Marker.isFirm (marker : Marker) : Bool :=
  !marker.isLoose && marker != .version

theorem takeWhile_append_cons_of_not {α : Type} {p : α → Bool} {stop : α} (not : p stop = false)
    (items rest : List α) : (items ++ stop :: rest).takeWhile p = items.takeWhile p := by
  induction items with
  | nil => simp [not]
  | cons a items ih => simp [List.takeWhile_cons, ih]

theorem mainPart_terminated {text : String} {before rest : List (List Char)}
    (cut : text.toList = Text.terminated (before ++ mainLine :: rest))
    (whole : ∀ line ∈ before ++ mainLine :: rest, '\n' ∉ line) :
    mainPart text =
      ((rest.map (· ++ ['\n'])).reverse.takeWhile (· != mainLine ++ ['\n'])).reverse := by
  rw [mainPart, cut, mainLines, Text.linesWithEnds_terminated whole, List.map_append, List.map_cons,
    List.reverse_append, List.reverse_cons, List.append_assoc, List.singleton_append,
    takeWhile_append_cons_of_not (by decide)]

/-- The template of a stage has one line with which its main function begins, and below it only
places of firm code. -/
theorem Stage.exists_mainLine (stage : Stage) :
    ∃ before rest, stage.lines = before ++ mainLine :: rest ∧
      ∀ line ∈ rest, ∀ marker, Marker.ofLine? line = some marker → marker.isFirm = true := by
  refine ⟨stage.lines.takeWhile (· != mainLine), (stage.lines.dropWhile (· != mainLine)).tail, ?_⟩
  have checked : stage.lines = stage.lines.takeWhile (· != mainLine) ++
      mainLine :: (stage.lines.dropWhile (· != mainLine)).tail ∧
        ((stage.lines.dropWhile (· != mainLine)).tail.all fun line =>
          (Marker.ofLine? line).all Marker.isFirm) = true := by
    rcases stage.lines_eq with same | same | same <;> rw [same] <;> decide
  refine ⟨checked.1, fun line member marker holds => ?_⟩
  have firm := List.all_eq_true.1 checked.2 line member
  rwa [holds] at firm

namespace Sections

/-- The same code at all firm places. -/
def AgreeFirmly (one two : Sections) : Prop :=
  ∀ marker : Marker, marker.isFirm = true → one marker = two marker

theorem mainPart_compiled {one two : Sections} (first : one.Plain) (second : two.Plain)
    (agree : one.AgreeFirmly two) (stage : Stage) :
    mainPart (one.source stage).compiled = mainPart (two.source stage).compiled := by
  obtain ⟨before, rest, cut, firm⟩ := stage.exists_mainLine
  let placed (sections : Sections) (line : List Char) :=
    sections.above line ++ if (Marker.ofLine? line).isSome then [] else [line]
  have bare (sections : Sections) : placed sections mainLine = [mainLine] := by
    have none : Marker.ofLine? mainLine = none := by decide
    simp [placed, above, none]
  have split (sections : Sections) : sections.finishedLines stage =
      before.flatMap (placed sections) ++ mainLine :: rest.flatMap (placed sections) := by
    show stage.lines.flatMap (placed sections) = _
    rw [cut, List.flatMap_append, List.flatMap_cons, bare, List.singleton_append]
  have part {sections : Sections} (plain : sections.Plain) :
      mainPart (sections.source stage).compiled = (((rest.flatMap (placed sections)).map
        (· ++ ['\n'])).reverse.takeWhile (· != mainLine ++ ['\n'])).reverse := by
    have text := compiled_source plain stage
    rw [split] at text
    refine mainPart_terminated text ?_
    rw [← split]
    exact fun line member => newline_notMem_lines plain stage line
      (mem_lines_of_mem_finishedLines member)
  have same : rest.flatMap (placed one) = rest.flatMap (placed two) := by
    rw [List.flatMap_def, List.flatMap_def]
    congr 1
    refine List.map_congr_left fun line member => ?_
    have equal : one.above line = two.above line := by
      unfold above
      split
      · rename_i marker holds
        rw [agree marker (firm line member marker holds)]
      · rfl
    simp only [placed, equal]
  rw [part first, part second, same]

/-- The code at firm places only. -/
def firm (sections : Sections) : Sections :=
  fun marker => if marker.isLoose then [] else sections marker

theorem mentions_firm {sections : Sections} {name : String} (filled : name.toList ≠ [])
    (newline : '\n' ∉ name.toList) (blank : ' ' ∉ name.toList)
    (silent : ∀ marker : Marker, marker.isLoose = true →
      ∀ line ∈ sections marker, ¬ name.toList <:+: line) (stage : Stage) :
    (sections.firm.source stage).mentions name = (sections.source stage).mentions name := by
  simp only [Source.mentions, source, Text.hasKeyword_terminated filled newline, lines,
    List.any_flatMap]
  congr 1
  funext line
  simp only [List.any_append]
  congr 1
  unfold above
  split
  · rename_i marker holds
    rw [firm]
    split
    · rename_i loose
      rw [List.map_nil, List.any_nil, List.any_map, eq_comm, List.any_eq_false]
      intro inserted member has
      have outside : ∀ c ∈ indentation line, c ∉ name.toList := fun c inside =>
        eq_blank_of_mem_indentation inside ▸ blank
      exact silent marker loose inserted member
        (Source.infix_of_laid outside (Text.infix_of_hasKeyword has))
    · rfl
  · rfl

end Sections

end GlslMaterial
