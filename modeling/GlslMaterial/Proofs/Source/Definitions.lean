import GlslMaterial.Proofs.Source.Refinement
import GlslMaterial.Proofs.Text.FirstWord
import GlslMaterial.Proofs.Text.Words
import Mathlib.Data.List.Induction

/-!
Definitions: the lines above the marker of the definitions. A definition is left out where the
search for it finds something, which need not be the same definition: it may be the beginning of
another one. Main statement: the lines are the distinct definitions in the order of their first
calls if and only if no definition is found in the line of another one that was made before.
-/

set_option autoImplicit false

namespace GlslMaterial

namespace Text

theorem lines_terminated {ended : List (List Char)} (whole : ∀ line ∈ ended, '\n' ∉ line)
    {last : List Char} (plain : '\n' ∉ last) :
      lines (terminated ended ++ last) = ended ++ [last] := by
  induction ended with
  | nil => exact lines_of_notMem plain
  | cons line ended ih =>
    obtain ⟨first, rest⟩ := List.forall_mem_cons.1 whole
    rw [terminated_cons, List.append_assoc, List.cons_append, lines_append_newline,
      lines_of_notMem first, ih rest]
    rfl

theorem dropWhileRight_dropWhileRight {p q : Char → Bool} (fewer : ∀ c, q c = true → p c = true)
    (text : List Char) : dropWhileRight q (dropWhileRight p text) = dropWhileRight p text := by
  have twice (text : List Char) : (text.dropWhile p).dropWhile q = text.dropWhile p := by
    induction text with
    | nil => rfl
    | cons c text ih =>
      cases goes : p c with
      | true => simpa [goes] using ih
      | false =>
        have stays : q c = false := Bool.eq_false_iff.2 fun also => by simp [fewer c also] at goes
        simp [goes, stays]
  rw [dropWhileRight, dropWhileRight, List.reverse_reverse, twice]

theorem hasKeyword_self {symbol : List Char} (filled : symbol ≠ []) :
    hasKeyword symbol symbol = true := by
  obtain ⟨c, tail, rfl⟩ := List.exists_cons_of_ne_nil filled
  have bounded : delimited (c :: tail) none none = true :=
    (delimited_iff_bounded filled [] []).2 ⟨by simp, by simp⟩
  simp [hasKeyword, splitKeyword, splitKeywordFrom, bounded]

end Text

namespace Sections

variable {sections : Sections} {stage : Stage}

theorem mentions_source {name : String} (filled : name.toList ≠ []) (newline : '\n' ∉ name.toList)
    (sections : Sections) (stage : Stage) :
    (sections.source stage).mentions name = stage.lines.any fun line =>
      (sections.above line).any (Text.hasKeyword name.toList) ||
        Text.hasKeyword name.toList line := by
  simp only [Source.mentions, source, Text.hasKeyword_terminated filled newline, lines,
    List.any_flatMap, List.any_append, List.any_cons, List.any_nil, Bool.or_false]

theorem above_defines (sections : Sections) :
    sections.above "#DEFINES".toList = (sections .defines).map (Source.laid []) := rfl

/-- The sections of a source that has nothing but definitions. -/
def defining (lines : List String) : Sections :=
  fun marker => if marker = .defines then lines.map String.toList else []

theorem defining_nil : defining [] = empty := by
  funext marker
  simp [defining, empty]

theorem defining_concat {line : String} (whole : '\n' ∉ line.toList) (lines : List String) :
    (defining lines).add .defines line = defining (lines ++ [line]) := by
  funext marker
  by_cases here : marker = .defines <;>
    simp [defining, add, here, Source.codeLines_of_notMem whole]

theorem lines_defining (lines : List String) (stage : Stage) :
    (defining lines).lines stage = "#VERSION".toList ::
      lines.map (fun line => Source.laid [] line.toList) ++ stage.lines.tail := by
  have other {line : List Char} (different : Marker.ofLine? line ≠ some .defines) :
      (defining lines).above line = [] := by
    unfold above
    split
    · rename_i marker holds
      have elsewhere : marker ≠ .defines := fun same => different (same ▸ holds)
      rw [defining, if_neg elsewhere]
      rfl
    · rfl
  have bare (rest : List (List Char)) (free : ∀ line ∈ rest, Marker.ofLine? line ≠ some .defines) :
      rest.flatMap (fun line => (defining lines).above line ++ [line]) = rest := by
    induction rest with
    | nil => rfl
    | cons line rest ih =>
      obtain ⟨first, later⟩ := List.forall_mem_cons.1 free
      rw [List.flatMap_cons, other first, ih later]
      rfl
  have begins : stage.lines = "#VERSION".toList :: "#DEFINES".toList :: stage.lines.tail.tail := by
    cases stage <;> rfl
  have free : ∀ line ∈ stage.lines.tail.tail, Marker.ofLine? line ≠ some .defines := by
    cases stage <;> decide
  have version : Marker.ofLine? "#VERSION".toList ≠ some .defines := by decide
  rw [Sections.lines, begins, List.flatMap_cons, List.flatMap_cons, bare _ free, other version,
    above_defines, defining, if_pos rfl, List.map_map]
  simp

end Sections

namespace Source

def definition (text : String) : String :=
  s!"#define {text}"

def definitionLine (text : String) : List Char :=
  laid [] (definition text).toList

/-- Whether the search for a definition finds it in the line of another one. -/
def shadows (other text : String) : Bool :=
  Text.hasKeyword (definition text).toList (definitionLine other)

/-- The texts that stay, where each one is left out that an earlier one shadows. -/
def kept (texts : List String) : List String :=
  texts.foldl (fun kept text => if kept.any (shadows · text) then kept else kept ++ [text]) []

def linesAbove (s : Source) (marker : Marker) : List (List Char) :=
  (Text.lines s.text).takeWhile (· != marker.text.toList)

theorem toList_definition (text : String) :
    (definition text).toList = "#define ".toList ++ text.toList := by
  simp [definition]

theorem definition_ne_nil (text : String) : (definition text).toList ≠ [] := by
  simp [toList_definition]

theorem definitionLine_eq {text : String} (filled : text ≠ "")
    (solid : Text.trimRight text.toList = text.toList) :
    definitionLine text = (definition text).toList := by
  have some : text.toList ≠ [] := by simpa using filled
  obtain ⟨front, c, cut⟩ := (List.eq_nil_or_concat text.toList).resolve_left some
  have last : Text.isBlank c = false := by
    refine Bool.eq_false_iff.2 fun blank => ?_
    have shorter := (Text.dropWhileRight_isPrefix Text.isBlank front).length_le
    have length := congrArg List.length solid
    rw [cut] at length
    simp [Text.trimRight, Text.dropWhileRight, blank] at length shorter
    omega
  rw [definitionLine, toList_definition, cut, List.concat_eq_append, ← List.append_assoc,
    laid_concat [] _ last, List.nil_append]

theorem kept_concat (texts : List String) (text : String) :
    kept (texts ++ [text]) =
      if (kept texts).any (shadows · text) then kept texts else kept texts ++ [text] := by
  simp [kept]

theorem kept_subset (texts : List String) : ∀ text ∈ kept texts, text ∈ texts := by
  induction texts using List.reverseRecOn with
  | nil => simp [kept]
  | append_singleton texts text ih =>
    intro other member
    rw [kept_concat] at member
    split at member
    · exact List.mem_append_left _ (ih other member)
    · rcases List.mem_append.1 member with early | late
      · exact List.mem_append_left _ (ih other early)
      · exact List.mem_append_right _ late

theorem pairwise_kept (texts : List String) :
    (kept texts).Pairwise fun earlier later => shadows earlier later = false := by
  induction texts using List.reverseRecOn with
  | nil => simp [kept]
  | append_singleton texts text ih =>
    rw [kept_concat]
    split
    · exact ih
    · rename_i free
      refine List.pairwise_append.2 ⟨ih, List.pairwise_singleton _ _, ?_⟩
      intro earlier member later here
      rw [List.mem_singleton.1 here]
      exact Bool.eq_false_iff.2 fun found => free (List.any_eq_true.2 ⟨earlier, member, found⟩)

/-- All texts stay, each one once, where none is empty or shadowed by another one before it. -/
theorem kept_eq_eraseDups {texts : List String} (filled : "" ∉ texts)
    (solid : ∀ text ∈ texts, Text.trimRight text.toList = text.toList)
    (apart : texts.eraseDups.Pairwise fun earlier later => shadows earlier later = false) :
    kept texts = texts.eraseDups := by
  induction texts using List.reverseRecOn with
  | nil => rfl
  | append_singleton texts text ih =>
    obtain ⟨early, late⟩ := List.forall_mem_append.1 solid
    have some : text ≠ "" := fun same => filled (by simp [same])
    rw [List.eraseDups_append] at apart ⊢
    have first := ih (fun member => filled (List.mem_append_left _ member)) early
      (List.pairwise_append.1 apart).1
    rw [kept_concat, first]
    by_cases again : text ∈ texts
    · have found : texts.eraseDups.any (shadows · text) = true := by
        refine List.any_eq_true.2 ⟨text, List.mem_eraseDups.2 again, ?_⟩
        rw [shadows, definitionLine_eq some (late text List.mem_cons_self)]
        exact Text.hasKeyword_self (definition_ne_nil text)
      rw [if_pos found]
      simp [List.removeAll, again]
    · have gone : [text].removeAll texts = [text] := by simp [List.removeAll, again]
      rw [gone] at apart ⊢
      have free : ¬ texts.eraseDups.any (shadows · text) = true := by
        intro found
        obtain ⟨earlier, member, shadowed⟩ := List.any_eq_true.1 found
        have none := (List.pairwise_append.1 apart).2.2 earlier member text (by simp)
        rw [shadowed] at none
        cases none
      rw [if_neg free]
      rfl

theorem isPlain_definition {text : String}
    (free : ∀ marker : Marker, ¬ marker.text.toList <:+: text.toList) :
    isPlain (definition text).toList = true := by
  have directive : ∀ marker : Marker, ¬ marker.text.toList <:+: "#define".toList ∧
      ' ' ∉ marker.text.toList := by
    intro marker
    cases marker <;> decide +kernel
  refine List.all_eq_true.2 fun marker _ => ?_
  rw [Bool.not_eq_true']
  refine Bool.eq_false_iff.2 fun has => ?_
  have found := Text.infix_of_hasKeyword has
  have cut : (definition text).toList = "#define".toList ++ ' ' :: text.toList := by
    simp [definition]
  rw [cut] at found
  rcases Text.infix_of_separated (directive marker).2 found with early | late
  · exact (directive marker).1 early
  · exact free marker late

theorem newline_notMem_definition {text : String} (single : '\n' ∉ text.toList) :
    '\n' ∉ (definition text).toList := by
  simpa [toList_definition] using single

theorem hasKeyword_definition_template (text : String) (stage : Stage) :
    stage.lines.any (Text.hasKeyword (definition text).toList) = false := by
  have none : ∀ line ∈ stage.lines, ¬ "#define ".toList <:+: line := by
    cases stage <;> decide +kernel
  refine List.any_eq_false.2 fun line member has => none line member ?_
  have start : "#define ".toList <:+: (definition text).toList := by
    rw [toList_definition]
    exact (List.prefix_append _ _).isInfix
  exact start.trans (Text.infix_of_hasKeyword has)

end Source

namespace Sections

theorem mentions_defining {name : String} (filled : name.toList ≠ [])
    (newline : '\n' ∉ name.toList) (lines : List String) (stage : Stage) :
    ((defining lines).source stage).mentions name =
      (lines.any (fun line => Text.hasKeyword name.toList (Source.laid [] line.toList)) ||
        stage.lines.any (Text.hasKeyword name.toList)) := by
  have begins : stage.lines = "#VERSION".toList :: stage.lines.tail := by
    cases stage <;> rfl
  rw [Source.mentions, source, Text.hasKeyword_terminated filled newline, lines_defining]
  conv => rhs; rw [begins]
  rw [List.cons_append, List.any_cons, List.any_append, List.any_map, List.any_cons]
  exact Bool.or_left_comm _ _ _

theorem plain_defining {lines : List String}
    (each : ∀ line ∈ lines, Source.isPlain line.toList = true ∧ '\n' ∉ line.toList) :
    (defining lines).Plain := by
  intro marker line member
  unfold defining at member
  split at member
  · obtain ⟨given, listed, rfl⟩ := List.mem_map.1 member
    exact each given listed
  · simp at member

end Sections

namespace Source

section Lines

variable {texts : List String} (single : ∀ text ∈ texts, '\n' ∉ text.toList)
  (free : ∀ text ∈ texts, ∀ marker : Marker, ¬ marker.text.toList <:+: text.toList)

include single free

theorem plain_kept : (Sections.defining ((kept texts).map definition)).Plain := by
  refine Sections.plain_defining fun line member => ?_
  obtain ⟨text, listed, rfl⟩ := List.mem_map.1 member
  have given := kept_subset texts text listed
  exact ⟨isPlain_definition (free text given), newline_notMem_definition (single text given)⟩

theorem foldl_define (stage : Stage) :
    texts.foldl define (ofTemplate stage) =
      (Sections.defining ((kept texts).map definition)).source stage := by
  induction texts using List.reverseRecOn with
  | nil =>
    show ofTemplate stage = (Sections.defining []).source stage
    rw [Sections.defining_nil, Sections.source_empty]
  | append_singleton texts text ih =>
    obtain ⟨early, late⟩ := List.forall_mem_append.1 single
    obtain ⟨before, now⟩ := List.forall_mem_append.1 free
    have whole := newline_notMem_definition (late text List.mem_cons_self)
    have defined : ((Sections.defining ((kept texts).map definition)).source stage).isDefined text =
        (kept texts).any (shadows · text) := by
      have searched := Sections.mentions_defining (definition_ne_nil text) whole
        ((kept texts).map definition) stage
      rw [hasKeyword_definition_template, Bool.or_false, List.any_map] at searched
      exact searched
    rw [List.foldl_append, ih early before, List.foldl_cons, List.foldl_nil, define, defined,
      kept_concat]
    split
    · rfl
    · rw [Sections.insert_source (plain_kept early before), List.map_append]
      exact congrArg (Sections.source · stage) (Sections.defining_concat whole _)

theorem linesAbove_foldl_define (stage : Stage) :
    (texts.foldl define (ofTemplate stage)).linesAbove .defines =
      "#VERSION".toList :: (kept texts).map definitionLine := by
  have plain := plain_kept single free
  have cut := Sections.lines_defining ((kept texts).map definition) stage
  have whole := Sections.newline_notMem_lines plain stage
  have marked : stage.lines.tail = "#DEFINES".toList :: stage.lines.tail.tail := by
    cases stage <;> rfl
  have lines : Text.lines ((Sections.defining ((kept texts).map definition)).source stage).text =
      ("#VERSION".toList :: (kept texts).map definitionLine) ++
        "#DEFINES".toList :: (stage.lines.tail.tail ++ [[]]) := by
    have ended := Text.lines_terminated whole (show '\n' ∉ [] by simp)
    rw [List.append_nil, cut, marked, List.map_map] at ended
    rw [Sections.source, cut, marked, List.map_map, ended, List.append_assoc]
    rfl
  rw [linesAbove, foldl_define single free, lines]
  refine (List.takeWhile_append_of_pos ?_).trans ?_
  · intro line member
    rcases List.mem_cons.1 member with rfl | listed
    · decide
    · obtain ⟨text, stays, rfl⟩ := List.mem_map.1 listed
      have given := kept_subset texts text stays
      have unmarked := isPlain_laid (show '#' ∉ [] by simp) (isPlain_definition (free text given))
      rw [bne_iff_ne]
      intro same
      have found := splitKeyword_of_isPlain unmarked .defines
      rw [show laid [] (definition text).toList = _ from same] at found
      have has := Text.hasKeyword_self (Marker.text_ne_nil .defines)
      rw [Text.hasKeyword, found] at has
      cases has
  · rw [List.takeWhile_cons_of_neg (by decide), List.append_nil]

end Lines

theorem definitionLine_ne (text : String) : definitionLine text ≠ (definition "").toList := by
  have again : Text.trimRight (definitionLine text) = definitionLine text := by
    unfold definitionLine laid
    split
    · rfl
    · exact Text.dropWhileRight_dropWhileRight (fun _ blank => blank) _
  intro same
  rw [same] at again
  revert again
  decide

theorem definition_injective {first second : String}
    (same : (definition first).toList = (definition second).toList) : first = second := by
  rw [toList_definition, toList_definition] at same
  exact String.toList_inj.1 (List.append_cancel_left same)

/-- Where texts have no number sign, one shadows those that it begins with, unless an identifier
goes on behind them. -/
theorem shadows_iff {other text : String} (filled : other ≠ "")
    (solid : Text.trimRight other.toList = other.toList) (plain : '#' ∉ other.toList)
    (unmarked : '#' ∉ text.toList) :
    shadows other text = true ↔ ∃ rest, text.toList ++ rest = other.toList ∧
      ∀ last ∈ text.toList.getLast?, Text.isIdentifierChar last = true →
        ∀ c ∈ rest.head?, Text.isIdentifierChar c = false := by
  have sign : "#define ".toList = '#' :: "define ".toList := by decide
  have apart : Text.IsApart (definition text).toList := by
    rw [toList_definition, sign]
    refine Text.isApart_of_head_notMem fun member => ?_
    rcases List.mem_append.1 member with early | late
    · exact absurd early (by decide)
    · exact unmarked late
  -- The last character of the line is that of the text, or the blank before it.
  have ends (rest : List Char) : Text.Bounded (definition text).toList [] rest ↔
      ∀ last ∈ text.toList.getLast?, Text.isIdentifierChar last = true →
        ∀ c ∈ rest.head?, Text.isIdentifierChar c = false := by
    have last : (definition text).toList.getLast? = text.toList.getLast?.or (some ' ') := by
      rw [toList_definition, List.getLast?_append]
      rfl
    have blank : Text.isIdentifierChar ' ' = false := by decide
    constructor
    · intro bounded c here
      exact bounded.behind c (by rw [last, Option.mem_def.1 here]; rfl)
    · refine fun bounded => ⟨by simp, fun c here letter => ?_⟩
      rw [last] at here
      cases own : text.toList.getLast? with
      | some d =>
        rw [own] at here bounded
        exact bounded c here letter
      | none =>
        rw [own, Option.none_or] at here
        rw [← Option.some.inj here, blank] at letter
        cases letter
  rw [shadows, definitionLine_eq filled solid,
    Text.hasKeyword_iff_occurs (definition_ne_nil text) apart]
  constructor
  · rintro ⟨left, right, whole, bounded⟩
    have first : left = [] := by
      cases left with
      | nil => rfl
      | cons c left =>
        rw [toList_definition, toList_definition, sign, List.cons_append, List.cons_append] at whole
        have same : left ++ ('#' :: "define ".toList ++ text.toList) ++ right =
            "define ".toList ++ other.toList := (List.cons.inj whole).2
        have again : '#' ∈ "define ".toList ++ other.toList := by
          rw [← same]
          simp
        rcases List.mem_append.1 again with early | late
        · exact absurd early (by decide)
        · exact absurd late plain
    subst first
    refine ⟨right, ?_, (ends right).1 ((Text.delimited_iff_bounded ?_ _ _).1 bounded)⟩
    · rw [List.nil_append, toList_definition, toList_definition, List.append_assoc] at whole
      exact List.append_cancel_left whole
    · exact definition_ne_nil text
  · rintro ⟨rest, whole, bounded⟩
    refine ⟨[], rest, ?_, (Text.delimited_iff_bounded (definition_ne_nil text) [] rest).2 ?_⟩
    · rw [List.nil_append, toList_definition, toList_definition, List.append_assoc, whole]
    · exact (ends rest).2 bounded

/-- Definitions of texts that are single lines without markers: a source has the lines of those that
no earlier one shadows. These are the distinct definitions in the order of their first calls if and
only if no text is empty and none is shadowed by another one before it. A text is shadowed by those
that begin with it and have no identifier going on there. -/
theorem define_distinct_iff (stage : Stage) (texts : List String)
    (single : ∀ text ∈ texts, '\n' ∉ text.toList)
    (solid : ∀ text ∈ texts, Text.trimRight text.toList = text.toList)
    (free : ∀ text ∈ texts, ∀ marker : Marker, ¬ marker.text.toList <:+: text.toList) :
    let s := texts.foldl define (ofTemplate stage)
    s.text = Text.terminated
        ("#VERSION".toList :: (kept texts).map definitionLine ++ stage.lines.tail) ∧
      s.linesAbove .defines = "#VERSION".toList :: (kept texts).map definitionLine ∧
      (s.linesAbove .defines =
          "#VERSION".toList :: texts.eraseDups.map (fun text => (definition text).toList) ↔
        "" ∉ texts ∧ texts.eraseDups.Pairwise fun earlier later => shadows earlier later = false) ∧
      ∀ earlier ∈ texts, ∀ later ∈ texts, earlier ≠ "" → '#' ∉ earlier.toList →
        '#' ∉ later.toList →
        (shadows earlier later = true ↔ ∃ rest, later.toList ++ rest = earlier.toList ∧
          ∀ last ∈ later.toList.getLast?, Text.isIdentifierChar last = true →
            ∀ c ∈ rest.head?, Text.isIdentifierChar c = false) := by
  intro s
  have above := linesAbove_foldl_define single free stage
  have laid_eq {text : String} (filled : "" ∉ texts) (member : text ∈ texts) :
      definitionLine text = (definition text).toList :=
    definitionLine_eq (fun same => filled (same ▸ member)) (solid text member)
  have whole : s.text = Text.terminated
      ("#VERSION".toList :: (kept texts).map definitionLine ++ stage.lines.tail) := by
    have cut := Sections.lines_defining ((kept texts).map definition) stage
    have made : s = _ := foldl_define single free stage
    rw [made, Sections.source, cut, List.map_map]
    rfl
  refine ⟨whole, above, ?_, fun earlier member later _ filled =>
    shadows_iff filled (solid earlier member)⟩
  rw [above, List.cons.injEq, and_iff_right rfl]
  constructor
  · intro same
    have filled : "" ∉ texts := by
      intro member
      have listed : (definition "").toList ∈ (kept texts).map definitionLine := by
        rw [same]
        exact List.mem_map_of_mem (List.mem_eraseDups.2 member)
      obtain ⟨text, -, line⟩ := List.mem_map.1 listed
      exact definitionLine_ne text line
    have lines : (kept texts).map (fun text => (definition text).toList) =
        texts.eraseDups.map fun text => (definition text).toList := by
      rw [← same]
      exact List.map_congr_left fun text member =>
        (laid_eq filled (kept_subset texts text member)).symm
    have all : kept texts = texts.eraseDups :=
      (List.map_inj_right fun _ _ => definition_injective).1 lines
    exact ⟨filled, all ▸ pairwise_kept texts⟩
  · rintro ⟨filled, apart⟩
    rw [kept_eq_eraseDups filled solid apart]
    exact List.map_congr_left fun text member => laid_eq filled (List.mem_eraseDups.1 member)

/-- Three texts, none of which begins with another: the repeated one stands there once. -/
theorem define_distinct_iff_of_three :
    (["PI 3.14", "LIT", "PI 3.14", "LITTLE 1"].foldl define (ofTemplate .pixel)).linesAbove
      .defines =
      ["#VERSION", "#define PI 3.14", "#define LIT", "#define LITTLE 1"].map String.toList := by
  have defined := define_distinct_iff .pixel ["PI 3.14", "LIT", "PI 3.14", "LITTLE 1"]
    (by decide) (by decide +kernel) (fun text member marker => by
      revert text
      cases marker <;> decide +kernel)
  rw [defined.2.2.1.2 ⟨by decide, by decide +kernel⟩]
  decide

/-- A macro that is defined without a value after one with a value is dropped. -/
theorem define_not_distinct :
    (["PI 3.14", "PI"].foldl define (ofTemplate .pixel)).linesAbove .defines ≠
      "#VERSION".toList :: ["PI 3.14", "PI"].eraseDups.map fun text =>
        (definition text).toList := by
  decide +kernel

end Source

end GlslMaterial
