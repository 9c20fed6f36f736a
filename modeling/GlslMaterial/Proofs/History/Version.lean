import GlslMaterial.Proofs.History.Committed

/-!
The version of a stage: its directive is the first line of the finished text and stands nowhere
else. The rest of the text is the template with what was committed to its sections.
-/

set_option autoImplicit false

namespace GlslMaterial

namespace Source

/-- The directive for a version. -/
def versionLine (version : Nat) : String :=
  s!"#version {version}"

theorem toList_versionLine (version : Nat) :
    (versionLine version).toList = '#' :: ("version ".toList ++ Nat.toDigits 10 version) := by
  simp [versionLine]

theorem isDigit_of_mem_toDigits {version : Nat} {c : Char}
    (member : c ∈ Nat.toDigits 10 version) : c.isDigit = true :=
  Nat.isDigit_of_mem_toDigits (b := 10) (n := version) (by decide) (by decide) member

theorem notMem_versionTail (version : Nat) {c : Char}
    (other : c ∉ "version ".toList) (digit : c.isDigit = false) :
    c ∉ "version ".toList ++ Nat.toDigits 10 version := by
  intro member
  rcases List.mem_append.1 member with word | number
  · exact other word
  · simp [isDigit_of_mem_toDigits number] at digit

theorem newline_notMem_versionLine (version : Nat) : '\n' ∉ (versionLine version).toList := by
  rw [toList_versionLine]
  have tail := notMem_versionTail version (c := '\n') (by decide) (by decide)
  exact List.not_mem_cons_of_ne_of_not_mem (by decide) tail

theorem codeLines_versionLine (version : Nat) :
    codeLines (versionLine version) = [(versionLine version).toList] :=
  codeLines_of_notMem (newline_notMem_versionLine version)

theorem laid_versionLine (version : Nat) :
    laid [] (versionLine version).toList = (versionLine version).toList := by
  have digits : Nat.toDigits 10 version ≠ [] := Nat.toDigits_ne_nil
  have last : Text.isBlank ((Nat.toDigits 10 version).getLast digits) = false := by
    have digit := isDigit_of_mem_toDigits (List.getLast_mem digits)
    apply Bool.eq_false_iff.2
    intro blank
    have other := Text.isIdentifierChar_eq_false_of_isBlank blank
    simp [Text.isIdentifierChar, Char.isAlphanum, digit] at other
  have ends : (versionLine version).toList =
      ('#' :: "version ".toList ++ (Nat.toDigits 10 version).dropLast) ++
        [(Nat.toDigits 10 version).getLast digits] := by
    rw [toList_versionLine, List.append_assoc, List.dropLast_concat_getLast]
    rfl
  rw [ends, laid_concat _ _ last]
  rfl

/-- The directive is no marker, since markers are in capitals. -/
theorem isPlainCode_versionLine (version : Nat) : isPlainCode (versionLine version) = true := by
  have capital (marker : Marker) : ∃ c rest, marker.text.toList = '#' :: c :: rest ∧ c ≠ 'v' := by
    cases marker <;> exact ⟨_, _, rfl, by decide⟩
  have tail := notMem_versionTail version (c := '#') (by decide) (by decide)
  rw [isPlainCode, codeLines_versionLine, List.all_cons, List.all_nil, Bool.and_true]
  apply List.all_eq_true.2
  intro marker _
  cases has : Text.hasKeyword marker.text.toList (versionLine version).toList with
  | false => rfl
  | true =>
    obtain ⟨c, rest, text, different⟩ := capital marker
    have inside := Text.infix_of_hasKeyword has
    rw [toList_versionLine, text] at inside
    rcases List.infix_cons_iff.1 inside with first | later
    · have same := (List.cons_prefix_cons.1 (List.cons_prefix_cons.1 first).2).1
      exact absurd same different
    · exact absurd (later.subset List.mem_cons_self) tail

/-- Where a text begins with the directive and the lines behind it have none, the directive stands
in it once. -/
theorem eq_nil_of_versionLine {version : Nat} {rest : List Char}
    (free : ¬ "#version".toList <:+: rest) {before after : List Char}
    (found : (versionLine version).toList ++ '\n' :: rest = before ++ "#version".toList ++ after) :
    before = [] := by
  cases before with
  | nil => rfl
  | cons c before =>
    rw [toList_versionLine] at found
    have tail := (List.cons.inj found).2
    have inside : "#version".toList <:+:
        ("version ".toList ++ Nat.toDigits 10 version) ++ '\n' :: rest :=
      ⟨before, after, tail.symm⟩
    rcases Text.infix_of_separated (by decide) inside with first | later
    · have mark := notMem_versionTail version (c := '#') (by decide) (by decide)
      exact absurd (first.subset (by decide)) mark
    · exact absurd later free

end Source

theorem Stage.exists_lines (stage : Stage) :
    ∃ rest, stage.lines = Marker.version.text.toList :: rest ∧
      ∀ line ∈ rest, Marker.ofLine? line ≠ some .version := by
  have first : stage.lines.head? = some Marker.version.text.toList := by
    cases stage <;> decide
  obtain ⟨rest, cut⟩ : ∃ rest, stage.lines = Marker.version.text.toList :: rest := by
    cases lines : stage.lines with
    | nil => simp [lines] at first
    | cons line rest => exact ⟨rest, by simpa [lines] using first⟩
  refine ⟨rest, cut, fun line member holds => ?_⟩
  have once := stage.nodup_markers
  rw [markers, cut, List.filterMap_cons_some (b := .version) (by decide)] at once
  exact (List.nodup_cons.1 once).1 (List.mem_filterMap.2 ⟨line, member, holds⟩)

namespace Sections

variable {sections : Sections} {stage : Stage}

theorem finishedLines_add_version (none : sections .version = []) (stage : Stage) (version : Nat) :
    (sections.add .version (Source.versionLine version)).finishedLines stage =
      (Source.versionLine version).toList :: sections.finishedLines stage := by
  obtain ⟨rest, cut, other⟩ := stage.exists_lines
  have holds : Marker.ofLine? Marker.version.text.toList = some .version := by decide
  have bare : indentation Marker.version.text.toList = [] := by decide
  have nothing : sections.above Marker.version.text.toList = [] := by
    simp [above, holds, none]
  have first : (sections.add .version (Source.versionLine version)).above
      Marker.version.text.toList = [(Source.versionLine version).toList] := by
    rw [above_add_self holds, nothing, bare, Source.codeLines_versionLine, List.map_cons,
      Source.laid_versionLine]
    rfl
  have unchanged : (rest.flatMap fun line =>
      (sections.add .version (Source.versionLine version)).above line ++
        if (Marker.ofLine? line).isSome then [] else [line]) =
      rest.flatMap fun line =>
        sections.above line ++ if (Marker.ofLine? line).isSome then [] else [line] := by
    rw [List.flatMap_def, List.flatMap_def]
    congr 1
    apply List.map_congr_left
    intro line member
    rw [above_add_of_ne (other line member)]
  rw [finishedLines, finishedLines, cut, List.flatMap_cons, List.flatMap_cons, first, nothing,
    holds, unchanged]
  rfl

theorem mem_lines_of_mem_finishedLines {line : List Char}
    (member : line ∈ sections.finishedLines stage) : line ∈ sections.lines stage := by
  obtain ⟨place, listed, here⟩ := List.mem_flatMap.1 member
  refine List.mem_flatMap.2 ⟨place, listed, ?_⟩
  rcases List.mem_append.1 here with inserted | own
  · exact List.mem_append_left _ inserted
  · split at own
    · simp at own
    · exact List.mem_append_right _ own

theorem exists_mem_finishedLines {marker : Marker}
    (member : marker ∈ stage.markers) {line : List Char} (listed : line ∈ sections marker) :
    ∃ pad, (∀ c ∈ pad, c = ' ') ∧ Source.laid pad line ∈ sections.finishedLines stage := by
  obtain ⟨place, inside, holds⟩ := List.mem_filterMap.1 member
  refine ⟨indentation place, ?_, ?_⟩
  · intro c space
    exact Decidable.byContradiction fun different => notMem_indentation place different space
  · apply List.mem_flatMap.2
    refine ⟨place, inside, List.mem_append_left _ ?_⟩
    simp only [above, holds]
    exact List.mem_map_of_mem listed

theorem notInfix_finishedLines {word : List Char} (some : word ≠ []) (newline : '\n' ∉ word)
    (free : ¬ word <:+: (sections.source stage).text) :
    ¬ word <:+: Text.terminated (sections.finishedLines stage) := by
  intro found
  obtain ⟨line, member, inside⟩ := Text.exists_infix_of_terminated some newline found
  obtain ⟨before, after, cut⟩ := List.append_of_mem (mem_lines_of_mem_finishedLines member)
  apply free
  rw [source, cut, Text.terminated_append, Text.terminated_cons]
  exact inside.trans ⟨Text.terminated before, '\n' :: Text.terminated after, by simp⟩

end Sections

namespace InOrder

open Material

variable {base : Material} {past : List Event}

theorem committed_version (fresh : base.Fresh) (orderly : InOrder base past) (stage : Stage) :
    committed stage .version past = [] := by
  apply List.eq_nil_iff_forall_not_mem.2
  intro code member
  rcases orderly.of_mem_committed fresh member with writable | ⟨impossible, -⟩
  · exact writable.place.1 rfl
  · simp at impossible

theorem version_notInfix (fresh : base.Fresh) (spares : base.Spares ["#version"])
    (orderly : InOrder base past) (stage : Stage) :
    ¬ "#version".toList <:+: ((base.replay past).source stage).text := by
  intro found
  obtain ⟨marker, code, member, has⟩ := orderly.exists_committed_of_infix fresh (by decide)
    (fun line listed => (stage.notInfix_of_mem_lines listed).1) found
  have free : lacks ["#version"] code = true := by
    rcases orderly.of_mem_committed fresh member with writable | ⟨-, free, -⟩
    · exact writable.unversioned spares
    · exact lacks_mono (by decide) free
  exact lacks_iff.1 free _ (List.mem_singleton_self _) has

theorem version_notInfix_finishedLines (fresh : base.Fresh) (spares : base.Spares ["#version"])
    (orderly : InOrder base past) {stage : Stage} (uses : (base.replay past).Uses stage) :
    ¬ "#version".toList <:+: Text.terminated ((sectionsOf stage past).finishedLines stage) := by
  apply Sections.notInfix_finishedLines (by decide) (by decide)
  rw [← (orderly.faithful fresh stage).source_eq uses]
  exact version_notInfix fresh spares orderly stage

theorem stageCode_stamped (fresh : base.Fresh) (spares : base.Spares ["#version"])
    (orderly : InOrder base past) {stage : Stage} (uses : (base.replay past).Uses stage) :
    ((base.replay past).stamped.stageCode stage).toList =
      Text.terminated ((Source.versionLine (base.replay past).version).toList ::
        (sectionsOf stage past).finishedLines stage) := by
  have plain := orderly.plain_sectionsOf fresh stage
  have bare : sectionsOf stage past .version = [] := by
    rw [sectionsOf, orderly.committed_version fresh]
    rfl
  have unversioned : ((base.replay past).source stage).mentions "#version" = false := by
    apply Bool.eq_false_iff.2
    intro mentioned
    exact version_notInfix fresh spares orderly stage (Text.infix_of_hasKeyword mentioned)
  have filled : ((base.replay past).source stage).isEmpty = false := uses
  have stamped : (base.replay past).stamped.source stage =
      ((sectionsOf stage past).add .version
        (Source.versionLine (base.replay past).version)).source stage := by
    rw [source_stamped, filled, if_neg (by simp), Source.setVersion, unversioned,
      if_neg (by simp), (orderly.faithful fresh stage).source_eq uses]
    exact Sections.insert_source plain stage _ _
  rw [stageCode, stamped,
    Sections.compiled_source (plain.add .version (Source.isPlainCode_versionLine _)),
    Sections.finishedLines_add_version bare]

theorem linesWithEnds_stamped (fresh : base.Fresh) (spares : base.Spares ["#version"])
    (orderly : InOrder base past) {stage : Stage} (uses : (base.replay past).Uses stage) :
    Text.linesWithEnds ((base.replay past).stamped.stageCode stage).toList =
      ((Source.versionLine (base.replay past).version).toList ::
        (sectionsOf stage past).finishedLines stage).map (· ++ ['\n']) := by
  rw [stageCode_stamped fresh spares orderly uses]
  apply Text.linesWithEnds_terminated
  intro line member
  rcases List.mem_cons.1 member with first | later
  · rw [first]
    exact Source.newline_notMem_versionLine _
  · have plain := orderly.plain_sectionsOf fresh stage
    exact Sections.newline_notMem_lines plain stage line
      (Sections.mem_lines_of_mem_finishedLines later)

end InOrder

end GlslMaterial
