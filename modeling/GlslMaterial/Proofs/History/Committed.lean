import GlslMaterial.Proofs.History.Completion
import GlslMaterial.Proofs.History.Orderly
import GlslMaterial.Proofs.Interface.Spelling
import GlslMaterial.Proofs.Source.Refinement

/-!
What has been committed to a stage: the source of a stage that was written in order is its template
with, in the section of each marker, the code that was committed there.
-/

set_option autoImplicit false

namespace GlslMaterial

open Text (madeOf)
open Glsl (isInline)

/-- The code that an event commits to a section of a stage. -/
def Event.code? (stage : Stage) (marker : Marker) : Event → Option String
  | .write written place code => if written = stage ∧ place = marker then some code else none
  | .assign written name value =>
    if written = stage ∧ marker = .colorize then some (Material.assignment name value) else none
  | _ => none

/-- The code that has been committed to a section of a stage, piece by piece. -/
def committed (stage : Stage) (marker : Marker) (events : List Event) : List String :=
  events.filterMap (Event.code? stage marker)

@[simp] theorem committed_append (stage : Stage) (marker : Marker) (first second : List Event) :
    committed stage marker (first ++ second) =
      committed stage marker first ++ committed stage marker second :=
  List.filterMap_append

variable {stage : Stage} {marker : Marker} {event : Event}

theorem committed_snoc_none (silent : event.code? stage marker = none) (past : List Event) :
    committed stage marker (past ++ [event]) = committed stage marker past := by
  have nothing : committed stage marker [event] = [] := by simp [committed, silent]
  rw [committed_append, nothing, List.append_nil]

/-- What is committed to all sections but that of assignments is written there. -/
theorem committed_eq_linesAt (stage : Stage) (other : marker ≠ .colorize)
    (events : List Event) : committed stage marker events = linesAt stage marker events := by
  induction events with
  | nil => rfl
  | cons event events ih =>
    have same : committed stage marker [event] = linesAt stage marker [event] := by
      cases event with
      | assign => simp [committed, linesAt, Event.code?, other]
      | _ => rfl
    rw [← List.singleton_append, committed_append, linesAt_append, same, ih]

def sectionsOf (stage : Stage) (events : List Event) : Sections :=
  fun marker => (committed stage marker events).flatMap Source.codeLines

theorem sectionsOf_snoc_none
    (silent : ∀ marker, event.code? stage marker = none) (past : List Event) :
    sectionsOf stage (past ++ [event]) = sectionsOf stage past := by
  funext marker
  rw [sectionsOf, sectionsOf, committed_snoc_none (silent marker)]

theorem sectionsOf_snoc_some {code : String} (here : event.code? stage marker = some code)
    (only : ∀ other, other ≠ marker → event.code? stage other = none) (past : List Event) :
    sectionsOf stage (past ++ [event]) = (sectionsOf stage past).add marker code := by
  funext other
  by_cases same : other = marker
  · simp [sectionsOf, committed, Sections.add, same, here]
  · simp [sectionsOf, committed, Sections.add, same, only other same]

namespace Source

theorem infix_of_mem_codeLines {code : String} {line : List Char} (member : line ∈ codeLines code) :
    line <:+: code.toList :=
  (Text.infix_of_mem_lines member).trans (Text.dropWhileRight_isPrefix _ _).isInfix

theorem infix_of_laid {word pad line : List Char} (blank : ∀ c ∈ pad, c ∉ word)
    (found : word <:+: laid pad line) : word <:+: line := by
  unfold laid at found
  split at found
  · rw [List.infix_nil.1 found]
    exact List.nil_infix
  · exact (Text.infix_of_append blank found).trans (Text.dropWhileRight_isPrefix _ line).isInfix

theorem isPlainCode_of_lacks {words : List String} (all : ∀ marker : Marker, marker.text ∈ words)
    {code : String} (unmarked : lacks words code = true) : isPlainCode code = true := by
  apply List.all_eq_true.2
  intro line member
  apply List.all_eq_true.2
  intro marker _
  cases has : Text.hasKeyword marker.text.toList line with
  | false => rfl
  | true =>
    have inside := (Text.infix_of_hasKeyword has).trans (infix_of_mem_codeLines member)
    exact absurd inside (lacks_iff.1 unmarked _ (all marker))

end Source

theorem writable_positionStatement {base : Material} {value : String}
    (inline : madeOf isInline value = true) :
    Writable base .vertex .position (positionStatement value) := by
  have made (p : Char → Bool) (admits : Glsl.Admits p)
      (start : madeOf p "gl_Position = " = true) :
      madeOf p (positionStatement value) = true := by
    unfold positionStatement
    rw [Text.madeOf_append, Text.madeOf_append, toString_string, toString_string, start,
      admits.madeOf inline]
    exact admits.madeOf (by decide)
  have unmarked := made Glsl.isUnmarked Glsl.admits_unmarked (by decide)
  have single := made (· != '\n')
    (fun c inline => (Bool.and_eq_true_iff.1 inline).2) (by decide)
  have plain : '\n' ∉ (positionStatement value).toList := Text.notMem_of_madeOf single (by decide)
  refine .of_directives (by decide) (Glsl.lacks_of_unmarked unmarked) fun _ =>
    .inr ⟨rfl, value, ?_⟩
  rw [Source.codeLines_of_notMem plain]
  exact List.mem_singleton_self _

namespace Sections

/-- A word that no template line has, and none of its characters a blank, stands in a section if it
stands in the source. -/
theorem exists_mem_of_infix {sections : Sections} {stage : Stage} {word : List Char}
    (some : word ≠ []) (newline : '\n' ∉ word) (blank : ' ' ∉ word)
    (absent : ∀ line ∈ stage.lines, ¬ word <:+: line)
    (found : word <:+: (sections.source stage).text) :
    ∃ marker, ∃ line ∈ sections marker, word <:+: line := by
  obtain ⟨line, member, inside⟩ := Text.exists_infix_of_terminated some newline found
  obtain ⟨place, listed, here⟩ := List.mem_flatMap.1 member
  rcases List.mem_append.1 here with inserted | own
  · unfold above at inserted
    split at inserted
    · rename_i marker _
      obtain ⟨given, known, rfl⟩ := List.mem_map.1 inserted
      have spaces : ∀ c ∈ indentation place, c ∉ word := by
        intro c member
        rw [Decidable.byContradiction fun different => notMem_indentation place different member]
        exact blank
      exact ⟨marker, given, known, Source.infix_of_laid spaces inside⟩
    · simp at inserted
  · rw [List.mem_singleton.1 own] at inside
    exact absurd inside (absent place listed)

end Sections

theorem Stage.notInfix_of_mem_lines (stage : Stage) {line : List Char}
    (member : line ∈ stage.lines) :
    ¬ "#version".toList <:+: line ∧ ¬ "gl_Position".toList <:+: line := by
  have free : stage.lines.all (fun line => !Text.contains "#version".toList line &&
      !Text.contains "gl_Position".toList line) = true := by
    rcases stage.lines_eq with same | same | same <;> rw [same] <;> decide +kernel
  have here := List.all_eq_true.1 free line member
  simpa only [Bool.and_eq_true, Bool.not_eq_true', Bool.eq_false_iff, ne_eq, Text.contains_iff]
    using here

theorem Material.Fresh.spelled {m : Material} (fresh : m.Fresh) : m.Spelled := by
  intro b member
  simp [fresh.inputs, fresh.outputs] at member

theorem Sections.isEmpty_source (sections : Sections) (stage : Stage) :
    (sections.source stage).isEmpty = false := by
  have lines : stage.lines ≠ [] := by cases stage <;> decide
  obtain ⟨first, rest, cut⟩ := List.exists_cons_of_ne_nil lines
  simp [source, Sections.lines, Source.isEmpty, cut]

/-- A stage has what was committed to it: nothing before it is started, and then its template with
everything in its section. -/
def Faithful (m : Material) (past : List Event) (stage : Stage) : Prop :=
  m.source stage = .empty ∧ (∀ marker, committed stage marker past = []) ∨
    m.source stage = (sectionsOf stage past).source stage

namespace Faithful

variable {m : Material} {past : List Event} {stage : Stage}

theorem source_eq (faithful : Faithful m past stage) (uses : m.Uses stage) :
    m.source stage = (sectionsOf stage past).source stage := by
  rcases faithful with ⟨empty, -⟩ | same
  · rw [Material.Uses, empty] at uses
    cases uses
  · exact same

theorem uses (faithful : Faithful m past stage)
    (some : ¬ ∀ marker, committed stage marker past = []) : m.Uses stage := by
  rcases faithful with ⟨-, nothing⟩ | same
  · exact absurd nothing some
  · rw [Material.Uses, same]
    exact (sectionsOf stage past).isEmpty_source stage

theorem keep (faithful : Faithful m past stage) {event : Event} {after : Material}
    (same : after.source stage = m.source stage)
    (silent : ∀ marker, event.code? stage marker = none) :
    Faithful after (past ++ [event]) stage := by
  unfold Faithful
  rw [same, sectionsOf_snoc_none silent]
  refine faithful.imp_left fun ⟨empty, nothing⟩ => ⟨empty, fun marker => ?_⟩
  rw [committed_snoc_none (silent marker), nothing]

theorem written (faithful : Faithful m past stage) (uses : m.Uses stage)
    (plain : (sectionsOf stage past).Plain) {marker : Marker} {code : String} {event : Event}
    (here : event.code? stage marker = some code)
    (only : ∀ other, other ≠ marker → event.code? stage other = none) :
    Faithful (m.written stage marker code) (past ++ [event]) stage := by
  right
  rw [sectionsOf_snoc_some here only, ← Sections.insert_source plain, ← faithful.source_eq uses]
  exact (m.source_setSource stage stage _).trans (if_pos rfl)

theorem started (faithful : Faithful m past stage) (other : Stage) :
    Faithful (m.started other) (past ++ [.start other]) stage := by
  by_cases here : stage = other ∧ (m.source stage).isEmpty = true
  · obtain ⟨rfl, empty⟩ := here
    rcases faithful with ⟨-, nothing⟩ | same
    · right
      have bare : sectionsOf stage (past ++ [.start stage]) = Sections.empty := by
        funext marker
        rw [sectionsOf, committed_snoc_none rfl, nothing]
        rfl
      rw [bare, Sections.source_empty, Material.started, if_pos empty, Material.source_setSource,
        if_pos rfl]
    · rw [same, Sections.isEmpty_source] at empty
      cases empty
  · refine faithful.keep ?_ fun _ => rfl
    unfold Material.started
    split
    · rename_i empty
      rw [Material.source_setSource, if_neg fun same => here ⟨same, same ▸ empty⟩]
    · rfl

end Faithful

theorem inline_assignment {output value : String} (spelled : isSpelled output = true)
    (inline : madeOf isInline value = true) :
    madeOf isInline (Material.assignment output value) = true := by
  simp only [Material.assignment, toString_string, Text.madeOf_append, inline_of_isSpelled spelled,
    inline]
  rfl

namespace InOrder

variable {base : Material} {past : List Event}

theorem of_mem_committed (fresh : base.Fresh) (orderly : InOrder base past) {stage : Stage}
    {marker : Marker} {code : String} (member : code ∈ committed stage marker past) :
    Writable base stage marker code ∨ marker = .colorize ∧ lacks reserved code = true ∧
      ∃ output value, isSpelled output = true ∧ .assign stage output value ∈ past ∧
        code = Material.assignment output value := by
  obtain ⟨event, happened, commits⟩ := List.mem_filterMap.1 member
  obtain ⟨before, after, rfl⟩ := List.append_of_mem happened
  cases event with
  | write written place text =>
    have allowed : Writable base written place text := orderly.allowed.2
    by_cases here : written = stage ∧ place = marker
    · obtain rfl : text = code := by simpa [Event.code?, here] using commits
      exact .inl (here.1 ▸ here.2 ▸ allowed)
    · simp [Event.code?, here] at commits
  | assign written output value =>
    obtain ⟨-, ⟨key, bound⟩, -, inline⟩ := orderly.allowed
    obtain ⟨o, inside, -, named, -⟩ := bound
    have spelled : isSpelled output = true :=
      named ▸ (fresh.spelled.replay before).output inside
    by_cases here : written = stage ∧ marker = .colorize
    · obtain rfl : Material.assignment output value = code := by
        simpa [Event.code?, here] using commits
      exact .inr ⟨here.2, Glsl.lacks_of_inline (inline_assignment spelled inline), output, value,
        spelled,
        here.1 ▸ happened, rfl⟩
    · simp [Event.code?, here] at commits
  | _ => simp [Event.code?] at commits

/-- Nothing that is committed has a marker. -/
theorem plain_sectionsOf (fresh : base.Fresh) (orderly : InOrder base past) (stage : Stage) :
    (sectionsOf stage past).Plain := by
  intro marker line member
  obtain ⟨code, known, inside⟩ := List.mem_flatMap.1 member
  have free : lacks (Marker.all.map Marker.text) code = true := by
    rcases orderly.of_mem_committed fresh known with writable | ⟨-, clean, -⟩
    · exact writable.unmarked
    · exact lacks_mono (by decide) clean
  have plain : Source.isPlainCode code = true :=
    Source.isPlainCode_of_lacks (fun marker => by cases marker <;> decide) free
  exact ⟨List.all_eq_true.1 plain line inside, Text.newline_notMem_of_mem_lines inside⟩

theorem faithful (fresh : base.Fresh) (orderly : InOrder base past) (stage : Stage) :
    Faithful (base.replay past) past stage := by
  induction orderly with
  | nil => exact .inl ⟨fresh.sources stage, fun _ => rfl⟩
  | @snoc past event before allowed ih =>
    have plain := InOrder.plain_sectionsOf fresh before stage
    rw [Material.replay_append, Material.replay_cons, Material.replay_nil]
    have elsewhere {other : Stage} (marker : Marker) (code : String) (different : stage ≠ other) :
        ((base.replay past).written other marker code).source stage =
          (base.replay past).source stage := by
      rw [Material.written, Material.source_setSource, if_neg different]
    by_cases quiet : event.isCode = false
    · refine ih.keep ?_ fun marker => ?_
      · rw [Material.source, Material.sources_apply _ quiet]
        rfl
      · cases event <;> simp_all [Event.isCode, Event.code?]
    · cases event with
      | start other => exact ih.started other
      | write other marker code =>
        by_cases here : stage = other
        · subst here
          exact ih.written allowed.1 plain (by simp [Event.code?])
            fun place different => by simp [Event.code?, different.symm]
        · refine ih.keep (elsewhere marker code here) fun place => ?_
          simp [Event.code?, Ne.symm here]
      | assign other output value =>
        by_cases here : stage = other
        · subst here
          exact ih.written allowed.1 plain (by simp [Event.code?])
            fun place different => by simp [Event.code?, different]
        · exact ih.keep (elsewhere .colorize _ here) fun place => by
            simp [Event.code?, Ne.symm here]
      | define | stamp => exact allowed.elim
      | _ => simp [Event.isCode] at quiet

theorem exists_committed_of_infix (fresh : base.Fresh) (orderly : InOrder base past)
    {stage : Stage} {word : String} (known : word ∈ reserved)
    (absent : ∀ line ∈ stage.lines, ¬ word.toList <:+: line)
    (found : word.toList <:+: ((base.replay past).source stage).text) :
    ∃ marker, ∃ code ∈ committed stage marker past, word.toList <:+: code.toList := by
  have some := reserved_ne_nil known
  have uses : (base.replay past).Uses stage := by
    rw [Material.Uses, Source.isEmpty]
    cases text : ((base.replay past).source stage).text with
    | nil =>
      rw [text] at found
      exact absurd (List.infix_nil.1 found) some
    | cons => rfl
  rw [(orderly.faithful fresh stage).source_eq uses] at found
  obtain ⟨marker, line, member, inside⟩ := Sections.exists_mem_of_infix some
    (notMem_reserved known (by decide)) (notMem_reserved known (by decide)) absent found
  obtain ⟨code, listed, part⟩ := List.mem_flatMap.1 member
  exact ⟨marker, code, listed, inside.trans (Source.infix_of_mem_codeLines part)⟩

end InOrder

end GlslMaterial
