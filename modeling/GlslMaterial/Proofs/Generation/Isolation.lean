import GlslMaterial.Proofs.Generation.Rehearsal
import GlslMaterial.Proofs.Generation.Schedule
import GlslMaterial.Proofs.Source.MainFunction
import GlslMaterial.Proofs.Twin.Building

/-!
The code of fractals is kept apart: whatever it is, if it has no markers and does not mention the
position, the main functions of all stages are the same.
-/

set_option autoImplicit false

namespace GlslMaterial

open GlslMaterial.Action (Parallel Meets perform)

theorem committed_shared (stage : Stage) {marker : Marker} (firm : marker.isLoose = false)
    (events : List Event) :
    committed stage marker (shared events) = committed stage marker events := by
  rw [committed, shared, List.filterMap_filter, committed]
  congr 1
  funext event
  split
  · rfl
  · rename_i own
    cases event with
    | write written place code =>
      have loose : place.isLoose = true := by simpa [Event.isShared] using own
      have other : ¬ (written = stage ∧ place = marker) := fun same => by
        simp [← same.2, loose] at firm
      rw [Event.code?, if_neg other]
    | assign => simp [Event.isShared] at own
    | _ => rfl

section Histories

variable {base blank : Material} {events others : List Event}

/-- Code of places that may depend on that of fractals does not mention the position. -/
theorem InOrder.lacks_position (fresh : base.Fresh) (orderly : InOrder base events)
    {marker : Marker} (loose : marker.isLoose = true) {code : String}
    (member : code ∈ committed .vertex marker events) : lacks ["gl_Position"] code = true := by
  rcases orderly.of_mem_committed fresh member with writable | ⟨same, -⟩
  · rcases writable.position rfl with free | ⟨same, -⟩
    · exact free
    · simp [same, Marker.isLoose] at loose
  · simp [same, Marker.isLoose] at loose

theorem firm_sectionsOf_eq (same : shared events = shared others) (stage : Stage) :
    (sectionsOf stage events).firm = (sectionsOf stage others).firm := by
  funext marker
  unfold Sections.firm
  split
  · rfl
  · rename_i firm
    have fixed : marker.isLoose = false := by simpa using firm
    rw [sectionsOf, ← committed_shared stage fixed, same, committed_shared stage fixed, sectionsOf]

theorem mentions_position_eq_firm (fresh : base.Fresh) (orderly : InOrder base events)
    (uses : (base.replay events).Uses .vertex) :
    ((base.replay events).source .vertex).mentions "gl_Position" =
      ((sectionsOf .vertex events).firm.source .vertex).mentions "gl_Position" := by
  rw [(orderly.faithful fresh .vertex).source_eq uses]
  refine (Sections.mentions_firm (by decide) (by decide) (by decide) ?_ .vertex).symm
  intro marker loose line member found
  obtain ⟨code, known, inside⟩ := List.mem_flatMap.1 member
  have free := lacks_iff.1 (orderly.lacks_position fresh loose known) _ (List.mem_singleton_self _)
  exact free (found.trans (Source.infix_of_mem_codeLines inside))

theorem mentions_position_eq (fresh : base.Fresh) (bare : blank.Fresh)
    (alike : Material.Alike (base.replay events) (blank.replay others))
    (same : shared events = shared others) (one : InOrder base events)
    (two : InOrder blank others) :
    ((base.replay events).source .vertex).mentions "gl_Position" =
      ((blank.replay others).source .vertex).mentions "gl_Position" := by
  have used : (base.replay events).Uses .vertex ↔ (blank.replay others).Uses .vertex :=
    (alike.used .vertex).resolve_left id
  by_cases uses : (base.replay events).Uses .vertex
  · rw [mentions_position_eq_firm fresh one uses, firm_sectionsOf_eq same,
      ← mentions_position_eq_firm bare two (used.1 uses)]
  · have silent {m : Material} (unused : ¬ m.Uses .vertex) :
        (m.source .vertex).mentions "gl_Position" = false :=
      Bool.eq_false_iff.2 fun mentioned => unused (Material.uses_of_mentions mentioned)
    rw [silent uses, silent (mt used.2 uses)]

/-- What a stage has with its version: sections without markers, which are those of its history at
all firm places. -/
theorem exists_stamped_sections (fresh : base.Fresh) (orderly : InOrder base events)
    {stage : Stage} (uses : (base.replay events).Uses stage) :
    ∃ sections : Sections, sections.Plain ∧ sections.AgreeFirmly (sectionsOf stage events) ∧
      (base.replay events).stamped.source stage = sections.source stage := by
  have plain := orderly.plain_sectionsOf fresh stage
  have filled : ((base.replay events).source stage).isEmpty = false := uses
  rw [Material.source_stamped, filled, if_neg Bool.false_ne_true,
    (orderly.faithful fresh stage).source_eq uses, Source.setVersion]
  split
  · exact ⟨_, plain, fun _ _ => rfl, rfl⟩
  · refine ⟨_, plain.add .version (Source.isPlainCode_versionLine _), fun marker firm => ?_,
      Sections.insert_source plain stage .version _⟩
    have other : marker ≠ .version := by simpa using (Bool.and_eq_true_iff.1 firm).2
    rw [Sections.add, if_neg other]

/-- Histories that have the same in common give the same main functions. -/
theorem mainPart_stamped_eq (fresh : base.Fresh) (bare : blank.Fresh)
    (alike : Material.Alike (base.replay events) (blank.replay others))
    (same : shared events = shared others) (one : InOrder base events)
    (two : InOrder blank others) (stage : Stage) :
    mainPart ((base.replay events).stamped.stageCode stage) =
      mainPart ((blank.replay others).stamped.stageCode stage) := by
  have used : (base.replay events).Uses stage ↔ (blank.replay others).Uses stage :=
    (alike.used stage).resolve_left id
  by_cases uses : (base.replay events).Uses stage
  · obtain ⟨first, plain, firmly, text⟩ := exists_stamped_sections fresh one uses
    obtain ⟨second, free, agrees, other⟩ := exists_stamped_sections bare two (used.1 uses)
    rw [Material.stageCode, text, Material.stageCode, other]
    refine Sections.mainPart_compiled plain free (fun marker firm => ?_) stage
    have fixed : marker.isLoose = false := by simpa using (Bool.and_eq_true_iff.1 firm).1
    rw [firmly marker firm, agrees marker firm, sectionsOf, ← committed_shared stage fixed, same,
      committed_shared stage fixed, sectionsOf]
  · have silent {m : Material} (unused : ¬ m.Uses stage) : m.stamped.stageCode stage = "" := by
      have empty : (m.source stage).isEmpty = true := by simpa [Material.Uses] using unused
      have nothing : (m.source stage).text = [] := List.isEmpty_iff.1 empty
      rw [Material.stageCode, Material.source_stamped, empty, if_pos rfl, Source.compiled, nothing]
      rfl
    rw [silent uses, silent (mt used.2 uses)]

end Histories

namespace Material

open Emission

/-- A material as it has been built, with fractals whose code is not intrusive. -/
structure Tame (m : Material) : Prop where
  fresh : m.Fresh
  spares : m.Spares intrusive

/-- Generation up to the version. -/
def drafted : Action Unit :=
  walkAll >>= fun _ => prepare

namespace Tame

variable {base twin : Material}

theorem ofConstruct {c : Construct} (coded : ∀ code ∈ c.fractalCodes, lacks intrusive code = true)
    (built : Material.ofConstruct c = .ok base) : base.Tame where
  fresh := fresh_ofConstruct built
  spares := spares_ofConstruct built mem_reserved_of_mem_intrusive coded

/-- Generation up to the version keeps to the order of writing. -/
theorem inOrder (tame : base.Tame) : InOrder base (drafted.events base) := by
  have walked := tidy_walkAll tame.fresh tame.spares [] (tame.fresh.settled closed)
  have whole : Meets Orderly base [] drafted fun _ _ => True :=
    Meets.bind (walked.mono fun _ _ _ holds =>
      (meets_prepare tame.fresh holds.2).mono fun _ _ _ _ => trivial)
  exact (whole .nil).1

theorem run_generate (tame : base.Tame) :
    generate base = (drafted >>= fun _ => perform .stamp) base := by
  have whole : (walkAll >>= fun _ => complete) = drafted >>= fun _ => perform .stamp := by
    rw [complete_eq, drafted, bind_assoc]
  rw [Action.result, Material.run_generate tame.fresh, Action.result, ← whole]
  rfl

variable (tame : base.Tame) (other : twin.Tame) (outline : base.outline = twin.outline)

include tame other outline

theorem alike : Alike base twin where
  outline
  marked := ⟨tame.fresh.marked, other.fresh.marked⟩
  used stage := by
    have unused {m : Material} (fresh : m.Fresh) : ¬ m.Uses stage := by
      rw [Uses, fresh.sources]
      decide
    exact .inr (iff_of_false (unused tame.fresh) (unused other.fresh))

theorem parallel_walkAll :
    Parallel (Parallel.At base twin) Alike walkAll walkAll fun _ => True := by
  rintro _ _ ⟨rfl, rfl⟩
  exact steady_walkAll _ _ (tame.alike other outline)

/-- Up to the version, both generations do the same but for helpers and declarations. -/
theorem parallel_drafted :
    Parallel (Parallel.At base twin) Alike drafted drafted fun _ => True := by
  let early : Action Unit := walkAll >>= fun _ => ensureOutput >>= fun _ => declareInterface
  let late : Action Unit := ensurePosition >>= fun _ => declareUniforms
  have split : drafted = early >>= fun _ => late := by
    simp only [drafted, early, late, prepare, bind_assoc]
  have start : Parallel (Parallel.At base twin) Alike early early fun _ => True :=
    Parallel.bind (tame.parallel_walkAll other outline) fun _ _ =>
      Parallel.bind (steady_ensureOutput id) fun _ _ => steady_declareInterface
  let placed (m twin : Material) : Prop := Alike m twin ∧
    (m.source .vertex).mentions "gl_Position" = (twin.source .vertex).mentions "gl_Position"
  have orderly {m : Material} (tame : m.Tame) : InOrder m (early.events m) :=
    (split ▸ tame.inOrder).of_isPrefix (Action.events_isPrefix_bind ..)
  have agree : Parallel (Parallel.At base twin) placed early early fun _ => True :=
    start.refine_after fun same alike => ⟨alike,
      mentions_position_eq tame.fresh other.fresh alike same (orderly tame) (orderly other)⟩
  rw [split]
  refine Parallel.bind agree fun _ _ => ?_
  exact Parallel.bind (parallel_ensurePosition (fun _ _ both => both.1) fun _ _ both => both.2)
    fun _ _ => steady_declareUniforms

/-- Generation ends in the same way, with the same stages in use and the same main functions. -/
theorem ends_generate :
    Action.Ends (fun m twin => ∀ stage, (m.Uses stage ↔ twin.Uses stage) ∧
      mainPart (m.stageCode stage) = mainPart (twin.stageCode stage)) (fun _ => True)
      (generate base) (generate twin) := by
  let ready (m twin : Material) : Prop := Alike m twin ∧ ∀ stage,
    mainPart (m.stamped.stageCode stage) = mainPart (twin.stamped.stageCode stage)
  have draft : Parallel (Parallel.At base twin) ready drafted drafted fun _ => True :=
    (tame.parallel_drafted other outline).refine_after fun same alike => ⟨alike,
      mainPart_stamped_eq tame.fresh other.fresh alike same tame.inOrder other.inOrder⟩
  rw [tame.run_generate, other.run_generate]
  refine (Parallel.bind draft fun _ _ => Parallel.perform fun m twin both stage => ?_)
    base twin ⟨rfl, rfl⟩ |>.2
  exact ⟨((both.1.apply .stamp).used stage).resolve_left id, both.2 stage⟩

end Tame

/-- Of two descriptors that differ in the code of fractals only, both can be written or neither can,
and they give the same main functions, provided that the code has no marker and does not mention the
position. -/
theorem generate_sameMain {c d : Construct} (same : c.withoutCodes = d.withoutCodes)
    (one : ∀ code ∈ c.fractalCodes, lacks intrusive code = true)
    (two : ∀ code ∈ d.fractalCodes, lacks intrusive code = true) {m after : Material}
    (built : ofConstruct c = .ok m) (ended : generate m = .ok () after) :
    ∃ twin other, ofConstruct d = .ok twin ∧ generate twin = .ok () other ∧
      ∀ stage, (after.Uses stage ↔ other.Uses stage) ∧
        mainPart (after.stageCode stage) = mainPart (other.stageCode stage) := by
  obtain ⟨twin, again, outline⟩ := exists_ok_of_alike same built
  have ends := (Tame.ofConstruct one built).ends_generate (.ofConstruct two again) outline
  rw [ended] at ends
  obtain ⟨other, completed, mains⟩ := ends.exists_second
  exact ⟨twin, other, again, completed, mains⟩

/-- A descriptor with one fractal of one octave. -/
def fractalOf (code : String) : Construct :=
  ⟨.material, none, [], [], [⟨.fbm, none,
    [⟨.count, none, some (.number (.int 1))⟩, ⟨.code, none, some (.string code)⟩], [], []⟩]⟩

theorem exists_mainPart {c : Construct} {size : Nat}
    (computed : (ofConstruct c).toOption.any (fun m => (generate.ended? m).any fun ended =>
      (mainLines ((Text.linesWithEnds (ended.2.source .pixel).text).filter fun line =>
        !Source.isMarkerLine line).flatten).length = size) = true) :
    ∃ m after, ofConstruct c = .ok m ∧ generate m = .ok () after ∧
      (mainPart (after.stageCode .pixel)).length = size := by
  obtain ⟨m, built, computed⟩ := exists_ok_of_any computed
  obtain ⟨_, after, ended, computed⟩ := Action.exists_ok_of_any computed
  refine ⟨m, after, built, ended, ?_⟩
  rw [stageCode, mainPart_compiled_eq]
  exact of_decide_eq_true computed

theorem exists_mainPart_plain :
    ∃ m after, ofConstruct (fractalOf "0.0") = .ok m ∧ generate m = .ok () after ∧
      (mainPart (after.stageCode .pixel)).length = 3 :=
  exists_mainPart (by decide +kernel)

/-- Code may have comments, directives and lines like those of a template. -/
theorem generate_sameMain_comment :
    let code := "0.0 // #version\nvoid main () \x7b\n"
    (fractalOf "0.0").withoutCodes = (fractalOf code).withoutCodes ∧
    (∀ part ∈ (fractalOf "0.0").fractalCodes ++ (fractalOf code).fractalCodes,
      lacks intrusive part = true) ∧
    ∃ m twin after other, ofConstruct (fractalOf "0.0") = .ok m ∧ generate m = .ok () after ∧
      ofConstruct (fractalOf code) = .ok twin ∧ generate twin = .ok () other ∧
      mainPart (after.stageCode .pixel) = mainPart (other.stageCode .pixel) ∧
      (mainPart (other.stageCode .pixel)).length = 3 := by
  intro code
  have blanks : (fractalOf "0.0").withoutCodes = (fractalOf code).withoutCodes := rfl
  have free : ∀ part ∈ (fractalOf "0.0").fractalCodes ++ (fractalOf code).fractalCodes,
      lacks intrusive part = true := by
    decide +kernel
  obtain ⟨m, after, built, ended, size⟩ := exists_mainPart_plain
  obtain ⟨twin, other, again, completed, mains⟩ := generate_sameMain blanks
    (fun part member => free part (List.mem_append_left _ member))
    (fun part member => free part (List.mem_append_right _ member)) built ended
  have same := (mains .pixel).2
  exact ⟨blanks, free, m, twin, after, other, built, ended, again, completed, same, same ▸ size⟩

/-- A marker in the code of a fractal, if only in a comment, draws code to it that belongs into the
main function. -/
theorem generate_not_sameMain_marker :
    let code := "0.0 /* #TEXTURIZE */"
    (fractalOf code).withoutCodes = (fractalOf "0.0").withoutCodes ∧
    ∃ m twin after other, ofConstruct (fractalOf code) = .ok m ∧ generate m = .ok () after ∧
      ofConstruct (fractalOf "0.0") = .ok twin ∧ generate twin = .ok () other ∧
      mainPart (after.stageCode .pixel) ≠ mainPart (other.stageCode .pixel) := by
  intro code
  obtain ⟨m, after, built, ended, shorter⟩ : ∃ m after, ofConstruct (fractalOf code) = .ok m ∧
      generate m = .ok () after ∧ (mainPart (after.stageCode .pixel)).length = 2 :=
    exists_mainPart (by decide +kernel)
  obtain ⟨twin, other, again, completed, longer⟩ := exists_mainPart_plain
  refine ⟨rfl, m, twin, after, other, built, ended, again, completed, fun same => ?_⟩
  rw [same, longer] at shorter
  exact absurd shorter (by decide)

end Material

end GlslMaterial
