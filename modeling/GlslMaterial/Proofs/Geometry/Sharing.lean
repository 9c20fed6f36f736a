import GlslMaterial.Geometry.Catalog
import GlslMaterial.Proofs.Glsl.Scope
import Mathlib.Data.List.Forall2

/-!
Shared geometry: a catalog answers every request as an empty one would, whatever it was asked for
before. The text by which a primitive is found again shows all of it, as its parts can be cut out at
characters that no number has.
-/

set_option autoImplicit false

namespace GlslMaterial

namespace Decimal

def isShownChar (c : Char) : Bool :=
  Glsl.isNumberChar c || "einfNa".toList.contains c

variable {text : List Char} {mark : Char}

theorem isShownChar_of_number (number : text.all Glsl.isNumberChar = true) :
    text.all isShownChar = true := by
  simp only [List.all_eq_true] at number ⊢
  intro c member
  simp [isShownChar, number c member]

theorem isShownChar_signed (negative : Bool) (shown : text.all isShownChar = true) :
    (signed negative text).all isShownChar = true := by
  have sign : isShownChar '-' = true := by decide
  unfold signed
  split <;> simp [shown, sign]

theorem isShownChar_scientific (d : Scaled) : (scientific [] d).all isShownChar = true := by
  have digits := isShownChar_of_number (Glsl.isNumberChar_digitText d.digits)
  have halves : ((digitText d.digits).take 1).all isShownChar = true ∧
      ((digitText d.digits).drop 1).all isShownChar = true := by
    rw [← Bool.and_eq_true_iff, ← List.all_append, List.take_append_drop, digits]
  have exponent := fun n => isShownChar_of_number (Glsl.isNumberChar_digitText n)
  have point : isShownChar '.' = true := by decide
  have letter : isShownChar 'e' = true := by decide
  have sign : isShownChar '-' = true := by decide
  unfold scientific
  simp only [List.all_append, List.all_cons, halves.1, exponent, letter, Bool.and_true,
    Bool.true_and, Bool.and_eq_true]
  constructor
  · split <;> simp_all
  · split <;> simp [sign]

theorem isShownChar_plainText (number : Bool × Magnitude) :
    (plainText number).all isShownChar = true := by
  obtain ⟨negative, magnitude⟩ := number
  cases magnitude with
  | zero | infinite => exact isShownChar_signed negative (by decide)
  | finite b =>
    exact isShownChar_signed negative (isShownChar_of_number (Glsl.isNumberChar_positional _))
  | undefined => exact (by decide : "NaN".toList.all isShownChar = true)

theorem isShownChar_recordText (number : Bool × Magnitude) :
    (recordText number).all isShownChar = true := by
  obtain ⟨negative, magnitude⟩ := number
  cases magnitude with
  | zero => exact isShownChar_signed negative (by decide)
  | finite b =>
    apply isShownChar_signed
    split
    · exact isShownChar_of_number (Glsl.isNumberChar_withPoint (Glsl.isNumberChar_positional _)).2
    · exact isShownChar_scientific _
  | infinite => exact isShownChar_plainText (negative, .infinite)
  | undefined => exact isShownChar_plainText (negative, .undefined)

/-- Numbers that can be told apart by their texts. -/
def Legible (numbers : List Float32) : Prop :=
  ∀ x ∈ numbers, ∀ y ∈ numbers, (plain32 x = plain32 y → x = y) ∧ (record32 x = record32 y → x = y)

instance (numbers : List Float32) : Decidable (Legible numbers) :=
  inferInstanceAs (Decidable (∀ x ∈ numbers, ∀ y ∈ numbers, _))

/-- Two texts agree up to a character that neither of them has. -/
theorem cut_inj {a b rest others : List Char} (apart : mark ∉ a) (apart' : mark ∉ b)
    (same : a ++ mark :: rest = b ++ mark :: others) : a = b ∧ rest = others := by
  induction a generalizing b with
  | nil =>
    cases b with
    | nil => simpa using same
    | cons c b =>
      have begins : mark = c := (List.cons.inj same).1
      simp [begins] at apart'
  | cons c a ih =>
    cases b with
    | nil =>
      have begins : c = mark := (List.cons.inj same).1
      simp [begins] at apart
    | cons d b =>
      obtain ⟨begins, same⟩ := List.cons.inj same
      obtain ⟨equal, later⟩ := ih (List.not_mem_of_not_mem_cons apart)
        (List.not_mem_of_not_mem_cons apart') same
      exact ⟨by rw [begins, equal], later⟩

theorem notMem_of_shown (shown : text.all isShownChar = true)
    (other : isShownChar mark = false) : mark ∉ text :=
  fun member => by simp [List.all_eq_true.1 shown mark member] at other

theorem printed_cut_inj {print : Float32 → String}
    (shown : ∀ z, (print z).toList.all isShownChar = true) {x y : Float32}
    (apart : print x = print y → x = y)
    (other : isShownChar mark = false) {rest others : List Char}
    (same : (print x).toList ++ mark :: rest = (print y).toList ++ mark :: others) :
    x = y ∧ rest = others := by
  obtain ⟨text, later⟩ :=
    cut_inj (notMem_of_shown (shown x) other) (notMem_of_shown (shown y) other) same
  exact ⟨apart (String.toList_inj.1 text), later⟩

theorem isShownChar_plain32 (x : Float32) : (plain32 x).toList.all isShownChar = true := by
  rw [plain32, String.toList_ofList, isShownChar_plainText]

theorem isShownChar_record32 (x : Float32) : (record32 x).toList.all isShownChar = true := by
  rw [record32, String.toList_ofList, isShownChar_recordText]

end Decimal

open Decimal

def Shape.numbers : Shape → List Float32
  | sphere radius => [radius]
  | _ => []

def Primitive.numbers (p : Primitive) : List Float32 :=
  p.shape.numbers ++ p.center.toList ++ p.scale.toList

section Keys

variable {numbers : List Float32} {rest others : List Char}

theorem Vec3.shown_append_inj {v w : Vec3} (legible : Legible numbers) (within : v.toList ⊆ numbers)
    (within' : w.toList ⊆ numbers) (same : v.shown.toList ++ rest = w.shown.toList ++ others) :
    v = w ∧ rest = others := by
  have written : ∀ (u : Vec3) (rest : List Char), u.shown.toList ++ rest =
      '[' :: ((plain32 u.x).toList ++ ',' :: ' ' :: ((plain32 u.y).toList ++ ',' :: ' ' ::
        ((plain32 u.z).toList ++ ']' :: rest))) := by
    intro u rest
    simp [shown]
  obtain ⟨vx, vy, vz⟩ := v
  obtain ⟨wx, wy, wz⟩ := w
  simp only [toList, List.cons_subset] at within within'
  rw [written, written] at same
  obtain ⟨x, second⟩ :=
    printed_cut_inj isShownChar_plain32 (legible _ within.1 _ within'.1).1 (by decide)
    (List.cons.inj same).2
  obtain ⟨y, third⟩ := printed_cut_inj isShownChar_plain32 (legible _ within.2.1 _ within'.2.1).1
    (by decide) (List.cons.inj second).2
  obtain ⟨z, later⟩ := printed_cut_inj isShownChar_plain32
    (legible _ within.2.2.1 _ within'.2.2.1).1
    (by decide) (List.cons.inj third).2
  exact ⟨by rw [x, y, z], later⟩

/-- The letter that the text of a shape begins with. -/
def Shape.initial : Shape → Char
  | box => 'B'
  | sphere _ => 'S'
  | rect => 'R'
  | triangle => 'T'
  | line => 'L'

theorem Shape.toList_shown_sphere (radius : Float32) : (sphere radius).shown.toList =
    "Sphere \x7b radius: ".toList ++ ((record32 radius).toList ++ [' ', '\x7d']) := by
  have parts : (sphere radius).shown = "Sphere \x7b radius: " ++ record32 radius ++ " \x7d" := rfl
  have closing : " \x7d".toList = [' ', '\x7d'] := rfl
  rw [parts, String.toList_append, String.toList_append, closing, List.append_assoc]

theorem Shape.toList_shown (s : Shape) : ∃ more, s.shown.toList = s.initial :: more := by
  cases s with
  | sphere radius => exact ⟨_, toList_shown_sphere radius⟩
  | _ => exact ⟨_, rfl⟩

/-- Shapes begin with different letters, and the radius of a sphere ends at a blank. -/
theorem Shape.shown_append_inj {s t : Shape} (legible : Legible numbers)
    (within : s.numbers ⊆ numbers)
    (within' : t.numbers ⊆ numbers) (same : s.shown.toList ++ rest = t.shown.toList ++ others) :
    s = t ∧ rest = others := by
  have letter : s.initial = t.initial := by
    obtain ⟨more, begins⟩ := s.toList_shown
    obtain ⟨more', begins'⟩ := t.toList_shown
    rw [begins, begins'] at same
    exact (List.cons.inj same).1
  cases s with
  | sphere radius =>
    cases t with
    | sphere radius' =>
      rw [toList_shown_sphere, toList_shown_sphere, List.append_assoc, List.append_assoc,
        List.append_assoc, List.append_assoc] at same
      have apart := (legible _ (within List.mem_cons_self) _ (within' List.mem_cons_self)).2
      obtain ⟨radii, later⟩ := printed_cut_inj isShownChar_record32 apart (by decide)
        (List.append_cancel_left same)
      exact ⟨by rw [radii], (List.cons.inj later).2⟩
    | _ => exact absurd letter (by simp [initial])
  | _ =>
    cases t <;> simp [initial] at letter
    exact ⟨rfl, List.append_cancel_left same⟩

theorem Primitive.key_inj {p q : Primitive} (legible : Legible numbers)
    (named : ':' ∉ p.name.toList)
    (named' : ':' ∉ q.name.toList) (within : p.numbers ⊆ numbers) (within' : q.numbers ⊆ numbers)
    (same : p.key = q.key) : p = q := by
  have written : ∀ p : Primitive, p.key.toList = p.name.toList ++
      ':' :: (p.shape.shown.toList ++ ':' ::
      (p.center.shown.toList ++ ':' :: (p.scale.shown.toList ++ []))) := by
    intro p
    simp [key]
  obtain ⟨name, shape, center, scale⟩ := p
  obtain ⟨name', shape', center', scale'⟩ := q
  simp only [Primitive.numbers, List.append_subset] at within within'
  have same := congrArg String.toList same
  rw [written, written] at same
  obtain ⟨sameName, same⟩ := cut_inj named named' same
  obtain ⟨sameShape, same⟩ := Shape.shown_append_inj legible within.1.1 within'.1.1 same
  obtain ⟨sameCenter, same⟩ :=
    Vec3.shown_append_inj legible within.1.2 within'.1.2 (List.cons.inj same).2
  obtain ⟨sameScale, -⟩ := Vec3.shown_append_inj legible within.2 within'.2 (List.cons.inj same).2
  rw [Primitive.mk.injEq]
  exact ⟨String.toList_inj.1 sameName, sameShape, sameCenter, sameScale⟩

end Keys

namespace Primitive

theorem notMem_name_of_shapeNamed {c : Construct} {name : String} {scale : Vec3} {shape : Shape}
    (known : shapeNamed c name scale = .ok shape) : ':' ∉ name.toList := by
  unfold shapeNamed at known
  split at known
  case h_8 => exact nomatch known
  all_goals decide

theorem notMem_name {c : Construct} {p : Primitive} (asked : ofConstruct c = .ok p) :
    ':' ∉ p.name.toList := by
  unfold ofConstruct at asked
  simp only [bind, Except.bind, pure, Except.pure] at asked
  split at asked
  · exact nomatch asked
  split at asked
  case h_2 => exact nomatch asked
  split at asked
  · exact nomatch asked
  split at asked
  · exact nomatch asked
  split at asked
  · exact nomatch asked
  rename_i known
  cases asked
  exact notMem_name_of_shapeNamed known

end Primitive

def asked (constructs : List Construct) : List Primitive :=
  constructs.filterMap fun c => (Primitive.ofConstruct c).toOption

theorem mem_asked {constructs : List Construct} {p : Primitive} :
    p ∈ asked constructs ↔ ∃ c ∈ constructs, Primitive.ofConstruct c = .ok p := by
  have read : ∀ c, (Primitive.ofConstruct c).toOption = some p ↔
      Primitive.ofConstruct c = .ok p := by
    intro c
    cases Primitive.ofConstruct c <;> simp [Except.toOption]
  simp [asked, read]

namespace Catalog

/-- The answers to requests that are made one after the other, and the catalog that they leave. -/
def serve (catalog : Catalog) : List Construct → List (Except Failure (Nat × Geometry)) × Catalog
  | [] => ([], catalog)
  | c :: constructs =>
    let served := serve (catalog.request c).2 constructs
    ((catalog.request c).1 :: served.1, served.2)

/-- What is in a catalog after requests for some primitives: each of them was built, at most once.
-/
structure Sound (primitives : List Primitive) (catalog : Catalog) : Prop where
  built : ∀ entry ∈ catalog.entries, ∃ p ∈ primitives, entry = (p.key, p.build)
  once : (catalog.entries.toList.map Prod.fst).Nodup

/-- An entry holds a primitive. -/
def Holds (catalog : Catalog) (i : Nat) (p : Primitive) : Prop :=
  catalog.entries.toList[i]? = some (p.key, p.build)

/-- What an answer is, given the catalog in the end. -/
structure Answers (final : Catalog) (c : Construct) (answer : Except Failure (Nat × Geometry)) :
    Prop where
  refused : ∀ failure, Primitive.ofConstruct c = .error failure → answer = .error failure
  given : ∀ p, Primitive.ofConstruct c = .ok p → ∃ i, answer = .ok (i, p.build) ∧ final.Holds i p

section Requests

variable {primitives : List Primitive} {catalog : Catalog}

theorem sound_empty : Sound primitives empty :=
  ⟨by simp [empty], by simp [empty]⟩

variable {p : Primitive} {c : Construct} {final : Catalog}

theorem fetch_spec (apart : ∀ p ∈ primitives, ∀ q ∈ primitives, p.key = q.key → p = q)
    (sound : Sound primitives catalog) (known : p ∈ primitives) :
    (catalog.fetch p).1.2 = p.build ∧ (catalog.fetch p).2.Holds (catalog.fetch p).1.1 p ∧
      catalog.entries.toList <+: (catalog.fetch p).2.entries.toList ∧
      Sound primitives (catalog.fetch p).2 := by
  unfold fetch
  split
  · rename_i i found
    obtain ⟨inside, same, -⟩ := Array.findIdx?_eq_some_iff_getElem.1 found
    obtain ⟨q, listed, entry⟩ := sound.built _ (Array.getElem_mem inside)
    have equal : p = q := by
      apply apart p known q listed
      rw [entry] at same
      exact (of_decide_eq_true same).symm
    have here : catalog.entries.toList[i]? = some (p.key, p.build) := by
      rw [equal, ← entry]
      simp [inside]
    exact ⟨by simp [Array.getD_eq_getD_getElem?, ← Array.getElem?_toList, here], here,
      List.prefix_rfl, sound⟩
  · rename_i absent
    have unlike := Array.findIdx?_eq_none_iff.1 absent
    refine ⟨rfl, by simp [Holds], by simp, ?_, ?_⟩
    · intro entry member
      rcases Array.mem_push.1 member with earlier | rfl
      · exact sound.built entry earlier
      · exact ⟨p, known, rfl⟩
    · simp only [Array.toList_push, List.map_append, List.map_cons, List.map_nil]
      refine List.nodup_append.2 ⟨sound.once, by simp, ?_⟩
      intro first within second last
      obtain ⟨entry, member, rfl⟩ := List.mem_map.1 within
      have other := unlike entry (Array.mem_toList_iff.1 member)
      rw [List.mem_singleton.1 last]
      simpa using other

theorem request_of_ok (asked : Primitive.ofConstruct c = .ok p) :
    catalog.request c = (.ok (catalog.fetch p).1, (catalog.fetch p).2) := by
  rw [request, asked]
  rfl

theorem request_of_error {failure : Failure} (refused : Primitive.ofConstruct c = .error failure) :
    catalog.request c = (.error failure, catalog) := by
  simp [request, refused]

theorem Holds.of_isPrefix {i : Nat} (holds : catalog.Holds i p)
    (more : catalog.entries.toList <+: final.entries.toList) : final.Holds i p := by
  obtain ⟨rest, together⟩ := more
  rw [Holds, ← together, List.getElem?_append_left (List.getElem?_eq_some_iff.1 holds).1]
  exact holds

theorem serve_spec (apart : ∀ p ∈ primitives, ∀ q ∈ primitives, p.key = q.key → p = q)
    {constructs : List Construct} (sound : Sound primitives catalog)
    (known : ∀ p ∈ asked constructs, p ∈ primitives) :
    catalog.entries.toList <+: (catalog.serve constructs).2.entries.toList ∧
      Sound primitives (catalog.serve constructs).2 ∧
      List.Forall₂ (Answers (catalog.serve constructs).2) constructs
        (catalog.serve constructs).1 := by
  induction constructs generalizing catalog with
  | nil => exact ⟨List.prefix_rfl, sound, .nil⟩
  | cons c constructs ih =>
    have later : ∀ p ∈ asked constructs, p ∈ primitives := by
      intro p within
      obtain ⟨d, member, built⟩ := mem_asked.1 within
      exact known p (mem_asked.2 ⟨d, List.mem_cons_of_mem _ member, built⟩)
    cases built : Primitive.ofConstruct c with
    | error failure =>
      simp only [serve, request_of_error built]
      obtain ⟨more, after, answers⟩ := ih sound later
      refine ⟨more, after, .cons ⟨?_, ?_⟩ answers⟩
      · rintro other same
        cases built.symm.trans same
        rfl
      · intro p same
        cases built.symm.trans same
    | ok p =>
      simp only [serve, request_of_ok built]
      have listed := known p (mem_asked.2 ⟨c, List.mem_cons_self, built⟩)
      obtain ⟨value, holds, grown, kept⟩ := fetch_spec apart sound listed
      obtain ⟨more, after, answers⟩ := ih kept later
      refine ⟨grown.trans more, after, .cons ⟨?_, ?_⟩ answers⟩
      · intro failure same
        cases built.symm.trans same
      · rintro q same
        cases built.symm.trans same
        exact ⟨_, by rw [← value], holds.of_isPrefix more⟩

theorem Answers.alike {answer : Except Failure (Nat × Geometry)}
    (answers : final.Answers c answer) :
      answer.map Prod.snd = (empty.request c).1.map Prod.snd := by
  cases built : Primitive.ofConstruct c with
  | error failure => rw [answers.refused failure built, request_of_error built]
  | ok p =>
    obtain ⟨i, given, -⟩ := answers.given p built
    rw [given, request_of_ok built]
    simp [Except.map, fetch, empty]

theorem map_alike {constructs : List Construct} {given : List (Except Failure (Nat × Geometry))}
    (answers : List.Forall₂ (Answers final) constructs given) :
    given.map (fun answer => answer.map Prod.snd) =
      constructs.map (fun c => (empty.request c).1.map Prod.snd) := by
  induction answers with
  | nil => rfl
  | cons answer _ ih => rw [List.map_cons, List.map_cons, answer.alike, ih]

theorem Sound.eq_iff (apart : ∀ p ∈ primitives, ∀ q ∈ primitives, p.key = q.key → p = q)
    (sound : Sound primitives catalog) {q : Primitive} (known : p ∈ primitives)
    (known' : q ∈ primitives)
    {i j : Nat} (holds : catalog.Holds i p) (holds' : catalog.Holds j q) : i = j ↔ p = q := by
  have key : ∀ {i p}, catalog.Holds i p →
      (catalog.entries.toList.map Prod.fst)[i]? = some p.key := by
    intro i p holds
    rw [List.getElem?_map, show _ = _ from holds]
    rfl
  constructor
  · rintro rfl
    exact apart p known q known' (Option.some.inj ((key holds).symm.trans (key holds')))
  · rintro rfl
    have inside := (List.getElem?_eq_some_iff.1 (key holds)).1
    exact (List.getElem?_inj inside sound.once).1 ((key holds).trans (key holds').symm)

end Requests

theorem key_inj_of_asked {constructs : List Construct}
    (legible : Legible ((asked constructs).flatMap Primitive.numbers)) :
    ∀ p ∈ asked constructs, ∀ q ∈ asked constructs, p.key = q.key → p = q := by
  have named : ∀ p ∈ asked constructs, ':' ∉ p.name.toList := by
    intro p known
    obtain ⟨c, -, built⟩ := mem_asked.1 known
    exact Primitive.notMem_name built
  have within : ∀ p ∈ asked constructs, p.numbers ⊆ (asked constructs).flatMap Primitive.numbers :=
    fun p known x member => List.mem_flatMap.2 ⟨p, known, member⟩
  intro p known q known' same
  exact Primitive.key_inj legible (named p known) (named q known') (within p known)
    (within q known') same

/-- A catalog is transparent. Each of a series of requests gets the geometry, or the failure, that
it would get from an empty catalog. Two requests share an entry if and only if they ask for the same
primitive. A request that fails leaves the catalog as it is. -/
theorem serve_transparent (constructs : List Construct)
    (legible : Legible ((asked constructs).flatMap Primitive.numbers)) :
    (empty.serve constructs).1.map (fun answer => answer.map Prod.snd) =
      constructs.map (fun c => (empty.request c).1.map Prod.snd) ∧
    (∀ (i j : Nat) (c d : Construct) (p q : Primitive), constructs[i]? = some c →
      constructs[j]? = some d → Primitive.ofConstruct c = .ok p → Primitive.ofConstruct d = .ok q →
      ∃ n m, (empty.serve constructs).1[i]? = some (.ok (n, p.build)) ∧
        (empty.serve constructs).1[j]? = some (.ok (m, q.build)) ∧ (n = m ↔ p = q)) ∧
    ∀ (catalog : Catalog) (c : Construct) (failure : Failure),
      (catalog.request c).1 = .error failure → (catalog.request c).2 = catalog := by
  have apart := key_inj_of_asked legible
  obtain ⟨-, sound, answers⟩ := serve_spec apart sound_empty fun p known => known
  refine ⟨map_alike answers, ?_, ?_⟩
  · have answered : ∀ {i : Nat} {c : Construct} {p : Primitive}, constructs[i]? = some c →
        Primitive.ofConstruct c = .ok p →
        p ∈ asked constructs ∧ ∃ n, (empty.serve constructs).1[i]? = some (Except.ok (n, p.build)) ∧
          (empty.serve constructs).2.Holds n p := by
      intro i c p requested built
      obtain ⟨inside, rfl⟩ := List.getElem?_eq_some_iff.1 requested
      have inside' := answers.length_eq ▸ inside
      obtain ⟨n, given, holds⟩ := (answers.get inside inside').given p built
      exact ⟨mem_asked.2 ⟨_, List.getElem_mem inside, built⟩, n,
        List.getElem?_eq_some_iff.2 ⟨inside', given⟩, holds⟩
    intro i j c d p q requested requested' built built'
    obtain ⟨known, n, given, holds⟩ := answered requested built
    obtain ⟨known', m, given', holds'⟩ := answered requested' built'
    exact ⟨n, m, given, given', sound.eq_iff apart known known' holds holds'⟩
  · intro catalog c failure refused
    cases built : Primitive.ofConstruct c with
    | error other => rw [request_of_error built]
    | ok p => simp [request_of_ok built] at refused

/-- Spheres by two traits, a box by both of its names, and a name that nothing has. -/
def sampled : List Construct :=
  [⟨.geometry, some "Sphere", [⟨.mass, none, some (.number (.int 2))⟩], [], []⟩,
    ⟨.geometry, some "sphere", [⟨.scale, none, some (.number (.int 4))⟩], [], []⟩,
    ⟨.geometry, some "box", [], [], []⟩, ⟨.geometry, some "torus", [], [], []⟩,
    ⟨.geometry, some "sphere", [⟨.mass, none, some (.number (.int 2))⟩], [], []⟩]

theorem serve_transparent_sampled : Legible ((asked sampled).flatMap Primitive.numbers) ∧
    (empty.serve sampled).1.map (fun answer => answer.map Prod.snd) =
      sampled.map (fun c => (empty.request c).1.map Prod.snd) := by
  have legible : Legible ((asked sampled).flatMap Primitive.numbers) := by decide +kernel
  exact ⟨legible, (serve_transparent sampled legible).1⟩

end Catalog

end GlslMaterial
