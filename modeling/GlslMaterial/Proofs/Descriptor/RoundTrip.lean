import GlslMaterial.Descriptor.Printer
import GlslMaterial.Descriptor.Reader
import GlslMaterial.Proofs.Json.Reading

/-!
Descriptors that are written and read again. Main statement: a construct is read back from its text,
when its free-form values are not null and have no floating point numbers.
-/

set_option autoImplicit false

namespace GlslMaterial

/-- A construct in which no free-form value is null or has a floating point number. -/
inductive Construct.Exact : Construct → Prop
  | intro {c : Construct}
    (traits : ∀ t ∈ c.traits, ∀ value ∈ t.value, value ≠ .null ∧ value.isExact = true)
    (verbs : ∀ entry ∈ c.verbs, ∀ value ∈ entry.value, value ≠ .null ∧ value.isExact = true)
    (children : ∀ child ∈ c.children, child.Exact) : c.Exact

namespace Descriptor

open Json Json.Reader

variable {α σ : Type}

section Fields

theorem advance_cons (c : Char) (rest : List Char) :
    (advance : Reader Unit) (c :: rest) = .ok ((), rest) := rfl

theorem reads_expectWord {meaning : String → Option α} {word : String} {a : α}
    (known : meaning word = some a) (vocabulary : List String) (room : Nat) :
    Reads (expectWord vocabulary meaning room) (chars (.string word)) a := by
  intro rest _
  rw [chars, stringChars_append]
  unfold expectWord
  rw [bind_of_ok (peek_cons rfl _)]
  refine (bind_of_ok (advance_cons _ _)).trans ?_
  rw [bind_of_ok (restOfString_escaped word rest)]
  simp only [known]
  rfl

theorem reads_expectString (expected text : String) :
    Reads (expectString expected) (chars (.string text)) text := by
  intro rest _
  rw [chars, stringChars_append]
  exact restOfString_escaped text rest

theorem reads_expectArray {inner : Reader α} {print : α → Json} {xs : List α}
    (each : ∀ x ∈ xs, Reads inner (chars (print x)) x ∧ ∀ f, print x ≠ .number (.float f)) :
    Reads (expectArray (some inner)) (chars (.array (xs.map print))) xs :=
  fun rest _ => items_read each rest

/-- What is absent is written as null, and nothing else is. -/
theorem reads_nullable {present : Reader α} {print : α → Json} {given : Option α}
    (reads : ∀ a ∈ given, Reads present (chars (print a)) a ∧ print a ≠ .null ∧
      ∀ x, print a ≠ .number (.float x)) :
    Reads (nullable present) (chars (optionJson print given)) given := by
  intro rest follows
  cases given with
  | none => exact map_of_ok (fun _ => none) (restOfWord_self ['u', 'l', 'l'] rest)
  | some a =>
    obtain ⟨read, present, plain⟩ := reads a rfl
    obtain ⟨c, more, written, begins, null⟩ := chars_head plain
    have other : c ≠ 'n' := fun same => present (null same)
    have read := read rest follows
    rw [written, List.cons_append] at read
    rw [optionJson, written, List.cons_append]
    unfold nullable
    rw [bind_of_ok (peek_cons begins.1 _)]
    simpa [other] using map_of_ok some read

theorem reads_member {step : Reader σ} {key : String} {reader : Reader α} {value : Json} {a : α}
    (next : Option α → σ) (fills : step = field key none reader >>= fun found => pure (next found))
    (reads : Reads reader (chars value) a) : Reads step (':' :: chars value) (next (some a)) := by
  intro rest follows
  rw [fills]
  exact map_of_ok next (map_of_ok some (reads rest follows))

theorem reads_record {expected : String} {fromArray fromObject : Nat → Reader α} {room : Nat}
    {members : List (String × Json)} {a : α}
    (read : ∀ rest, fromObject room (membersChars members ++ rest) = .ok (a, rest)) :
    Reads (record expected (room + 1) fromArray fromObject) (chars (.object members)) a :=
  fun rest _ => read rest

end Fields

variable {room : Nat}

theorem reads_free {given : Option Json}
    (free : ∀ value ∈ given, value ≠ .null ∧ value.isExact = true)
    (nested : (optionJson (fun value => value) given).depth ≤ room) :
    Reads (nullable (value room)) (chars (optionJson (fun value => value) given)) given := by
  apply reads_nullable
  rintro value rfl
  obtain ⟨present, exact⟩ := free value rfl
  refine ⟨reads_value exact nested, present, ?_⟩
  rintro x rfl
  simp [isExact] at exact

theorem reads_optionalWord {given : Option α} {meaning : String → Option α} {label : α → String}
    (known : ∀ a, meaning (label a) = some a) (vocabulary : List String) (room : Nat) :
    Reads (nullable (expectWord vocabulary meaning room))
      (chars (optionJson (fun a => .string (label a)) given)) given :=
  reads_nullable fun a _ => ⟨reads_expectWord (known a) vocabulary room, nofun, nofun⟩

theorem ofWord?_word (type : DataType) : DataType.ofWord? type.word = some type := by
  cases type <;> decide

theorem reads_trait {t : Trait} (free : ∀ value ∈ t.value, value ≠ .null ∧ value.isExact = true)
    (nested : t.toJson.depth ≤ room) : Reads (trait room) (chars t.toJson) t := by
  have value : (optionJson (fun value => value) t.value).depth < room :=
    Nat.lt_of_lt_of_le (depth_lt_object "value" (by simp)) nested
  obtain ⟨room, rfl⟩ := Nat.exists_eq_succ_of_ne_zero (Nat.ne_zero_of_lt value)
  refine reads_record fun rest => ?_
  unfold traitFromObject
  refine (bind_of_ok (members_read
    (⟨some t.id, some t.type, some t.value⟩ : TraitFields) ?_ rest)).trans rfl
  refine .cons (reads_member (TraitFields.mk · none none) rfl
    (reads_expectWord (TraitId.ofLabel?_label t.id) _ room)) ?_
  refine .cons (reads_member (TraitFields.mk (some t.id) · none) rfl
    (reads_optionalWord ofWord?_word _ room)) ?_
  exact .cons (reads_member (TraitFields.mk (some t.id) (some t.type) ·) rfl
    (reads_free free (Nat.le_of_lt_succ value))) (.nil _)

theorem reads_verb {entry : VerbEntry}
    (free : ∀ value ∈ entry.value, value ≠ .null ∧ value.isExact = true)
    (nested : entry.toJson.depth ≤ room) : Reads (verb room) (chars entry.toJson) entry := by
  have value : (optionJson (fun value => value) entry.value).depth < room :=
    Nat.lt_of_lt_of_le (depth_lt_object "value" (by simp)) nested
  obtain ⟨room, rfl⟩ := Nat.exists_eq_succ_of_ne_zero (Nat.ne_zero_of_lt value)
  refine reads_record fun rest => ?_
  unfold verbFromObject
  refine (bind_of_ok (members_read
    (⟨some entry.verb, some entry.value, some entry.operand⟩ : VerbFields) ?_ rest)).trans rfl
  refine .cons (reads_member (VerbFields.mk · none none) rfl
    (reads_expectWord (Verb.ofLabel?_label entry.verb) _ room)) ?_
  refine .cons (reads_member (VerbFields.mk (some entry.verb) · none) rfl
    (reads_free free (Nat.le_of_lt_succ value))) ?_
  exact .cons (reads_member (VerbFields.mk (some entry.verb) (some entry.value) ·) rfl
    (reads_optionalWord TraitId.ofLabel?_label _ room)) (.nil _)

theorem childrenJson_eq_map (children : List Construct) :
    childrenJson children = children.map Construct.toJson := by
  induction children with
  | nil => rfl
  | cons child children ih => rw [childrenJson, ih, List.map_cons]

theorem toJson_eq (c : Construct) : c.toJson =
    .object [("type", .string c.kind.label), ("name", optionJson .string c.name),
      ("traits", .array (c.traits.map Trait.toJson)),
      ("verbs", .array (c.verbs.map VerbEntry.toJson)),
      ("children", .array (c.children.map Construct.toJson))] := by
  cases c
  rw [Construct.toJson, childrenJson_eq_map]

/-- The records of an array in a construct are two levels further in. -/
theorem depth_le_of_mem {print : α → Json} {xs : List α} {members : List (String × Json)}
    (key : String) (listed : (key, Json.array (xs.map print)) ∈ members)
    (nested : (Json.object members).depth ≤ room + 2) : ∀ x ∈ xs, (print x).depth ≤ room := by
  intro x within
  have array := depth_lt_object key listed
  have item := depth_lt_array (List.mem_map_of_mem (f := print) within)
  omega

theorem two_le_depth (c : Construct) : 2 ≤ c.toJson.depth := by
  rw [toJson_eq]
  simp only [depth, List.map_cons, List.foldr_cons]
  omega

theorem reads_construct {c : Construct} (exact : c.Exact)
    (nested : c.toJson.depth ≤ room) : Reads (construct room) (chars c.toJson) c := by
  induction room using construct.induct generalizing c with
  | case1 | case2 => exact absurd (two_le_depth c) (by omega)
  | case3 room ih =>
    obtain ⟨traits, verbs, children⟩ := exact
    rw [toJson_eq] at nested ⊢
    refine reads_record fun rest => ?_
    unfold constructFromObject
    refine (bind_of_ok (members_read (⟨some c.kind, some c.name, some c.traits, some c.verbs,
      some c.children⟩ : ConstructFields) ?_ rest)).trans (by cases c; rfl)
    refine .cons (reads_member (ConstructFields.mk · none none none none) rfl
      (reads_expectWord (Kind.ofWord?_label c.kind) _ _)) ?_
    refine .cons (reads_member (ConstructFields.mk (some c.kind) · none none none) rfl
      (reads_nullable fun name _ => ⟨reads_expectString _ name, nofun, nofun⟩)) ?_
    refine .cons (reads_member (ConstructFields.mk (some c.kind) (some c.name) · none none) rfl
      (reads_expectArray fun t within => ⟨reads_trait (traits t within)
        (depth_le_of_mem "traits" (by simp) nested t within), nofun⟩)) ?_
    refine .cons (reads_member
      (ConstructFields.mk (some c.kind) (some c.name) (some c.traits) · none)
      rfl (reads_expectArray fun entry within => ⟨reads_verb (verbs entry within)
        (depth_le_of_mem "verbs" (by simp) nested entry within), nofun⟩)) ?_
    refine .cons (reads_member (ConstructFields.mk (some c.kind) (some c.name) (some c.traits)
      (some c.verbs) ·) rfl (reads_expectArray fun child within => ⟨?_, ?_⟩)) (.nil _)
    · exact ih (children child within) (depth_le_of_mem "children" (by simp) nested child within)
    · rw [toJson_eq]
      nofun

end Descriptor

namespace Construct

/-- A construct is read back from its text, whatever it is made of, when its free-form values are
not null and have no floating point numbers, and it is not nested deeper than a text may be. -/
theorem parse_render {c : Construct} (exact : c.Exact) (nested : c.toJson.depth ≤ Json.maxDepth) :
    Descriptor.parseConstruct (Json.render c.toJson) = .ok c := by
  have read := Descriptor.reads_construct exact nested [] (by simp [Json.Follows])
  rw [List.append_nil] at read
  rw [Descriptor.parseConstruct, Json.readText, Json.render, String.toList_ofList]
  simp only [StateT.run, Json.bind_of_ok read]
  rfl

/-- A fractal with an escaped code and nested values, below a named material. -/
def sampled : Construct :=
  ⟨.material, some "a\tb", [], [], [⟨.fbm, none, [⟨.code, none, some (.string "\"$WEIGHT\"\n")⟩,
      ⟨.mass, some .vec2, some (.object [("a", .array [.null, .number (.int (-450))])])⟩],
    [⟨.add, none, some .time⟩], []⟩]⟩

theorem parse_render_sampled : sampled.Exact ∧ sampled.toJson.depth ≤ Json.maxDepth ∧
    Descriptor.parseConstruct (Json.render sampled.toJson) = .ok sampled := by
  have exact : sampled.Exact := by
    refine .intro (by simp [sampled]) (by simp [sampled]) ?_
    simp only [sampled, List.mem_singleton, forall_eq]
    refine .intro ?_ (by simp) (by simp)
    simp [Json.isExact, UInt64.size]
  have nested : sampled.toJson.depth ≤ Json.maxDepth := by
    simp [sampled, toJson, childrenJson, Trait.toJson, VerbEntry.toJson, optionJson, Json.depth,
      Json.maxDepth]
  exact ⟨exact, nested, parse_render exact nested⟩

end Construct

end GlslMaterial
