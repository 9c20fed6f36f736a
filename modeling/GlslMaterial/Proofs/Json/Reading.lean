import GlslMaterial.Json.Reader

/-!
Reading what was written. Compact text has no blanks, and behind a value there is a comma, a closing
bracket or brace, or the end, so that a number ends where its digits do. Main statement: a value
without floating point numbers is read back from its text.
-/

set_option autoImplicit false

namespace GlslMaterial.Json

open Reader

variable {α β σ : Type}

/-- What may follow a value. -/
def Follows (rest : List Char) : Prop :=
  ∀ c ∈ rest.head?, c = ',' ∨ c = ']' ∨ c = '\x7d'

/-- The reader takes a text off what it stands in front of, and gives `a` for it. -/
def Reads (reader : Reader α) (text : List Char) (a : α) : Prop :=
  ∀ rest, Follows rest → reader (text ++ rest) = .ok (a, rest)

theorem sizeOf_value_lt {member : String × Json} {members : List (String × Json)}
    (within : member ∈ members) : sizeOf member.2 < sizeOf (Json.object members) := by
  have smaller := List.sizeOf_lt_of_mem within
  have value : sizeOf member.2 < sizeOf member := by
    cases member
    simp only [Prod.mk.sizeOf_spec]
    omega
  simp only [Json.object.sizeOf_spec]
  omega

/-- How deep arrays and objects are nested in a value. -/
def depth : Json → Nat
  | .array items => (items.map fun item => depth item).foldr max 0 + 1
  | .object members => (members.map fun member => depth member.2).foldr max 0 + 1
  | _ => 0
decreasing_by
  · decreasing_tactic
  · exact sizeOf_value_lt ‹_›

/-- Whether a value has no floating point numbers. Its integers have at most 64 bits, and the
members of its objects are in the order of their keys. -/
def isExact : Json → Bool
  | .number (.int value) => -0x8000000000000000 ≤ value && value < UInt64.size
  | .number (.float _) => false
  | .array items => (items.map fun item => isExact item).all id
  | .object members => decide (members.Pairwise fun first second => first.1 < second.1) &&
      (members.map fun member => isExact member.2).all id
  | _ => true
decreasing_by
  · decreasing_tactic
  · exact sizeOf_value_lt ‹_›

section Parts

theorem le_foldr_max {sizes : List Nat} {n : Nat} (within : n ∈ sizes) : n ≤ sizes.foldr max 0 := by
  induction sizes with
  | nil => cases within
  | cons size sizes ih =>
    rcases List.mem_cons.1 within with rfl | later
    · exact Nat.le_max_left _ _
    · exact Nat.le_trans (ih later) (Nat.le_max_right _ _)

theorem depth_lt_array {item : Json} {items : List Json} (within : item ∈ items) :
    item.depth < (array items).depth := by
  rw [depth.eq_1]
  exact Nat.lt_succ_of_le (le_foldr_max (List.mem_map_of_mem within))

theorem depth_lt_object (key : String) {value : Json} {members : List (String × Json)}
    (within : (key, value) ∈ members) : value.depth < (object members).depth := by
  rw [depth.eq_2]
  exact Nat.lt_succ_of_le
    (le_foldr_max (List.mem_map_of_mem (f := fun member => depth member.2) within))

end Parts

section Steps

theorem bind_of_ok {reader : Reader α} {next : α → Reader β} {text rest : List Char} {a : α}
    (read : reader text = .ok (a, rest)) : (reader >>= next) text = next a rest := by
  show Except.bind (reader text) _ = _
  rw [read]
  rfl

theorem peek_cons {c : Char} (shown : isJsonBlank c = false) (rest : List Char) :
    peek (c :: rest) = .ok (some c, c :: rest) := by
  show Except.ok ((List.dropWhile isJsonBlank (c :: rest)).head?, _) = _
  simp [shown]

theorem map_of_ok {reader : Reader α} {text rest : List Char} {a : α} (f : α → β)
    (read : reader text = .ok (a, rest)) :
    (reader >>= fun a => pure (f a)) text = .ok (f a, rest) :=
  bind_of_ok read

theorem follows_cons {c : Char} (closes : c = ',' ∨ c = ']' ∨ c = '\x7d') (rest : List Char) :
    Follows (c :: rest) := by
  simpa [Follows] using closes

end Steps

section Strings

theorem eq_ofNat_of_toNat {c : Char} {n : Nat} (same : c.toNat = n) : c = Char.ofNat n := by
  rw [← same, Char.ofNat_toNat]

theorem stringFrom_escapeChar (done : List Char) (c : Char) (rest : List Char) :
    stringFrom done (escapeChar c ++ rest) = stringFrom (c :: done) rest := by
  unfold escapeChar
  dsimp only
  split
  · next same => simp [same, stringFrom, shortEscape?]
  split
  · next same => simp [same, stringFrom, shortEscape?]
  iterate 5
    split
    · next same => simp [eq_ofNat_of_toNat same, stringFrom, shortEscape?]
  split
  · next low =>
    have unit : ∀ n < 32, unit16? '0' '0' (hexDigit (n / 16)) (hexDigit (n % 16)) = some n ∧
        isTrailingUnit n = false ∧ isLeadingUnit n = false := by decide
    obtain ⟨found, trailing, leading⟩ := unit c.toNat low
    simp [stringFrom, found, trailing, leading, Char.ofNat_toNat]
  · next quote backslash _ _ _ _ _ high => simp [stringFrom, backslash, high]

theorem restOfString_escaped (text : String) (rest : List Char) :
    restOfString (text.toList.flatMap escapeChar ++ '"' :: rest) = .ok (text, rest) := by
  have all (done chars : List Char) : stringFrom done (chars.flatMap escapeChar ++ '"' :: rest) =
      .ok (String.ofList (done.reverse ++ chars), rest) := by
    induction chars generalizing done with
    | nil => simp [stringFrom]
    | cons c chars ih =>
      rw [List.flatMap_cons, List.append_assoc, stringFrom_escapeChar, ih]
      simp
  simpa [restOfString] using all [] text.toList

theorem stringChars_append (text : String) (rest : List Char) :
    stringChars text ++ rest = '"' :: (text.toList.flatMap escapeChar ++ '"' :: rest) := by
  simp [stringChars]

end Strings

section Numbers

theorem le_ofDigitChars (digits : List Char) (start : Nat) :
    start ≤ Nat.ofDigitChars 10 digits start := by
  induction digits generalizing start with
  | nil => exact Nat.le_refl start
  | cons c digits ih => exact Nat.le_trans (by omega) (ih (10 * start + _))

/-- Digits are all taken where the number has at most 64 bits. -/
theorem absorb_digits {digits : List Char} {start : Nat}
    (small : Nat.ofDigitChars 10 digits start < UInt64.size) :
    absorb start digits = (Nat.ofDigitChars 10 digits start, digits.length) := by
  induction digits generalizing start with
  | nil => rfl
  | cons c digits ih =>
    have step : start * 10 + digitValue c = 10 * start + (c.toNat - '0'.toNat) := by
      rw [Nat.mul_comm, digitValue]
    have bound := Nat.lt_of_le_of_lt (le_ofDigitChars digits _) small
    have fits : overflows (UInt64.size - 1) start (digitValue c) = false := by
      rw [overflows, step]
      exact decide_eq_false (Nat.not_lt.2 (Nat.le_sub_one_of_lt bound))
    rw [absorb, fits, step]
    simp only [Bool.false_eq_true, ↓reduceIte, ih small]
    rfl

theorem digitText_head {n : Nat} (positive : n ≠ 0) :
    ∃ c more, Decimal.digitText n = c :: more ∧ c ≠ '0' := by
  induction n using Nat.strongRecOn with
  | ind n ih =>
    unfold Decimal.digitText
    by_cases small : n < 10
    · have leading : ∀ n < 10, n ≠ 0 → Nat.digitChar n ≠ '0' := by decide
      exact ⟨_, [], Nat.toDigits_of_lt_base small, leading n small positive⟩
    · obtain ⟨c, more, shown, leading⟩ := ih (n / 10) (by omega) (by omega)
      rw [Decimal.digitText] at shown
      exact ⟨c, _, by rw [Nat.toDigits_of_base_le (by decide) (by omega), shown]; rfl, leading⟩

theorem digitText_eq_cons (n : Nat) :
    ∃ c more, Decimal.digitText n = c :: more ∧ c.isDigit = true := by
  obtain ⟨c, more, shown⟩ := List.exists_cons_of_ne_nil (Nat.toDigits_ne_nil (n := n) (b := 10))
  exact ⟨c, more, shown,
    Decimal.isDigit_of_mem_digitText (by rw [Decimal.digitText, shown]; exact List.mem_cons_self)⟩

theorem chars_int (value : Int) : chars (.number (.int value)) =
    Decimal.signed (value < 0) (Decimal.digitText value.natAbs) := rfl

theorem Follows.not_digit {rest : List Char} (follows : Follows rest) :
    ∀ c ∈ rest.head?, c.isDigit = false := by
  intro c member
  rcases follows c member with rfl | rfl | rfl <;> rfl

theorem unsignedNumber_digitText (positive : Bool) {n : Nat} (small : n < UInt64.size)
    {rest : List Char} (follows : Follows rest) :
    unsignedNumber positive (Decimal.digitText n ++ rest) = afterInteger positive n 0 rest := by
  by_cases zero : n = 0
  · subst zero
    have stop : (rest.head?.map Char.isDigit).getD false = false := by
      cases rest with
      | nil => rfl
      | cons c rest => simpa using follows.not_digit c rfl
    show (if (rest.head?.map Char.isDigit).getD false = true then _ else afterInteger positive 0 0)
        rest = _
    rw [stop]
    rfl
  · obtain ⟨c, more, shown, leading⟩ := digitText_head zero
    have digits : ∀ c ∈ Decimal.digitText n, c.isDigit = true := fun _ =>
      Decimal.isDigit_of_mem_digitText
    have value : Nat.ofDigitChars 10 (Decimal.digitText n) 0 = n :=
      Nat.ofDigitChars_toDigits (by decide) (by decide)
    have taken : absorb 0 (Decimal.digitText n) = (n, (Decimal.digitText n).length) := by
      rw [absorb_digits (by rw [value]; exact small), value]
    have run : takeDigits (Decimal.digitText n ++ rest) = .ok (Decimal.digitText n, rest) := by
      have none : rest.takeWhile Char.isDigit = [] ∧ rest.dropWhile Char.isDigit = rest := by
        cases rest with
        | nil => exact ⟨rfl, rfl⟩
        | cons c rest => simp [follows.not_digit c rfl]
      rw [takeDigits, List.takeWhile_append_of_pos digits, List.dropWhile_append_of_pos digits,
        none.1, none.2, List.append_nil]
    have head : c.isDigit = true := digits c (by rw [shown]; exact List.mem_cons_self)
    have step : unsignedNumber positive (c :: (more ++ rest)) =
        (takeDigits >>= fun digits => afterInteger positive (absorb 0 digits).1
          (digits.length - (absorb 0 digits).2)) (c :: (more ++ rest)) := by
      show (if c = '0' then _ else if c.isDigit = true then _ else _ : Reader Number) _ = _
      rw [if_neg leading, if_pos head]
    rw [shown, List.cons_append] at run
    rw [shown, List.cons_append, step, bind_of_ok run, ← shown, taken, Nat.sub_self]

theorem reads_unsignedNumber (positive : Bool) {n : Nat} (small : n < UInt64.size)
    (negative : positive = false → n ≠ 0 ∧ n ≤ 0x8000000000000000) :
    Reads (unsignedNumber positive) (Decimal.digitText n) (.int (if positive then n else -n)) := by
  intro rest follows
  rw [unsignedNumber_digitText positive small follows]
  have whole : afterInteger positive n 0 rest =
      (if positive then (pure (.int n) : Reader Number)
        else if n = 0 || 0x8000000000000000 < n then pure (.float (-(UInt64.ofNat n).toFloat))
        else pure (.int (-n))) rest := by
    cases rest with
    | nil => rfl
    | cons c rest => rcases follows c rfl with rfl | rfl | rfl <;> rfl
  rw [whole]
  cases positive with
  | true => rfl
  | false =>
    have given := negative rfl
    rw [if_neg Bool.false_ne_true, if_neg (by simp [given])]
    rfl

end Numbers

section Aggregates

/-- A character that a value begins with. -/
def Begins (c : Char) : Prop :=
  isJsonBlank c = false ∧ c ≠ ']' ∧ c ≠ '\x7d'

theorem ne_of_isDigit {c : Char} (digit : c.isDigit = true) (d : Char) (none : d.isDigit = false) :
    c ≠ d := by
  rintro rfl
  rw [digit] at none
  cases none

theorem begins_digit {c : Char} (digit : c.isDigit = true) : Begins c ∧ c ≠ 'n' := by
  have other {d : Char} (none : d.isDigit = false) : c ≠ d := ne_of_isDigit digit d none
  have shown : isJsonBlank c = false := by simp [isJsonBlank, other]
  exact ⟨⟨shown, other rfl, other rfl⟩, other rfl⟩

theorem chars_head {json : Json} (plain : ∀ x, json ≠ .number (.float x)) :
    ∃ c more, chars json = c :: more ∧ Begins c ∧ (c = 'n' → json = .null) := by
  have of_letter {c : Char} {more : List Char} (written : chars json = c :: more)
      (begins : Begins c) (other : c ≠ 'n') :
      ∃ c more, chars json = c :: more ∧ Begins c ∧ (c = 'n' → json = .null) :=
    ⟨c, more, written, begins, fun same => absurd same other⟩
  cases json with
  | null => exact ⟨'n', _, rfl, ⟨rfl, by decide, by decide⟩, fun _ => rfl⟩
  | bool value => cases value <;> exact of_letter rfl ⟨rfl, by decide, by decide⟩ (by decide)
  | string | array | object => exact of_letter rfl ⟨rfl, by decide, by decide⟩ (by decide)
  | number value =>
    cases value with
    | float x => exact absurd rfl (plain x)
    | int value =>
      have written := chars_int value
      by_cases negative : value < 0
      · rw [decide_eq_true negative] at written
        exact of_letter written ⟨rfl, by decide, by decide⟩ (by decide)
      · rw [decide_eq_false negative] at written
        obtain ⟨c, more, shown, digit⟩ := digitText_eq_cons value.natAbs
        exact of_letter (written.trans shown) (begins_digit digit).1 (begins_digit digit).2

theorem follows_moreItems (items : List Json) (rest : List Char) :
    Follows (moreItemsChars items ++ rest) := by
  cases items with
  | nil => exact follows_cons (by simp) rest
  | cons item items => exact follows_cons (by simp) _

theorem items_step (item : Reader α) (fuel : Nat) {c : Char} (begins : Begins c)
    (text : List Char) :
    items item (fuel + 1) true (c :: text) =
      (item >>= fun x => items item fuel false >>= fun xs => pure (x :: xs)) (c :: text) ∧
    items item (fuel + 1) false (',' :: c :: text) =
      (item >>= fun x => items item fuel false >>= fun xs => pure (x :: xs)) (c :: text) := by
  obtain ⟨shown, bracket, -⟩ := begins
  constructor
  · rw [items, bind_of_ok (peek_cons shown text)]
    simp
  · rw [items, bind_of_ok (peek_cons (by decide) _)]
    show ((advance : Reader Unit) >>= _) _ = _
    rw [bind_of_ok (show advance (',' :: c :: text) = .ok ((), c :: text) from rfl),
      bind_of_ok (peek_cons shown text)]
    simp

theorem length_moreItemsChars (items : List Json) :
    items.length < (moreItemsChars items).length := by
  induction items with
  | nil => exact Nat.one_pos
  | cons item items ih =>
    simp only [moreItemsChars, List.length_cons, List.length_append]
    omega

theorem length_moreMembersChars (members : List (String × Json)) :
    members.length < (moreMembersChars members).length := by
  induction members with
  | nil => exact Nat.one_pos
  | cons member members ih =>
    simp only [moreMembersChars, List.length_cons, List.length_append]
    omega

section Items

variable {item : Reader α} {print : α → Json} {xs : List α}
  (each : ∀ x ∈ xs, Reads item (chars (print x)) x ∧ ∀ f, print x ≠ .number (.float f))

include each

theorem moreItems_read {fuel : Nat} (enough : xs.length < fuel) (rest : List Char) :
    items item fuel false (moreItemsChars (xs.map print) ++ rest) = .ok (xs, rest) := by
  obtain ⟨fuel, rfl⟩ := Nat.exists_eq_succ_of_ne_zero (Nat.ne_zero_of_lt enough)
  induction xs generalizing fuel with
  | nil => rfl
  | cons x xs ih =>
    obtain ⟨here, later⟩ := List.forall_mem_cons.1 each
    obtain ⟨c, more, written, begins, -⟩ := chars_head here.2
    have fuelled : xs.length < fuel := Nat.lt_of_succ_lt_succ enough
    obtain ⟨less, rfl⟩ := Nat.exists_eq_succ_of_ne_zero (Nat.ne_zero_of_lt fuelled)
    have read := here.1 _ (follows_moreItems (xs.map print) rest)
    rw [List.map_cons, moreItemsChars, List.cons_append, List.cons_append, List.append_assoc]
    rw [written, List.cons_append] at read ⊢
    rw [(items_step item _ begins _).2, bind_of_ok read, bind_of_ok (ih later less fuelled)]
    rfl

theorem items_read (rest : List Char) :
    allItems item (itemsChars (xs.map print) ++ rest) = .ok (xs, rest) := by
  show items item ((itemsChars (xs.map print) ++ rest).length + 1) true _ = _
  cases xs with
  | nil => rfl
  | cons x xs =>
    obtain ⟨here, later⟩ := List.forall_mem_cons.1 each
    obtain ⟨c, more, written, begins, -⟩ := chars_head here.2
    have read := here.1 _ (follows_moreItems (xs.map print) rest)
    have enough : xs.length <
        (c :: (more ++ (moreItemsChars (xs.map print) ++ rest))).length := by
      have counted := length_moreItemsChars (xs.map print)
      simp only [List.length_map] at counted
      simp only [List.length_cons, List.length_append]
      omega
    rw [List.map_cons, itemsChars, List.append_assoc]
    rw [written, List.cons_append] at read ⊢
    rw [(items_step item _ begins _).1, bind_of_ok read,
      bind_of_ok (moreItems_read later enough rest)]
    rfl

end Items

/-- The members of an object take a state from one to another, each by its key and its value. -/
inductive Threads (member : String → σ → Reader σ) : σ → List (String × Json) → σ → Prop
  | nil (state : σ) : Threads member state [] state
  | cons {state next last : σ} {key : String} {value : Json} {others : List (String × Json)}
    (reads : Reads (member key state) (':' :: chars value) next)
    (more : Threads member next others last) : Threads member state ((key, value) :: others) last

theorem follows_moreMembers (members : List (String × Json)) (rest : List Char) :
    Follows (moreMembersChars members ++ rest) := by
  cases members with
  | nil => exact follows_cons (by simp) rest
  | cons member members => exact follows_cons (by simp) _

theorem moreMembers_read {member : String → σ → Reader σ} {state last : σ}
    {others : List (String × Json)} (threads : Threads member state others last) {fuel : Nat}
    (enough : others.length < fuel) (rest : List Char) :
    members member fuel false state (moreMembersChars others ++ rest) = .ok (last, rest) := by
  induction threads generalizing fuel with
  | nil state =>
    obtain ⟨fuel, rfl⟩ := Nat.exists_eq_succ_of_ne_zero (Nat.ne_zero_of_lt enough)
    rfl
  | @cons state next last key value others reads more ih =>
    obtain ⟨fuel, rfl⟩ := Nat.exists_eq_succ_of_ne_zero (Nat.ne_zero_of_lt enough)
    rw [moreMembersChars, memberChars, List.cons_append, List.cons_append, List.append_assoc,
      List.append_assoc, stringChars_append]
    show (restOfString >>= fun key => member key state >>= members member fuel false)
      (key.toList.flatMap escapeChar ++ '"' :: _) = _
    rw [bind_of_ok (restOfString_escaped key _),
      bind_of_ok (reads _ (follows_moreMembers others rest)), ih (Nat.lt_of_succ_lt_succ enough)]

theorem allMembers_apply (member : String → σ → Reader σ) (state : σ) (text : List Char) :
    allMembers member state text = members member (text.length + 1) true state text := rfl

theorem members_read {member : String → σ → Reader σ} {state : σ} (last : σ)
    {all : List (String × Json)} (threads : Threads member state all last) (rest : List Char) :
    allMembers member state (membersChars all ++ rest) = .ok (last, rest) := by
  cases threads with
  | nil => rfl
  | @cons _ next _ key value others reads more =>
    have enough : others.length < (membersChars ((key, value) :: others) ++ rest).length := by
      have counted := length_moreMembersChars others
      simp only [membersChars, List.length_append]
      omega
    rw [allMembers_apply]
    rw [membersChars, memberChars, List.append_assoc, List.append_assoc,
      stringChars_append] at enough ⊢
    show (restOfString >>= fun key => member key state >>= members member _ false)
      (key.toList.flatMap escapeChar ++ '"' :: _) = _
    rw [bind_of_ok (restOfString_escaped key _),
      bind_of_ok (reads _ (follows_moreMembers others rest)), moreMembers_read more enough]

end Aggregates

section Values

/-- What a word of three or four letters leaves. -/
theorem restOfWord_self (word rest : List Char) :
    restOfWord word (word ++ rest) = .ok ((), rest) := by
  induction word with
  | nil => rfl
  | cons c word ih =>
    show (if c = c then _ else _ : Reader Unit) _ = _
    rw [if_pos rfl]
    exact ih

theorem insertMember_last {key : String} {value : Json} {found : List (String × Json)}
    (last : ∀ member ∈ found, member.1 < key) :
    insertMember key value found = found ++ [(key, value)] := by
  induction found with
  | nil => rfl
  | cons member found ih =>
    obtain ⟨before, later⟩ := List.forall_mem_cons.1 last
    rw [insertMember, if_neg (String.lt_asymm before), if_neg (String.ne_of_lt before).symm,
      ih later]
    rfl

theorem colon_cons (text : List Char) : colon (':' :: text) = .ok ((), text) := rfl

theorem threads_insertMember (inner : Reader Json) {members : List (String × Json)}
    (found : List (String × Json))
    (reads : ∀ member ∈ members, Reads inner (chars member.2) member.2)
    (ordered : (found ++ members).Pairwise fun first second => first.1 < second.1) :
    Threads (fun key found => do
      colon
      return insertMember key (← inner) found) found members (found ++ members) := by
  induction members generalizing found with
  | nil => simpa using Threads.nil found
  | cons member members ih =>
    obtain ⟨here, later⟩ := List.forall_mem_cons.1 reads
    have last : ∀ other ∈ found, other.1 < member.1 := fun other within =>
      (List.pairwise_append.1 ordered).2.2 other within member List.mem_cons_self
    rw [List.append_cons] at ordered ⊢
    refine .cons (fun rest follows => ?_) (ih _ later ordered)
    rw [List.cons_append, bind_of_ok (colon_cons _), bind_of_ok (here rest follows),
      insertMember_last last]
    rfl

theorem valueWith_digit (inner : Option (Reader Json)) {c : Char} (digit : c.isDigit = true)
    (text : List Char) : valueWith inner (c :: text) =
      (unsignedNumber true >>= fun n => pure (Json.number n)) (c :: text) := by
  unfold valueWith
  rw [bind_of_ok (peek_cons (begins_digit digit).1.1 text)]
  have other := ne_of_isDigit digit
  simp [digit, other 'n' rfl, other 't' rfl, other 'f' rfl, other '-' rfl, other '"' rfl,
    other '[' rfl, other '\x7b' rfl]

theorem reads_int {inner : Option (Reader Json)} {value : Int}
    (exact : (Json.number (.int value)).isExact = true) :
    Reads (valueWith inner) (chars (.number (.int value))) (.number (.int value)) := by
  intro rest follows
  simp only [isExact, Bool.and_eq_true, decide_eq_true_eq] at exact
  by_cases negative : value < 0
  · have read := reads_unsignedNumber false (n := value.natAbs)
      (Nat.lt_of_le_of_lt (m := 0x8000000000000000) (by omega) (by decide))
      (fun _ => ⟨by omega, by omega⟩) rest follows
    rw [if_neg Bool.false_ne_true, (by omega : -(value.natAbs : Int) = value)] at read
    rw [chars_int, decide_eq_true negative]
    exact map_of_ok Json.number read
  · have read := reads_unsignedNumber true (n := value.natAbs) (by omega)
      (fun none => by cases none)
      rest follows
    obtain ⟨c, more, shown, digit⟩ := digitText_eq_cons value.natAbs
    rw [if_pos rfl, (by omega : (value.natAbs : Int) = value), shown] at read
    rw [chars_int, decide_eq_false negative, Decimal.signed, if_neg Bool.false_ne_true, shown,
      List.cons_append, valueWith_digit inner digit]
    exact map_of_ok Json.number read

theorem reads_valueWith {inner : Option (Reader Json)} {json : Json} (exact : json.isExact = true)
    (deeper : json.depth ≠ 0 → ∃ reader, inner = some reader ∧ ∀ part : Json,
      part.isExact = true → part.depth < json.depth → Reads reader (chars part) part) :
    Reads (valueWith inner) (chars json) json := by
  intro rest follows
  cases json with
  | null => exact map_of_ok (fun _ => Json.null) (restOfWord_self ['u', 'l', 'l'] rest)
  | bool value =>
    cases value with
    | false =>
      exact map_of_ok (fun _ => Json.bool false) (restOfWord_self ['a', 'l', 's', 'e'] rest)
    | true => exact map_of_ok (fun _ => Json.bool true) (restOfWord_self ['r', 'u', 'e'] rest)
  | string value =>
    rw [chars, stringChars_append]
    exact map_of_ok Json.string (restOfString_escaped value rest)
  | number value =>
    cases value with
    | float x => simp [isExact] at exact
    | int value => exact reads_int exact rest follows
  | array items =>
    obtain ⟨reader, rfl, reads⟩ := deeper (by simp [depth])
    simp only [isExact, List.all_map, List.all_eq_true] at exact
    have each : ∀ item ∈ items, Reads reader (chars (id item)) item ∧
        ∀ x, id item ≠ .number (.float x) := by
      intro item within
      refine ⟨reads item (exact item within) (depth_lt_array within), ?_⟩
      rintro x rfl
      simpa [isExact] using exact _ within
    have read := items_read each rest
    rw [List.map_id] at read
    exact map_of_ok Json.array read
  | object members =>
    obtain ⟨reader, rfl, reads⟩ := deeper (by simp [depth])
    simp only [isExact, List.all_map, List.all_eq_true, Bool.and_eq_true,
      decide_eq_true_eq] at exact
    have threads := threads_insertMember reader [] (fun member within =>
      reads member.2 (exact.2 member within) (depth_lt_object _ within)) exact.1
    exact map_of_ok Json.object (members_read _ threads rest)

theorem reads_value {json : Json} {room : Nat} (exact : json.isExact = true)
    (nested : json.depth ≤ room) : Reads (value room) (chars json) json := by
  induction room generalizing json with
  | zero => exact reads_valueWith exact fun some => absurd (Nat.le_zero.1 nested) some
  | succ room ih =>
    exact reads_valueWith exact fun _ => ⟨value room, rfl, fun part partExact smaller =>
      ih partExact (by omega)⟩

end Values

end GlslMaterial.Json
