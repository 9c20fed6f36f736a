import GlslMaterial.Proofs.Glsl.Atom
import GlslMaterial.Proofs.Glsl.Syntax
import GlslMaterial.Proofs.Interface.Names
import Mathlib.Data.List.Forall2

/-!
Spelling: expressions that are put together as text. An atom is an operand, since it has no operator
outside of parentheses, and any other text becomes an operand in parentheses. So parts, items, calls
and operations of texts are those of their trees.
-/

set_option autoImplicit false

namespace GlslMaterial.Glsl

open Text (isIdentifierChar)

/-- A text is an expression of a level, with a tree. -/
def Spells (level : Level) (text : List Char) (tree : Tree) : Prop :=
  Derives level (tokens text) tree

section Depth

theorem depthAfter_of_isName {word : String} (named : isName word.toList = true) (depth : Nat) :
    depthAfter depth word.toList = some depth := by
  simp only [isName, Bool.and_eq_true] at named
  exact depthAfter_of_all named.1.2 (by decide) depth

/-- The depth of parentheses behind tokens that begin at some depth. -/
def depthBehind (depth : Nat) (ts : List String) : Option Nat :=
  depthAfter depth (ts.flatMap String.toList)

theorem depthBehind_append {depth middle : Nat} {first : List String}
    (reaches : depthBehind depth first = some middle) (second : List String) :
    depthBehind depth (first ++ second) = depthBehind middle second := by
  rw [depthBehind, List.flatMap_append, depthAfter_append reaches]
  rfl

theorem depthBehind_cons {depth middle : Nat} {token : String}
    (reaches : depthAfter depth token.toList = some middle) (ts : List String) :
    depthBehind depth (token :: ts) = depthBehind middle ts := by
  rw [depthBehind, List.flatMap_cons, depthAfter_append reaches]
  rfl

/-- How many parentheses an expression opens and does not close. -/
def Level.opens : Level → Nat
  | .opened => 1
  | .operand | .upTo _ => 0

/-- Expressions close the parentheses that they open. -/
theorem Derives.depthBehind_eq {level : Level} {ts : List String} {tree : Tree}
    (derives : Derives level ts tree) (depth : Nat) :
    depthBehind depth ts = some (depth + level.opens) := by
  have marks (sign : Sign) (depth : Nat) : depthAfter depth sign.mark.toList = some depth := by
    cases sign <;> rfl
  have operators (operator : Operator) (depth : Nat) :
      depthAfter depth operator.mark.toList = some depth := by
    cases operator <;> rfl
  induction derives generalizing depth with
  | name named => exact depthBehind_cons (depthAfter_of_isName named depth) []
  | number _ _ plain => exact depthBehind_cons (depthAfter_of_all plain (by decide) depth) []
  | group _ ih =>
    calc depthBehind depth ("(" :: (_ ++ [")"]))
      _ = depthBehind (depth + 1) (_ ++ [")"]) := depthBehind_cons rfl _
      _ = depthBehind (depth + 1) [")"] := depthBehind_append (ih _) _
  | field _ named ih =>
    calc depthBehind depth (_ ++ [".", _])
      _ = depthBehind depth [".", _] := depthBehind_append (ih _) _
      _ = depthBehind depth [_] := depthBehind_cons rfl _
      _ = _ := depthBehind_cons (depthAfter_of_isName named depth) []
  | index _ _ ih at_ =>
    calc depthBehind depth (_ ++ "[" :: (_ ++ ["]"]))
      _ = depthBehind depth ("[" :: (_ ++ ["]"])) := depthBehind_append (ih _) _
      _ = depthBehind depth (_ ++ ["]"]) := depthBehind_cons rfl _
      _ = depthBehind depth ["]"] := depthBehind_append (at_ _) _
  | empty _ ih => exact depthBehind_append (ih depth) _
  | called _ _ ih last =>
    calc depthBehind depth (_ ++ (_ ++ [")"]))
      _ = depthBehind (depth + 1) (_ ++ [")"]) := depthBehind_append (ih _) _
      _ = depthBehind (depth + 1) [")"] := depthBehind_append (last _) _
  | @signed sign _ _ _ ih => exact (depthBehind_cons (marks sign depth) _).trans (ih depth)
  | @binary operator _ _ _ _ _ _ one two =>
    calc depthBehind depth (_ ++ operator.mark :: _)
      _ = depthBehind depth (operator.mark :: _) := depthBehind_append (one _) _
      _ = depthBehind depth _ := depthBehind_cons (operators operator depth) _
      _ = _ := two depth
  | choice _ _ _ asked yes no =>
    calc depthBehind depth (_ ++ "?" :: (_ ++ ":" :: _))
      _ = depthBehind depth ("?" :: (_ ++ ":" :: _)) := depthBehind_append (asked _) _
      _ = depthBehind depth (_ ++ ":" :: _) := depthBehind_cons rfl _
      _ = depthBehind depth (":" :: _) := depthBehind_append (yes _) _
      _ = depthBehind depth _ := depthBehind_cons rfl _
      _ = _ := no depth
  | sequence _ _ before last =>
    calc depthBehind depth (_ ++ "," :: _)
      _ = depthBehind depth ("," :: _) := depthBehind_append (before _) _
      _ = depthBehind depth _ := depthBehind_cons rfl _
      _ = _ := last depth
  | operand _ ih | weaken _ _ ih => exact ih depth
  | callee _ ih => exact depthBehind_append (ih depth) _
  | next _ _ ih one =>
    calc depthBehind depth (_ ++ (_ ++ [","]))
      _ = depthBehind (depth + 1) (_ ++ [","]) := depthBehind_append (ih _) _
      _ = depthBehind (depth + 1) [","] := depthBehind_append (one _) _

/-- Blanks change nothing about parentheses. -/
theorem mem_atLevel_filter {level depth : Nat} {text : List Char} {c : Char}
    (member : c ∈ atLevel level depth (text.filter (!isBlank ·))) :
    c ∈ atLevel level depth text := by
  induction text generalizing depth with
  | nil => exact member
  | cons d text ih =>
    by_cases opens : d = '('
    · subst opens
      exact ih member
    by_cases closes : d = ')'
    · subst closes
      exact ih member
    rw [atLevel_cons opens closes]
    cases blank : isBlank d with
    | true =>
      rw [List.filter_cons, blank] at member
      split
      · exact .tail _ (ih member)
      · exact ih member
    | false =>
      simp only [List.filter_cons, blank, Bool.not_false, if_true] at member
      rw [atLevel_cons opens closes] at member
      split at member
      · rename_i here
        rw [if_pos here]
        rcases List.mem_cons.1 member with rfl | later
        · exact .head _
        · exact .tail _ (ih later)
      · rename_i elsewhere
        rw [if_neg elsewhere]
        exact ih member

end Depth

section Atoms

/-- The first characters of what stands between operands. -/
def isMark (token : String) : Bool :=
  token.toList.head?.any fun c => !isNameChar c && c != '(' && c != ')'

/-- An atom has no operator outside of parentheses. -/
theorem not_isAtom_of_isMark {code : List Char} {left rest : List String} {token : String}
    (read : tokens code = left ++ token :: rest)
    (closed : depthBehind 0 left = some 0) (mark : isMark token = true) :
    isAtom code = false := by
  refine Bool.eq_false_iff.2 fun atom => ?_
  obtain ⟨c, more, cut⟩ : ∃ c more, token.toList = c :: more := by
    cases chars : token.toList with
    | nil => simp [isMark, chars] at mark
    | cons c more => exact ⟨c, more, rfl⟩
  obtain ⟨⟨other, opens⟩, closes⟩ : (isNameChar c = false ∧ c ≠ '(') ∧ c ≠ ')' := by
    simpa [isMark, cut] using mark
  have shown : c ∈ atLevel 0 0 (code.filter (!isBlank ·)) := by
    rw [← flatten_tokens, read, List.flatMap_append, atLevel_append 0 closed, List.flatMap_cons,
      cut, List.cons_append, atLevel_cons opens closes, if_pos rfl]
    simp
  have named := (isOperand_of_isAtom atom 0).2 c (mem_atLevel_filter shown)
  rw [other] at named
  cases named

/-- An expression without operators outside of parentheses is an operand. -/
theorem Spells.operand_of_isAtom {strength : Nat} {text : List Char} {tree : Tree}
    (spells : Spells (.upTo strength) text tree) (atom : isAtom text = true) :
    Spells .operand text tree := by
  have signs (sign : Sign) : isMark sign.mark = true := by cases sign <;> decide
  have operators (operator : Operator) : isMark operator.mark = true := by cases operator <;> decide
  -- A mark behind a whole expression would stand outside of parentheses.
  have never {strength : Nat} {first rest : List String} {token : String} {left : Tree}
      (one : Derives (.upTo strength) first left) (mark : isMark token = true)
      (read : tokens text = first ++ token :: rest) : False := by
    rw [not_isAtom_of_isMark read (one.depthBehind_eq 0) mark] at atom
    cases atom
  unfold Spells at spells ⊢
  generalize level : Level.upTo strength = whole at spells
  generalize read : tokens text = ts at spells ⊢
  induction spells generalizing strength with
  | name | number | group | field | index | empty | called | callee | next => cases level
  | @signed sign _ _ _ _ =>
    have first : tokens text = [] ++ sign.mark :: _ := read
    rw [not_isAtom_of_isMark first rfl (signs sign)] at atom
    cases atom
  | @binary operator _ _ _ _ one _ _ _ => exact (never one (operators operator) read).elim
  | choice asked _ _ _ _ _ => exact (never asked (by decide) read).elim
  | sequence before _ _ _ => exact (never before (by decide) read).elim
  | operand inner _ => exact inner
  | weaken _ _ ih => exact ih rfl read

end Atoms

section Words

variable {word : List Char}

theorem head_of_isName (named : isName word = true) : word.head?.any Char.isDigit = false := by
  simpa using (Bool.and_eq_true_iff.1 named).2

theorem letters_of_isName (named : isName word = true) :
    word ≠ [] ∧ word.all isIdentifierChar = true := by
  have parts := Bool.and_eq_true_iff.1 (Bool.and_eq_true_iff.1 named).1
  exact ⟨by simpa using parts.1, parts.2⟩

theorem isNumericWord_of_isName (named : isName word = true) : isNumericWord word = false := by
  have letters := (letters_of_isName named).2
  have start := head_of_isName named
  cases word with
  | nil => rfl
  | cons c rest =>
    have letter := List.all_eq_true.1 letters c List.mem_cons_self
    have point : c ≠ '.' := by
      rintro rfl
      exact absurd letter (by decide)
    have digit : c.isDigit = false := start
    simp [isNumericWord, digit, point]

theorem Derives.not_isNumericWord_last {ts : List String} {tree : Tree}
    (derives : Derives .operand ts tree) (other : tree.isNumber = false) :
    ∀ last ∈ ts.getLast?, isNumericWord last.toList = false := by
  have bracket (front : List String) {token : String} (mark : isNumericWord token.toList = false) :
      ∀ last ∈ (front ++ [token]).getLast?, isNumericWord last.toList = false := by
    intro last member
    rw [List.getLast?_concat, Option.mem_some_iff] at member
    rwa [← member]
  cases derives with
  | name named => exact bracket [] (isNumericWord_of_isName named)
  | number => cases other
  | field _ named =>
    rw [List.append_cons]
    exact bracket _ (isNumericWord_of_isName named)
  | group =>
    rw [← List.cons_append]
    exact bracket _ rfl
  | empty => exact bracket _ rfl
  | called =>
    rw [← List.append_assoc]
    exact bracket _ rfl
  | index =>
    rw [← List.cons_append, ← List.append_assoc]
    exact bracket _ rfl

/-- Whether a text is one number, without a sign. -/
def isUnsigned (text : List Char) : Bool :=
  text.head?.any Char.isDigit && text.all fun c => isIdentifierChar c || c == '.'

theorem isUnsigned_of_digits (filled : word ≠ []) (digits : ∀ c ∈ word, c.isDigit = true) :
    isUnsigned word = true := by
  obtain ⟨c, rest, rfl⟩ := List.exists_cons_of_ne_nil filled
  rw [isUnsigned, Bool.and_eq_true_iff]
  refine ⟨digits c List.mem_cons_self, List.all_eq_true.2 fun d member => ?_⟩
  simp [isIdentifierChar, Char.isAlphanum, digits d member]

theorem isUnsigned_nat (n : Nat) : isUnsigned (toString n).toList = true :=
  isUnsigned_of_digits (by simp [Nat.toDigits_ne_nil]) fun _ => isDigit_of_mem_repr

end Words

/-- Arguments with commas between them. -/
def commas : List (List String) → List String
  | [] => []
  | [last] => last
  | first :: second :: parts => first ++ "," :: commas (second :: parts)

theorem tokens_intercalate (texts : List String) :
    tokens (", ".intercalate texts).toList = commas (texts.map fun text => tokens text.toList) := by
  induction texts with
  | nil => rfl
  | cons text texts ih =>
    cases texts with
    | nil => simp [commas]
    | cons second texts =>
      have shape : (", ".intercalate (text :: second :: texts)).toList =
          text.toList ++ ([',', ' '] ++ (", ".intercalate (second :: texts)).toList) := by
        simp [String.toList_intercalate]
      have comma : tokens [',', ' '] = [","] := rfl
      rw [shape, tokens_append_right rfl, tokens_append_left rfl, comma, ih]
      rfl

/-- An operator between two texts, with blanks around it. -/
def spaced (first : List Char) (operator : Operator) (second : List Char) : List Char :=
  first ++ ([' '] ++ (operator.mark.toList ++ ([' '] ++ second)))

theorem tokens_spaced (first second : List Char) (operator : Operator) :
    tokens (spaced first operator second) = tokens first ++ operator.mark :: tokens second := by
  have blank : tokens [' '] = [] := rfl
  have mark : tokens operator.mark.toList = [operator.mark] := by cases operator <;> decide
  rw [spaced, tokens_append_right rfl, tokens_append_left rfl, tokens_append_right rfl,
    tokens_append_left rfl, blank, mark]
  rfl

theorem Derives.close {opened : List String} {call : Tree} (derives : Derives .opened opened call)
    {parts : List (List String)} {trees : List Tree} (filled : parts ≠ [])
    (all : List.Forall₂ (Derives (.upTo 12)) parts trees) :
    Derives .operand (opened ++ (commas parts ++ [")"])) (trees.foldl .argument call) := by
  induction all generalizing opened call with
  | nil => exact absurd rfl filled
  | @cons first tree parts trees one rest ih =>
    cases rest with
    | nil => exact Derives.called derives one
    | cons next rest =>
      have step := ih (derives.next one) (by simp)
      rw [List.append_assoc, List.append_assoc] at step
      rw [commas, List.append_assoc]
      exact step

/-- Every expression can stand in parentheses. -/
theorem Derives.whole {strength : Nat} {ts : List String} {tree : Tree}
    (derives : Derives (.upTo strength) ts tree) : Derives (.upTo 13) ts tree := by
  generalize level : Level.upTo strength = any at derives
  induction derives generalizing strength with
  | name | number | group | field | index | empty | called | callee | next => cases level
  | signed inner _ => exact .weaken (.signed inner) (by decide)
  | @binary operator _ _ _ _ one two _ _ =>
    exact .weaken (.binary one two) (Nat.le_trans operator.strength_bounds.2 (by decide))
  | choice asked yes no _ _ _ => exact .weaken (.choice asked yes no) (by decide)
  | sequence before last _ _ => exact .sequence before last
  | operand inner _ => exact .operand inner
  | weaken _ _ ih => exact ih rfl

namespace Spells

variable {text first second : List Char} {code word : String} {tree left right : Tree}
  {strength : Nat}

theorem operand (spells : Spells .operand text tree) : Spells (.upTo strength) text tree :=
  Derives.operand spells

theorem weaken {weak : Nat} (spells : Spells (.upTo strength) text tree) (le : strength ≤ weak) :
    Spells (.upTo weak) text tree :=
  Derives.weaken spells le

theorem parse_eq (spells : Spells (.upTo strength) code.toList tree) : parse code = some tree :=
  (Derives.whole spells).treeOf?_eq

theorem name (named : isName word.toList = true) : Spells .operand word.toList (.name word) := by
  obtain ⟨filled, letters⟩ := letters_of_isName named
  rw [Spells, tokens_word filled letters]
  exact .name named

theorem number {digits : List Char} (numeric : isUnsigned digits = true) :
    Spells .operand digits (.number (String.ofList digits)) := by
  obtain ⟨begins, all⟩ := Bool.and_eq_true_iff.1 numeric
  cases digits with
  | nil => cases begins
  | cons first rest =>
    have digit : first.isDigit = true := begins
    rw [Spells, tokens_numeral digit (Bool.and_eq_true_iff.1 all).2]
    refine .number ?_ ?_ ?_
    · simp [isName, digit]
    · simp [isNumericWord, digit]
    · rw [String.toList_ofList]
      refine List.all_eq_true.2 fun c member => ?_
      have letter := List.all_eq_true.1 all c member
      simp only [isNumericChar, letter, Bool.true_or]

theorem unsigned (numeric : isUnsigned word.toList = true) :
    Spells .operand word.toList (.number word) := by
  have spells := number numeric
  rwa [String.ofList_toList] at spells

/-- A number with a sign before it. -/
theorem negative {digits : List Char} (numeric : isUnsigned digits = true) :
    Spells .signed ('-' :: digits) (.unary .minus (.number (String.ofList digits))) := by
  have inner : Spells .signed digits (.number (String.ofList digits)) := (number numeric).operand
  have begins := (Bool.and_eq_true_iff.1 numeric).1
  cases digits with
  | nil => cases begins
  | cons first rest =>
    have digit : first.isDigit = true := begins
    have unmarked : ['-', first] ∉ longMarks :=
      notMem_longMarks_of_last (p := fun c => !c.isDigit) (by decide) (by simp [digit]) ['-']
    have stops : takes ['-'] first = false := by
      have letter : isIdentifierChar '-' = false := by decide
      have sign : '-'.isDigit = false := by decide
      simp [takes, isNumericWord, letter, sign, unmarked]
    have shape : tokens ('-' :: first :: rest) = "-" :: tokens (first :: rest) :=
      lex_of_not_takes stops rest
    rw [Spells, shape]
    exact @Derives.signed .minus _ _ inner

theorem group (spells : Spells (.upTo strength) text tree) :
    Spells .operand ('(' :: (text ++ [')'])) tree := by
  have shape : '(' :: (text ++ [')']) = ['('] ++ (text ++ [')']) := rfl
  rw [Spells, shape, tokens_append_left rfl, tokens_append_right rfl]
  exact .group (Derives.whole spells)

theorem atom (spells : Spells (.upTo strength) code.toList tree) :
    Spells .operand (Glsl.atom code).toList tree := by
  unfold Glsl.atom
  split
  · rename_i atom
    exact spells.operand_of_isAtom atom
  · have shape : s!"({code})".toList = '(' :: (code.toList ++ [')']) := by simp
    rw [shape]
    exact spells.group

theorem part (spells : Spells .operand code.toList tree) (plain : tree.isNumber = false)
    (named : isName word.toList = true) :
    Spells .operand s!"{code}.{word}".toList (.field tree word) := by
  have shape : s!"{code}.{word}".toList = code.toList ++ '.' :: word.toList := by simp
  obtain ⟨filled, letters⟩ := letters_of_isName named
  rw [Spells, shape, tokens_part (Derives.not_isNumericWord_last spells plain) letters
    (head_of_isName named) filled]
  exact .field spells named

theorem item {place : String} {inside : Tree} (spells : Spells .operand code.toList tree)
    (at_ : Spells (.upTo 13) place.toList inside) :
    Spells .operand s!"{code}[{place}]".toList (.index tree inside) := by
  have shape : s!"{code}[{place}]".toList = code.toList ++ (['['] ++ (place.toList ++ [']'])) := by
    simp
  rw [Spells, shape, tokens_append_right rfl, tokens_append_left rfl, tokens_append_right rfl]
  exact .index spells at_

theorem call {function : String} {texts : List String} {trees : List Tree}
    (named : isName function.toList = true)
    (all : List.Forall₂ (fun text tree => Spells (.upTo 12) text.toList tree) texts trees)
    (filled : texts ≠ []) :
    Spells .operand (Glsl.call function texts).toList (.call function trees) := by
  have shape : (Glsl.call function texts).toList =
      function.toList ++ (['('] ++ ((", ".intercalate texts).toList ++ [')'])) := by
    simp [Glsl.call]
  have opened : Derives .opened (tokens function.toList ++ ["("]) (.callee (.name function)) :=
    .callee (name named)
  rw [Spells, shape, tokens_append_right rfl, tokens_append_left rfl, tokens_append_right rfl,
    tokens_intercalate, ← List.append_assoc]
  exact opened.close (by simpa using filled) (List.forall₂_map_left_iff.2 all)

theorem binary (operator : Operator) (one : Spells (.upTo operator.strength) first left)
    (two : Spells (.upTo (operator.strength - 1)) second right) :
    Spells (.upTo operator.strength) (spaced first operator second)
      (.binary operator left right) := by
  rw [Spells, tokens_spaced]
  exact .binary one two

theorem choice {test : List Char} {condition : Tree} (asked : Spells (.upTo 11) test condition)
    (yes : Spells (.upTo 13) first left) (no : Spells (.upTo 12) second right) :
    Spells (.upTo 12) (test ++ ([' ', '?', ' '] ++ (first ++ ([' ', ':', ' '] ++ second))))
      (.choice condition left right) := by
  have marks : tokens [' ', '?', ' '] = ["?"] ∧ tokens [' ', ':', ' '] = [":"] := ⟨rfl, rfl⟩
  rw [Spells, tokens_append_right rfl, tokens_append_left rfl, tokens_append_right rfl,
    tokens_append_left rfl, marks.1, marks.2]
  exact .choice asked yes no

theorem unique {weak : Nat} {other : Tree} (spells : Spells (.upTo strength) text tree)
    (again : Spells (.upTo weak) text other) : tree = other :=
  Option.some.inj ((Derives.whole spells).treeOf?_eq.symm.trans (Derives.whole again).treeOf?_eq)

end Spells

end GlslMaterial.Glsl
