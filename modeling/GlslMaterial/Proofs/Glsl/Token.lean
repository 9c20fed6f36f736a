import GlslMaterial.Text.Keyword
import GlslMaterial.Text.Lines

/-!
Tokens of shader code. A text is read from left to right, and each token takes as many characters as
it can. Main statement: where a blank or a bracket stands at the seam of two texts, they are read
one after the other.
-/

set_option autoImplicit false

namespace GlslMaterial.Glsl

open Text (isIdentifierChar)

/-- Characters that end a token and belong to none. -/
def isBlank (c : Char) : Bool :=
  [' ', '\n', '\t', '\r'].contains c

/-- Characters that are always a token of their own. -/
def isBracket (c : Char) : Bool :=
  ['(', ')', '[', ']', '\x7b', '\x7d', ',', ';', '?', ':'].contains c

def longMarks : List (List Char) :=
  [['<', '='], ['>', '='], ['=', '='], ['!', '='], ['&', '&'], ['|', '|'], ['^', '^'], ['<', '<'],
    ['>', '>'], ['+', '+'], ['-', '-'], ['+', '='], ['-', '='], ['*', '='], ['/', '='], ['%', '='],
    ['&', '='], ['|', '='], ['^', '='], ['<', '<', '='], ['>', '>', '=']]

/-- Numbers begin with a digit, or with a point that has something behind it. -/
def isNumericWord : List Char → Bool
  | [] => false
  | first :: rest => first.isDigit || first == '.' && !rest.isEmpty

/-- Whether a number ends with the letter of an exponent. -/
def isScaled (number : List Char) : Bool :=
  number.getLast?.any (fun c => c == 'e' || c == 'E') &&
    !(number.drop 1).head?.any (fun c => c == 'x' || c == 'X')

/-- Whether a token goes on with a character. -/
def takes (token : List Char) (c : Char) : Bool :=
  if isNumericWord token then
    isIdentifierChar c || c == '.' || (c == '+' || c == '-') && isScaled token
  else if token.all isIdentifierChar then isIdentifierChar c
  else token == ['.'] && c.isDigit || longMarks.contains (token ++ [c])

/-- A token that is complete. -/
def flush (token : List Char) : List String :=
  if token.isEmpty then [] else [String.ofList token]

/-- The tokens of a text, with a token before it that may go on. -/
def lex : List Char → List Char → List String
  | token, [] => flush token
  | token, c :: rest =>
    if takes token c then lex (token ++ [c]) rest
    else flush token ++ lex (if isBlank c then [] else [c]) rest

def tokens (text : List Char) : List String :=
  lex [] text

/-- Characters that end every token. -/
def isSolo (c : Char) : Bool :=
  isBlank c || isBracket c

section Seams

variable {c : Char} {token : List Char}

theorem isSolo_cases (solo : isSolo c = true) :
    c ∈ [' ', '\n', '\t', '\r', '(', ')', '[', ']', '\x7b', '\x7d', ',', ';', '?', ':'] := by
  simpa [isSolo, isBlank, isBracket, or_assoc] using solo

theorem not_isIdentifierChar_of_isSolo (solo : isSolo c = true) : isIdentifierChar c = false := by
  have all : [' ', '\n', '\t', '\r', '(', ')', '[', ']', '\x7b', '\x7d', ',', ';', '?', ':'].all
      (fun c => !isIdentifierChar c) = true := by decide
  simpa using List.all_eq_true.1 all c (isSolo_cases solo)

theorem notMem_longMarks_of_last {p : Char → Bool}
    (all : longMarks.all (fun mark => mark.getLast?.all p) = true) (other : p c = false)
    (token : List Char) : token ++ [c] ∉ longMarks := by
  intro member
  have last := List.all_eq_true.1 all _ member
  simp [other] at last

theorem notMem_longMarks_of_first {p : Char → Bool}
    (all : longMarks.all (fun mark => mark.head?.all p) = true) (other : p c = false)
    (rest : List Char) : c :: rest ∉ longMarks := by
  intro member
  have first := List.all_eq_true.1 all _ member
  simp [other] at first

theorem not_isDigit_of_isSolo (solo : isSolo c = true) : c.isDigit = false := by
  have plain := not_isIdentifierChar_of_isSolo solo
  refine Bool.eq_false_iff.2 fun digit => ?_
  simp [isIdentifierChar, Char.isAlphanum, digit] at plain

theorem takes_eq_false (solo : isSolo c = true) (token : List Char) : takes token c = false := by
  have plain := not_isIdentifierChar_of_isSolo solo
  have marks : c ≠ '.' ∧ c ≠ '+' ∧ c ≠ '-' := by
    refine ⟨?_, ?_, ?_⟩ <;> rintro rfl <;> exact absurd solo (by decide)
  have unmarked : token ++ [c] ∉ longMarks :=
    notMem_longMarks_of_last (p := fun c => !isSolo c) (by decide) (by simp [solo]) token
  simp [takes, plain, marks, not_isDigit_of_isSolo solo, unmarked]

theorem not_takes_of_isBracket (bracket : isBracket c = true) (d : Char) :
    takes [c] d = false := by
  have solo : isSolo c = true := by simp [isSolo, bracket]
  have plain := not_isIdentifierChar_of_isSolo solo
  have dot : c ≠ '.' := by
    rintro rfl
    exact absurd bracket (by decide)
  have unmarked : [c, d] ∉ longMarks :=
    notMem_longMarks_of_first (p := fun c => !isSolo c) (by decide) (by simp [solo]) [d]
  simp [takes, isNumericWord, plain, not_isDigit_of_isSolo solo, dot, unmarked]

/-- Only a letter or a digit goes on with nothing. -/
theorem takes_nil (c : Char) : takes [] c = isIdentifierChar c := by
  simp [takes, isNumericWord]

theorem lex_nil_cons (c : Char) (rest : List Char) :
    lex [] (c :: rest) = lex (if isBlank c then [] else [c]) rest := by
  rw [lex, takes_nil]
  split
  · rename_i letter
    have ink : isBlank c = false := by
      refine Bool.eq_false_iff.2 fun blank => ?_
      rw [not_isIdentifierChar_of_isSolo (by simp [isSolo, blank])] at letter
      cases letter
    simp [ink]
  · simp [flush]

theorem lex_of_not_takes (stops : takes token c = false) (rest : List Char) :
    lex token (c :: rest) = flush token ++ lex [] (c :: rest) := by
  rw [lex, stops, lex_nil_cons]
  rfl

theorem lex_append_of_head {first second : List Char} (seam : second.head?.all isSolo = true)
    (token : List Char) : lex token (first ++ second) = lex token first ++ lex [] second := by
  induction first generalizing token with
  | nil =>
    cases second with
    | nil => simp [lex, flush]
    | cons c second =>
      have solo : isSolo c = true := seam
      exact lex_of_not_takes (takes_eq_false solo token) second
  | cons c first ih =>
    rw [List.cons_append, lex, lex, ih, ih]
    split
    · rfl
    · rw [List.append_assoc]

theorem lex_bracket (bracket : isBracket c = true) (rest : List Char) :
    lex [c] rest = String.ofList [c] :: lex [] rest := by
  cases rest with
  | nil => rfl
  | cons d rest => exact lex_of_not_takes (not_takes_of_isBracket bracket d) rest

/-- What a character that ends every token is itself. -/
theorem lex_solo (solo : isSolo c = true) (rest : List Char) :
    lex [] (c :: rest) = lex [] [c] ++ lex [] rest := by
  rw [lex_nil_cons, lex_nil_cons]
  cases blank : isBlank c with
  | true => simp [lex, flush]
  | false =>
    have bracket : isBracket c = true := by simpa [isSolo, blank] using solo
    simp only [Bool.false_eq_true, if_false]
    rw [lex_bracket bracket, lex_bracket bracket]
    simp [lex, flush]

theorem lex_append_of_last {first second : List Char} (seam : first.getLast?.all isSolo = true) :
    lex [] (first ++ second) = lex [] first ++ lex [] second := by
  rcases List.eq_nil_or_concat first with rfl | ⟨first, c, rfl⟩
  · rfl
  · have solo : isSolo c = true := by simpa using seam
    rw [List.concat_eq_append, List.append_assoc, List.singleton_append,
      lex_append_of_head (by simpa using solo), lex_append_of_head (by simpa using solo),
      lex_solo solo, List.append_assoc]

end Seams

/-- Behind a blank or a bracket. -/
theorem tokens_append_left {first second : List Char} (seam : first.getLast?.all isSolo = true) :
    tokens (first ++ second) = tokens first ++ tokens second :=
  lex_append_of_last seam

/-- Before a blank or a bracket. -/
theorem tokens_append_right {first second : List Char} (seam : second.head?.all isSolo = true) :
    tokens (first ++ second) = tokens first ++ tokens second :=
  lex_append_of_head seam []

section Words

theorem lex_word {token word : List Char} (letters : word.all isIdentifierChar = true)
    (begun : token.all isIdentifierChar = true) : lex token word = flush (token ++ word) := by
  induction word generalizing token with
  | nil => simp [lex]
  | cons c word ih =>
    obtain ⟨letter, letters⟩ := Bool.and_eq_true_iff.1 letters
    have goes : takes token c = true := by simp [takes, begun, letter]
    rw [lex, if_pos goes, ih letters (by simp [begun, letter])]
    simp

theorem tokens_word {word : String} (filled : word.toList ≠ [])
    (letters : word.toList.all isIdentifierChar = true) : tokens word.toList = [word] := by
  rw [tokens, lex_word letters rfl]
  simp [flush, filled]

/-- Behind a digit, points belong to the number. -/
theorem lex_numeral {token word : List Char}
    (numeric : (word.all fun c => isIdentifierChar c || c == '.') = true)
    (begun : isNumericWord token = true) : lex token word = flush (token ++ word) := by
  induction word generalizing token with
  | nil => simp [lex]
  | cons c word ih =>
    obtain ⟨here, later⟩ := Bool.and_eq_true_iff.1 numeric
    have goes : takes token c = true := by
      simp only [takes, begun, if_true, here, Bool.true_or]
    have still : isNumericWord (token ++ [c]) = true := by
      cases token with
      | nil => cases begun
      | cons first rest =>
        rcases Bool.or_eq_true_iff.1 begun with digit | point
        · simp [isNumericWord, digit]
        · simp [isNumericWord, (Bool.and_eq_true_iff.1 point).1]
    rw [lex, if_pos goes, ih later still]
    simp

theorem tokens_numeral {first : Char} {rest : List Char} (digit : first.isDigit = true)
    (numeric : (rest.all fun c => isIdentifierChar c || c == '.') = true) :
    tokens (first :: rest) = [String.ofList (first :: rest)] := by
  have ink : isBlank first = false := by
    refine Bool.eq_false_iff.2 fun blank => ?_
    rw [not_isDigit_of_isSolo (by simp [isSolo, blank])] at digit
    cases digit
  rw [tokens, lex_nil_cons, ink, if_neg Bool.false_ne_true,
    lex_numeral numeric (by simp [isNumericWord, digit])]
  rfl

end Words

section Parts

theorem flatten_lex (token text : List Char) :
    (lex token text).flatMap String.toList = token ++ text.filter (!isBlank ·) := by
  have flushed (token : List Char) : (flush token).flatMap String.toList = token := by
    unfold flush
    split
    · simp_all
    · simp
  induction text generalizing token with
  | nil => simp [lex, flushed]
  | cons c text ih =>
    rw [lex]
    split
    · rename_i goes
      have ink : isBlank c = false := by
        refine Bool.eq_false_iff.2 fun blank => ?_
        rw [takes_eq_false (by simp [isSolo, blank])] at goes
        cases goes
      rw [ih]
      simp [ink]
    · rw [List.flatMap_append, flushed, ih]
      cases ink : isBlank c <;> simp [ink]

theorem flatten_tokens (text : List Char) :
    (tokens text).flatMap String.toList = text.filter (!isBlank ·) :=
  flatten_lex [] text

theorem exists_lex_append (token text : List Char) :
    ∃ front last, ∀ more, lex token (text ++ more) = front ++ lex last more := by
  induction text generalizing token with
  | nil => exact ⟨[], token, fun _ => rfl⟩
  | cons c text ih =>
    cases goes : takes token c with
    | true =>
      obtain ⟨front, last, reads⟩ := ih (token ++ [c])
      refine ⟨front, last, fun more => ?_⟩
      rw [List.cons_append, lex, if_pos goes, reads]
    | false =>
      obtain ⟨front, last, reads⟩ := ih (if isBlank c then [] else [c])
      refine ⟨flush token ++ front, last, fun more => ?_⟩
      rw [List.cons_append, lex, goes, if_neg Bool.false_ne_true, reads, List.append_assoc]

theorem takes_point (token : List Char) : takes token '.' = isNumericWord token := by
  have letter : isIdentifierChar '.' = false := by decide
  have unmarked : token ++ ['.'] ∉ longMarks :=
    notMem_longMarks_of_last (p := fun c => c != '.') (by decide) (by decide) token
  have digit : '.'.isDigit = false := by decide
  cases numeral : isNumericWord token <;> simp [takes, numeral, letter, digit, unmarked]

theorem tokens_part {text : List Char} {name : String}
    (other : ∀ last ∈ (tokens text).getLast?, isNumericWord last.toList = false)
    (letters : name.toList.all isIdentifierChar = true)
    (named : name.toList.head?.any Char.isDigit = false) (filled : name.toList ≠ []) :
    tokens (text ++ '.' :: name.toList) = tokens text ++ [".", name] := by
  obtain ⟨front, last, reads⟩ := exists_lex_append [] text
  have whole : tokens text = front ++ flush last := by
    simpa [tokens, lex] using reads []
  have plain : isNumericWord last = false := by
    cases empty : last.isEmpty with
    | true => rw [List.isEmpty_iff.1 empty]; rfl
    | false =>
      have ends := other (String.ofList last) (by simp [whole, flush, empty])
      simpa using ends
  obtain ⟨c, rest, cut⟩ := List.exists_cons_of_ne_nil filled
  have start : takes ['.'] c = false := by
    have digit : c.isDigit = false := by simpa [cut] using named
    have unmarked : ['.', c] ∉ longMarks :=
      notMem_longMarks_of_first (p := fun c => c != '.') (by decide) (by decide) [c]
    have letter : isIdentifierChar '.' = false := by decide
    have point : '.'.isDigit = false := by decide
    simp [takes, isNumericWord, letter, point, digit, unmarked]
  have ink : isBlank '.' = false := by decide
  have behind : lex ['.'] name.toList = ["."] ++ tokens name.toList := by
    rw [cut]
    exact lex_of_not_takes start rest
  have stops : takes last '.' = false := by rw [takes_point, plain]
  rw [tokens, reads, lex_of_not_takes stops, lex_nil_cons, ink, if_neg Bool.false_ne_true, behind,
    tokens_word filled letters, ← List.append_assoc, ← whole]
  rfl

end Parts

end GlslMaterial.Glsl
