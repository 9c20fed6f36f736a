import GlslMaterial.Proofs.Glsl.Token

/-!
Expressions of shader code, without assignments. Tokens are read in one pass: operators wait on a
stack for their last operand until a weaker operator or a closing bracket comes. Parts, indices and
calls bind strongest, then signs, then the binary operators in eleven strengths, all of them to the
left, then the choice, which binds to the right, and last the comma.

Main statement: what the grammar derives is read as the tree of its derivation, so that no text has
two trees.
-/

set_option autoImplicit false

namespace GlslMaterial.Glsl

open Text (isIdentifierChar)

inductive Sign where
  | plus
  | minus
  | not
  | complement
deriving DecidableEq, Repr

namespace Sign

def mark : Sign → String
  | plus => "+"
  | minus => "-"
  | not => "!"
  | complement => "~"

def ofMark? : String → Option Sign
  | "+" => some plus
  | "-" => some minus
  | "!" => some not
  | "~" => some complement
  | _ => none

end Sign

inductive Operator where
  | multiply
  | divide
  | modulo
  | add
  | subtract
  | shiftLeft
  | shiftRight
  | less
  | greater
  | atMost
  | atLeast
  | equal
  | unequal
  | bitAnd
  | bitXor
  | bitOr
  | and
  | xor
  | or
deriving DecidableEq, Repr

namespace Operator

def mark : Operator → String
  | multiply => "*"
  | divide => "/"
  | modulo => "%"
  | add => "+"
  | subtract => "-"
  | shiftLeft => "<<"
  | shiftRight => ">>"
  | less => "<"
  | greater => ">"
  | atMost => "<="
  | atLeast => ">="
  | equal => "=="
  | unequal => "!="
  | bitAnd => "&"
  | bitXor => "^"
  | bitOr => "|"
  | and => "&&"
  | xor => "^^"
  | or => "||"

def ofMark? : String → Option Operator
  | "*" => some multiply
  | "/" => some divide
  | "%" => some modulo
  | "+" => some add
  | "-" => some subtract
  | "<<" => some shiftLeft
  | ">>" => some shiftRight
  | "<" => some less
  | ">" => some greater
  | "<=" => some atMost
  | ">=" => some atLeast
  | "==" => some equal
  | "!=" => some unequal
  | "&" => some bitAnd
  | "^" => some bitXor
  | "|" => some bitOr
  | "&&" => some and
  | "^^" => some xor
  | "||" => some or
  | _ => none

/-- Operators with a greater number bind weaker. -/
def strength : Operator → Nat
  | multiply | divide | modulo => 1
  | add | subtract => 2
  | shiftLeft | shiftRight => 3
  | less | greater | atMost | atLeast => 4
  | equal | unequal => 5
  | bitAnd => 6
  | bitXor => 7
  | bitOr => 8
  | and => 9
  | xor => 10
  | or => 11

theorem strength_bounds (operator : Operator) : 1 ≤ operator.strength ∧ operator.strength ≤ 11 := by
  cases operator <;> decide

/-- Products and quotients. -/
def isProduct : Operator → Bool
  | multiply | divide => true
  | _ => false

/-- Operators that take numbers of all families. -/
def isArithmetic : Operator → Bool
  | multiply | divide | add | subtract => true
  | _ => false

theorem strength_of_isProduct {operator : Operator} (product : operator.isProduct = true) :
    operator.strength = 1 := by
  cases operator <;> first | rfl | cases product

theorem strength_of_isArithmetic {operator : Operator}
    (arithmetic : operator.isArithmetic = true) : operator.strength ≤ 2 := by
  cases operator <;> first | decide | cases arithmetic

end Operator

/-- Expression trees. A call takes its arguments one after the other. -/
inductive Tree where
  | name (text : String)
  | number (text : String)
  | field (of : Tree) (name : String)
  | index (of place : Tree)
  | callee (function : Tree)
  | argument (call value : Tree)
  | unary (sign : Sign) (of : Tree)
  | binary (operator : Operator) (left right : Tree)
  | choice (test one other : Tree)
  | sequence (first second : Tree)
deriving DecidableEq, Repr

namespace Tree

def call (function : String) (arguments : List Tree) : Tree :=
  arguments.foldl argument (callee (name function))

def isNumber : Tree → Bool
  | number _ => true
  | _ => false

end Tree

def isName (word : List Char) : Bool :=
  !word.isEmpty && word.all isIdentifierChar && !word.head?.any Char.isDigit

def isNumericChar (c : Char) : Bool :=
  isIdentifierChar c || c == '.' || c == '+' || c == '-'

/-- What waits for an operand to be complete. -/
inductive Frame where
  | group
  | call (call : Tree)
  | index (of : Tree)
  | part (of : Tree)
  | test (condition : Tree)
  | sign (mark : Sign)
  | left (operator : Operator) (operand : Tree)
  | branch (condition one : Tree)
  | comma (first : Tree)
deriving DecidableEq, Repr

namespace Frame

/-- How strong an operator binds that waits. What has been opened has to be closed instead. -/
def strength? : Frame → Option Nat
  | group | call _ | index _ | part _ | test _ => none
  | sign _ => some 0
  | left operator _ => some operator.strength
  | branch _ _ => some 12
  | comma _ => some 13

/-- The tree of an operator that has its last operand. -/
def complete : Frame → Tree → Tree
  | sign mark, tree => .unary mark tree
  | left operator one, tree => .binary operator one tree
  | branch condition one, tree => .choice condition one tree
  | comma first, tree => .sequence first tree
  | _, tree => tree

end Frame

/-- Operators take their last operand, down to the first that is weaker than a limit. -/
def settle (limit : Nat) : List Frame → Tree → List Frame × Tree
  | [], tree => ([], tree)
  | frame :: stack, tree =>
    match frame.strength? with
    | some strength =>
      if strength ≤ limit then settle limit stack (frame.complete tree) else (frame :: stack, tree)
    | none => (frame :: stack, tree)

/-- Trees that are not complete, and the operand that has been read last. -/
structure Machine where
  stack : List Frame
  operand : Option Tree
deriving DecidableEq, Repr

namespace Machine

/-- A machine that expects an operand. -/
def start (stack : List Frame) : Machine :=
  ⟨stack, none⟩

/-- A token where an operand is to begin. -/
def before (stack : List Frame) (token : String) : Option Machine :=
  match stack with
  | .part of :: stack => if isName token.toList then some ⟨stack, some (.field of token)⟩ else none
  | _ =>
    if isName token.toList then some ⟨stack, some (.name token)⟩
    else if isNumericWord token.toList then some ⟨stack, some (.number token)⟩
    else if token = "(" then some (start (.group :: stack))
    else if token = ")" then
      match stack with
      | .call (.callee function) :: stack => some ⟨stack, some (.callee function)⟩
      | _ => none
    else (Sign.ofMark? token).map fun sign => start (.sign sign :: stack)

/-- A comma, a colon or a closing bracket, behind a complete tree. -/
def close (token : String) : List Frame × Tree → Option Machine
  | (.call call :: stack, tree) =>
    if token = "," then some (start (.call (.argument call tree) :: stack))
    else if token = ")" then some ⟨stack, some (.argument call tree)⟩
    else none
  | (.group :: stack, tree) =>
    if token = "," then some (start (.comma tree :: .group :: stack))
    else if token = ")" then some ⟨stack, some tree⟩
    else none
  | (.index of :: stack, tree) =>
    if token = "," then some (start (.comma tree :: .index of :: stack))
    else if token = "]" then some ⟨stack, some (.index of tree)⟩
    else none
  | (.test condition :: stack, tree) =>
    if token = "," then some (start (.comma tree :: .test condition :: stack))
    else if token = ":" then some (start (.branch condition tree :: stack))
    else none
  | ([], tree) => if token = "," then some (start [.comma tree]) else none
  | _ => none

/-- A token behind an operand. -/
def behind (stack : List Frame) (operand : Tree) (token : String) : Option Machine :=
  match Operator.ofMark? token with
  | some operator =>
    let (stack, left) := settle operator.strength stack operand
    some (start (.left operator left :: stack))
  | none =>
    if token = "." then some (start (.part operand :: stack))
    else if token = "[" then some (start (.index operand :: stack))
    else if token = "(" then some (start (.call (.callee operand) :: stack))
    else if token = "?" then
      let (stack, condition) := settle 11 stack operand
      some (start (.test condition :: stack))
    else close token (settle 13 stack operand)

def step (m : Machine) (token : String) : Option Machine :=
  match m.operand with
  | none => before m.stack token
  | some operand => behind m.stack operand token

def run (m : Machine) (tokens : List String) : Option Machine :=
  tokens.foldlM step m

/-- The whole tree, where nothing waits any more. -/
def tree? (m : Machine) : Option Tree := do
  match settle 13 m.stack (← m.operand) with
  | ([], tree) => some tree
  | _ => none

theorem run_append (m : Machine) (first second : List String) :
    m.run (first ++ second) = (m.run first).bind fun middle => middle.run second :=
  List.foldlM_append

theorem run_cons (m : Machine) (token : String) (tokens : List String) :
    m.run (token :: tokens) = (m.step token).bind fun middle => middle.run tokens :=
  List.foldlM_cons

end Machine

def treeOf? (tokens : List String) : Option Tree :=
  ((Machine.start []).run tokens).bind Machine.tree?

/-- The tree of an expression. -/
def parse (code : String) : Option Tree :=
  treeOf? (tokens code.toList)

/-- The kinds of expressions: operands, calls that are still open, and expressions whose operators
have at most some strength. -/
inductive Level where
  | operand
  | opened
  | upTo (strength : Nat)
deriving DecidableEq, Repr

namespace Level

abbrev signed : Level := upTo 0

abbrev product : Level := upTo 1

abbrev sum : Level := upTo 2

end Level

/-- The grammar of expressions. -/
inductive Derives : Level → List String → Tree → Prop
  | name {word : String} (named : isName word.toList = true) : Derives .operand [word] (.name word)
  | number {word : String} (named : isName word.toList = false)
    (numeric : isNumericWord word.toList = true) (plain : word.toList.all isNumericChar = true) :
    Derives .operand [word] (.number word)
  | group {ts : List String} {tree : Tree} (inner : Derives (.upTo 13) ts tree) :
    Derives .operand ("(" :: (ts ++ [")"])) tree
  | field {ts : List String} {tree : Tree} {word : String} (inner : Derives .operand ts tree)
    (named : isName word.toList = true) : Derives .operand (ts ++ [".", word]) (.field tree word)
  | index {ts place : List String} {tree inside : Tree} (inner : Derives .operand ts tree)
    (at_ : Derives (.upTo 13) place inside) :
    Derives .operand (ts ++ "[" :: (place ++ ["]"])) (.index tree inside)
  | empty {ts : List String} {function : Tree} (opened : Derives .opened ts (.callee function)) :
    Derives .operand (ts ++ [")"]) (.callee function)
  | called {ts value : List String} {call tree : Tree} (opened : Derives .opened ts call)
    (last : Derives (.upTo 12) value tree) :
    Derives .operand (ts ++ (value ++ [")"])) (.argument call tree)
  | signed {sign : Sign} {ts : List String} {tree : Tree} (inner : Derives (.upTo 0) ts tree) :
    Derives (.upTo 0) (sign.mark :: ts) (.unary sign tree)
  | binary {operator : Operator} {first second : List String} {left right : Tree}
    (one : Derives (.upTo operator.strength) first left)
    (two : Derives (.upTo (operator.strength - 1)) second right) :
    Derives (.upTo operator.strength) (first ++ operator.mark :: second)
      (.binary operator left right)
  | choice {test first second : List String} {condition one other : Tree}
    (asked : Derives (.upTo 11) test condition) (yes : Derives (.upTo 13) first one)
    (no : Derives (.upTo 12) second other) :
    Derives (.upTo 12) (test ++ "?" :: (first ++ ":" :: second)) (.choice condition one other)
  | sequence {first second : List String} {one other : Tree} (before : Derives (.upTo 13) first one)
    (last : Derives (.upTo 12) second other) :
    Derives (.upTo 13) (first ++ "," :: second) (.sequence one other)
  | operand {strength : Nat} {ts : List String} {tree : Tree} (inner : Derives .operand ts tree) :
    Derives (.upTo strength) ts tree
  | weaken {strong weak : Nat} {ts : List String} {tree : Tree}
    (inner : Derives (.upTo strong) ts tree) (le : strong ≤ weak) : Derives (.upTo weak) ts tree
  | callee {ts : List String} {function : Tree} (inner : Derives .operand ts function) :
    Derives .opened (ts ++ ["("]) (.callee function)
  | next {ts value : List String} {call tree : Tree} (opened : Derives .opened ts call)
    (one : Derives (.upTo 12) value tree) :
    Derives .opened (ts ++ (value ++ [","])) (.argument call tree)

/-- Whether an expression of some strength can begin behind what waits. Behind a dot there is only a
name, a comma in a call begins an argument, and what waits for the expression has to be weaker. -/
def admits (strength : Nat) : List Frame → Bool
  | [] => true
  | frame :: _ =>
    match frame with
    | .part _ => false
    | .call _ => strength ≤ 12
    | .group | .index _ | .test _ => true
    | .sign _ => strength = 0
    | .left operator _ => strength < operator.strength || strength = 0
    | .branch _ _ | .comma _ => strength ≤ 12

theorem admits_of_le {strong weak : Nat} (le : strong ≤ weak) {stack : List Frame}
    (admitted : admits weak stack = true) : admits strong stack = true := by
  cases stack with
  | nil => rfl
  | cons frame stack =>
    cases frame <;> simp only [admits, decide_eq_true_eq, Bool.or_eq_true] at admitted ⊢ <;>
      first | trivial | omega

/-- What is weaker goes on waiting. -/
theorem settle_of_admits {strength : Nat} {stack : List Frame}
    (admitted : admits strength stack = true) (pos : 0 < strength)
    (apart : strength ≤ 11 ∨ strength = 13) (tree : Tree) :
    settle strength stack tree = (stack, tree) := by
  cases stack with
  | nil => rfl
  | cons frame stack =>
    cases frame with
    | part => cases admitted
    | group | call | index | test => rfl
    | sign =>
      simp only [admits, decide_eq_true_eq] at admitted
      omega
    | left operator left =>
      simp only [admits, Bool.or_eq_true, decide_eq_true_eq] at admitted
      rw [settle]
      exact if_neg (by omega)
    | branch | comma =>
      simp only [admits, decide_eq_true_eq] at admitted
      rw [settle]
      exact if_neg (by omega)

/-- Tokens are read as a tree, whatever waits before them: an operand at once, and any other
expression as soon as an operator comes that is at least as weak. -/
def Runs : Level → List String → Tree → Prop
  | .operand, ts, tree => ∀ stack, admits 0 stack = true →
    (Machine.start stack).run ts = some ⟨stack, some tree⟩
  | .opened, ts, tree => ∀ stack, admits 0 stack = true →
    (Machine.start stack).run ts = some (.start (.call tree :: stack))
  | .upTo strength, ts, tree => ∀ stack, admits strength stack = true → ∃ last operand,
    (Machine.start stack).run ts = some ⟨last, some operand⟩ ∧
      ∀ limit, strength ≤ limit → settle limit last operand = settle limit stack tree

section Runs

variable {ts first second : List String} {tree left right : Tree}

theorem before_of_admits {stack : List Frame} (admitted : admits 0 stack = true) (token : String) :
    Machine.before stack token =
      if isName token.toList then some ⟨stack, some (.name token)⟩
      else if isNumericWord token.toList then some ⟨stack, some (.number token)⟩
      else if token = "(" then some (.start (.group :: stack))
      else if token = ")" then
        match stack with
        | .call (.callee function) :: stack => some ⟨stack, some (.callee function)⟩
        | _ => none
      else (Sign.ofMark? token).map fun sign => .start (.sign sign :: stack) := by
  cases stack with
  | nil => rfl
  | cons frame stack =>
    cases frame with
    | part => cases admitted
    | _ => rfl

theorem runs_name {word : String} (named : isName word.toList = true) :
    Runs .operand [word] (.name word) := by
  intro stack admitted
  have step : (Machine.start stack).step word = some ⟨stack, some (.name word)⟩ := by
    show Machine.before stack word = _
    rw [before_of_admits admitted, if_pos named]
  rw [Machine.run_cons, step]
  rfl

theorem runs_number {word : String} (named : isName word.toList = false)
    (numeric : isNumericWord word.toList = true) : Runs .operand [word] (.number word) := by
  intro stack admitted
  have step : (Machine.start stack).step word = some ⟨stack, some (.number word)⟩ := by
    show Machine.before stack word = _
    rw [before_of_admits admitted, named, if_neg Bool.false_ne_true, if_pos numeric]
  rw [Machine.run_cons, step]
  rfl

/-- Where a tree is complete, a comma, a colon or a closing bracket finds what waits for it. -/
theorem step_close {strength : Nat} {last stack : List Frame} {operand : Tree}
    (settled : ∀ limit, strength ≤ limit → settle limit last operand = settle limit stack tree)
    (le : strength ≤ 13) (whole : admits 13 stack = true ∨
      stack.head?.any (·.strength?.isNone) = true)
    {token : String} (closing : token ∈ [",", ":", ")", "]"]) :
    Machine.step ⟨last, some operand⟩ token = Machine.close token (stack, tree) := by
  have complete : settle 13 last operand = (stack, tree) := by
    rw [settled 13 le]
    rcases whole with admitted | opened
    · exact settle_of_admits admitted (by decide) (.inr rfl) tree
    · cases stack with
      | nil => cases opened
      | cons frame stack =>
        cases frame with
        | sign | left | branch | comma => cases opened
        | _ => rfl
  rw [← complete]
  simp only [List.mem_cons, List.not_mem_nil, or_false] at closing
  rcases closing with rfl | rfl | rfl | rfl <;> rfl

theorem runs_group (inner : Runs (.upTo 13) ts tree) :
    Runs .operand ("(" :: (ts ++ [")"])) tree := by
  intro stack admitted
  have opened : (Machine.start stack).step "(" = some (.start (.group :: stack)) := by
    show Machine.before stack "(" = _
    rw [before_of_admits admitted]
    rfl
  obtain ⟨last, operand, run, settled⟩ := inner (.group :: stack) rfl
  rw [Machine.run_cons, opened, Option.bind_some, Machine.run_append, run, Option.bind_some,
    Machine.run_cons, step_close settled (by decide) (.inl rfl) (by decide)]
  rfl

theorem runs_field {word : String} (inner : Runs .operand ts tree)
    (named : isName word.toList = true) : Runs .operand (ts ++ [".", word]) (.field tree word) := by
  intro stack admitted
  have dotted : Machine.step ⟨stack, some tree⟩ "." = some (.start (.part tree :: stack)) := rfl
  have read : (Machine.start (.part tree :: stack)).step word =
      some ⟨stack, some (.field tree word)⟩ := if_pos named
  rw [Machine.run_append, inner stack admitted, Option.bind_some, Machine.run_cons, dotted,
    Option.bind_some, Machine.run_cons, read]
  rfl

theorem runs_index {place : List String} {inside : Tree} (inner : Runs .operand ts tree)
    (at_ : Runs (.upTo 13) place inside) :
    Runs .operand (ts ++ "[" :: (place ++ ["]"])) (.index tree inside) := by
  intro stack admitted
  have opened : Machine.step ⟨stack, some tree⟩ "[" = some (.start (.index tree :: stack)) := rfl
  obtain ⟨last, operand, run, settled⟩ := at_ (.index tree :: stack) rfl
  rw [Machine.run_append, inner stack admitted, Option.bind_some, Machine.run_cons, opened,
    Option.bind_some, Machine.run_append, run, Option.bind_some, Machine.run_cons,
    step_close settled (by decide) (.inl rfl) (by decide)]
  rfl

theorem runs_empty {function : Tree} (opened : Runs .opened ts (.callee function)) :
    Runs .operand (ts ++ [")"]) (.callee function) := by
  intro stack admitted
  have closed : (Machine.start (.call (.callee function) :: stack)).step ")" =
      some ⟨stack, some (.callee function)⟩ := rfl
  rw [Machine.run_append, opened stack admitted, Option.bind_some, Machine.run_cons, closed]
  rfl

theorem runs_called {value : List String} {call : Tree} (opened : Runs .opened ts call)
    (last : Runs (.upTo 12) value tree) :
    Runs .operand (ts ++ (value ++ [")"])) (.argument call tree) := by
  intro stack admitted
  obtain ⟨frames, operand, run, settled⟩ := last (.call call :: stack) rfl
  rw [Machine.run_append, opened stack admitted, Option.bind_some, Machine.run_append, run,
    Option.bind_some, Machine.run_cons, step_close settled (by decide) (.inr rfl) (by decide)]
  rfl

theorem runs_signed {sign : Sign} (inner : Runs (.upTo 0) ts tree) :
    Runs (.upTo 0) (sign.mark :: ts) (.unary sign tree) := by
  intro stack admitted
  have marked : (Machine.start stack).step sign.mark = some (.start (.sign sign :: stack)) := by
    show Machine.before stack sign.mark = _
    rw [before_of_admits admitted]
    cases sign <;> rfl
  obtain ⟨last, operand, run, settled⟩ := inner (.sign sign :: stack) rfl
  refine ⟨last, operand, ?_, fun limit le => ?_⟩
  · rw [Machine.run_cons, marked]
    exact run
  · rw [settled limit le, settle]
    exact if_pos le

theorem runs_binary {operator : Operator} (one : Runs (.upTo operator.strength) first left)
    (two : Runs (.upTo (operator.strength - 1)) second right) :
    Runs (.upTo operator.strength) (first ++ operator.mark :: second)
      (.binary operator left right) := by
  intro stack admitted
  obtain ⟨pos, bound⟩ := operator.strength_bounds
  obtain ⟨middle, operand, run, settled⟩ := one stack admitted
  have complete : settle operator.strength middle operand = (stack, left) := by
    rw [settled _ (Nat.le_refl _), settle_of_admits admitted pos (.inl bound)]
  have marked : Machine.step ⟨middle, some operand⟩ operator.mark =
      some (.start (.left operator left :: stack)) := by
    have known : Operator.ofMark? operator.mark = some operator := by cases operator <;> rfl
    show Machine.behind middle operand operator.mark = _
    simp only [Machine.behind, known, complete]
  have waits : admits (operator.strength - 1) (.left operator left :: stack) = true := by
    simp only [admits, Bool.or_eq_true, decide_eq_true_eq]
    omega
  obtain ⟨last, operand, read, settled⟩ := two _ waits
  refine ⟨last, operand, ?_, fun limit le => ?_⟩
  · rw [Machine.run_append, run, Option.bind_some, Machine.run_cons, marked]
    exact read
  · rw [settled limit (by omega), settle]
    exact if_pos le

theorem runs_choice {test : List String} {condition : Tree} (asked : Runs (.upTo 11) test condition)
    (yes : Runs (.upTo 13) first left) (no : Runs (.upTo 12) second right) :
    Runs (.upTo 12) (test ++ "?" :: (first ++ ":" :: second)) (.choice condition left right) := by
  intro stack admitted
  have tight := admits_of_le (show 11 ≤ 12 by decide) admitted
  obtain ⟨middle, operand, run, settled⟩ := asked stack tight
  have complete : settle 11 middle operand = (stack, condition) := by
    rw [settled _ (Nat.le_refl _), settle_of_admits tight (by decide) (.inl (Nat.le_refl _))]
  have marked : Machine.step ⟨middle, some operand⟩ "?" =
      some (.start (.test condition :: stack)) := by
    show some (Machine.start (.test (settle 11 middle operand).2 :: (settle 11 middle operand).1)) =
        _
    rw [complete]
  obtain ⟨inner, one, read, done⟩ := yes (.test condition :: stack) rfl
  obtain ⟨last, other, rest, finished⟩ := no (.branch condition left :: stack) rfl
  refine ⟨last, other, ?_, fun limit le => ?_⟩
  · rw [Machine.run_append, run, Option.bind_some, Machine.run_cons, marked, Option.bind_some,
      Machine.run_append, read, Option.bind_some, Machine.run_cons,
      step_close done (by decide) (.inl rfl) (by decide)]
    exact rest
  · rw [finished limit le, settle]
    exact if_pos le

theorem runs_sequence (before : Runs (.upTo 13) first left) (last : Runs (.upTo 12) second right) :
    Runs (.upTo 13) (first ++ "," :: second) (.sequence left right) := by
  intro stack admitted
  obtain ⟨middle, operand, run, settled⟩ := before stack admitted
  have marked : Machine.close "," (stack, left) = some (.start (.comma left :: stack)) := by
    cases stack with
    | nil => rfl
    | cons frame stack =>
      cases frame with
      | part => cases admitted
      | group | index | test => rfl
      | left operator left =>
        have bound := operator.strength_bounds
        simp only [admits, Bool.or_eq_true, decide_eq_true_eq] at admitted
        omega
      | call | sign | branch | comma => cases admitted
  obtain ⟨frames, other, read, finished⟩ := last (.comma left :: stack) rfl
  refine ⟨frames, other, ?_, fun limit le => ?_⟩
  · rw [Machine.run_append, run, Option.bind_some, Machine.run_cons,
      step_close settled (Nat.le_refl _) (.inl admitted) (by decide), marked]
    exact read
  · rw [finished limit (by omega), settle]
    exact if_pos le

theorem runs_callee {function : Tree} (inner : Runs .operand ts function) :
    Runs .opened (ts ++ ["("]) (.callee function) := by
  intro stack admitted
  rw [Machine.run_append, inner stack admitted]
  rfl

theorem runs_next {value : List String} {call : Tree} (opened : Runs .opened ts call)
    (one : Runs (.upTo 12) value tree) :
    Runs .opened (ts ++ (value ++ [","])) (.argument call tree) := by
  intro stack admitted
  obtain ⟨frames, operand, run, settled⟩ := one (.call call :: stack) rfl
  rw [Machine.run_append, opened stack admitted, Option.bind_some, Machine.run_append, run,
    Option.bind_some, Machine.run_cons, step_close settled (by decide) (.inr rfl) (by decide)]
  rfl

end Runs

namespace Derives

theorem runs {level : Level} {ts : List String} {tree : Tree} (derives : Derives level ts tree) :
    Runs level ts tree := by
  induction derives with
  | name named => exact runs_name named
  | number named numeric _ => exact runs_number named numeric
  | group _ ih => exact runs_group ih
  | field _ named ih => exact runs_field ih named
  | index _ _ ih at_ => exact runs_index ih at_
  | empty _ ih => exact runs_empty ih
  | called _ _ ih last => exact runs_called ih last
  | signed _ ih => exact runs_signed ih
  | binary _ _ one two => exact runs_binary one two
  | choice _ _ _ asked yes no => exact runs_choice asked yes no
  | sequence _ _ before last => exact runs_sequence before last
  | operand _ ih =>
    intro stack admitted
    exact ⟨_, _, ih stack (admits_of_le (Nat.zero_le _) admitted), fun _ _ => rfl⟩
  | weaken _ le ih =>
    intro stack admitted
    obtain ⟨last, operand, run, settled⟩ := ih stack (admits_of_le le admitted)
    exact ⟨last, operand, run, fun limit more => settled limit (Nat.le_trans le more)⟩
  | callee _ ih => exact runs_callee ih
  | next _ _ ih one => exact runs_next ih one

variable {ts : List String} {tree : Tree}

theorem treeOf?_eq (derives : Derives (.upTo 13) ts tree) : treeOf? ts = some tree := by
  obtain ⟨last, operand, run, settled⟩ := derives.runs [] rfl
  have complete : settle 13 last operand = ([], tree) := settled 13 (Nat.le_refl _)
  simp only [treeOf?, run, Machine.tree?, Option.bind_some, Option.bind_eq_bind, complete]

end Derives

example : parse "a < b[0].x ? -f(1.0, (c, d)) * e : g() + .5 - h" =
    some (.choice (.binary .less (.name "a") (.field (.index (.name "b") (.number "0")) "x"))
      (.binary .multiply
        (.unary .minus (.call "f" [.number "1.0", .sequence (.name "c") (.name "d")]))
        (.name "e"))
      (.binary .subtract (.binary .add (.call "g" []) (.number ".5")) (.name "h"))) := by
  decide +kernel

end GlslMaterial.Glsl
