import GlslMaterial.Json.Problem
import GlslMaterial.Text.Keyword

/-!
Reading JSON text from the left. A reader takes what it needs from the characters that are left,
and stops at the first problem.
-/

set_option autoImplicit false

namespace GlslMaterial.Json

/-- A problem, the characters that had not been read when it was met, and the number of bytes that
it lies ahead of them. -/
structure Stop where
  problem : Problem
  rest : List Char
  ahead : Nat

abbrev Reader := StateT (List Char) (Except Stop)

namespace Reader

variable {α : Type}

/-- Stops at the next character to be read. -/
def stopHere (problem : Problem) : Reader α :=
  fun rest => .error ⟨problem, rest, 0⟩

/-- Stops some bytes after the next character to be read. -/
def stopAhead (problem : Problem) (ahead : Nat) : Reader α :=
  fun rest => .error ⟨problem, rest, ahead⟩

/-- Stops because of the next character, which the problem's place includes. -/
def refuse (reason : Malformed) : Reader α :=
  stopAhead (.malformed reason) 1

/-- Stops before the next character. -/
def halt (reason : Malformed) : Reader α :=
  stopHere (.malformed reason)

def mismatch (reason : Mismatch) : Reader α :=
  stopHere (.mismatch reason)

/-- Passes one character. -/
def advance : Reader Unit :=
  modify (List.drop 1)

end Reader

open Reader

def isJsonBlank (c : Char) : Bool :=
  c == ' ' || c == '\n' || c == '\t' || c == '\r'

/-- Passes blanks and gives the next character without passing it. -/
def peek : Reader (Option Char) := do
  modify (List.dropWhile isJsonBlank)
  return (← get).head?

/-- Reads the rest of a literal word. -/
def restOfWord : List Char → Reader Unit
  | [] => pure ()
  | expected :: more => do
    match (← get) with
    | [] => halt .endInValue
    | c :: rest =>
      if c = expected then
        set rest
        restOfWord more
      else
        refuse .expectedWord

section Numbers

/-- Whether one more digit would carry the significand past 64 bits. -/
def overflows (limit significand digit : Nat) : Bool :=
  limit < significand * 10 + digit

def digitValue (c : Char) : Nat :=
  c.toNat - '0'.toNat

/-- Takes digits into the significand while it fits 64 bits; gives the number of digits taken. -/
def absorb : Nat → List Char → Nat × Nat
  | significand, [] => (significand, 0)
  | significand, c :: rest =>
    if overflows (UInt64.size - 1) significand (digitValue c) then (significand, 0)
    else
      let (total, taken) := absorb (significand * 10 + digitValue c) rest
      (total, taken + 1)

def powerOfTen (exponent : Nat) : Float :=
  Float.ofScientific 1 false exponent

/-- Divides by a power of ten. The greatest power that is a finite number is `10 ^ 308`; a larger
one is divided by in steps, of which `fuel` are enough when they reach zero. -/
def divideByPower : Nat → Float → Nat → Float
  | 0, significand, _ => significand
  | fuel + 1, significand, exponent =>
    if exponent ≤ 308 then significand / powerOfTen exponent
    else if significand == 0 then significand
    else divideByPower fuel (significand / powerOfTen 308) (exponent - 308)

/-- The number `significand * 10 ^ exponent`, unless it is too large. -/
def scaled? (significand : Nat) (exponent : Int) : Option Float :=
  let start := (UInt64.ofNat significand).toFloat
  if exponent < 0 then some (divideByPower 4 start (-exponent).toNat)
  else if exponent ≤ 308 then
    let product := start * powerOfTen exponent.toNat
    if product.isInf then none else some product
  else if significand = 0 then some start
  else none

def takeDigits : Reader (List Char) :=
  fun rest => .ok (rest.takeWhile Char.isDigit, rest.dropWhile Char.isDigit)

def negateUnless (positive : Bool) (x : Float) : Float :=
  if positive then x else -x

def fromParts (positive : Bool) (significand : Nat) (exponent : Int) : Reader Float :=
  match scaled? significand exponent with
  | some x => pure (negateUnless positive x)
  | none => halt .numberOutOfRange

/-- Reads exponent digits up to the one that carries the exponent past 31 bits. -/
def exponentDigits : Nat → List Char → Except (List Char) (Nat × List Char)
  | exponent, [] => .ok (exponent, [])
  | exponent, c :: rest =>
    if c.isDigit then
      if overflows 0x7FFFFFFF exponent (digitValue c) then .error rest
      else exponentDigits (exponent * 10 + digitValue c) rest
    else .ok (exponent, c :: rest)

/-- Reads what follows the letter of an exponent. -/
def exponentPart (positive : Bool) (significand : Nat) (start : Int) : Reader Float := do
  let upward ← match (← get) with
    | '+' :: rest => do set rest; pure true
    | '-' :: rest => do set rest; pure false
    | _ => pure true
  match (← get) with
  | [] => halt .endInValue
  | c :: rest =>
    if !c.isDigit then refuse .invalidNumber
    else match exponentDigits (digitValue c) rest with
      | .ok (exponent, after) =>
        set after
        fromParts positive significand (if upward then start + exponent else start - exponent)
      | .error after =>
        set after
        if significand ≠ 0 && upward then halt .numberOutOfRange
        else
          let _ ← takeDigits
          pure (negateUnless positive 0)

/-- Reads what may follow the digits of a number with a fraction. -/
def afterFraction (positive : Bool) (significand : Nat) (exponent : Int) : Reader Float := do
  match (← get).head? with
  | some 'e' | some 'E' => do
    advance
    exponentPart positive significand exponent
  | _ => fromParts positive significand exponent

/-- Reads the digits after the point. -/
def fractionPart (positive : Bool) (significand : Nat) (start : Int) : Reader Float := do
  let digits ← takeDigits
  if digits.isEmpty then
    match (← get) with
    | [] => refuse .endInValue
    | _ => refuse .invalidNumber
  else
    let (total, taken) := absorb significand digits
    afterFraction positive total (start - taken)

/-- Reads what follows the digits before the point; `dropped` of them are not in the
significand. -/
def afterInteger (positive : Bool) (significand dropped : Nat) : Reader Number := do
  match (← get).head? with
  | some '.' => do
    advance
    return .float (← fractionPart positive significand dropped)
  | some 'e' | some 'E' => do
    advance
    return .float (← exponentPart positive significand dropped)
  | _ =>
    if dropped ≠ 0 then
      return .float (← fromParts positive significand dropped)
    else if positive then
      return .int significand
    else if significand = 0 || 0x8000000000000000 < significand then
      return .float (-(UInt64.ofNat significand).toFloat)
    else
      return .int (-significand)

/-- Reads a number after its sign. -/
def unsignedNumber (positive : Bool) : Reader Number := do
  match (← get) with
  | [] => halt .endInValue
  | c :: rest =>
    if c = '0' then do
      set rest
      if (rest.head?.map Char.isDigit).getD false then refuse .invalidNumber
      else afterInteger positive 0 0
    else if c.isDigit then do
      let digits ← takeDigits
      let (significand, taken) := absorb 0 digits
      afterInteger positive significand (digits.length - taken)
    else refuse .invalidNumber

end Numbers

section Strings

def hexValue? (c : Char) : Option Nat :=
  if c.isDigit then some (c.toNat - '0'.toNat)
  else if 'a' ≤ c ∧ c ≤ 'f' then some (c.toNat - 'a'.toNat + 10)
  else if 'A' ≤ c ∧ c ≤ 'F' then some (c.toNat - 'A'.toNat + 10)
  else none

/-- The 16-bit unit that four hexadecimal digits stand for. -/
def unit16? (a b c d : Char) : Option Nat := do
  let a ← hexValue? a
  let b ← hexValue? b
  let c ← hexValue? c
  let d ← hexValue? d
  return ((a * 16 + b) * 16 + c) * 16 + d

/-- The character that a letter after a backslash stands for. -/
def shortEscape? : Char → Option Char
  | '"' => some '"'
  | '\\' => some '\\'
  | '/' => some '/'
  | 'b' => some '\x08'
  | 'f' => some '\x0c'
  | 'n' => some '\n'
  | 'r' => some '\r'
  | 't' => some '\t'
  | _ => none

def isLeadingUnit (unit : Nat) : Bool :=
  0xD800 ≤ unit && unit ≤ 0xDBFF

def isTrailingUnit (unit : Nat) : Bool :=
  0xDC00 ≤ unit && unit ≤ 0xDFFF

/-- The character of a pair of surrogate units. -/
def pairedChar (leading trailing : Nat) : Char :=
  Char.ofNat ((leading - 0xD800) * 0x400 + (trailing - 0xDC00) + 0x10000)

/-- Where the text ends too early for four hexadecimal digits, or is not made of them. -/
def badUnit (rest : List Char) : Stop :=
  if 4 ≤ Text.byteLength rest then ⟨.malformed .invalidEscape, rest, 4⟩
  else ⟨.malformed .endInString, [], 0⟩

/-- Reads a string after its opening quote; `done` holds its characters so far in reverse. -/
def stringFrom (done : List Char) : List Char → Except Stop (String × List Char)
  | [] => .error ⟨.malformed .endInString, [], 0⟩
  | '"' :: rest => .ok (String.ofList done.reverse, rest)
  | '\\' :: [] => .error ⟨.malformed .endInString, [], 0⟩
  | '\\' :: 'u' :: a :: b :: c :: d :: rest =>
    match unit16? a b c d with
    | none => .error (badUnit (a :: b :: c :: d :: rest))
    | some unit =>
      if isTrailingUnit unit then .error ⟨.malformed .loneSurrogate, rest, 0⟩
      else if isLeadingUnit unit then
        match rest with
        | '\\' :: 'u' :: a :: b :: c :: d :: rest =>
          match unit16? a b c d with
          | none => .error (badUnit (a :: b :: c :: d :: rest))
          | some trailing =>
            if isTrailingUnit trailing then stringFrom (pairedChar unit trailing :: done) rest
            else .error ⟨.malformed .loneSurrogate, rest, 0⟩
        | '\\' :: 'u' :: short => .error (badUnit short)
        | '\\' :: [] => .error ⟨.malformed .endInString, [], 0⟩
        | '\\' :: other => .error ⟨.malformed .unpairedEscape, other, 1⟩
        | [] => .error ⟨.malformed .endInString, [], 0⟩
        | other => .error ⟨.malformed .unpairedEscape, other, 1⟩
      else stringFrom (Char.ofNat unit :: done) rest
  | '\\' :: 'u' :: short => .error (badUnit short)
  | '\\' :: c :: rest =>
    match shortEscape? c with
    | some escaped => stringFrom (escaped :: done) rest
    | none => .error ⟨.malformed .invalidEscape, c :: rest, 1⟩
  | c :: rest =>
    if c.toNat < 32 then .error ⟨.malformed .controlCharacter, c :: rest, 1⟩
    else stringFrom (c :: done) rest

/-- Reads a string after its opening quote. -/
def restOfString : Reader String :=
  fun rest => stringFrom [] rest

/-- Passes a string after its opening quote, without asking what its escapes stand for. -/
def skipString : List Char → Except Stop (List Char)
  | [] => .error ⟨.malformed .endInString, [], 0⟩
  | '"' :: rest => .ok rest
  | '\\' :: [] => .error ⟨.malformed .endInString, [], 0⟩
  | '\\' :: 'u' :: a :: b :: c :: d :: rest =>
    match unit16? a b c d with
    | none => .error (badUnit (a :: b :: c :: d :: rest))
    | some _ => skipString rest
  | '\\' :: 'u' :: short => .error (badUnit short)
  | '\\' :: c :: rest =>
    match shortEscape? c with
    | some _ => skipString rest
    | none => .error ⟨.malformed .invalidEscape, c :: rest, 1⟩
  | c :: rest =>
    if c.toNat < 32 then .error ⟨.malformed .controlCharacter, c :: rest, 0⟩
    else skipString rest

end Strings

section Aggregates

variable {α σ : Type}

/-- Reads the items of an array after its opening bracket, with the closing one. Each item takes at
least one character, so `fuel` is the number of characters that are left. -/
def items (item : Reader α) : Nat → Bool → Reader (List α)
  | 0, _ => refuse .endInArray
  | fuel + 1, first => do
    match (← peek) with
    | none => refuse .endInArray
    | some ']' => do
      advance
      return []
    | some c =>
      if first then
        let value ← item
        return value :: (← items item fuel false)
      else if c = ',' then do
        advance
        match (← peek) with
        | none => refuse .endInValue
        | some ']' => refuse .trailingComma
        | some _ =>
          let value ← item
          return value :: (← items item fuel false)
      else refuse .expectedArrayCommaOrEnd

def allItems (item : Reader α) : Reader (List α) := do
  items item ((← get).length + 1) true

def colon : Reader Unit := do
  match (← peek) with
  | some ':' => advance
  | some _ => refuse .expectedColon
  | none => refuse .endInObject

/-- Reads the members of an object after its opening brace, with the closing one. `member` gets the
key and reads the colon and the value. -/
def members (member : String → σ → Reader σ) : Nat → Bool → σ → Reader σ
  | 0, _, _ => refuse .endInObject
  | fuel + 1, first, state => do
    match (← peek) with
    | none => refuse .endInObject
    | some '\x7d' => do
      advance
      return state
    | some c =>
      if first then
        if c = '"' then do
          advance
          let key ← restOfString
          members member fuel false (← member key state)
        else refuse .keyNotString
      else if c = ',' then do
        advance
        match (← peek) with
        | none => refuse .endInValue
        | some '"' => do
          advance
          let key ← restOfString
          members member fuel false (← member key state)
        | some '\x7d' => refuse .trailingComma
        | some _ => refuse .keyNotString
      else refuse .expectedObjectCommaOrEnd

def allMembers (member : String → σ → Reader σ) (state : σ) : Reader σ := do
  members member ((← get).length + 1) true state

end Aggregates

section Values

/-- Reads any value. `inner` reads the values inside it, and is absent at the greatest depth. -/
def valueWith (inner : Option (Reader Json)) : Reader Json := do
  match (← peek) with
  | none => refuse .endInValue
  | some 'n' => do
    advance
    restOfWord ['u', 'l', 'l']
    return .null
  | some 't' => do
    advance
    restOfWord ['r', 'u', 'e']
    return .bool true
  | some 'f' => do
    advance
    restOfWord ['a', 'l', 's', 'e']
    return .bool false
  | some '-' => do
    advance
    return .number (← unsignedNumber false)
  | some '"' => do
    advance
    return .string (← restOfString)
  | some '[' =>
    match inner with
    | none => refuse .nestedTooDeep
    | some inner => do
      advance
      return .array (← allItems inner)
  | some '\x7b' =>
    match inner with
    | none => refuse .nestedTooDeep
    | some inner => do
      advance
      let member := fun key found => do
        colon
        return insertMember key (← inner) found
      return .object (← allMembers member [])
  | some c =>
    if c.isDigit then return .number (← unsignedNumber true)
    else refuse .expectedValue

/-- Reads any value in which arrays and objects are nested at most `room` deep. -/
def value : Nat → Reader Json
  | 0 => valueWith none
  | room + 1 => valueWith (some (value room))

/-- The greatest nesting of arrays and objects in a text. -/
def maxDepth : Nat := 127

/-- What follows a value on the way out of the arrays and objects around it. -/
inductive Frame where
  | array
  | object
deriving DecidableEq, Repr

/-- Passes a key and its colon. -/
def skipKey : Reader Unit := do
  match (← peek) with
  | some '"' => do
    advance
    let after ← skipString (← get)
    set after
  | some _ => refuse .keyNotString
  | none => refuse .endInObject
  colon

/-- Goes on after a value: closes frames, or comes to the place of the next value inside them. -/
def leaveFrames : List Frame → Reader (Option (List Frame))
  | [] => pure none
  | frame :: outer => do
    match frame, (← peek) with
    | .array, some ',' => do
      advance
      return some (frame :: outer)
    | .object, some ',' => do
      advance
      skipKey
      return some (frame :: outer)
    | .array, some ']' => do
      advance
      leaveFrames outer
    | .object, some '\x7d' => do
      advance
      leaveFrames outer
    | .array, some _ => refuse .expectedArrayCommaOrEnd
    | .object, some _ => refuse .expectedObjectCommaOrEnd
    | .array, none => refuse .endInArray
    | .object, none => refuse .endInObject

/-- Opens a frame: passes it when it is empty, or comes to the place of its first value. -/
def enterFrame (frame : Frame) (outer : List Frame) : Reader (Option (List Frame)) := do
  match frame, (← peek) with
  | .array, some ']' => do
    advance
    leaveFrames outer
  | .object, some '\x7d' => do
    advance
    leaveFrames outer
  | .array, some _ => return some (.array :: outer)
  | .object, some _ => do
    skipKey
    return some (.object :: outer)
  | .array, none => refuse .endInArray
  | .object, none => refuse .endInObject

def skipDigits : Reader Unit :=
  modify (List.dropWhile Char.isDigit)

def skipExponent : Reader Unit := do
  match (← get) with
  | '+' :: rest => set rest
  | '-' :: rest => set rest
  | _ => pure ()
  match (← get) with
  | [] => halt .invalidNumber
  | c :: _ => if c.isDigit then skipDigits else refuse .invalidNumber

/-- Passes a number after its sign, whatever its size. -/
def skipNumber : Reader Unit := do
  match (← get) with
  | [] => halt .invalidNumber
  | c :: rest =>
    if c = '0' then do
      set rest
      if (rest.head?.map Char.isDigit).getD false then refuse .invalidNumber
    else if c.isDigit then skipDigits
    else refuse .invalidNumber
  match (← get).head? with
  | some '.' => do
    advance
    let digits ← takeDigits
    if digits.isEmpty then refuse .invalidNumber
    match (← get).head? with
    | some 'e' | some 'E' => do
      advance
      skipExponent
    | _ => pure ()
  | some 'e' | some 'E' => do
    advance
    skipExponent
  | _ => pure ()

/-- Passes values until all frames are closed. Every value takes at least one character. -/
def skipValues : Nat → List Frame → Reader Unit
  | 0, _ => refuse .endInValue
  | fuel + 1, frames => do
    let next ← match (← peek) with
      | none => refuse .endInValue
      | some 'n' => do
        advance
        restOfWord ['u', 'l', 'l']
        leaveFrames frames
      | some 't' => do
        advance
        restOfWord ['r', 'u', 'e']
        leaveFrames frames
      | some 'f' => do
        advance
        restOfWord ['a', 'l', 's', 'e']
        leaveFrames frames
      | some '-' => do
        advance
        skipNumber
        leaveFrames frames
      | some '"' => do
        advance
        let after ← skipString (← get)
        set after
        leaveFrames frames
      | some '[' => do
        advance
        enterFrame .array frames
      | some '\x7b' => do
        advance
        enterFrame .object frames
      | some c =>
        if c.isDigit then do
          skipNumber
          leaveFrames frames
        else refuse .expectedValue
    match next with
    | none => pure ()
    | some frames => skipValues fuel frames

/-- Passes one value of any depth. -/
def skipValue : Reader Unit := do
  skipValues ((← get).length + 1) []

end Values

section Expectations

variable {α : Type}

/-- Stops because the next value has another type than the one expected. A scalar is read first,
since its own problems come before that. -/
def wrongType (expected : String) : Reader α := do
  match (← peek) with
  | some 'n' => do
    advance
    restOfWord ['u', 'l', 'l']
    mismatch (.wrongType .null expected)
  | some 't' => do
    advance
    restOfWord ['r', 'u', 'e']
    mismatch (.wrongType (.bool true) expected)
  | some 'f' => do
    advance
    restOfWord ['a', 'l', 's', 'e']
    mismatch (.wrongType (.bool false) expected)
  | some '-' => do
    advance
    let number ← unsignedNumber false
    mismatch (.wrongType (.number number) expected)
  | some '"' => do
    advance
    let text ← restOfString
    mismatch (.wrongType (.string text) expected)
  | some '[' => mismatch (.wrongType .array expected)
  | some '\x7b' => mismatch (.wrongType .object expected)
  | some c =>
    if c.isDigit then do
      let number ← unsignedNumber true
      mismatch (.wrongType (.number number) expected)
    else refuse .expectedValue
  | none => refuse .expectedValue

def expectString (expected : String) : Reader String := do
  match (← peek) with
  | none => refuse .endInValue
  | some '"' => do
    advance
    restOfString
  | some _ => wrongType expected

def expectNull : Reader Unit := do
  match (← peek) with
  | none => refuse .endInValue
  | some 'n' => do
    advance
    restOfWord ['u', 'l', 'l']
  | some _ => wrongType "unit"

/-- Reads an array of items; `inner` reads one, and is absent at the greatest depth. -/
def expectArray (inner : Option (Reader α)) : Reader (List α) := do
  match (← peek) with
  | none => refuse .endInValue
  | some '[' =>
    match inner with
    | none => refuse .nestedTooDeep
    | some inner => do
      advance
      allItems inner
  | some _ => wrongType "a sequence"

/-- Reads a value that may be absent, written as null. -/
def nullable (present : Reader α) : Reader (Option α) := do
  match (← peek) with
  | some 'n' => do
    advance
    restOfWord ['u', 'l', 'l']
    return none
  | _ => return some (← present)

/-- Reads the key that stands for a word in an object, whose opening has been read. -/
def wordKey : Reader String := do
  match (← peek) with
  | some '"' => do
    advance
    restOfString
  | some '\x7d' => refuse .expectedValue
  | some _ => refuse .keyNotString
  | none => refuse .endInObject

/-- Reads a word of a vocabulary: a string, or an object whose one member has the word for its key
and null for its value. -/
def expectWord (vocabulary : List String) (meaning : String → Option α) (room : Nat) :
    Reader α := do
  let known := fun (word : String) =>
    match meaning word with
    | some a => (pure a : Reader α)
    | none => mismatch (.unknownWord word vocabulary)
  match (← peek) with
  | none => refuse .endInValue
  | some '"' => do
    advance
    known (← restOfString)
  | some '\x7b' =>
    if room = 0 then refuse .nestedTooDeep
    else do
      advance
      let word ← wordKey
      let a ← known word
      colon
      expectNull
      match (← peek) with
      | some '\x7d' => do
        advance
        return a
      | some _ => halt .expectedValue
      | none => halt .endInObject
  | some _ => refuse .expectedValue

end Expectations

section Texts

variable {α : Type}

/-- Line and column after the first `count` bytes of a text. -/
def place : Nat → Nat → Nat → List Char → Nat × Nat
  | line, column, _, [] => (line, column)
  | line, column, count, c :: rest =>
    if count = 0 then (line, column)
    else if c = '\n' then place (line + 1) 0 (count - 1) rest
    else if c.utf8Size ≤ count then place line (column + c.utf8Size) (count - c.utf8Size) rest
    else (line, column + count)

def locate (text : List Char) (stop : Stop) : Located :=
  let left := Text.byteLength stop.rest
  let read := Text.byteLength text - left + min stop.ahead left
  let (line, column) := place 1 0 read text
  ⟨stop.problem, line, column⟩

/-- Reads a whole text, which may have blanks after its value. -/
def readText (reader : Reader α) (text : String) : Except Located α :=
  let whole : Reader α := do
    let a ← reader
    match (← peek) with
    | none => return a
    | some _ => refuse .trailingCharacters
  match whole.run text.toList with
  | .ok (a, _) => .ok a
  | .error stop => .error (locate text.toList stop)

/-- Reads a text of one value. -/
def parse (text : String) : Except Located Json :=
  readText (value maxDepth) text

end Texts

end GlslMaterial.Json
