import GlslMaterial.Descriptor.Construct
import GlslMaterial.Json.Reader

/-!
Constructs read from JSON text. A record is written as an object, or as an array of its fields in
order, of which the last ones may be left out. Fields that no record has are passed over.
-/

set_option autoImplicit false

namespace GlslMaterial.Descriptor

open Json Json.Reader

/-- The reader one level of nesting further in; there is none at the greatest depth. -/
def inside {α : Type} (reader : Nat → Reader α) : Nat → Option (Reader α)
  | 0 => none
  | room + 1 => some (reader room)

/-- Stops because a field is there twice. The place is behind the closing brace where that follows
the key. -/
def duplicate {α : Type} (name : String) : Reader α := do
  match (← peek) with
  | some '\x7d' => do
    advance
    mismatch (.duplicateField name)
  | _ => mismatch (.duplicateField name)

/-- Reads the value of a field that may be there once. -/
def field {α : Type} (name : String) (found : Option α) (reader : Reader α) :
    Reader (Option α) := do
  if found.isSome then duplicate name
  else do
    colon
    return some (← reader)

/-- A required field after the closing brace. -/
def required {α : Type} (name : String) : Option α → Reader α
  | some a => pure a
  | none => mismatch (.missingField name)

/-- The next element of a record written as an array; none where the array ends. -/
def element {α : Type} (first : Bool) (reader : Reader α) : Reader (Option α) := do
  match (← peek) with
  | none => refuse .endInArray
  | some ']' => return none
  | some c =>
    if first then return some (← reader)
    else if c = ',' then do
      advance
      match (← peek) with
      | none => refuse .endInValue
      | some ']' => refuse .trailingComma
      | some _ => return some (← reader)
    else refuse .expectedArrayCommaOrEnd

/-- The first element of a record written as an array. -/
def firstElement {α : Type} (expected : String) (reader : Reader α) : Reader α := do
  match (← element true reader) with
  | some a => return a
  | none => do
    advance
    mismatch (.wrongLength 0 expected)

/-- The end of a record written as an array. -/
def endOfRecord : Reader Unit := do
  match (← peek) with
  | none => refuse .endInArray
  | some ']' => advance
  | some ',' => do
    advance
    match (← peek) with
    | some ']' => refuse .trailingComma
    | _ => refuse .trailingCharacters
  | some _ => refuse .trailingCharacters

/-- Reads a record in either form. -/
def record {α : Type} (expected : String) (room : Nat) (fromArray fromObject : Nat → Reader α) :
    Reader α := do
  match (← peek) with
  | none => refuse .endInValue
  | some '[' =>
    match inside fromArray room with
    | none => refuse .nestedTooDeep
    | some reader => do
      advance
      let a ← reader
      endOfRecord
      return a
  | some '\x7b' =>
    match inside fromObject room with
    | none => refuse .nestedTooDeep
    | some reader => do
      advance
      reader
  | some _ => wrongType expected

def kindWord (room : Nat) : Reader Kind :=
  expectWord Kind.words Kind.ofWord? room

def traitWord (room : Nat) : Reader TraitId :=
  expectWord (TraitId.all.map TraitId.label) TraitId.ofLabel? room

def typeWord (room : Nat) : Reader DataType :=
  expectWord (DataType.all.map DataType.word) DataType.ofWord? room

def verbWord (room : Nat) : Reader Verb :=
  expectWord (Verb.all.map Verb.label) Verb.ofLabel? room

/-- Fields of a trait that have been met so far. -/
structure TraitFields where
  id : Option TraitId
  type : Option (Option DataType)
  value : Option (Option Json)

def traitFromArray (room : Nat) : Reader Trait := do
  let id ← firstElement "struct TraitEntry with 3 elements" (traitWord room)
  let type ← element false (nullable (typeWord room))
  let value ← element false (nullable (value room))
  return ⟨id, type.join, value.join⟩

def traitFromObject (room : Nat) : Reader Trait := do
  let member := fun (key : String) (found : TraitFields) => do
    if key = "trait" then
      return { found with id := ← field key found.id (traitWord room) }
    else if key = "type" then
      return { found with type := ← field key found.type (nullable (typeWord room)) }
    else if key = "value" then
      return { found with value := ← field key found.value (nullable (value room)) }
    else do
      colon
      skipValue
      return found
  let found ← allMembers member ⟨none, none, none⟩
  return ⟨← required "trait" found.id, found.type.join, found.value.join⟩

def trait (room : Nat) : Reader Trait :=
  record "struct TraitEntry" room traitFromArray traitFromObject

/-- Fields of a verb that have been met so far. -/
structure VerbFields where
  verb : Option Verb
  value : Option (Option Json)
  operand : Option (Option TraitId)

def verbFromArray (room : Nat) : Reader VerbEntry := do
  let verb ← firstElement "struct VerbEntry with 3 elements" (verbWord room)
  let value ← element false (nullable (value room))
  let operand ← element false (nullable (traitWord room))
  return ⟨verb, value.join, operand.join⟩

def verbFromObject (room : Nat) : Reader VerbEntry := do
  let member := fun (key : String) (found : VerbFields) => do
    if key = "verb" then
      return { found with verb := ← field key found.verb (verbWord room) }
    else if key = "value" then
      return { found with value := ← field key found.value (nullable (value room)) }
    else if key = "trait" then
      return { found with operand := ← field key found.operand (nullable (traitWord room)) }
    else do
      colon
      skipValue
      return found
  let found ← allMembers member ⟨none, none, none⟩
  return ⟨← required "verb" found.verb, found.value.join, found.operand.join⟩

def verb (room : Nat) : Reader VerbEntry :=
  record "struct VerbEntry" room verbFromArray verbFromObject

/-- Fields of a construct that have been met so far. -/
structure ConstructFields where
  kind : Option Kind
  name : Option (Option String)
  traits : Option (List Trait)
  verbs : Option (List VerbEntry)
  children : Option (List Construct)

def constructFromArray (child : Option (Reader Construct)) (room : Nat) : Reader Construct := do
  let kind ← firstElement "struct Construct with 5 elements" (kindWord room)
  let name ← element false (nullable (expectString "a string"))
  let traits ← element false (expectArray (inside trait room))
  let verbs ← element false (expectArray (inside verb room))
  let children ← element false (expectArray child)
  return ⟨kind, name.join, traits.getD [], verbs.getD [], children.getD []⟩

def constructFromObject (child : Option (Reader Construct)) (room : Nat) : Reader Construct := do
  let member := fun (key : String) (found : ConstructFields) => do
    if key = "type" then
      return { found with kind := ← field key found.kind (kindWord room) }
    else if key = "name" then
      return { found with name := ← field key found.name (nullable (expectString "a string")) }
    else if key = "traits" then
      return { found with traits := ← field key found.traits (expectArray (inside trait room)) }
    else if key = "verbs" then
      return { found with verbs := ← field key found.verbs (expectArray (inside verb room)) }
    else if key = "children" then
      return { found with children := ← field key found.children (expectArray child) }
    else do
      colon
      skipValue
      return found
  let found ← allMembers member ⟨none, none, none, none, none⟩
  let kind ← required "type" found.kind
  return ⟨kind, found.name.join, found.traits.getD [], found.verbs.getD [],
    found.children.getD []⟩

def constructWith (child : Option (Reader Construct)) (room : Nat) : Reader Construct :=
  record "struct Construct" room (constructFromArray child) (constructFromObject child)

/-- Reads a construct in which arrays and objects are nested at most `room` deep. A child is two
levels further in. -/
def construct : Nat → Reader Construct
  | 0 => constructWith none 0
  | 1 => constructWith none 1
  | room + 2 => constructWith (some (construct room)) (room + 2)

def parseConstruct (text : String) : Except Located Construct :=
  readText (construct maxDepth) text

/-- The meaning of a word of a vocabulary, given as a JSON value. -/
def wordOfJson {α : Type} (vocabulary : List String) (meaning : String → Option α) :
    Json → Except Mismatch α
  | .string word => known word
  | .object [(word, payload)] => do
    let a ← known word
    match payload with
    | .null => return a
    | other => throw (.wrongType (formOf other) "unit")
  | .object members => throw (.wrongValue (formOf (.object members)) "map with a single key")
  | other => throw (.wrongType (formOf other) "string or map")
where
  known (word : String) : Except Mismatch α :=
    match meaning word with
    | some a => .ok a
    | none => .error (.unknownWord word vocabulary)

end GlslMaterial.Descriptor
