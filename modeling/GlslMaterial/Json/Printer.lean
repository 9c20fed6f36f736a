import GlslMaterial.Decimal.Written
import GlslMaterial.Json.Value

/-! Compact JSON text: no blanks, only the escapes that JSON demands. -/

set_option autoImplicit false

namespace GlslMaterial.Json

def hexDigit (n : Nat) : Char :=
  Nat.digitChar n

/-- One character of a string. Control characters are escaped, by a letter where JSON has one. -/
def escapeChar (c : Char) : List Char :=
  let n := c.toNat
  if c = '"' then ['\\', '"']
  else if c = '\\' then ['\\', '\\']
  else if n = 8 then ['\\', 'b']
  else if n = 9 then ['\\', 't']
  else if n = 10 then ['\\', 'n']
  else if n = 12 then ['\\', 'f']
  else if n = 13 then ['\\', 'r']
  else if n < 32 then ['\\', 'u', '0', '0', hexDigit (n / 16), hexDigit (n % 16)]
  else [c]

def stringChars (text : String) : List Char :=
  '"' :: text.toList.flatMap escapeChar ++ ['"']

def intChars (value : Int) : List Char :=
  Decimal.signed (value < 0) (Decimal.digitText value.natAbs)

def numberChars : Number → List Char
  | .int value => intChars value
  | .float value => Decimal.interchangeText (Decimal.decode64 value)

mutual

def chars : Json → List Char
  | .null => "null".toList
  | .bool value => if value then "true".toList else "false".toList
  | .number value => numberChars value
  | .string value => stringChars value
  | .array items => '[' :: itemsChars items
  | .object members => '\x7b' :: membersChars members
termination_by structural json => json

/-- The items of an array with their commas, and the closing bracket. -/
def itemsChars : List Json → List Char
  | [] => [']']
  | item :: rest => chars item ++ moreItemsChars rest
termination_by structural items => items

/-- The items after the first one. -/
def moreItemsChars : List Json → List Char
  | [] => [']']
  | item :: rest => ',' :: chars item ++ moreItemsChars rest
termination_by structural items => items

/-- The members of an object with their commas, and the closing brace. -/
def membersChars : List (String × Json) → List Char
  | [] => ['\x7d']
  | member :: rest => memberChars member ++ moreMembersChars rest
termination_by structural members => members

/-- The members after the first one. -/
def moreMembersChars : List (String × Json) → List Char
  | [] => ['\x7d']
  | member :: rest => ',' :: memberChars member ++ moreMembersChars rest
termination_by structural members => members

def memberChars : String × Json → List Char
  | (key, value) => stringChars key ++ ':' :: chars value
termination_by structural member => member

end

def render (json : Json) : String :=
  String.ofList (chars json)

end GlslMaterial.Json
