import GlslMaterial.Json.Printer
import GlslMaterial.Text.Quoted

/-!
Problems of JSON texts: a text is malformed when it is not JSON, and mismatched when it is JSON of
another form than the one asked for.
-/

set_option autoImplicit false

namespace GlslMaterial.Json

/-- Why a text is not JSON. -/
inductive Malformed where
  | endInArray
  | endInObject
  | endInString
  | endInValue
  | expectedColon
  | expectedArrayCommaOrEnd
  | expectedObjectCommaOrEnd
  | expectedWord
  | expectedValue
  | invalidEscape
  | invalidNumber
  | numberOutOfRange
  | controlCharacter
  | keyNotString
  | loneSurrogate
  | trailingComma
  | trailingCharacters
  | unpairedEscape
  | nestedTooDeep
deriving DecidableEq, Repr

def Malformed.message : Malformed → String
  | .endInArray => "EOF while parsing a list"
  | .endInObject => "EOF while parsing an object"
  | .endInString => "EOF while parsing a string"
  | .endInValue => "EOF while parsing a value"
  | .expectedColon => "expected `:`"
  | .expectedArrayCommaOrEnd => "expected `,` or `]`"
  | .expectedObjectCommaOrEnd => "expected `,` or `\x7d`"
  | .expectedWord => "expected ident"
  | .expectedValue => "expected value"
  | .invalidEscape => "invalid escape"
  | .invalidNumber => "invalid number"
  | .numberOutOfRange => "number out of range"
  | .controlCharacter =>
    "control character (\\u0000-\\u001F) found while parsing a string"
  | .keyNotString => "key must be a string"
  | .loneSurrogate => "lone leading surrogate in hex escape"
  | .trailingComma => "trailing comma"
  | .trailingCharacters => "trailing characters"
  | .unpairedEscape => "unexpected end of hex escape"
  | .nestedTooDeep => "recursion limit exceeded"

/-- The form of a value that was found where another was expected. -/
inductive Found where
  | null
  | bool (value : Bool)
  | number (value : Number)
  | string (value : String)
  | array
  | object

def Found.text : Found → String
  | .null => "null"
  | .bool value => if value then "boolean `true`" else "boolean `false`"
  | .number (.int value) => "integer `" ++ String.ofList (intChars value) ++ "`"
  | .number (.float value) => "floating point `" ++ Decimal.interchange64 value ++ "`"
  | .string value => "string " ++ Text.quoted value
  | .array => "sequence"
  | .object => "map"

def formOf : Json → Found
  | .null => .null
  | .bool value => .bool value
  | .number value => .number value
  | .string value => .string value
  | .array _ => .array
  | .object _ => .object

/-- How a value differs from the form that was asked for. -/
inductive Mismatch where
  | wrongType (found : Found) (expected : String)
  | wrongValue (found : Found) (expected : String)
  | wrongLength (length : Nat) (expected : String)
  | unknownWord (word : String) (vocabulary : List String)
  | missingField (name : String)
  | duplicateField (name : String)

def ticked (word : String) : String :=
  "`" ++ word ++ "`"

def Mismatch.message : Mismatch → String
  | .wrongType found expected => "invalid type: " ++ found.text ++ ", expected " ++ expected
  | .wrongValue found expected => "invalid value: " ++ found.text ++ ", expected " ++ expected
  | .wrongLength length expected => s!"invalid length {length}, expected {expected}"
  | .unknownWord word vocabulary =>
    "unknown variant " ++ ticked word ++ ", expected one of " ++
      ", ".intercalate (vocabulary.map ticked)
  | .missingField name => "missing field " ++ ticked name
  | .duplicateField name => "duplicate field " ++ ticked name

inductive Problem where
  | malformed (reason : Malformed)
  | mismatch (reason : Mismatch)

def Problem.message : Problem → String
  | .malformed reason => reason.message
  | .mismatch reason => reason.message

/-- A problem and its place in the text, in lines from 1 and bytes of the line. -/
structure Located where
  problem : Problem
  line : Nat
  column : Nat

def Located.message (located : Located) : String :=
  s!"{located.problem.message} at line {located.line} column {located.column}"

end GlslMaterial.Json
