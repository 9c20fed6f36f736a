import GlslMaterial.DataType

/-!
GLSL expressions as text. An atom can take a swizzle, an index or an operator without changing its
meaning; any other expression is put in parentheses first.
-/

set_option autoImplicit false

namespace GlslMaterial

/-- The code of an expression and the type of its value. -/
structure Expression where
  code : String
  type : DataType
deriving DecidableEq, Repr, Inhabited

namespace Glsl

/-- Characters of plain, dotted and indexed names. -/
def isNameChar (c : Char) : Bool :=
  c.isAlphanum || c == '_' || c == '.' || c == '[' || c == ']'

/-- Whether the last open parenthesis of `depth + 1` is closed by the last character and not
before. -/
def closesAtEnd : Nat → List Char → Bool
  | _, [] => false
  | 0, ')' :: rest => rest.isEmpty
  | depth + 1, ')' :: rest => closesAtEnd depth rest
  | depth, '(' :: rest => closesAtEnd (depth + 1) rest
  | depth, _ :: rest => closesAtEnd depth rest

/-- Whether a text is a name, or a single call such as `vec3(a, b, c)`. -/
def isAtom (code : List Char) : Bool :=
  let name := code.takeWhile (· != '(')
  !name.isEmpty && name.all isNameChar &&
    match code.dropWhile (· != '(') with
    | [] => true
    | _ :: inner => closesAtEnd 0 inner

/-- The expression as an atom. -/
def atom (code : String) : String :=
  if isAtom code.toList then code else s!"({code})"

def call (function : String) (arguments : List String) : String :=
  let listed := ", ".intercalate arguments
  s!"{function}({listed})"

end Glsl

end GlslMaterial
