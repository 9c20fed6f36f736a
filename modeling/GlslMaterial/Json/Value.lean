/-!
JSON values. Integers that fit 64 bits are kept apart from other numbers.
-/

set_option autoImplicit false

namespace GlslMaterial

namespace Json

inductive Number where
  | int (value : Int)
  | float (value : Float)
deriving DecidableEq, Inhabited

/-- The nearest 64-bit floating point number; integers have at most 64 bits. -/
def Number.toFloat : Number → Float
  | .int value =>
    let magnitude := (UInt64.ofNat value.natAbs).toFloat
    if value < 0 then -magnitude else magnitude
  | .float value => value

end Json

inductive Json where
  | null
  | bool (value : Bool)
  | number (value : Json.Number)
  | string (value : String)
  | array (items : List Json)
  | object (members : List (String × Json))
deriving Inhabited

namespace Json

/-- Adds a member at its place in the order of keys; an earlier value of the same key is lost. -/
def insertMember (key : String) (value : Json) : List (String × Json) → List (String × Json)
  | [] => [(key, value)]
  | (other, old) :: rest =>
    if key < other then (key, value) :: (other, old) :: rest
    else if key = other then (key, value) :: rest
    else (other, old) :: insertMember key value rest

def toFloat? : Json → Option Float
  | number n => some n.toFloat
  | _ => none

def toString? : Json → Option String
  | string s => some s
  | _ => none

def toBool? : Json → Option Bool
  | bool b => some b
  | _ => none

def toItems? : Json → Option (List Json)
  | array items => some items
  | _ => none

/-- The value of a natural number that was written without a point or an exponent. -/
def toNat? : Json → Option Nat
  | number (.int value) => if 0 ≤ value then some value.toNat else none
  | _ => none

end Json

end GlslMaterial
