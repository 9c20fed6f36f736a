import GlslMaterial.Glsl.Expression
import GlslMaterial.Typing

/-!
Rank conversion: code that gives an expression another type.

Vectors shrink by a leading swizzle and grow by a filler, except that the fourth component of a
vector of four is one. Matrices shrink by their constructor and grow into a matrix with the filler
on the new diagonal and one in its last place. Vectors and matrices do not become each other.
-/

set_option autoImplicit false

namespace GlslMaterial.Glsl

/-- The swizzle of the first components. -/
def leading (count : Nat) : String :=
  String.ofList (['x', 'y', 'z', 'w'].take count)

/-- What stands for the components that a vector of `width` has beyond the first `count`. -/
def padding (count width : Nat) (filler : String) : List String :=
  (List.range' count (width - count)).map fun i => if width = 4 && i = 3 then "1.0" else filler

def convertVector (code : String) (family : Family) (count : Nat) (target : String)
    (targetFamily : Family) (width : Nat) (filler : String) : String :=
  if width < count then
    let swizzled := s!"{atom code}.{leading width}"
    if family = targetFamily then swizzled else call target [swizzled]
  else if count < width then call target (code :: padding count width filler)
  else call target [code]

/-- Column `column` of a matrix of dimension `width` that extends one of dimension `count`. -/
def grownColumn (base : String) (count width : Nat) (filler : String) (column : Nat) : String :=
  let entries :=
    if column < count then
      s!"{base}[{column}]" :: List.replicate (width - count) "0.0"
    else
      (List.range width).map fun row =>
        if row ≠ column then "0.0" else if column = width - 1 then "1.0" else filler
  call s!"vec{width}" entries

def growMatrix (code target : String) (count width : Nat) (filler : String) : String :=
  call target ((List.range width).map (grownColumn (atom code) count width filler))

/-- Code of type `target` for the code `code` of type `source`. -/
def convert (code : String) (source target : DataType) (filler : String) :
    Except Failure String := do
  if source = target then return code
  let source ← source.decayed
  let target ← target.decayed
  if source = target then return code
  match source.vectorShape?, target.vectorShape? with
  | some (family, count), some (targetFamily, width) =>
    return convertVector code family count (← target.spelling) targetFamily width filler
  | _, _ =>
    match source.matrixShape?, target.matrixShape? with
    | some (_, count), some (_, width) =>
      let spelling ← target.spelling
      if width ≤ count then return call spelling [code]
      return growMatrix code spelling count width filler
    | _, _ => throw (.misuse (.noConversion source target))

end GlslMaterial.Glsl
