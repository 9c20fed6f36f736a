import GlslMaterial.Stage

/-! Markers: the named places of a stage's source at which code is inserted. -/

set_option autoImplicit false

namespace GlslMaterial

inductive Marker where
  | version
  | defines
  | input
  | output
  | uniform
  | functions
  | texturize
  | colorize
  | transform
  | position
deriving DecidableEq, Repr, Inhabited

namespace Marker

def all : List Marker :=
  [version, defines, input, output, uniform, functions, texturize, colorize, transform, position]

theorem mem_all (marker : Marker) : marker ∈ all := by
  cases marker <;> decide

/-- What stands on the line of a marker. -/
def text : Marker → String
  | version => "#VERSION"
  | defines => "#DEFINES"
  | input => "#INPUT"
  | output => "#OUTPUT"
  | uniform => "#UNIFORM"
  | functions => "#FUNCTIONS"
  | texturize => "#TEXTURIZE"
  | colorize => "#COLORIZE"
  | transform => "#TRANSFORM"
  | position => "#POSITION"

/-- The marker at which a stage takes the statements of its main function. -/
def mainBody : Stage → Marker
  | .pixel => texturize
  | _ => transform

end Marker

end GlslMaterial
