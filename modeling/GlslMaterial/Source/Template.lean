import GlslMaterial.Source.Marker
import GlslMaterial.Text.Lines

/-! Templates: the source a stage starts from, with a line for each marker. -/

set_option autoImplicit false

namespace GlslMaterial

def mainFunction (body : List Marker) : List String :=
  ["", "void main () \x7b"] ++ body.map (fun marker => "    " ++ marker.text) ++ ["\x7d", ""]

/-- The lines of a stage's template. -/
def Stage.templateLines : Stage → List String
  | .vertex | .geometry | .tessControl | .tessEvaluation =>
    [.version, .defines, .input, .output, .uniform, .functions].map Marker.text ++
      mainFunction [.transform, .position, .colorize]
  | .pixel =>
    [.version, .defines, .input, .output, .uniform, .functions].map Marker.text ++
      mainFunction [.texturize, .colorize]
  | .compute =>
    [.version, .defines].map Marker.text ++
      ["layout(local_size_x = 1, local_size_y = 1, local_size_z = 1) in;"] ++
      [.input, .output, .uniform, .functions].map Marker.text ++
      mainFunction [.transform, .colorize]

def Stage.template (stage : Stage) : String :=
  Text.block stage.templateLines

end GlslMaterial
