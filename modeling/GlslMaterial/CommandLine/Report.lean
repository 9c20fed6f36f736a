import GlslMaterial.Failure
import GlslMaterial.Text.Lines

/-! Reports of failures: the outermost message, and below it all that caused it. -/

set_option autoImplicit false

namespace GlslMaterial.CommandLine

/-- A message whose further lines are indented like its first. -/
def indentedMessage (first indent message : String) : String :=
  first ++ ("\n" ++ indent).intercalate ((Text.lines message.toList).map String.ofList)

/-- A single cause is indented, several are numbered from 0. -/
def causeLines : List String → List String
  | [only] => [indentedMessage "    " "    " only]
  | causes => causes.zipIdx.map fun (cause, i) =>
    let digits := toString i
    let gap := String.ofList (List.replicate (5 - digits.length) ' ')
    indentedMessage s!"{gap}{digits}: " "       " cause

def report (failure : Failure) : String :=
  match failure.messages with
  | [] => "Error: \n"
  | [only] => s!"Error: {only}\n"
  | outermost :: causes =>
    Text.block ([s!"Error: {outermost}", "", "Caused by:"] ++ causeLines causes ++ [""])

end GlslMaterial.CommandLine
