import GlslMaterial.Material.Action
import GlslMaterial.Text.Wildcard

/-!
Snippets: pixel code in the style of Shadertoy, which has an image function and uses some well-known
globals.
-/

set_option autoImplicit false

namespace GlslMaterial

namespace Snippet

/-- What a snippet has to contain. -/
def entryPattern : String :=
  "*void*mainImage*(*out*vec4*,*in*vec2*)*"

/-- The name of the pixel's place, which counts from the lower left corner. -/
def fragCoord : String :=
  "FRAGCOORD"

/-- A global of snippets: the trait that it is bound to, and its value around that input. -/
structure Global where
  name : String
  id : TraitId
  wrap : String → String

def globals : List Global :=
  [⟨"iTime", .time, fun input => input⟩,
   ⟨"iResolution", .resolution, fun input => s!"vec3({input}, 1.0)"⟩,
   ⟨"iChannel0", .texture, fun input => input⟩,
   ⟨"iView", .view, fun input => input⟩,
   ⟨"iMouse", .mousePosition, fun input => s!"vec4({input}, 0.0, 0.0)"⟩]

def isUsed (code : String) (g : Global) : Bool :=
  Text.hasKeyword g.name.toList code.toList

end Snippet

namespace Material

open GlslMaterial.Action (perform)
open Snippet

/-- Binds a trait to an input of the pixel stage and defines a name by it. -/
def bindInput (id : TraitId) (definition : String → String) : Action Unit := do
  let (input, _) ← inputFor (.stage .pixel) (.ofId id) false
  perform (.define .pixel (definition input))

/-- Writes a snippet and the call of its image function into a material. -/
def writeSnippet (code : String) : Action Unit := do
  bindInput .resolution fun input =>
    s!"{fragCoord} vec2(gl_FragCoord.x, {input}.y - gl_FragCoord.y)"
  (globals.filter (isUsed code)).forM fun g =>
    bindInput g.id fun input => s!"{g.name} {g.wrap input}"
  commit .pixel .functions (String.ofList (Text.trim code.toList))
  let (color, _) ← outputFor (.stage .pixel) (.typed .color .vec4) false
  perform (.wire (.stage .pixel) color)
  commit .pixel .texturize s!"mainImage({color}, {fragCoord});"

def ofSnippet (code : String) : Except Failure Material :=
  if Text.wildcardMatch entryPattern.toList code.toList then
    match writeSnippet code (ofRate (.stage .pixel)) with
    | .ok _ m => .ok m
    | .error failure _ => .error failure
  else .error (.misuse .noEntryPoint)

end Material

end GlslMaterial
