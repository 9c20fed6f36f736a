import GlslMaterial.Emission.Scene

/-! What a texture writes: a sample of one file, or a blend of two along the keys. -/

set_option autoImplicit false

namespace GlslMaterial.Emission

open GlslMaterial.Action (perform fail ofExcept)
open Material

def channelSamplers (texture : Texture) : Action (List (Nat × String)) :=
  texture.activeChannels.mapM fun channel => do
    let (sampler, _) ← inputFor (.uniform .renderable) (.typed .texture .sampler2D) true
    return (channel, sampler)

/-- The code that blends the two keys around the time. -/
def blendCode (n : NodeId) (last : Nat) (time uv : String) : String :=
  let times := s!"TextureKeyTimes{n}"
  let channels := s!"TextureKeyChannels{n}"
  Text.block
    [s!"float textureTime{n} = {time};",
     s!"int textureIndex{n} = 0;",
     s!"for (int i = 0; i < {last}; i++) \x7b",
     s!"    if (textureTime{n} >= {times}[i + 1]) textureIndex{n} = i + 1;",
     "\x7d",
     s!"int textureNext{n} = min(textureIndex{n} + 1, {last});",
     s!"float textureBlend{n} = textureNext{n} == textureIndex{n} ? 0.0 : " ++
       s!"clamp((textureTime{n} - {times}[textureIndex{n}]) / " ++
       s!"({times}[textureNext{n}] - {times}[textureIndex{n}]), 0.0, 1.0);",
     s!"vec4 textureColor{n} = mix(SampleChannel{n}({channels}[textureIndex{n}], {uv}), " ++
       s!"SampleChannel{n}({channels}[textureNext{n}], {uv}), textureBlend{n});"]

def keyTimes (n : NodeId) (texture : Texture) : String :=
  Glsl.constantArray "float" s!"TextureKeyTimes{n}"
    (texture.keys.map fun key => Glsl.float32 key.time)

def keyChannels (n : NodeId) (texture : Texture) : String :=
  Glsl.constantArray "int" s!"TextureKeyChannels{n}"
    (texture.keys.map fun key => toString key.channel)

/-- The code of a texture that changes over time. -/
def animatedTexture (n : NodeId) (stage : Stage) (texture : Texture)
    (samplers : List (Nat × String)) (uv : String) : Action String := do
  let sample := s!"SampleChannel{n}"
  ensureFunction stage sample (Texture.sampleFunction sample samplers)
  ensureFunction stage s!"TextureKeyTimes{n}" (keyTimes n texture)
  ensureFunction stage s!"TextureKeyChannels{n}" (keyChannels n texture)
  let time ← valueOrInput n .time (.stage stage) .float
  return blendCode n (texture.keys.length - 1) time uv

def emitTexture (n : NodeId) (texture : Texture) : Action Unit := do
  let stage ← ofExcept ((← read).stageOf n)
  let rate := Rate.stage stage
  let samplers ← channelSamplers texture
  let uv ← valueOrInput n .sampler rate .vec2
  let code ← if texture.keys.length < 2 then
      let sampler := (samplers.map Prod.snd).headD ""
      pure s!"vec4 textureColor{n} = texture({sampler}, {uv});"
    else animatedTexture n stage texture samplers uv
  commit stage (.mainBody stage) code
  expose n .color .vec4 s!"textureColor{n}" rate

end GlslMaterial.Emission
