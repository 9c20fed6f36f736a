import GlslMaterial.Decimal.Whole
import GlslMaterial.Descriptor.Vector
import GlslMaterial.Glsl.Literal
import GlslMaterial.Sorted
import GlslMaterial.Text.Lines

/-! Texture nodes: the files of a texture, and the times at which they are shown. -/

set_option autoImplicit false

namespace GlslMaterial

/-- A time at which one file is shown without any other. -/
structure ChannelKey where
  time : Float32
  channel : Nat
deriving DecidableEq, Inhabited

/-- The keys are sorted by time. -/
structure Texture where
  files : List String
  keys : List ChannelKey
deriving DecidableEq, Inhabited

namespace Texture

/-- The path of a texture file: its trait, or its name. -/
def pathOf (c : Construct) : Except Failure String :=
  if c.kind ≠ .file then .error (.badData (.notFile c.kind))
  else match (c.traitString? .file).or c.name with
    | some path => .ok path
    | none => .error (.badData .unnamedFile)

/-- The channel that a keyframe asks for. -/
def channelOf (c : Construct) (files : Nat) : Except Failure Nat :=
  let channel := (c.traitFloat? .count).getD 0
  match Decimal.natural? channel with
  | some n => if n < files then .ok n else .error (.misuse (.noChannel channel files))
  | none => .error (.misuse (.noChannel channel files))

def keyOf (c : Construct) (files : Nat) : Except Failure ChannelKey := do
  match c.traitString? .interpolator with
  | none | some "Linear" =>
    let channel ← channelOf c files
    return ⟨Decimal.single ((c.traitFloat? .time).getD 0), channel⟩
  | some other => throw (.unsupported (.crossFade other))

def sortKeys (keys : List ChannelKey) : List ChannelKey :=
  sortBy (fun key => orderKey key.time) keys

def ofConstruct (c : Construct) : Except Failure Texture := do
  let files ← (c.childrenOfKind .file).mapM fun child =>
    withContext (.loadingTexture child.displayName?) (pathOf child)
  if files.isEmpty then throw (.misuse .noFiles)
  let keys ← (c.childrenOfKind .keyframe).mapM (keyOf · files.length)
  return ⟨files, sortKeys keys⟩

/-- The channels that the keys show, in order; without keys, the first. -/
def activeChannels (t : Texture) : List Nat :=
  match t.keys with
  | [] => [0]
  | keys => (sortBy id (keys.map ChannelKey.channel)).eraseDups

/-- The function that samples a channel. The last channel is taken without a test. -/
def sampleFunction (name : String) (samplers : List (Nat × String)) : String :=
  let tests := samplers.dropLast.map fun (channel, sampler) =>
    s!"    if (channel == {channel}) return texture({sampler}, uv);"
  let last := match samplers.getLast? with
    | some (_, sampler) => s!"    return texture({sampler}, uv);"
    | none => "    return vec4(0.0);"
  Text.block
    ([s!"vec4 {name}(in int channel, in vec2 uv) \x7b"] ++ tests ++ [last, "\x7d"])

end Texture

end GlslMaterial
