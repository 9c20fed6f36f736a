import GlslMaterial.Proofs.Emission.Drawing
import GlslMaterial.Proofs.Generation.Rehearsal
import GlslMaterial.Proofs.Generation.Schedule

/-!
Textures read their own files. Every channel that the keys of a texture show has a sampler that no
other channel and no other texture has, and the code that is written for the texture reads that one.
-/

set_option autoImplicit false

namespace GlslMaterial

open GlslMaterial.Action (ok_of_bind ok_of_ofExcept material_of_ok Keeps)
open Emission (Given Helper emit emitTexture animatedTexture keyChannels blendCode helperText
  helperText_of_last mem_events_bind ensureFunction_ok)

namespace Texture

/-- A function that samples by channel: tests in order, and what is read where none succeeds. -/
structure Dispatch where
  tests : List (Nat × String)
  last : String

namespace Dispatch

/-- The sampler that is read for a channel. -/
def read (d : Dispatch) (channel : Nat) : String :=
  ((d.tests.find? (·.1 == channel)).map Prod.snd).getD d.last

def text (d : Dispatch) (name : String) : String :=
  Text.block ([s!"vec4 {name}(in int channel, in vec2 uv) \x7b"] ++
    d.tests.map (fun test => s!"    if (channel == {test.1}) return texture({test.2}, uv);") ++
    [s!"    return texture({d.last}, uv);", "\x7d"])

theorem helperText_text (d : Dispatch) (name : String) :
    helperText (d.text name) = d.text name ++ "\n" := by
  have lines : d.text name = Text.block (_ ++ ["\x7d"]) :=
    congrArg Text.block (List.append_cons _ _ ["\x7d"])
  exact helperText_of_last (lines ▸ Text.toList_block_append _ "\x7d") rfl (by decide)

end Dispatch

theorem exists_dispatch {samplers : List (Nat × String)} (some : samplers ≠ []) (name : String) :
    ∃ d : Dispatch, sampleFunction name samplers = d.text name ∧
      ∀ channel sampler, samplers.find? (·.1 == channel) = .some (channel, sampler) →
        d.read channel = sampler := by
  obtain ⟨tests, last, rfl⟩ := samplers.eq_nil_or_concat.resolve_left some
  refine ⟨⟨tests, last.2⟩, by simp [sampleFunction, Dispatch.text], fun channel sampler found => ?_⟩
  rw [List.concat_eq_append, List.find?_append] at found
  unfold Dispatch.read
  cases early : tests.find? (·.1 == channel) with
  | some test =>
    rw [early, Option.some_or, Option.some.injEq] at found
    rw [found]
    rfl
  | none =>
    rw [early, Option.none_or] at found
    rw [← List.mem_singleton.1 (List.mem_of_find?_eq_some found)]
    rfl

/-- The samplers of some channels, from a slot on. -/
def samplersFrom (first : Nat) (channels : List Nat) : List (Nat × String) :=
  (channels.zipIdx first).map (Prod.map id textureName)

theorem find?_samplersFrom {channels : List Nat} {channel : Nat} (member : channel ∈ channels)
    (first : Nat) : (samplersFrom first channels).find? (·.1 == channel) =
      some (channel, textureName (first + channels.idxOf channel)) := by
  induction channels generalizing first with
  | nil => cases member
  | cons c channels ih =>
    by_cases same : c = channel
    · simp [samplersFrom, same]
    · have later := ih ((List.mem_cons.1 member).resolve_left (Ne.symm same)) (first + 1)
      rw [List.idxOf_cons_ne _ same, ← Nat.succ_add_eq_add_succ, ← later]
      exact List.find?_cons_of_neg (by simpa using same)

theorem mem_activeChannels {t : Texture} {key : ChannelKey} (member : key ∈ t.keys) :
    key.channel ∈ t.activeChannels := by
  unfold activeChannels
  split
  · rename_i none
    simp [none] at member
  · exact List.mem_eraseDups.2 ((sortBy_perm _ _).mem_iff.2 (List.mem_map_of_mem member))

theorem exists_activeChannels_eq {t : Texture} (few : t.keys.length < 2) :
    ∃ channel, t.activeChannels = [channel] := by
  obtain ⟨files, keys⟩ := t
  cases keys with
  | nil => exact ⟨0, rfl⟩
  | cons key keys =>
    obtain rfl : keys = [] :=
      List.length_eq_zero_iff.1 (Nat.lt_one_iff.1 (Nat.lt_of_succ_lt_succ few))
    exact ⟨key.channel, by simp [activeChannels, sortBy, insertBy, List.eraseDups_cons]⟩

theorem channel_lt_of_keyOf {c : Construct} {files : Nat} {key : ChannelKey}
    (made : keyOf c files = .ok key) : key.channel < files := by
  have bound {channel : Nat} (given : channelOf c files = .ok channel) : channel < files := by
    unfold channelOf at given
    dsimp only at given
    split at given
    · split at given
      · rename_i small
        exact Except.ok.inj given ▸ small
      · cases given
    · cases given
  unfold keyOf at made
  split at made
  all_goals
    first
    | cases made
    | obtain ⟨channel, given, made⟩ := eq_ok_of_bind made
      obtain rfl := Except.ok.inj made
      exact bound given

/-- The keys of a texture are those of its keyframes, sorted. -/
theorem exists_keys {t : Texture} {c : Construct} (made : ofConstruct c = .ok t) :
    ∃ keys, (c.childrenOfKind .keyframe).mapM (keyOf · t.files.length) = .ok keys ∧
      t.keys = sortKeys keys ∧ t.files ≠ [] := by
  unfold ofConstruct at made
  obtain ⟨files, -, made⟩ := eq_ok_of_bind made
  split at made
  · obtain ⟨_, impossible, -⟩ := eq_ok_of_bind made
    cases impossible
  rename_i filled
  obtain ⟨keys, read, made⟩ := eq_ok_of_bind made
  obtain rfl := Except.ok.inj made
  exact ⟨keys, read, rfl, by simpa using filled⟩

/-- The files that are shown are there. -/
theorem lt_of_mem_activeChannels {t : Texture} {c : Construct} (made : ofConstruct c = .ok t)
    {channel : Nat} (member : channel ∈ t.activeChannels) : channel < t.files.length := by
  obtain ⟨keys, read, sorted, filled⟩ := exists_keys made
  unfold activeChannels at member
  split at member
  · rw [List.mem_singleton.1 member]
    exact List.length_pos_iff.2 filled
  · obtain ⟨key, listed, rfl⟩ :=
      List.mem_map.1 ((sortBy_perm _ _).mem_iff.1 (List.mem_eraseDups.1 member))
    rw [sorted] at listed
    obtain ⟨d, -, given⟩ := exists_of_mem_mapM read ((sortBy_perm _ keys).mem_iff.1 listed)
    exact channel_lt_of_keyOf given

end Texture

namespace Material

variable {m after : Material} {n : NodeId} {stage : Stage} {name : String}

theorem Formed.exists_binding (formed : m.Formed) {slot : Nat} (used : slot < m.samplers) :
    ∃ b ∈ m.inputs, b.key.isTexture = true ∧ b.sampler = some slot ∧ b.name = textureName slot := by
  have listed : (some slot, textureName slot) ∈ m.textures.map fun b => (b.sampler, b.name) := by
    rw [formed.slots]
    exact List.mem_map_of_mem (List.mem_range.2 used)
  obtain ⟨b, member, same⟩ := List.mem_map.1 listed
  obtain ⟨inside, texture⟩ := List.mem_filter.1 member
  exact ⟨b, inside, texture, congrArg Prod.fst same, congrArg Prod.snd same⟩

theorem Formed.samplers_le (formed : m.Formed) (events : List Event) :
    m.samplers ≤ (m.replay events).samplers := by
  have count {m : Material} (formed : m.Formed) :
      m.samplers = (m.inputs.map Binding.entry).countP fun entry => entry.key.isTexture := by
    have lengths := congrArg List.length formed.slots
    rw [List.length_map, List.length_map, List.length_range, textures] at lengths
    rw [List.countP_map, List.countP_eq_length_filter, ← lengths]
    rfl
  rw [count formed, count (formed.replay events)]
  exact (m.entries_replay events).1.sublist.countP_le

/-- Nobody asks for the helper. -/
def Unasked (name : String) (event : Event) : Prop :=
  ∀ stage body, event ≠ .require stage name body

theorem lenient_unasked (name : String) (base : Material) :
    Lenient (fun _ _ => Unasked name) base := by
  rintro _ _ quiet _ _ rfl
  cases quiet

theorem hasFunction_of_heeds {α : Type} {action : Action α} {value : α} {good : α → Prop}
    (heeds : Heeds (fun _ _ => Unasked name) m action good) (ended : action m = .ok value after) :
    after.hasFunction stage name = m.hasFunction stage name := by
  rw [material_of_ok ended, Bool.eq_iff_iff, hasFunction_replay_iff]
  refine or_iff_left fun requested => ?_
  obtain ⟨body, asked⟩ := requested
  exact heeds.of_mem asked stage body rfl

/-- Whether a name begins as those of the helpers of textures do. -/
def isSampling (name : String) : Bool :=
  [['S', 'a'], ['T', 'e']].contains (name.toList.take 2)

/-- The number in a name. -/
def digitsOf (name : String) : List Char :=
  name.toList.filter Char.isDigit

theorem digitsOf_numbered {stem : String} (plain : digitsOf stem = []) (n : Nat) :
    digitsOf s!"{stem}{n}" = Decimal.digitText n := by
  have digits : (Decimal.digitText n).filter Char.isDigit = Decimal.digitText n :=
    List.filter_eq_self.2 fun _ => Decimal.isDigit_of_mem_digitText
  have text : s!"{stem}{n}".toList = stem.toList ++ Decimal.digitText n := by
    rw [← Decimal.toList_toString]
    exact String.toList_append
  rw [digitsOf, text, List.filter_append, digits]
  exact congrArg (· ++ _) plain

theorem digitsOf_helper {given : Given} {config : Config} {body : String}
    (helper : Helper given n config name body) (sampling : isSampling name = true) :
    digitsOf name = Decimal.digitText n := by
  have none_of {helpers : List (String × String)} {helper : String × String}
      (plain : ∀ helper ∈ helpers, isSampling helper.1 = false) (member : helper ∈ helpers)
      (sampling : isSampling helper.1 = true) : digitsOf helper.1 = Decimal.digitText n := by
    simp [plain helper member] at sampling
  cases helper with
  | times | sample | channels => exact digitsOf_numbered (by decide) n
  | shape raster =>
    cases topology : raster.topology <;> simp [isSampling, topology, Topology.label] at sampling
  | search raster member =>
    refine none_of ?_ member sampling
    unfold Emission.rasterFunction
    split <;> simp [isSampling]
  | solid raymarch member =>
    obtain ⟨p, -, given⟩ := List.mem_filterMap.1 member
    unfold Primitive.distance? at given
    split at given <;> cases given <;> simp [isSampling] at sampling
  | transform transform member =>
    refine none_of ?_ member sampling
    unfold Transform.functions
    split
    · simp [isSampling]
    · simp [isSampling]
    · unfold Transform.animatedFunctions
      dsimp only
      split <;> simp [isSampling]
  | noise config known member =>
    refine none_of ?_ member sampling
    unfold Noise.functions at known
    split at known <;> cases known <;> simp [isSampling]
  | _ => simp [isSampling, Emission.arrayName] at sampling

/-- Nodes ask for no helper of another texture. -/
theorem heeds_emit_other {base : Material} {other : NodeId} (apart : n ≠ other) (config : Config)
    (sampling : isSampling name = true) (own : digitsOf name = Decimal.digitText other) :
    Heeds (fun _ _ => Unasked name) base (emit n config) fun _ => True := by
  refine Emission.heeds_emit (lenient_unasked name base)
    ⟨fun _ _ asked body helper stage given same => ?_, fun _ _ _ _ _ => nofun⟩
  obtain rfl : asked = name := (Event.require.inj same).2.1
  refine apart (repr_injective (String.toList_inj.1 ?_))
  simpa [Decimal.digitText] using (digitsOf_helper helper sampling).symm.trans own

/-- The name of the sampler for a channel, where the slots of a texture begin with `first`. -/
def samplerOf (first : Nat) (texture : Texture) (channel : Nat) : String :=
  textureName (first + texture.activeChannels.idxOf channel)

/-- A table of channels. -/
def channelTable (n : NodeId) (channels : List Nat) : String :=
  let listed := ", ".intercalate (channels.map toString)
  s!"const int TextureKeyChannels{n}[{channels.length}] = int[{channels.length}]({listed});"

example : channelTable 2 [0, 2, 2] = "const int TextureKeyChannels2[3] = int[3](0, 2, 2);" := by
  decide +kernel

/-- The lines that choose two places in the table by the time, and the share of the second. -/
def placeLines (n : NodeId) (last : Nat) (time : String) : List String :=
  let times := s!"TextureKeyTimes{n}"
  [s!"float textureTime{n} = {time};",
   s!"int textureIndex{n} = 0;",
   s!"for (int i = 0; i < {last}; i++) \x7b",
   s!"    if (textureTime{n} >= {times}[i + 1]) textureIndex{n} = i + 1;",
   "\x7d",
   s!"int textureNext{n} = min(textureIndex{n} + 1, {last});",
   s!"float textureBlend{n} = textureNext{n} == textureIndex{n} ? 0.0 : " ++
     s!"clamp((textureTime{n} - {times}[textureIndex{n}]) / " ++
     s!"({times}[textureNext{n}] - {times}[textureIndex{n}]), 0.0, 1.0);"]

/-- The line that samples the channels at the two places. -/
def sampleLine (n : NodeId) (uv : String) : String :=
  let channels := s!"TextureKeyChannels{n}"
  s!"vec4 textureColor{n} = mix(SampleChannel{n}({channels}[textureIndex{n}], {uv}), " ++
    s!"SampleChannel{n}({channels}[textureNext{n}], {uv}), textureBlend{n});"

/-- The events write code that reads a texture. Where there are keys to choose from, the code
samples two places of a table that has the channels of the keys, through a function that reads for
each of them its own sampler. Else it reads that of the only channel. -/
def Sampled (n : NodeId) (texture : Texture) (first : Nat) (events : List Event) : Prop :=
  ∃ stage uv,
    (texture.keys.length < 2 → ∀ channel ∈ texture.activeChannels, .write stage (.mainBody stage)
      s!"vec4 textureColor{n} = texture({samplerOf first texture channel}, {uv});" ∈ events) ∧
    (2 ≤ texture.keys.length → ∃ time, ∃ d : Texture.Dispatch,
      .write stage .functions (d.text s!"SampleChannel{n}" ++ "\n") ∈ events ∧
      .write stage .functions (channelTable n (texture.keys.map ChannelKey.channel) ++ "\n") ∈
        events ∧
      .write stage (.mainBody stage) (Text.block
        (placeLines n (texture.keys.length - 1) time ++ [sampleLine n uv])) ∈ events ∧
      ∀ key ∈ texture.keys, d.read key.channel = samplerOf first texture key.channel)

theorem keyChannels_eq (n : NodeId) (texture : Texture) :
    keyChannels n texture = channelTable n (texture.keys.map ChannelKey.channel) := by
  have texts : texture.keys.map (fun key => toString key.channel) =
      (texture.keys.map ChannelKey.channel).map toString := List.map_map.symm
  unfold keyChannels channelTable Glsl.constantArray Glsl.call
  rw [texts, List.length_map]
  generalize ", ".intercalate _ = listed
  simp only [← String.toList_inj, String.toList_append, toString, List.append_assoc]
  rfl

theorem blendCode_eq (n : NodeId) (last : Nat) (time uv : String) :
    blendCode n last time uv = Text.block (placeLines n last time ++ [sampleLine n uv]) :=
  rfl

theorem Sampled.mono {texture : Texture} {first : Nat} {events more : List Event}
    (sampled : Sampled n texture first events) (subset : events ⊆ more) :
    Sampled n texture first more := by
  obtain ⟨stage, uv, direct, animated⟩ := sampled
  refine ⟨stage, uv, fun few channel member => subset (direct few channel member), fun many => ?_⟩
  obtain ⟨time, d, sample, list, blend, reads⟩ := animated many
  exact ⟨time, d, subset sample, subset list, subset blend, reads⟩

theorem addInput_texture (m : Material) :
    m.addInput (.uniform .renderable) (.typed .texture .sampler2D) true =
      .ok ((textureName m.samplers, .uniform .renderable),
        (m.pushTexture (.uniform .renderable) (.typed .texture .sampler2D)).2) := by
  have resolved : (Trait.typed .texture .sampler2D).resolved =
      .ok (.typed .texture .sampler2D) := rfl
  have kept : inputRate (.uniform .renderable) (.typed .texture .sampler2D) =
      .ok (.uniform .renderable) := rfl
  have new : (m.inputsAt (.uniform .renderable)).find? (fun _ => false) = none := by simp
  simp only [addInput, resolved, kept, bind, Except.bind, Bool.not_true, Bool.false_and, new]
  rfl

theorem channelSamplers_ok {channels : List Nat} {samplers : List (Nat × String)}
    (ended : (channels.mapM fun channel => do
      let (sampler, _) ← inputFor (.uniform .renderable) (.typed .texture .sampler2D) true
      return (channel, sampler)) m = .ok samplers after) :
    samplers = Texture.samplersFrom m.samplers channels ∧
      after.samplers = m.samplers + channels.length ∧ after.functions = m.functions := by
  induction channels generalizing m samplers with
  | nil =>
    cases ended
    exact ⟨rfl, rfl, rfl⟩
  | cons channel channels ih =>
    rw [List.mapM_cons] at ended
    obtain ⟨first, middle, begun, ended, -⟩ := ok_of_bind ended
    obtain ⟨rest, last, later, ended, -⟩ := ok_of_bind ended
    cases ended
    obtain ⟨given, next, asked, begun, -⟩ := ok_of_bind begun
    cases begun
    cases (inputFor_yields m.addInput_texture).result.symm.trans asked
    have grown : m.apply (.input (.uniform .renderable) (.typed .texture .sampler2D) true) =
        (m.pushTexture (.uniform .renderable) (.typed .texture .sampler2D)).2 := by
      rw [apply, withInput, addInput_texture]
    obtain ⟨rfl, total, kept⟩ := ih later
    rw [replay_cons, replay_nil, grown] at total kept ⊢
    refine ⟨rfl, total.trans ?_, kept⟩
    exact (Nat.succ_add_eq_add_succ m.samplers channels.length)

theorem heeds_valueOrInput {law : Law} {base : Material} (lenient : Lenient law base) (id : TraitId)
    (rate : Rate) (type : DataType) :
    Heeds law base (valueOrInput n id rate type) fun _ => True :=
  Keeps.bind ((heeding lenient).symbolOrInput n _ rate) fun _ _ => heeds_ofExcept _

theorem write_of_ensureFunction {body : String}
    (ended : ensureFunction stage name body m = .ok () after)
    (new : m.hasFunction stage name = false) :
    .write stage .functions (helperText body) ∈ (ensureFunction stage name body).events m := by
  simp [ensureFunction_ok ended, new]

theorem writes_of_animatedTexture {texture : Texture} {samplers : List (Nat × String)}
    {uv code : String} (fresh : m.hasFunction stage s!"SampleChannel{n}" = false)
    (new : m.hasFunction stage s!"TextureKeyChannels{n}" = false)
    (ended : animatedTexture n stage texture samplers uv m = .ok code after) :
    .write stage .functions (helperText (Texture.sampleFunction s!"SampleChannel{n}" samplers)) ∈
        (animatedTexture n stage texture samplers uv).events m ∧
      .write stage .functions (channelTable n (texture.keys.map ChannelKey.channel) ++ "\n") ∈
        (animatedTexture n stage texture samplers uv).events m ∧
      ∃ time, code =
        Text.block (placeLines n (texture.keys.length - 1) time ++ [sampleLine n uv]) := by
  obtain ⟨_, first, sampling, ended, -⟩ := ok_of_bind ended
  obtain ⟨_, second, timing, ended, -⟩ := ok_of_bind ended
  obtain ⟨_, third, listing, ended, -⟩ := ok_of_bind ended
  obtain ⟨time, _, -, ended, -⟩ := ok_of_bind ended
  have kept {name body : String} {m after : Material} (apart : name ≠ s!"TextureKeyChannels{n}")
      (ended : ensureFunction stage name body m = .ok () after) :
      after.hasFunction stage s!"TextureKeyChannels{n}" =
        m.hasFunction stage s!"TextureKeyChannels{n}" :=
    hasFunction_of_heeds (heeds_ensureFunction (lenient_unasked _ m) fun _ _ _ same =>
      apart (Event.require.inj same).2.1) ended
  have listed := (kept (by simp) timing).trans ((kept (by simp) sampling).trans new)
  have table : helperText (keyChannels n texture) =
      channelTable n (texture.keys.map ChannelKey.channel) ++ "\n" := by
    rw [keyChannels_eq]
    exact helperText_of_last String.toList_append rfl (by decide)
  refine ⟨?_, ?_, time, (EStateM.Result.ok.inj ended).1.symm.trans (blendCode_eq ..)⟩
  · exact (Action.events_isPrefix_bind _ _ m).subset (write_of_ensureFunction sampling fresh)
  · rw [← table]
    exact mem_events_bind sampling (mem_events_bind timing
      ((Action.events_isPrefix_bind _ _ _).subset (write_of_ensureFunction listing listed)))

/-- A texture takes the next slots for its channels, and its code reads them. -/
theorem sampled_emitTexture {texture : Texture} (formed : m.Formed)
    (fresh : ∀ stage, m.hasFunction stage s!"SampleChannel{n}" = false)
    (new : ∀ stage, m.hasFunction stage s!"TextureKeyChannels{n}" = false)
    (ended : emitTexture n texture m = .ok () after) :
    m.samplers + texture.activeChannels.length ≤ after.samplers ∧
      Sampled n texture m.samplers ((emitTexture n texture).events m) := by
  obtain ⟨_, _, ⟨⟩, ended, -⟩ := ok_of_bind ended
  obtain ⟨stage, _, staged, ended, -⟩ := ok_of_bind ended
  obtain ⟨-, rfl⟩ := ok_of_ofExcept staged
  obtain ⟨samplers, middle, allotted, ended, -⟩ := ok_of_bind ended
  obtain ⟨rfl, total, kept⟩ := channelSamplers_ok allotted
  constructor
  · rw [← total, material_of_ok ended]
    rw [material_of_ok allotted]
    exact (formed.replay _).samplers_le _
  obtain ⟨uv, placed, looked, ended, -⟩ := ok_of_bind ended
  have still {name : String} (new : m.hasFunction stage name = false) :
      placed.hasFunction stage name = false := by
    rw [hasFunction_of_heeds (heeds_valueOrInput (lenient_unasked name middle) .sampler _ .vec2)
      looked, hasFunction, kept]
    exact new
  refine ⟨stage, uv, fun few channel member => ?_, fun many => ?_⟩
  · dsimp only at ended
    rw [if_pos few] at ended
    obtain ⟨code, _, chosen, ended, -⟩ := ok_of_bind ended
    obtain ⟨_, _, written, -, -⟩ := ok_of_bind ended
    refine mem_events_bind staged (mem_events_bind allotted (mem_events_bind looked ?_))
    dsimp only
    rw [if_pos few]
    refine mem_events_bind chosen ((Action.events_isPrefix_bind _ _ _).subset ?_)
    obtain ⟨only, same⟩ := texture.exists_activeChannels_eq few
    obtain rfl : channel = only := by simpa [same] using member
    rw [events_commit written, ← (EStateM.Result.ok.inj chosen).1]
    simp [Texture.samplersFrom, samplerOf, same]
  · dsimp only at ended
    rw [if_neg (Nat.not_lt.2 many)] at ended
    obtain ⟨code, _, chosen, ended, -⟩ := ok_of_bind ended
    obtain ⟨_, _, written, -, -⟩ := ok_of_bind ended
    obtain ⟨sample, list, time, rfl⟩ :=
      writes_of_animatedTexture (still (fresh stage)) (still (new stage)) chosen
    have filled : Texture.samplersFrom m.samplers texture.activeChannels ≠ [] := by
      obtain ⟨key, member⟩ :=
        List.exists_mem_of_length_pos (Nat.lt_of_lt_of_le Nat.zero_lt_two many)
      simpa [Texture.samplersFrom] using List.ne_nil_of_mem (Texture.mem_activeChannels member)
    obtain ⟨d, text, reads⟩ := Texture.exists_dispatch filled s!"SampleChannel{n}"
    rw [text, d.helperText_text] at sample
    refine ⟨time, d, ?_, ?_, ?_, fun key member => reads _ _
      (Texture.find?_samplersFrom (Texture.mem_activeChannels member) _)⟩
    all_goals
      refine mem_events_bind staged (mem_events_bind allotted (mem_events_bind looked ?_))
      dsimp only
      rw [if_neg (Nat.not_lt.2 many)]
    · exact (Action.events_isPrefix_bind _ _ _).subset sample
    · exact (Action.events_isPrefix_bind _ _ _).subset list
    · refine mem_events_bind chosen ((Action.events_isPrefix_bind _ _ _).subset ?_)
      rw [events_commit written]
      exact List.mem_cons_of_mem _ List.mem_cons_self

def texture? (m : Material) (n : NodeId) : Option Texture :=
  match (m.node n).config with
  | .texture texture => some texture
  | _ => none

theorem texture?_eq_some_iff {texture : Texture} :
    m.texture? n = some texture ↔ (m.node n).config = .texture texture := by
  unfold texture?
  split <;> simp_all

/-- The channels of files that a node shows. -/
def channelsOf (m : Material) (n : NodeId) : List Nat :=
  ((m.texture? n).map Texture.activeChannels).getD []

/-- The textures among some nodes have slots from `low` to `high` that begin with `first`, no two of
them the same, and are read through them. -/
structure Allotted (base : Material) (nodes : List NodeId) (first : NodeId → Nat) (low high : Nat)
    (events : List Event) : Prop where
  inside : ∀ n ∈ nodes, low ≤ first n ∧ first n + (base.channelsOf n).length ≤ high
  apart : ∀ n ∈ nodes, ∀ k ∈ nodes, n = k ∨ first n + (base.channelsOf n).length ≤ first k ∨
    first k + (base.channelsOf k).length ≤ first n
  sampled : ∀ n ∈ nodes, ∀ texture, (base.node n).config = .texture texture →
    Sampled n texture (first n) events

variable {base : Material} {turns : List Turn}

/-- A node that is written before others has the slots below theirs. -/
theorem Allotted.cons {nodes : List NodeId} {first : NodeId → Nat} {low middle high : Nat}
    {early late : List Event} (allotted : Allotted base nodes first middle high late)
    (absent : n ∉ nodes) (below : low + (base.channelsOf n).length ≤ middle) (above : middle ≤ high)
    (sampled : ∀ texture, (base.node n).config = .texture texture → Sampled n texture low early) :
    Allotted base (n :: nodes) (Function.update first n low) low high (early ++ late) := by
  have same {k : NodeId} (member : k ∈ nodes) : Function.update first n low k = first k :=
    Function.update_of_ne (ne_of_mem_of_not_mem member absent) _ _
  have own := Function.update_self n low first
  have inside := allotted.inside
  constructor
  · refine List.forall_mem_cons.2 ⟨by omega, fun k member => ?_⟩
    have := inside k member
    rw [same member]
    omega
  · refine List.forall_mem_cons.2 ⟨List.forall_mem_cons.2 ⟨.inl rfl, fun k member => ?_⟩,
      fun k member => List.forall_mem_cons.2 ⟨?_, fun l listed => ?_⟩⟩
    · have := inside k member
      rw [own, same member]
      omega
    · have := inside k member
      rw [own, same member]
      omega
    · rw [same member, same listed]
      exact allotted.apart k member l listed
  · refine List.forall_mem_cons.2 ⟨fun texture is => ?_, fun k member texture is => ?_⟩
    · rw [own]
      exact (sampled texture is).mono (List.subset_append_left _ _)
    · rw [same member]
      exact (allotted.sampled k member texture is).mono (List.subset_append_right _ _)

/-- Along the turns of a walk, textures take their slots one after the other. -/
theorem exists_allotted (once : (left turns).Nodup) (formed : m.Formed)
    (new : ∀ n ∈ left turns, ∀ stage name, isSampling name = true →
      digitsOf name = Decimal.digitText n → m.hasFunction stage name = false)
    (ended : turns.forM (Turn.action base) m = .ok () after) :
    ∃ first, Allotted base (left turns) first m.samplers after.samplers
      ((turns.forM (Turn.action base)).events m) := by
  induction turns generalizing m with
  | nil => exact ⟨fun _ => 0, ⟨nofun, nofun, nofun⟩⟩
  | cons turn turns ih =>
    obtain ⟨middle, begun, rest, happened⟩ := Action.ok_of_forM_cons ended
    have tidy : middle.Formed := material_of_ok begun ▸ formed.replay _
    rw [happened]
    cases turn with
    | enter k =>
      cases begun
      obtain ⟨first, inside, apart, sampled⟩ := ih once tidy new rest
      exact ⟨first, inside, apart, fun n member texture is =>
        (sampled n member texture is).mono (List.subset_append_right _ _)⟩
    | leave k =>
      obtain ⟨absent, once⟩ := List.nodup_cons.1 once
      obtain ⟨first, allotted⟩ := ih once tidy (fun n member stage name begins own => by
        have other : k ≠ n := fun same => absent (same ▸ member)
        rw [hasFunction_of_heeds (heeds_emit_other other _ begins own) begun]
        exact new n (List.mem_cons_of_mem k member) stage name begins own) rest
      have unknown (stem : String) (begins : isSampling s!"{stem}{k}" = true)
          (plain : digitsOf stem = []) (stage : Stage) :
          m.hasFunction stage s!"{stem}{k}" = false :=
        new k List.mem_cons_self stage _ begins (digitsOf_numbered plain k)
      have above : middle.samplers ≤ after.samplers := by
        rw [material_of_ok rest]
        exact tidy.samplers_le _
      have step (texture : Texture) (is : (base.node k).config = .texture texture) :
          m.samplers + texture.activeChannels.length ≤ middle.samplers ∧
            Sampled k texture m.samplers ((Turn.action base (.leave k)).events m) := by
        have turn : Turn.action base (.leave k) = emitTexture k texture := by
          rw [Turn.action, is]
          rfl
        rw [turn] at begun ⊢
        exact sampled_emitTexture formed
          (unknown "SampleChannel" (by simp [isSampling]) (by decide))
          (unknown "TextureKeyChannels" (by simp [isSampling]) (by decide)) begun
      refine ⟨_, allotted.cons absent ?_ above fun texture is => (step texture is).2⟩
      unfold channelsOf
      cases given : base.texture? k with
      | some texture => exact (step texture (texture?_eq_some_iff.1 given)).1
      | none =>
        rw [material_of_ok begun]
        exact formed.samplers_le _

/-- Where a material is generated, the textures that are written have samplers for the files that
they show, which are there, and no two of them share one. The code reads for each key the sampler of
its file. -/
theorem textures_read_their_files {c : Construct} (built : ofConstruct c = .ok m)
    (ended : generate m = .ok () after) :
    ∃ first : NodeId → Nat, (∀ n texture, m.IsLive n → (m.node n).config = .texture texture →
      (∀ channel ∈ texture.activeChannels, channel < texture.files.length ∧
        ∃ b ∈ after.inputs, b.key.isTexture = true ∧
          b.sampler = some (first n + texture.activeChannels.idxOf channel) ∧
          b.name = samplerOf (first n) texture channel) ∧
      Sampled n texture (first n) (generate.events m)) ∧
    ∀ n k one two, m.IsLive n → m.IsLive k → (m.node n).config = .texture one →
      (m.node k).config = .texture two →
      ∀ channel ∈ one.activeChannels, ∀ other ∈ two.activeChannels,
        samplerOf (first n) one channel = samplerOf (first k) two other →
        n = k ∧ channel = other := by
  have fresh := fresh_ofConstruct built
  obtain ⟨turns, toured, once, -, whole⟩ := exists_schedule built
  have live (n : NodeId) : n ∈ left turns ↔ m.IsLive n :=
    toured.perm.mem_iff.symm.trans (toured.mem_entered_root_iff built)
  rw [Action.result, whole] at ended
  rw [Action.events, whole]
  obtain ⟨_, walked, taken, completed, -⟩ := ok_of_bind ended
  obtain ⟨_, begun, ⟨⟩, taken, -⟩ := ok_of_bind taken
  have formed : (m.apply .begin).Formed := fresh.formed.apply .begin
  obtain ⟨first, inside, apart, sampled⟩ := exists_allotted (toured.perm.nodup_iff.1 once) formed
    (fun _ _ _ _ _ _ => by simp [hasFunction, fresh.functions, apply]) taken
  have complete : after.Formed :=
    material_of_ok completed ▸ material_of_ok taken ▸ (formed.replay _).replay _
  have grown : walked.samplers ≤ after.samplers := by
    rw [material_of_ok completed, material_of_ok taken]
    exact (formed.replay _).samplers_le _
  have slots {n : NodeId} (known : m.IsLive n) {texture : Texture}
      (is : (m.node n).config = .texture texture) :
      m.channelsOf n = texture.activeChannels ∧
        first n + texture.activeChannels.length ≤ walked.samplers := by
    have given : m.channelsOf n = texture.activeChannels := by
      rw [channelsOf, texture?_eq_some_iff.2 is]
      rfl
    exact ⟨given, given ▸ (inside n ((live n).2 known)).2⟩
  refine ⟨first, fun n texture known is => ⟨fun channel member => ⟨?_, ?_⟩, ?_⟩, ?_⟩
  · rcases configured_ofConstruct built n with root | ⟨d, -, made⟩
    · rw [is] at root
      cases root
    · rw [is] at made
      exact Texture.lt_of_mem_activeChannels (Config.of_ofConstruct made).2 member
  · have slot := List.idxOf_lt_length_iff.2 member
    have bound := (slots known is).2
    exact complete.exists_binding (by omega)
  · refine (sampled n ((live n).2 known) texture is).mono fun event member => ?_
    exact (Action.events_isPrefix_bind (m.taking turns) _ m).subset (List.mem_append_right _ member)
  · intro n k one two known other is its channel member channel' listed same
    have sum := textureName_injective same
    have slot := List.idxOf_lt_length_iff.2 member
    have slot' := List.idxOf_lt_length_iff.2 listed
    rcases apart n ((live n).2 known) k ((live k).2 other) with rfl | separate
    · obtain rfl : one = two := Config.texture.inj (is.symm.trans its)
      rw [Nat.add_right_inj, List.idxOf_inj member] at sum
      exact ⟨rfl, sum⟩
    · rw [(slots known is).1, (slots other its).1] at separate
      omega

/-- A texture of one file, and one of three files, of which two are shown in turn. -/
def twoTextures : Construct :=
  let file (name : String) : Construct := ⟨.file, some name, [], [], []⟩
  let key (time channel : Int) : Construct := ⟨.keyframe, none,
    [⟨.time, none, some (.number (.int time))⟩, ⟨.count, none, some (.number (.int channel))⟩], [],
    []⟩
  ⟨.material, none, [], [], [⟨.texture, none, [], [], [file "a.png"]⟩, ⟨.texture, none, [], [],
    [file "b.png", file "c.png", file "d.png", key 1 2, key 0 0, key 2 2]⟩]⟩

theorem textures_read_their_files_of_keys :
    ∃ m after one two stage uv time, ∃ first : NodeId → Nat, ∃ d : Texture.Dispatch,
      ofConstruct twoTextures = .ok m ∧ generate m = .ok () after ∧
      (m.node 1).config = .texture one ∧ (m.node 2).config = .texture two ∧
      Sampled 1 one (first 1) (generate.events m) ∧
      .write stage .functions (d.text s!"SampleChannel{2}" ++ "\n") ∈ generate.events m ∧
      .write stage .functions (channelTable 2 [0, 2, 2] ++ "\n") ∈ generate.events m ∧
      .write stage (.mainBody stage) (Text.block (placeLines 2 2 time ++ [sampleLine 2 uv])) ∈
        generate.events m ∧
      d.read 0 = textureName (first 2) ∧ d.read 2 = textureName (first 2 + 1) ∧
      samplerOf (first 1) one 0 ∉ [d.read 0, d.read 2] := by
  have evaluated : (ofConstruct twoTextures).toOption.any (fun m => m.channelsOf 1 = [0] &&
      m.channelsOf 2 = [0, 2] &&
      (m.texture? 2).map (fun texture => texture.keys.map ChannelKey.channel) = some [0, 2, 2] &&
      m.rehearses ["SampleChannel2", "TextureKeyTimes2", "TextureKeyChannels2"] fun last =>
        (last.node 1).generated && (last.node 2).generated) = true := by
    decide +kernel
  obtain ⟨m, built, evaluated⟩ := exists_ok_of_any evaluated
  simp only [Bool.and_eq_true, decide_eq_true_eq] at evaluated
  obtain ⟨⟨⟨only, active⟩, keys⟩, rehearsed⟩ := evaluated
  obtain ⟨after, last, ended, outline, visited⟩ :=
    exists_ok_of_rehearses (fresh_ofConstruct built) rehearsed
  have live {n : NodeId} (visited : (last.node n).generated = true) : m.IsLive n := by
    refine (generated_iff_isLive built ended n).1 (Eq.trans ?_ visited)
    have same : (after.node n).outline = (last.node n).outline := by
      rw [← node_outline, outline, node_outline]
    exact (congrArg Node.generated same :)
  obtain ⟨one, is⟩ : ∃ one, m.texture? 1 = some one := by
    by_contra none
    simp [channelsOf, Option.eq_none_iff_forall_ne_some.2 (not_exists.1 none)] at only
  obtain ⟨two, its, channels⟩ := Option.map_eq_some_iff.1 keys
  have only : one.activeChannels = [0] := by simpa [channelsOf, is] using only
  have active : two.activeChannels = [0, 2] := by simpa [channelsOf, its] using active
  obtain ⟨visited, also⟩ := Bool.and_eq_true_iff.1 visited
  obtain ⟨first, reads, apart⟩ := textures_read_their_files built ended
  rw [texture?_eq_some_iff] at is its
  have size : two.keys.length = 3 := by simpa using congrArg List.length channels
  obtain ⟨stage, uv, -, animated⟩ := (reads 2 two (live also) its).2
  obtain ⟨time, d, sample, table, blend, chosen⟩ := animated (by omega)
  have shows {channel : Nat} (member : channel ∈ [0, 2, 2]) :
      d.read channel = samplerOf (first 2) two channel := by
    rw [← channels] at member
    obtain ⟨key, listed, rfl⟩ := List.mem_map.1 member
    exact chosen key listed
  rw [channels] at table
  rw [size] at blend
  have other (channel : Nat) (member : channel ∈ two.activeChannels) :
      samplerOf (first 1) one 0 ≠ samplerOf (first 2) two channel := fun same =>
    absurd (apart 1 2 one two (live visited) (live also) is its 0 (by simp [only]) channel member
      same).1 (by decide)
  refine ⟨m, after, one, two, stage, uv, time, first, d, built, ended, is, its,
    (reads 1 one (live visited) is).2, sample, table, blend, ?_, ?_, ?_⟩
  · simp [shows, samplerOf, active]
  · simp [shows, samplerOf, active]
  · simp [shows, other, active]

end Material

end GlslMaterial
