import GlslMaterial.Proofs.Emission.Discipline
import GlslMaterial.Proofs.History.Keeps
import GlslMaterial.Proofs.History.Lookup

/-!
Whatever a node writes keeps to the law: a symbol is exposed after the code that declares it.
-/

set_option autoImplicit false

namespace GlslMaterial.Emission

open GlslMaterial.Action (Meets Keeps)
open Material
open Glsl (Declares Over isIdentifier isIdentifier_numbered)

section Keeps

variable {law : Law} {base : Material} {before middle after : List Event → Prop}

theorem keeps_publish {n : NodeId} {piece : Piece}
    (writes : Keeps law base before middle (commit piece.stage piece.marker piece.code) fun _ =>
      True)
    (shows : ∀ shown ∈ piece.shown, Keeps law base middle middle
      (Action.perform (.expose n (.typed shown.1 shown.2.type) shown.2)) fun _ => True) :
    Keeps law base before middle (publish n piece) fun _ => True := by
  have all (first : TraitId × Symbol) (rest : List (TraitId × Symbol))
      (each : ∀ shown ∈ first :: rest, Keeps law base middle middle
        (Action.perform (.expose n (.typed shown.1 shown.2.type) shown.2)) fun _ => True) :
      Keeps law base middle middle (showAll n first rest) fun _ => True := by
    induction rest generalizing first with
    | nil => exact each first List.mem_cons_self
    | cons next rest ih =>
      exact Keeps.bind (each first List.mem_cons_self) fun _ _ =>
        ih next fun shown member => each shown (List.mem_cons_of_mem first member)
  unfold publish
  cases listed : piece.shown with
  | nil => exact writes
  | cons first rest => exact Keeps.bind writes fun _ _ => all first rest (listed ▸ shows)

theorem keeps_walk
    (visits : ∀ n, Keeps law base before before (Action.perform (.visit n)) fun _ => True)
    (emits : ∀ n, Keeps law base before before (emit n (base.node n).config) fun _ => True)
    (fuel : Nat) (n : NodeId) : Keeps law base before before (walk emit fuel n) fun _ => True := by
  induction fuel generalizing n with
  | zero => exact Keeps.pure trivial
  | succ fuel ih =>
    refine Keeps.readThen fun past _ => ?_
    have own := emits n
    rw [← config_replay base past n] at own
    dsimp only
    split
    · exact Keeps.pure trivial
    · refine Keeps.bind (visits n) fun _ _ => ?_
      split
      · exact own
      · exact Keeps.bind (Keeps.forM fun child _ => ih child) fun _ _ => own

theorem keeps_generateNode
    (visits : ∀ n, Keeps law base before before (Action.perform (.visit n)) fun _ => True)
    (emits : ∀ n, Keeps law base before before (emit n (base.node n).config) fun _ => True)
    (n : NodeId) : Keeps law base before before (generateNode n) fun _ => True :=
  Keeps.readThen fun _ _ => keeps_walk visits emits _ n

end Keeps

theorem isInterface_mainBody (stage : Stage) : (Marker.mainBody stage).isInterface = false := by
  cases stage <;> rfl

theorem stage_ne_auto (stage : Stage) : Rate.stage stage ≠ .auto := by
  simp

variable {stage : Stage} {base : Material} {code : String} {n : NodeId}

theorem declares_line (type stem : String) (n : NodeId) {parts : List String} {part : String}
    (member : part ∈ parts) (words : (isIdentifier type && isIdentifier stem) = true)
    (begins : (type ++ s!" {stem}{n} = ").toList <+: part.toList) :
    Declares (Text.block parts) s!"{stem}{n}" := by
  obtain ⟨word, named⟩ := Bool.and_eq_true_iff.1 words
  refine .of_block member (.of_start type word (isIdentifier_numbered named n) ?_)
  simpa [String.append_assoc] using begins

/-- What the code for the ray of a pixel declares. -/
structure DeclaresRay (n : NodeId) (code : String) : Prop where
  ray : Declares code s!"cameraRay{n}"
  origin : Declares code s!"cameraOrigin{n}"

theorem declaresRay_flatRay (n : NodeId) (resolution : String) :
    DeclaresRay n (flatRay n resolution) where
  ray :=
    declares_line "vec3" "cameraRay" n (List.mem_of_getElem? (i := 1) rfl) (by decide) (by simp)
  origin :=
    declares_line "vec3" "cameraOrigin" n (List.mem_of_getElem? (i := 2) rfl) (by decide) (by simp)

theorem declaresRay_perspectiveRay (n : NodeId) (resolution view projection : String) :
    DeclaresRay n (perspectiveRay n resolution view projection) where
  ray :=
    declares_line "vec3" "cameraRay" n (List.mem_of_getElem? (i := 3) rfl) (by decide) (by simp)
  origin :=
    declares_line "vec3" "cameraOrigin" n (List.mem_of_getElem? (i := 4) rfl) (by decide) (by simp)

theorem declaresRay_panoramicRay (n : NodeId) (resolution view fieldOfView : String) :
    DeclaresRay n (panoramicRay n resolution view fieldOfView) where
  ray :=
    declares_line "vec3" "cameraRay" n (List.mem_of_getElem? (i := 5) rfl) (by decide) (by simp)
  origin :=
    declares_line "vec3" "cameraOrigin" n (List.mem_of_getElem? (i := 6) rfl) (by decide) (by simp)

theorem declares_rasterCode (n : NodeId) (clip resolution function extra : String)
    (arrays : List PrimitiveArray) :
    Declares (rasterCode n clip resolution function extra arrays) s!"raster{n}" :=
  declares_line "RasterizeResult" "raster" n
    (List.mem_append_left _ (List.mem_append_left _ (List.mem_of_getElem? (i := 2) rfl)))
    (by decide) (by simp)

theorem over_raster (n : NodeId) :
    Over s!"raster{n}" s!"raster{n}.uv" ∧ Over s!"raster{n}" s!"raster{n}.normal" ∧
      Over s!"raster{n}" s!"raster{n}.depth" := by
  have part (name field : String) (word : isIdentifier field = true) :
      Over name s!"{name}.{field}" := .part .self word
  refine ⟨?_, ?_, ?_⟩
  · simpa [String.append_assoc] using part s!"raster{n}" "uv" (by decide)
  · simpa [String.append_assoc] using part s!"raster{n}" "normal" (by decide)
  · simpa [String.append_assoc] using part s!"raster{n}" "depth" (by decide)

theorem declares_raymarchCode (n : NodeId) (stage : Stage) (origin aim : String) :
    Declares (raymarchCode n stage origin aim) s!"raymarchPosition{n}" ∧
      Declares (raymarchCode n stage origin aim) s!"raymarchNormal{n}" ∧
      Declares (raymarchCode n stage origin aim) s!"raymarchDepth{n}" := by
  refine ⟨?_, ?_, ?_⟩
  · exact declares_line "vec3" "raymarchPosition" n
      (List.mem_append_right _ (List.mem_of_getElem? (i := 0) rfl)) (by decide) (by simp)
  · exact declares_line "vec3" "raymarchNormal" n
      (List.mem_append_right _ (List.mem_of_getElem? (i := 1) rfl)) (by decide) (by simp)
  · exact declares_line "float" "raymarchDepth" n
      (List.mem_append_left _ (List.mem_append_left _ (List.mem_of_getElem? (i := 2) rfl)))
      (by decide) (by simp)

theorem declares_blendCode (n : NodeId) (last : Nat) (time uv : String) :
    Declares (blendCode n last time uv) s!"textureColor{n}" :=
  declares_line "vec4" "textureColor" n (List.mem_of_getElem? (i := 7) rfl) (by decide) (by simp)

theorem isClosedLiteral_identity : Glsl.IsClosedLiteral "mat4(1.0)" :=
  ⟨"mat4", ["1.0"], by decide, by decide, by decide⟩

/-- The sum of a fractal in any type is an expression over the sum. -/
theorem over_spread (n : NodeId) (id : TraitId) :
    Over s!"fbm{n}" (spread n id).1 ∧ (spread n id).2.decay?.isSome = true ∧
      (spread n id).2.isTexture = false := by
  have vector (type : String) (word : isIdentifier type = true) :
      Over s!"fbm{n}" (Glsl.call type [s!"fbm{n}"]) := .built .self word (by simp)
  unfold spread
  split
  · have padded : Over s!"fbm{n}" (Glsl.call "vec4" [Glsl.call "vec3" [s!"fbm{n}"], "1.0"]) :=
      .built (vector "vec3" (by decide)) (by decide) (by decide)
    have text : Glsl.call "vec4" [Glsl.call "vec3" [s!"fbm{n}"], "1.0"] =
        s!"vec4(vec3(fbm{n}), 1.0)" := by
      simp [Glsl.call, ← String.toList_inj]
    exact ⟨text ▸ padded, rfl, rfl⟩
  · have text : Glsl.call "vec3" [s!"fbm{n}"] = s!"vec3(fbm{n})" := by
      simp [Glsl.call, ← String.toList_inj]
    exact ⟨text ▸ vector "vec3" (by decide), rfl, rfl⟩
  · have text : Glsl.call "vec2" [s!"fbm{n}"] = s!"vec2(fbm{n})" := by
      simp [Glsl.call, ← String.toList_inj]
    exact ⟨text ▸ vector "vec2" (by decide), rfl, rfl⟩
  · exact ⟨.self, rfl, rfl⟩

theorem isTexture_ofJson {value : Json} {type : Option DataType} {e : Expression}
    (literal : Glsl.ofJson value type = .ok e) (texture : e.type.isTexture = true) :
    type = some .sampler2D := by
  unfold Glsl.ofJson at literal
  split at literal
  · obtain rfl := Except.ok.inj literal
    simp [DataType.isTexture] at texture
  · rename_i number
    obtain ⟨text, -, literal⟩ := eq_ok_of_bind literal
    obtain rfl := Except.ok.inj literal
    cases type with
    | none => simp [DataType.isTexture] at texture
    | some type => simpa [DataType.isTexture] using texture
  · rename_i items
    obtain ⟨values, -, literal⟩ := eq_ok_of_bind literal
    cases type with
    | some given =>
      obtain ⟨decayed, decays, literal⟩ := eq_ok_of_bind literal
      obtain ⟨text, -, literal⟩ := eq_ok_of_bind literal
      obtain rfl := Except.ok.inj literal
      have same : given.isTexture = true := isTexture_decayed decays ▸ texture
      simpa [DataType.isTexture] using same
    | none =>
      obtain ⟨guessed, width, literal⟩ := eq_ok_of_bind literal
      obtain ⟨text, -, literal⟩ := eq_ok_of_bind literal
      obtain rfl := Except.ok.inj literal
      have plain : guessed.isTexture = false := by
        unfold Glsl.typeOfWidth at width
        split at width <;> cases width <;> rfl
      simp [show guessed.isTexture = true from texture] at plain
  · cases literal

theorem isIdentifier_spelling {type : DataType} {spelling : String}
    (spelled : type.spelling = .ok spelling) :
    isIdentifier spelling = true ∧ type.decay?.isSome = true := by
  unfold DataType.spelling at spelled
  cases type <;> simp [DataType.glsl?] at spelled <;> subst spelled <;> decide

def legalGiven (base : Material) : Given where
  expr _ := True
  sampler _ := True
  symbol key symbol := symbol.type.isTexture = true →
    base.WrapsTexture ∨ key.type.or key.id.defaultType? = some .sampler2D

/-- A symbol may be shown once the code of a piece has been written. -/
def Exposable (base : Material) (piece : Piece) (symbol : Symbol) : Prop :=
  ∀ past, .write piece.stage piece.marker piece.code ∈ past →
    symbol.type.decay?.isSome = true ∧ (symbol.type.isTexture = true → base.WrapsTexture) ∧
      Scoped past symbol

theorem exposable_own {name expr : String}
    {shown : List (TraitId × Symbol)} {type : DataType} (declares : Declares code name)
    (uses : Over name expr) (decays : type.decay?.isSome = true)
    (texture : type.isTexture = true → base.WrapsTexture) :
    Exposable base ⟨stage, .mainBody stage, code, shown⟩ ⟨expr, type, .stage stage⟩ :=
  fun _ written => ⟨decays, texture, .declared stage name code rfl written declares uses⟩

theorem exposable_rays
    (declares : DeclaresRay n code) {shown : TraitId × Symbol} (member : shown ∈ rayShown n) :
    Exposable base ⟨.pixel, .texturize, code, rayShown n⟩ shown.2 := by
  rcases List.mem_cons.1 member with rfl | member
  · exact exposable_own declares.ray .self rfl nofun
  · rw [List.mem_singleton.1 member]
    exact exposable_own declares.origin .self rfl nofun

theorem exposable_moved
    {plan : TransformPlan} {shown : TraitId × Symbol} (member : shown ∈ movedShown n stage plan)
    (position : Declares code s!"transformPosition{n}")
    (matrix : modelRate (.stage stage) plan = .uniform .tick ∧
        Glsl.IsClosedLiteral (modelExpr n plan) ∨
      modelRate (.stage stage) plan = .stage stage ∧ Declares code (modelExpr n plan)) :
    Exposable base ⟨stage, .mainBody stage, code, movedShown n stage plan⟩ shown.2 := by
  rcases List.mem_cons.1 member with rfl | member
  · rcases matrix with ⟨coarse, closed⟩ | ⟨own, declares⟩
    · exact fun _ _ => ⟨rfl, nofun, .literal coarse closed⟩
    · dsimp only
      rw [own]
      exact exposable_own declares .self rfl nofun
  · rw [List.mem_singleton.1 member]
    exact exposable_own position .self rfl nofun

theorem exposable_of_publishes {config : Config}
    (known : (base.node n).config = config) {piece : Piece}
    (publishes : Publishes (legalGiven base) n config piece) :
    ∀ shown ∈ piece.shown, Exposable base piece shown.2 := by
  have numbered (type : String) {stem text : String}
      (words : (isIdentifier type && isIdentifier stem) = true)
      (begins : (type ++ s!" {stem}{n} = ").toList <+: text.toList) :
      Declares text s!"{stem}{n}" := by
    obtain ⟨word, named⟩ := Bool.and_eq_true_iff.1 words
    exact .of_start type word (isIdentifier_numbered named n)
      (by simpa [String.append_assoc] using begins)
  intro shown member
  cases publishes with
  | flat camera => exact exposable_rays (declaresRay_flatRay n _) member
  | perspective camera => exact exposable_rays (declaresRay_perspectiveRay n _ _ _) member
  | panoramic camera => exact exposable_rays (declaresRay_panoramicRay n _ _ _) member
  | place camera =>
    rw [List.mem_singleton.1 member]
    exact exposable_own (numbered "vec4" (by decide) (by simp)) .self rfl nofun
  | vertices raster => cases member
  | pixels raster =>
    have declares := declares_rasterCode n
    obtain ⟨uv, normal, depth⟩ := over_raster n
    rcases List.mem_cons.1 member with rfl | member
    · exact exposable_own (declares _ _ _ _ _) uv rfl nofun
    · rcases List.mem_cons.1 member with rfl | member
      · exact exposable_own (declares _ _ _ _ _) normal rfl nofun
      · rw [List.mem_singleton.1 member]
        exact exposable_own (declares _ _ _ _ _) depth rfl nofun
  | surface raymarch stage =>
    obtain ⟨position, normal, depth⟩ := declares_raymarchCode n stage _ _
    rcases List.mem_cons.1 member with rfl | member
    · exact exposable_own position .self rfl nofun
    · rcases List.mem_cons.1 member with rfl | member
      · exact exposable_own normal .self rfl nofun
      · rw [List.mem_singleton.1 member]
        exact exposable_own depth .self rfl nofun
  | direct texture stage =>
    rw [List.mem_singleton.1 member]
    exact exposable_own (numbered "vec4" (by decide) (by simp)) .self rfl nofun
  | blend texture stage =>
    rw [List.mem_singleton.1 member]
    exact exposable_own (declares_blendCode n _ _ _) .self rfl nofun
  | still transform stage =>
    exact exposable_moved member (numbered "vec4" (by decide) (by simp))
      (.inl ⟨rfl, isClosedLiteral_identity⟩)
  | moved transform stage =>
    exact exposable_moved member (numbered "vec4" (by decide) (by simp))
      (.inl ⟨rfl, Glsl.isClosedLiteral_mat4 _⟩)
  | animated transform stage =>
    refine exposable_moved member (declares_line "vec4" "transformPosition" n
      (List.mem_of_getElem? (i := 1) rfl) (by decide) (by simp)) (.inr ⟨rfl, ?_⟩)
    exact declares_line "mat4" "transformModel" n (List.mem_of_getElem? (i := 0) rfl) (by decide)
      (by simp)
  | value wrapped stage began decays became inside spelled =>
    obtain ⟨word, decayable⟩ := isIdentifier_spelling spelled
    rw [List.mem_singleton.1 member]
    refine exposable_own (.of_start _ word (isIdentifier_numbered (by decide) n) (by simp)) .self
      decayable fun texture => ?_
    have first := isTexture_decayed decays ▸ became.plain texture
    have own (type : wrapped.key.type.or wrapped.key.id.defaultType? = some .sampler2D) :
        base.WrapsTexture := ⟨n, by simp [known, Config.wrapsTexture, type]⟩
    cases began with
    | literal set made => exact own (isTexture_ofJson made first)
    | symbol unset known => exact (known first).elim id own
  | sum fractal stage named placed =>
    obtain ⟨uses, decays, plain⟩ := over_spread n fractal.output
    rw [List.mem_singleton.1 member]
    exact exposable_own (numbered "float" (by decide) (by simp)) uses decays
      (by simp [plain])

theorem isInterface_of_publishes {given : Given} {config : Config} {piece : Piece}
    (publishes : Publishes given n config piece) : piece.marker.isInterface = false := by
  cases publishes <;> first | rfl | exact isInterface_mainBody _

/-- Nodes keep to the law. -/
def legal (declaring : Bool) {base : Material} (fresh : base.Fresh) {n : NodeId} {config : Config}
    (known : (base.node n).config = config) : Discipline (legalGiven base) n config where
  Holds _ _ action good :=
    Keeps (Legal declaring) base (fun _ => True) (fun _ => True) action good
  expressive := Glsl.expressive_any
  readable _ := trivial
  callable _ := trivial
  fail := Keeps.fail
  ofExcept := Keeps.ofExcept
  bind := Keeps.bind
  look := Keeps.map fun _ _ => Meets.read ⟨trivial, trivial⟩
  opens := id
  warn warning _ _ := (meets_warn warning).mono fun _ _ _ _ => ⟨trivial, trivial⟩
  sampler _ _ := (meets_inputFor _ (.typed .texture .sampler2D) fun _ => rfl).mono
    fun _ _ _ _ => ⟨trivial, trivial⟩
  ask _ _ _ _ _ := Meets.perform trivial ⟨trivial, trivial⟩
  seen? _ key _ _ := (meets_seen? fresh n key _).mono
    fun _ _ _ known => ⟨fun symbol same is => .inl (known symbol same is), trivial⟩
  inputSymbol _ key _ _ := (meets_inputSymbol key _).mono fun _ _ _ given =>
    ⟨fun is => .inr (texture_of_input given.2 is), trivial⟩
  ensure _ _ _ := (meets_ensureFunction _ _ _).mono fun _ _ _ _ => ⟨trivial, trivial⟩
  publish {piece} publishes past _ := by
    have exposable := exposable_of_publishes known publishes
    have keeps : Keeps (Legal declaring) base (fun _ => True)
        (.write piece.stage piece.marker piece.code ∈ ·) (publish n piece) fun _ => True := by
      refine keeps_publish (fun _ _ => ?_) fun shown member => ?_
      · exact (meets_commit _ _ (.inr (isInterface_of_publishes publishes))).mono
          fun _ _ _ written => ⟨trivial, written⟩
      · exact Keeps.perform (fun past written => exposable shown member past written)
          fun _ written => List.mem_append_left _ written
    exact (keeps past trivial).mono fun _ _ _ _ => ⟨trivial, trivial⟩

theorem meets_generateNode {declaring : Bool} {past : List Event}
    (fresh : base.Fresh) (n : NodeId) :
    Meets (Legal declaring) base past (generateNode n) fun _ _ => True := by
  refine (keeps_generateNode (fun _ => Keeps.perform (fun _ _ => trivial) fun _ _ => trivial)
    (fun _ => (legal declaring fresh rfl).emit) n past trivial).mono fun _ _ _ _ => trivial

end GlslMaterial.Emission
