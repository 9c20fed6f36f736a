import GlslMaterial.Proofs.Forest.Building
import GlslMaterial.Proofs.Twin.Outline

/-!
Descriptors that differ in the code of fractals only. The materials that are built from them have
the same outline.
-/

set_option autoImplicit false

namespace GlslMaterial

/-- Two computations agree in what counts if their steps do. -/
theorem map_bind_congr {ε α β γ δ : Type} {f : α → γ} {g : β → δ} {one two : Except ε α}
    {next other : α → Except ε β} (first : one.map f = two.map f)
    (later : ∀ a b, f a = f b → (next a).map g = (other b).map g) :
    (one >>= next).map g = (two >>= other).map g := by
  cases one <;> cases two
  · exact congrArg Except.error (Except.error.inj first)
  · cases first
  · cases first
  · exact later _ _ (Except.ok.inj first)

theorem map_withContext_congr {α γ : Type} {f : α → γ} {one two : Except Failure α}
    (context : Context) (same : one.map f = two.map f) :
    (withContext context one).map f = (withContext context two).map f := by
  have outside (result : Except Failure α) :
      (withContext context result).map f = withContext context (result.map f) := by
    cases result <;> rfl
  rw [outside, same, outside]

def Trait.withoutCode (t : Trait) : Trait :=
  match t.id, t.value with
  | .code, some (.string _) => { t with value := some (.string "") }
  | _, _ => t

@[simp] theorem Trait.id_withoutCode (t : Trait) : t.withoutCode.id = t.id := by
  unfold withoutCode
  split <;> rfl

theorem Trait.withoutCode_of_ne {t : Trait} (other : t.id ≠ .code) : t.withoutCode = t := by
  unfold withoutCode
  split
  · rename_i code _
    exact absurd code other
  · rfl

namespace Construct

/-- A construct whose own code has no text. -/
def blanked (c : Construct) : Construct :=
  if c.kind = .fbm then { c with traits := c.traits.map Trait.withoutCode } else c

mutual

/-- A construct without the texts of the code of fractals in it. -/
def withoutCodes : Construct → Construct
  | ⟨kind, name, traits, verbs, children⟩ =>
    { blanked ⟨kind, name, traits, verbs, children⟩ with children := withoutCodesOf children }
termination_by structural c => c

def withoutCodesOf : List Construct → List Construct
  | [] => []
  | c :: rest => c.withoutCodes :: withoutCodesOf rest
termination_by structural constructs => constructs

end

theorem withoutCodesOf_eq_map (constructs : List Construct) :
    withoutCodesOf constructs = constructs.map withoutCodes := by
  induction constructs with
  | nil => rfl
  | cons c rest ih => rw [withoutCodesOf, ih, List.map_cons]

theorem withoutCodes_eq (c : Construct) :
    c.withoutCodes = { c.blanked with children := c.children.map withoutCodes } := by
  cases c
  rw [withoutCodes, withoutCodesOf_eq_map]

variable (c : Construct)

@[simp] theorem kind_blanked : c.blanked.kind = c.kind := by
  unfold blanked
  split <;> rfl

@[simp] theorem name_blanked : c.blanked.name = c.name := by
  unfold blanked
  split <;> rfl

@[simp] theorem children_blanked : c.blanked.children = c.children := by
  unfold blanked
  split <;> rfl

@[simp] theorem kind_withoutCodes : c.withoutCodes.kind = c.kind := by
  rw [withoutCodes_eq, kind_blanked]

@[simp] theorem name_withoutCodes : c.withoutCodes.name = c.name := by
  rw [withoutCodes_eq, name_blanked]

theorem findTrait?_blanked {id : TraitId} (other : id ≠ .code) :
    c.blanked.findTrait? id = c.findTrait? id := by
  unfold blanked
  split
  · simp only [findTrait?, List.find?_map]
    have same : (fun t : Trait => t.id == id) ∘ Trait.withoutCode = fun t => t.id == id :=
      funext fun t => by simp
    rw [same]
    cases found : c.traits.find? fun t => t.id == id with
    | none => rfl
    | some t =>
      have named : t.id = id := by simpa using List.find?_some found
      exact congrArg some (Trait.withoutCode_of_ne (named ▸ other))
  · rfl

theorem traitValue?_blanked {id : TraitId} (other : id ≠ .code) :
    c.blanked.traitValue? id = c.traitValue? id := by
  rw [traitValue?, findTrait?_blanked c other, traitValue?]

theorem traitValue?_withoutCodes {id : TraitId} (other : id ≠ .code) :
    c.withoutCodes.traitValue? id = c.traitValue? id := by
  rw [withoutCodes_eq]
  exact c.traitValue?_blanked other

theorem displayName?_withoutCodes : c.withoutCodes.displayName? = c.displayName? := by
  rw [displayName?, traitString?, c.traitValue?_withoutCodes (by decide), name_withoutCodes,
    displayName?, traitString?]

/-- A construct without children. -/
def stripped : Construct :=
  { c with children := [] }

/-- A construct and the data directly below it. -/
def shallow : Construct :=
  { c with children := c.dataChildren.map stripped }

theorem dataChildren_shallow : c.shallow.dataChildren = c.dataChildren.map stripped := by
  have data : ∀ child ∈ c.dataChildren.map stripped, (!child.kind.isNode) = true := by
    refine List.forall_mem_map.2 fun child member => ?_
    exact (List.mem_filter.1 member).2
  exact List.filter_eq_self.2 data

theorem childrenOfKind_shallow {kind : Kind} (data : kind.isNode = false) :
    c.shallow.childrenOfKind kind = (c.childrenOfKind kind).map stripped := by
  have same : c.dataChildren.filter (fun child => child.kind == kind) = c.childrenOfKind kind := by
    rw [dataChildren, List.filter_filter, childrenOfKind]
    refine List.filter_congr fun child _ => ?_
    cases here : child.kind == kind with
    | false => rfl
    | true => simp [eq_of_beq here, data]
  rw [← same]
  exact List.filter_map ..

theorem shallow_withoutCodes : c.withoutCodes.shallow = c.blanked.shallow := by
  have each : ∀ child ∈ c.dataChildren, child.withoutCodes.stripped = child.stripped := by
    intro child member
    have data : child.kind.isNode = false := by simpa using (List.mem_filter.1 member).2
    have other : child.kind ≠ .fbm := fun same => by simp [same, Kind.isNode] at data
    rw [withoutCodes_eq, stripped, blanked, if_neg other, stripped]
  have data : (c.children.map withoutCodes).filter (fun child => !child.kind.isNode) =
      c.dataChildren.map withoutCodes := by
    rw [List.filter_map]
    congr 2
    exact funext fun child => by simp
  rw [withoutCodes_eq, shallow, shallow]
  simp only [dataChildren, children_blanked] at data each ⊢
  rw [data, List.map_map]
  congr 1
  exact List.map_congr_left each

end Construct

theorem childKeyframes_stripped (first : Nat) (constructs : List Construct) :
    Transform.childKeyframes first (constructs.map Construct.stripped) =
      Transform.childKeyframes first constructs := by
  induction constructs generalizing first with
  | nil => rfl
  | cons c rest ih =>
    rw [List.map_cons, Transform.childKeyframes, Transform.childKeyframes, ih]
    rfl

theorem Fractal.ofConstruct_blanked (c : Construct) :
    (Fractal.ofConstruct c.blanked).map ({ · with code := "" }) =
      (Fractal.ofConstruct c).map ({ · with code := "" }) := by
  have octaves : octavesOf c.blanked = octavesOf c := by
    rw [octavesOf, Construct.traitFloat?, c.traitValue?_blanked (by decide)]
    rfl
  have base : baseOf c.blanked = baseOf c := by
    rw [baseOf, Construct.traitFloat?, c.traitValue?_blanked (by decide)]
    rfl
  have output : outputOf c.blanked = outputOf c := by
    rw [outputOf, c.traitValue?_blanked (by decide)]
    rfl
  unfold Fractal.ofConstruct
  rw [octaves, base, output]
  cases octavesOf c with
  | error failure => rfl
  | ok octaves =>
    cases baseOf c with
    | error failure => rfl
    | ok base => cases outputOf c <;> rfl

namespace Config

/-- A configuration depends on a construct and the data directly below it. -/
theorem ofConstruct_shallow (c : Construct) : ofConstruct c.shallow = ofConstruct c := by
  have first : (c.shallow.dataChildren.find? fun child => !c.kind.accepts child.kind) =
      (c.dataChildren.find? fun child => !c.kind.accepts child.kind).map Construct.stripped := by
    rw [c.dataChildren_shallow, List.find?_map]
    rfl
  have scene : Scene.ofConstruct c.shallow = Scene.ofConstruct c := by
    rw [Scene.ofConstruct, c.childrenOfKind_shallow rfl, List.mapM_map]
    rfl
  have texture : Texture.ofConstruct c.shallow = Texture.ofConstruct c := by
    rw [Texture.ofConstruct, c.childrenOfKind_shallow rfl, c.childrenOfKind_shallow rfl,
      List.mapM_map]
    simp only [List.mapM_map]
    rfl
  have transform : Transform.ofConstruct c.shallow = Transform.ofConstruct c := by
    rw [Transform.ofConstruct, c.childrenOfKind_shallow rfl, childKeyframes_stripped]
    rfl
  have kind : c.shallow.kind = c.kind := rfl
  unfold ofConstruct
  rw [kind, first, scene, texture, transform]
  cases c.dataChildren.find? fun child => !c.kind.accepts child.kind <;> rfl

/-- The code of a fractal is all that depends on the texts of code. -/
theorem ofConstruct_blanked (c : Construct) :
    (ofConstruct c.blanked).map uncoded = (ofConstruct c).map uncoded := by
  by_cases fractal : c.kind = .fbm
  · have data : c.blanked.dataChildren = c.dataChildren := by
      rw [Construct.dataChildren, Construct.children_blanked, Construct.dataChildren]
    have made := Fractal.ofConstruct_blanked c
    unfold ofConstruct
    rw [Construct.kind_blanked, data, fractal]
    cases c.dataChildren.find? fun child => !Kind.fbm.accepts child.kind with
    | some child => rfl
    | none =>
      dsimp only
      cases one : Fractal.ofConstruct c.blanked <;> cases two : Fractal.ofConstruct c
      all_goals rw [one, two] at made
      · exact congrArg Except.error (Except.error.inj made)
      · cases made
      · cases made
      · exact congrArg (Except.ok ∘ Config.fractal) (Except.ok.inj made)
  · rw [Construct.blanked, if_neg fractal]

theorem ofConstruct_withoutCodes (c : Construct) :
    (ofConstruct c.withoutCodes).map uncoded = (ofConstruct c).map uncoded := by
  rw [← ofConstruct_shallow, c.shallow_withoutCodes, ofConstruct_shallow, ofConstruct_blanked]

end Config

namespace Material

variable {m twin : Material}

theorem outline_addNode (m : Material) (config : Config) (name : Option String) (rate : Rate)
    (descriptor : Construct) : (m.addNode config name rate descriptor).2.outline =
      (m.outline.addNode config.uncoded name rate default).2 := by
  simp [addNode, outline, Node.outline]

theorem findNode?_outline (m : Material) (name : String) :
    m.outline.findNode? name = m.findNode? name := by
  simp only [findNode?, outline, Array.findIdx?_map]
  rfl

theorem outline_detach (m : Material) (child : NodeId) :
    (m.detach child).outline = m.outline.detach child := by
  have removed (old : NodeId) :
      (m.removeChild old child).2.outline = (m.outline.removeChild old child).2 := by
    have children : (m.node old).outline.children = (m.node old).children := rfl
    unfold removeChild
    rw [node_outline, children]
    split
    · dsimp only
      rw [outline_modifyNode, outline_modifyNode] <;> exact fun _ => rfl
    · rfl
  have parent : (m.node child).outline.parent = (m.node child).parent := rfl
  unfold detach
  rw [node_outline, parent]
  cases (m.node child).parent with
  | none => rfl
  | some old => exact removed old

theorem addChild_outline (m : Material) (parent child : NodeId) :
    m.outline.addChild parent child = (m.addChild parent child).map outline := by
  have lineage : m.outline.lineage parent = m.lineage parent := by
    rw [Material.lineage, size_outline, climb_outline, Material.lineage]
  have children : (m.node parent).outline.children = (m.node parent).children := rfl
  unfold addChild
  rw [lineage, node_outline, children]
  split
  · rfl
  · split
    · rfl
    · split
      · rfl
      · refine congrArg Except.ok ?_
        rw [outline_modifyNode, outline_modifyNode, outline_detach] <;> exact fun _ => rfl

theorem addChild_alike (alike : m.outline = twin.outline) (parent child : NodeId) :
    (m.addChild parent child).map outline = (twin.addChild parent child).map outline := by
  rw [← addChild_outline, alike, addChild_outline]

theorem plant_alike {c d : Construct} (same : c.withoutCodes = d.withoutCodes)
    (alike : m.outline = twin.outline) (parent : NodeId) :
    (m.plant parent c).map (Prod.map id outline) =
      (twin.plant parent d).map (Prod.map id outline) := by
  have kind : c.kind = d.kind := by rw [← c.kind_withoutCodes, same, d.kind_withoutCodes]
  have value {id : TraitId} (other : id ≠ .code) : c.traitValue? id = d.traitValue? id := by
    rw [← c.traitValue?_withoutCodes other, same, d.traitValue?_withoutCodes other]
  have name : c.displayName? = d.displayName? := by
    rw [← c.displayName?_withoutCodes, same, d.displayName?_withoutCodes]
  have config : (Config.ofConstruct c).map Config.uncoded =
      (Config.ofConstruct d).map Config.uncoded := by
    rw [← Config.ofConstruct_withoutCodes, same, Config.ofConstruct_withoutCodes]
  have rates : m.nodeRate c = twin.nodeRate d := by
    have default : m.defaultRate = twin.defaultRate := (congrArg defaultRate alike :)
    rw [nodeRate, rateOf?, value (by decide), default]
    rfl
  have size : m.nodes.size = twin.nodes.size := by
    rw [← m.size_outline, alike, twin.size_outline]
  have kinds : (m.node parent).config.kind = (twin.node parent).config.kind := by
    have nodes : (m.node parent).outline = (twin.node parent).outline := by
      rw [← node_outline, alike, node_outline]
    have both := congrArg (Config.kind ∘ Node.config) nodes
    simpa [Node.outline] using both
  have parents {one two : Material} (alike : one.outline = two.outline) :
      one.parentOf c parent = two.parentOf d parent := by
    rw [parentOf, Construct.traitString?, value (by decide), parentOf, Construct.traitString?]
    cases d.traitValue? .parent >>= Json.toString? with
    | none => rfl
    | some given =>
      dsimp only
      rw [← findNode?_outline, alike, findNode?_outline]
  unfold plant
  rw [kind, kinds, rates, name]
  split
  · rfl
  · refine map_bind_congr (f := id) rfl ?_
    rintro rate _ rfl
    refine map_bind_congr (map_withContext_congr _ config) fun first second uncoded => ?_
    have grown : (m.addNode first d.displayName? rate c.withoutNodes).2.outline =
        (twin.addNode second d.displayName? rate d.withoutNodes).2.outline := by
      rw [outline_addNode, outline_addNode, alike, uncoded]
    have ids : (m.addNode first d.displayName? rate c.withoutNodes).1 =
        (twin.addNode second d.displayName? rate d.withoutNodes).1 := size
    dsimp only
    rw [parents grown, ids]
    refine map_bind_congr (f := id) rfl ?_
    rintro target _ rfl
    exact map_bind_congr (addChild_alike grown target _) fun _ _ same =>
      congrArg (fun after => Except.ok (_, after)) same

mutual

theorem instantiate_alike : (c d : Construct) → c.withoutCodes = d.withoutCodes →
    {m twin : Material} → m.outline = twin.outline → (parent : NodeId) →
    (instantiate parent c m).map outline = (instantiate parent d twin).map outline
  | ⟨kind, name, traits, verbs, children⟩, ⟨_, _, _, _, others⟩, same, m, twin, alike, parent => by
    have planted := plant_alike same alike parent
    have below : children.map Construct.withoutCodes = others.map Construct.withoutCodes := by
      rw [Construct.withoutCodes_eq, Construct.withoutCodes_eq] at same
      exact congrArg Construct.children same
    rw [instantiate, instantiate]
    refine map_bind_congr planted fun ⟨id, grown⟩ ⟨other, second⟩ both => ?_
    obtain ⟨ids, same⟩ := Prod.mk.inj both
    obtain rfl : id = other := ids
    exact instantiateNodes_alike children others below same id
termination_by structural c => c

theorem instantiateNodes_alike : (children others : List Construct) →
    children.map Construct.withoutCodes = others.map Construct.withoutCodes →
    {m twin : Material} → m.outline = twin.outline → (parent : NodeId) →
    (instantiateNodes parent children m).map outline =
      (instantiateNodes parent others twin).map outline
  | [], [], _, m, twin, alike, parent => congrArg Except.ok alike
  | c :: rest, d :: others, same, m, twin, alike, parent => by
    obtain ⟨first, later⟩ := List.cons.inj same
    have kind : c.kind = d.kind := by rw [← c.kind_withoutCodes, first, d.kind_withoutCodes]
    rw [instantiateNodes, instantiateNodes, kind]
    split
    · exact map_bind_congr (instantiate_alike c d first alike parent) fun _ _ same =>
        instantiateNodes_alike rest others later same parent
    · exact instantiateNodes_alike rest others later alike parent
termination_by structural children => children

end

theorem foldlM_instantiate_alike {children others : List Construct}
    (same : children.map Construct.withoutCodes = others.map Construct.withoutCodes)
    (alike : m.outline = twin.outline) :
    (children.foldlM (fun m child => instantiate root child m) m).map outline =
      (others.foldlM (fun m child => instantiate root child m) twin).map outline := by
  induction children generalizing m twin others with
  | nil =>
    obtain rfl := List.map_eq_nil_iff.1 same.symm
    exact congrArg Except.ok alike
  | cons c rest ih =>
    obtain ⟨d, others, rfl, first, later⟩ := List.map_eq_cons_iff.1 same.symm
    rw [List.foldlM_cons, List.foldlM_cons]
    exact map_bind_congr (instantiate_alike c d first.symm alike root) fun _ _ same =>
      ih later.symm same

/-- Descriptors that differ in the code of fractals only give materials of the same outline, or
neither gives one. -/
theorem ofConstruct_alike {c d : Construct} (same : c.withoutCodes = d.withoutCodes) :
    (ofConstruct c).map outline = (ofConstruct d).map outline := by
  have kind : c.kind = d.kind := by rw [← c.kind_withoutCodes, same, d.kind_withoutCodes]
  have value {id : TraitId} (other : id ≠ .code) : c.traitValue? id = d.traitValue? id := by
    rw [← c.traitValue?_withoutCodes other, same, d.traitValue?_withoutCodes other]
  have below : c.children.map Construct.withoutCodes = d.children.map Construct.withoutCodes := by
    rw [Construct.withoutCodes_eq, Construct.withoutCodes_eq] at same
    exact congrArg Construct.children same
  have rates : rateOf? c = rateOf? d := by
    rw [rateOf?, value (by decide), rateOf?]
  have versions : versionOf c = versionOf d := by
    rw [versionOf, Construct.traitFloat?, value (by decide), versionOf, Construct.traitFloat?]
  unfold ofConstruct
  rw [kind, rates, versions]
  dsimp only
  split
  · rfl
  · refine map_bind_congr (f := id) rfl ?_
    rintro rate _ rfl
    refine map_bind_congr (f := id) rfl ?_
    rintro version _ rfl
    have start (e : Construct) : ((ofRate (rate.getD (.stage .pixel))).modifyNode root fun node =>
        { node with descriptor := e.withoutNodes }).outline =
          (ofRate (rate.getD (.stage .pixel))).outline.modifyNode root id :=
      outline_modifyNode _ _ fun _ => rfl
    refine foldlM_instantiate_alike below ?_
    exact congrArg (fun m : Material => { m with version }) ((start c).trans (start d).symm)

theorem exists_ok_of_alike {c d : Construct} (same : c.withoutCodes = d.withoutCodes) {m : Material}
    (built : ofConstruct c = .ok m) :
      ∃ twin, ofConstruct d = .ok twin ∧ m.outline = twin.outline := by
  have alike := ofConstruct_alike same
  rw [built] at alike
  cases made : ofConstruct d with
  | error failure =>
    rw [made] at alike
    cases alike
  | ok twin =>
    rw [made] at alike
    exact ⟨twin, rfl, Except.ok.inj alike⟩

end Material

end GlslMaterial
