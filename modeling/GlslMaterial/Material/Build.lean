import GlslMaterial.Material.Forest

/-! Building the nodes of a material from its descriptor. -/

set_option autoImplicit false

namespace GlslMaterial

/-- Reads a descriptor, whose root is a material. -/
def parseDescriptor (text : String) : Except Failure Construct := do
  match Descriptor.parseConstruct text with
  | .error problem => throw ⟨[.parsingDescriptor], .json problem⟩
  | .ok c =>
    if c.kind ≠ .material then throw (.badData (.rootNotMaterial c.kind))
    return c

namespace Material

def rateOf? (c : Construct) : Except Failure (Option Rate) :=
  match c.traitValue? .rate with
  | none => .ok none
  | some value =>
    match Descriptor.wordOfJson (Rate.all.map Rate.name) Rate.ofName? value with
    | .ok rate => .ok (some rate)
    | .error reason => .error (.misuse (.invalidRate value reason))

/-- The version trait of a construct; versions have at most 32 bits. -/
def versionOf (c : Construct) : Except Failure Nat :=
  match c.traitFloat? .version with
  | none => .ok defaultVersion
  | some version =>
    if version ≥ 100 then .ok (Decimal.truncate 0 (UInt32.size - 1) version).toNat
    else .error (.misuse (.invalidVersion version))

/-- The rate of a node, which is that of the material unless it has one of its own. -/
def nodeRate (m : Material) (c : Construct) : Except Failure Rate := do
  match (← rateOf? c) with
  | none | some .auto => return m.defaultRate
  | some rate => return rate

/-- The parent that a construct names, or else `parent`. The node itself has its name already. -/
def parentOf (m : Material) (c : Construct) (parent : NodeId) : Except Failure NodeId :=
  match c.traitString? .parent with
  | none => .ok parent
  | some name =>
    match m.findNode? name with
    | some id => .ok id
    | none => .error (.misuse (.noParent name))

/-- Adds the node of a construct, without its children, and gives its identity. -/
def plant (m : Material) (parent : NodeId) (c : Construct) :
    Except Failure (NodeId × Material) := do
  if !c.kind.isNode then throw (.misuse (.notUnderNode c.kind (m.node parent).config.kind))
  let rate ← m.nodeRate c
  let config ← withContext (.construct c.kind c.displayName?) (Config.ofConstruct c)
  let (id, m) := m.addNode config c.displayName? rate c.withoutNodes
  let parent ← m.parentOf c parent
  return (id, ← m.addChild parent id)

mutual

/-- Adds the nodes of a construct below a node. -/
def instantiate (parent : NodeId) : Construct → Material → Except Failure Material
  | ⟨kind, name, traits, verbs, children⟩, m => do
    let (id, m) ← m.plant parent ⟨kind, name, traits, verbs, children⟩
    instantiateNodes id children m
termination_by structural c => c

def instantiateNodes (parent : NodeId) : List Construct → Material → Except Failure Material
  | [], m => return m
  | child :: rest, m => do
    let m ← if child.kind.isNode then instantiate parent child m else pure m
    instantiateNodes parent rest m
termination_by structural children => children

end

def ofConstruct (c : Construct) : Except Failure Material := do
  if c.kind ≠ .material then throw (.misuse (.rootNotMaterial c.kind))
  let rate := (← rateOf? c).getD (.stage .pixel)
  let version ← versionOf c
  let m := (ofRate rate).modifyNode root fun node => { node with descriptor := c.withoutNodes }
  c.children.foldlM (fun m child => instantiate root child m) { m with version }

end Material

end GlslMaterial
