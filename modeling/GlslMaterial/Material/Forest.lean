import GlslMaterial.Material.Basic

/-!
The forest of nodes: who is whose child, which nodes are below another, and which can be seen from
it. Every walk has as many steps as there are nodes, which is enough for any path in a forest.
-/

set_option autoImplicit false

namespace GlslMaterial.Material

def node (m : Material) (id : NodeId) : Node :=
  m.nodes.getD id default

def modifyNode (m : Material) (id : NodeId) (change : Node → Node) : Material :=
  { m with nodes := m.nodes.modify id change }

@[simp] theorem size_modifyNode (m : Material) (id : NodeId) (change : Node → Node) :
    (m.modifyNode id change).nodes.size = m.nodes.size := by
  simp [modifyNode]

theorem node_modifyNode_self (m : Material) {id : NodeId} (change : Node → Node)
    (known : id < m.nodes.size) : (m.modifyNode id change).node id = change (m.node id) := by
  simp [node, modifyNode, known, Array.getElem_modify_self]

theorem node_modifyNode_of_ne (m : Material) {id other : NodeId} (change : Node → Node)
    (different : other ≠ id) : (m.modifyNode id change).node other = m.node other := by
  simp [node, modifyNode, Array.getD_eq_getD_getElem?, Array.getElem?_modify, different.symm]

def addNode (m : Material) (config : Config) (name : Option String) (rate : Rate)
    (descriptor : Construct) : NodeId × Material :=
  (m.nodes.size,
    { m with nodes := m.nodes.push ⟨config, name, rate, none, [], [], false, descriptor⟩ })

def findNode? (m : Material) (name : String) : Option NodeId :=
  m.nodes.findIdx? fun node => node.name == some name

/-- A node and the nodes above it, at most `fuel` of them. -/
def climb (m : Material) : Nat → NodeId → List NodeId
  | 0, _ => []
  | fuel + 1, id =>
    id :: match (m.node id).parent with
      | none => []
      | some parent => m.climb fuel parent

/-- A node and all its ancestors. -/
def lineage (m : Material) (id : NodeId) : List NodeId :=
  m.climb m.nodes.size id

/-- Takes `child` from below `parent`. The result says whether it was there. -/
def removeChild (m : Material) (parent child : NodeId) : Bool × Material :=
  if (m.node parent).children.contains child then
    let m := m.modifyNode parent fun node => { node with children := node.children.erase child }
    (true, m.modifyNode child fun node => { node with parent := none })
  else (false, m)

/-- The child without a parent. -/
def detach (m : Material) (child : NodeId) : Material :=
  match (m.node child).parent with
  | none => m
  | some old => (m.removeChild old child).2

/-- Moves `child` to the end of the children of `parent`. A node is never put below itself, and a
child stays where it is. -/
def addChild (m : Material) (parent child : NodeId) : Except Failure Material :=
  if parent = child then .error (.misuse (.ownChild child))
  else if (m.lineage parent).contains child then .error (.misuse (.cycle child parent))
  else if (m.node parent).children.contains child then .ok m
  else
    let m := (m.detach child).modifyNode child fun node => { node with parent := some parent }
    .ok (m.modifyNode parent fun node => { node with children := node.children ++ [child] })

/-- A node and all nodes below it to a depth of `fuel`, each before its children. -/
def preorder (m : Material) : Nat → NodeId → List NodeId
  | 0, _ => []
  | fuel + 1, id => id :: (m.node id).children.flatMap (m.preorder fuel)

/-- All nodes below a node, each before its children. -/
def subtree (m : Material) (id : NodeId) : List NodeId :=
  (m.node id).children.flatMap (m.preorder m.nodes.size)

/-- The siblings before a child, the nearest first. -/
def preceding (m : Material) (parent child : NodeId) : List NodeId :=
  ((m.node parent).children.takeWhile (· != child)).reverse

/-- What can be seen on the way up from a node: for each level the preceding siblings, the parent
and all that is below those siblings. -/
def searchAbove (m : Material) : Nat → NodeId → List NodeId
  | 0, _ => []
  | fuel + 1, id =>
    match (m.node id).parent with
    | none => []
    | some parent =>
      let siblings := m.preceding parent id
      siblings ++ parent :: siblings.flatMap m.subtree ++ m.searchAbove fuel parent

/-- The nodes whose outputs can be seen from a node, the nearest first. -/
def searchOrder (m : Material) (id : NodeId) : List NodeId :=
  id :: m.searchAbove m.nodes.size id

def sceneChildren (m : Material) (id : NodeId) : List NodeId :=
  (m.node id).children.filter fun child => (m.node child).config.isScene

/-- The nearest stage on the way from a node to its root. -/
def stage? (m : Material) (id : NodeId) : Option Stage :=
  (m.lineage id).findSome? fun id => (m.node id).rate.stage?

def stageOf (m : Material) (id : NodeId) : Except Failure Stage :=
  match m.stage? id with
  | some stage => .ok stage
  | none => .error (.misuse (.noStage id (m.node id).config.kind))

/-- Replaces the symbol of a trait, or adds it behind the others. -/
def setOutput (key : Trait) (symbol : Symbol) : List (Trait × Symbol) → List (Trait × Symbol)
  | [] => [(key, symbol)]
  | (other, old) :: rest =>
    if other.id = key.id then (key, symbol) :: rest
    else (other, old) :: setOutput key symbol rest

/-- Gives a symbol to the nodes that can see this one. -/
def expose (m : Material) (id : NodeId) (key : Trait) (symbol : Symbol) : Material :=
  m.modifyNode id fun node => { node with outputs := setOutput key symbol node.outputs }

end GlslMaterial.Material
