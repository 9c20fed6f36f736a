import GlslMaterial.Failure

/-! Value nodes: a trait whose expression is changed by verbs. -/

set_option autoImplicit false

namespace GlslMaterial

/-- The wrapped trait is a literal where it has a value, and looked up where it has none. -/
structure Wrapped where
  key : Trait
  verbs : List VerbEntry
deriving Inhabited

namespace Wrapped

/-- Traits that set up a node and never name its value. -/
def isSetting : TraitId → Bool
  | .rate | .name | .parent => true
  | _ => false

/-- Only randomness does without an operand. -/
def lacksOperand (entry : VerbEntry) : Bool :=
  entry.value.isNone && entry.operand.isNone && entry.verb != .randomize

def ofConstruct (c : Construct) : Except Failure Wrapped :=
  match c.traits.find? fun t => !isSetting t.id with
  | none => .error (.misuse .nothingToWrap)
  | some key =>
    match c.verbs.find? lacksOperand with
    | some entry => .error (.misuse (.noOperand entry.verb))
    | none => .ok ⟨key, c.verbs⟩

end Wrapped

end GlslMaterial
