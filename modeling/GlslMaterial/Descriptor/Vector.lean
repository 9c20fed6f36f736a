import GlslMaterial.Failure
import GlslMaterial.Space

/-! Vectors in descriptors: an array of numbers, or one number for all components. -/

set_option autoImplicit false

namespace GlslMaterial

namespace Descriptor

def componentOfJson (item : Json) : Except Failure Float32 :=
  match item.toFloat? with
  | some x => .ok (Decimal.single x)
  | none => .error (.badData (.nonNumeric item))

def vectorOfJson (width : Nat) (value : Json) : Except Failure (Vector Float32 width) :=
  match value.toFloat?, value.toItems? with
  | some x, _ => .ok (.replicate width (Decimal.single x))
  | none, none => .error (.badData (.notANumberOrArray width value))
  | none, some items =>
    if sized : items.length = width then
      Vector.mapM componentOfJson ⟨items.toArray, sized⟩
    else .error (.badData (.componentCount width items.length))

end Descriptor

namespace Construct

def traitVector? (c : Construct) (width : Nat) (id : TraitId) :
    Except Failure (Option (Vector Float32 width)) :=
  match c.traitValue? id with
  | none => .ok none
  | some value =>
    withContext (.traitOf id c.kind) ((Descriptor.vectorOfJson width value).map some)

/-- A trait with three components, or `absent` where there is none. -/
def traitVec3 (c : Construct) (id : TraitId) (absent : Vec3) : Except Failure Vec3 :=
  (c.traitVector? 3 id).map fun found => match found with
    | some v => ⟨v[0], v[1], v[2]⟩
    | none => absent

end Construct

end GlslMaterial
