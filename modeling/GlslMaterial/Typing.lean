import GlslMaterial.Failure

/-! Typing: the GLSL types that data types and traits stand for, where they have one. -/

set_option autoImplicit false

namespace GlslMaterial

def DataType.spelling (type : DataType) : Except Failure String :=
  match type.glsl? with
  | some spelling => .ok spelling
  | none => .error (.misuse (.noSpelling type))

/-- The type in which a value of this type crosses a stage boundary. -/
def DataType.decayed (type : DataType) : Except Failure DataType :=
  match type.decay? with
  | some decayed => .ok decayed
  | none => .error (.misuse (.noDecay type))

theorem DataType.decay?_of_decayed {type decayed : DataType} (decays : type.decayed = .ok decayed) :
    type.decay? = some decayed := by
  unfold DataType.decayed at decays
  split at decays
  · rename_i found
    rw [found, Except.ok.inj decays]
  · cases decays

/-- A type that decays stays what it has become. -/
theorem DataType.decay?_idem {type decayed : DataType} (decays : type.decay? = some decayed) :
    decayed.decay? = some decayed := by
  cases type <;> cases decays <;> rfl

/-- The trait with its default type where it has no type of its own. -/
def Trait.resolved (t : Trait) : Except Failure Trait :=
  match t.type, t.id.defaultType? with
  | some _, _ => .ok t
  | none, some type => .ok { t with type := some type }
  | none, none => .error (.misuse (.untypedTrait t.id))

end GlslMaterial
