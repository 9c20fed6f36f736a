import GlslMaterial.Descriptor.Construct
import GlslMaterial.Json.Printer

/-! Constructs written as JSON: every field is present, with null for what is absent. -/

set_option autoImplicit false

namespace GlslMaterial

def optionJson {α : Type} (toJson : α → Json) : Option α → Json
  | some a => toJson a
  | none => .null

def Trait.toJson (t : Trait) : Json :=
  .object [("trait", .string t.id.label),
    ("type", optionJson (fun type => .string type.word) t.type),
    ("value", optionJson (fun value => value) t.value)]

def VerbEntry.toJson (entry : VerbEntry) : Json :=
  .object [("verb", .string entry.verb.label),
    ("value", optionJson (fun value => value) entry.value),
    ("trait", optionJson (fun id => .string id.label) entry.operand)]

mutual

def Construct.toJson : Construct → Json
  | ⟨kind, name, traits, verbs, children⟩ =>
    .object [("type", .string kind.label),
      ("name", optionJson .string name),
      ("traits", .array (traits.map Trait.toJson)),
      ("verbs", .array (verbs.map VerbEntry.toJson)),
      ("children", .array (childrenJson children))]
termination_by structural c => c

def childrenJson : List Construct → List Json
  | [] => []
  | child :: rest => child.toJson :: childrenJson rest
termination_by structural children => children

end

end GlslMaterial
