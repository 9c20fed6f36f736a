import GlslMaterial.Glsl.Conversion
import GlslMaterial.Material.Action

/-!
Lookup of values: a node uses a symbol that it can see, brought over from an earlier stage where
necessary, or else an input of the material.
-/

set_option autoImplicit false

namespace GlslMaterial.Material

open GlslMaterial.Action (perform fail ofExcept)

/-- The first symbol for a trait, at most as fine as `rate`, that can be seen from a node. -/
def find? (m : Material) (viewer : NodeId) (key : Trait) (rate : Rate) : Option Symbol :=
  (m.searchOrder viewer).findSome? fun id =>
    ((m.node id).outputs.find? fun (t, symbol) => t.agrees key && symbol.rate ≤ rate).map Prod.snd

/-- A rate of its own for `auto`: that of the node's stage, or the default of the material. -/
def concreteRate (m : Material) (viewer : NodeId) (rate : Rate) : Rate :=
  if rate ≠ .auto then rate
  else match m.stage? viewer with
    | some stage => .stage stage
    | none => m.defaultRate

theorem concreteRate_of_ne_auto {m : Material} {viewer : NodeId} {rate : Rate}
    (concrete : rate ≠ .auto) : m.concreteRate viewer rate = rate :=
  if_pos concrete

/-- The output that carries an expression out of a stage. A new output is assigned; one that is
there already keeps its value. -/
def carryOut (producer : Stage) (carried : Trait) (expr : String) : Action String := do
  let (output, created) ← outputFor (.stage producer) carried false
  if created then
    assign producer output expr
    perform (.wire (.stage producer) output)
  return output

/-- The input, and the rate at which it is kept, that takes in what an output carries. -/
def carryIn (producer : Stage) (output : String) (carried : Trait) (rate : Rate) :
    Action (String × Rate) := do
  let (input, kept) ← inputFor rate carried false
  perform (.link (.stage producer) output kept input)
  return (input, kept)

/-- Carries a symbol of one stage to another through an output and an input. Uniform symbols,
textures and symbols of the stage itself need no bridge. -/
def bridge (key : Trait) (symbol : Symbol) (rate : Rate) : Action Symbol := do
  match symbol.rate.stage?, rate.stage? with
  | some producer, some _ =>
    if symbol.rate = rate || symbol.type.isTexture then return symbol
    let type ← ofExcept symbol.type.decayed
    let carried := Trait.typed key.id type
    let output ← carryOut producer carried symbol.expr
    let (input, kept) ← carryIn producer output carried rate
    return ⟨input, type, kept⟩
  | _, _ => return symbol

/-- An input of the material as a symbol that can be used at a rate. A trait that belongs to an
earlier stage is an input of that stage and is carried over. -/
def inputSymbol (key : Trait) (rate : Rate) : Action Symbol := do
  let key ← ofExcept key.resolved
  let type := key.type.getD .float
  let own := key.id.defaultRate?.getD rate
  if own.isUniform || key.isTexture then
    let (name, kept) ← inputFor own key false
    return ⟨name, type, kept⟩
  else if own < rate && own.stage?.isSome && rate.stage?.isSome then
    let (name, kept) ← inputFor own key false
    bridge key ⟨name, type, kept⟩ rate
  else
    let (name, kept) ← inputFor rate key false
    return ⟨name, type, kept⟩

def seen? (viewer : NodeId) (key : Trait) (rate : Rate) : Action (Option Symbol) := do
  match (← read).find? viewer key rate with
  | some symbol => return some (← bridge key symbol rate)
  | none => return none

def symbolOrInput (viewer : NodeId) (key : Trait) (rate : Rate) : Action Symbol := do
  perform (.ask viewer key rate .input)
  let rate := (← read).concreteRate viewer rate
  match (← seen? viewer key rate) with
  | some symbol => return symbol
  | none => inputSymbol key rate

def symbolOrWarning (viewer : NodeId) (key : Trait) (rate : Rate) : Action (Option Symbol) := do
  perform (.ask viewer key rate .soft)
  let rate := (← read).concreteRate viewer rate
  match (← seen? viewer key rate) with
  | some symbol => return some symbol
  | none =>
    warn (.notVisible key.id rate viewer ((← read).node viewer).config.kind)
    return none

def requiredSymbol (viewer : NodeId) (key : Trait) (rate : Rate) : Action Symbol := do
  perform (.ask viewer key rate .required)
  let rate := (← read).concreteRate viewer rate
  match (← seen? viewer key rate) with
  | some symbol => return symbol
  | none =>
    fail (.misuse (.notVisible key.id rate viewer ((← read).node viewer).config.kind))

/-- The symbol for a trait at a rate. Only a soft lookup can come back without one. -/
def lookup (viewer : NodeId) (key : Trait) (rate : Rate) : Fallback → Action (Option Symbol)
  | .required => some <$> requiredSymbol viewer key rate
  | .input => some <$> symbolOrInput viewer key rate
  | .soft => symbolOrWarning viewer key rate

/-- The expression of a symbol in another type. -/
def convertSymbol (symbol : Symbol) (type : DataType) : Except Failure String :=
  Glsl.convert symbol.expr symbol.type type "0.0"

def lookupAs (viewer : NodeId) (key : Trait) (rate : Rate) (type : DataType)
    (fallback : Fallback) : Action (Option String) := do
  match (← lookup viewer key rate fallback) with
  | some symbol => return some (← ofExcept (convertSymbol symbol type))
  | none => return none

def exprOrInput (viewer : NodeId) (id : TraitId) (rate : Rate) : Action String := do
  return (← symbolOrInput viewer (.ofId id) rate).expr

/-- The expression for a trait in a type, from an input where nothing can be seen. -/
def valueOrInput (viewer : NodeId) (id : TraitId) (rate : Rate) (type : DataType) :
    Action String := do
  ofExcept (convertSymbol (← symbolOrInput viewer (.ofId id) rate) type)

/-- The expression for a trait in a type, or `absent` with a warning. -/
def valueOr (absent : String) (viewer : NodeId) (id : TraitId) (rate : Rate) (type : DataType) :
    Action String := do
  return (← lookupAs viewer (.ofId id) rate type .soft).getD absent

end GlslMaterial.Material
