import CardGame.Definition

/-! # Effects that happen once

Effects of spells, triggered and activated abilities, and how they are read from data.
-/

namespace CardGame

/-- Which cards an effect is about. -/
inductive EffectTarget where
  | source
  /-- The targets chosen for the spell or ability. -/
  | chosen
  deriving DecidableEq, Repr

inductive Effect where
  | addMana (color : Mana.Color) (amount : Nat)
  | gainLife (amount : Int)
  | destroy (target : EffectTarget)
  | drawCards (count : Nat)
  deriving DecidableEq, Repr

namespace Effect

/-- A count among the parameters of `key`: not negative, and no larger than an amount of mana. -/
def readCount (key name : String) (value : Int) : Outcome Nat :=
  if 0 ≤ value ∧ value ≤ Mana.maxAmount then .ok value.toNat
  else .error (.invalidParameter key name (.notACount value))

def readColor (key : String) (params : Params) : Outcome Mana.Color := do
  let text ← params.requireText key "color"
  match Mana.Color.read? text with
  | some color => .ok color
  | none => .error (.invalidParameter key "color" (.unknownColor text))

def ofParams (key : String) (params : Params) : Outcome Effect :=
  match key with
  | "gain_life" => do
    let amount ← params.requireInt key "amount"
    .ok (.gainLife amount)
  | "add_mana" => do
    let color ← readColor key params
    let amount ← readCount key "amount" (params.intD "amount" 1)
    .ok (.addMana color amount)
  | "destroy" => .ok (.destroy (if params.boolD "self" false then .source else .chosen))
  | "draw" => do
    let count ← readCount key "count" (params.intD "count" 1)
    .ok (.drawCards count)
  | _ => .error (.unknownEffectKey key)

def ofDescriptor (d : Descriptor) : Outcome Effect := ofParams d.key d.params

def needsTargets : Effect → Bool
  | destroy .chosen => true
  | _ => false

end Effect

end CardGame
