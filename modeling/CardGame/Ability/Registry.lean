import CardGame.State.Basic
import CardGame.Text.Quoted

/-! # Registries

A registry knows, for each key, how to build an ability from parameters.
-/

namespace CardGame

/-- The number an ability gets, and the card it is on. -/
structure Origin where
  id : AbilityId
  source : CardId
  deriving DecidableEq, Repr

/-- Builds an ability from its parameters, for the state of the game at that time. -/
abbrev AbilityFactory := Params → Origin → State → Outcome Ability

structure Registry where
  factories : Table String AbilityFactory

namespace Registry

def empty : Registry := ⟨.empty⟩

/-- Add a factory, replacing the one of the same key. -/
def register (registry : Registry) (key : String) (factory : AbilityFactory) : Registry :=
  ⟨registry.factories.insert key factory⟩

def contains (registry : Registry) (key : String) : Bool := registry.factories.contains key

def keys (registry : Registry) : List String := registry.factories.keys

def size (registry : Registry) : Nat := registry.factories.size

def isEmpty (registry : Registry) : Bool := registry.factories.isEmpty

def build (registry : Registry) (d : Descriptor) (origin : Origin) (s : State) : Outcome Ability :=
  match registry.factories.get? d.key with
  | some factory => factory d.params origin s
  | none => .error (.unknownAbilityKey d.key)

/-- Build the abilities of a card in order, each with the next number; gives the state in which
    these numbers are taken. -/
def buildAll (registry : Registry) (source : CardId) : State → List Descriptor →
    Outcome (State × List Ability)
  | s, [] => .ok (s, [])
  | s, d :: rest => do
    let (s, id) := s.takeAbilityId
    let ability ← registry.build d ⟨id, source⟩ s
    let (s, others) ← registry.buildAll source s rest
    .ok (s, ability :: others)

def describe (registry : Registry) : String :=
  let keys := String.intercalate ", " (registry.keys.map Text.quoted)
  s!"AbilityRegistry \x7b keys: [{keys}] \x7d"

end Registry

end CardGame
