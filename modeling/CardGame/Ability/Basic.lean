import CardGame.Effect.Basic
import CardGame.Effect.Continuous
import CardGame.Trigger.Basic

/-! # Abilities

A card has static, triggered and activated abilities, each with a number of its own.
-/

namespace CardGame

/-- One part of what activating an ability costs. -/
inductive ActivationCost where
  | tap
  | mana (cost : Mana.Cost)
  | payLife (amount : Int)
  deriving DecidableEq, Repr

def ActivationCost.text : ActivationCost → String
  | tap => String.ofList (Mana.writeSymbols [['T']])
  | mana cost => cost.text
  | payLife amount => s!"Pay {amount} life"

structure StaticAbility where
  id : AbilityId
  source : CardId
  effect : ContinuousEffect
  deriving DecidableEq, Repr

namespace StaticAbility

/-- The ability of the card that is the source of an effect. -/
def ofEffect (id : AbilityId) (effect : ContinuousEffect) : StaticAbility :=
  ⟨id, effect.source, effect⟩

def layer (ability : StaticAbility) : Layer := ability.effect.layer

end StaticAbility

structure TriggeredAbility where
  id : AbilityId
  source : CardId
  condition : TriggerCondition
  effect : Effect
  deriving DecidableEq, Repr

structure ActivatedAbility where
  id : AbilityId
  source : CardId
  costs : List ActivationCost
  effect : Effect
  deriving DecidableEq, Repr

inductive Ability where
  | static (ability : StaticAbility)
  | triggered (ability : TriggeredAbility)
  | activated (ability : ActivatedAbility)
  deriving DecidableEq, Repr

namespace Ability

def id : Ability → AbilityId
  | static a => a.id
  | triggered a => a.id
  | activated a => a.id

def source : Ability → CardId
  | static a => a.source
  | triggered a => a.source
  | activated a => a.source

def static? : Ability → Option StaticAbility
  | static a => some a
  | _ => none

def triggered? : Ability → Option TriggeredAbility
  | triggered a => some a
  | _ => none

def activated? : Ability → Option ActivatedAbility
  | activated a => some a
  | _ => none

end Ability

end CardGame
