import CardGame.Definition
import CardGame.Layer

/-! # Continuous effects

What a static ability does for as long as its source is on the battlefield.
-/

namespace CardGame

/-- Which cards a continuous effect reaches. -/
inductive Affected where
  | source
  /-- Creatures with the same controller as the source. -/
  | creaturesYouControl (includeSource : Bool)
  | allCreatures
  deriving DecidableEq, Repr

/-- What a continuous effect does to a card that it reaches. -/
inductive Modification where
  | addType (type : CardType)
  | grantKeyword (keyword : Keyword)
  | setPowerToughness (power toughness : Int)
  | modifyPowerToughness (power toughness : Int)
  deriving DecidableEq, Repr

def Modification.layer : Modification → Layer
  | addType _ => .type
  | grantKeyword _ => .ability
  | setPowerToughness .. => .powerToughnessSet
  | modifyPowerToughness .. => .powerToughnessModify

structure ContinuousEffect where
  source : CardId
  affected : Affected
  modification : Modification
  deriving DecidableEq, Repr

def ContinuousEffect.layer (effect : ContinuousEffect) : Layer := effect.modification.layer

end CardGame
