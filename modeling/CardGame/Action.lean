import CardGame.Id

/-! # Actions

What the player with priority can do.
-/

namespace CardGame

inductive Action where
  | playLand (card : CardId)
  | castSpell (card : CardId) (targets : List CardId)
  | activateAbility (card : CardId) (ability : AbilityId) (targets : List CardId)
  | passPriority
  | advanceStep
  | advanceTurn
  deriving DecidableEq, Repr

namespace Action

def name : Action → String
  | playLand _ => "play_land"
  | castSpell .. => "cast_spell"
  | activateAbility .. => "activate_ability"
  | passPriority => "pass_priority"
  | advanceStep => "advance_step"
  | advanceTurn => "advance_turn"

def isPass : Action → Bool
  | passPriority => true
  | _ => false

end Action

end CardGame
