import CardGame.Effect.Resolve

/-! # Paying for and using activated abilities -/

namespace CardGame

namespace ActivationCost

/-- Can the player pay this for an ability of the source? -/
def check (cost : ActivationCost) (s : State) (source : CardId) (player : Seat) : Outcome Unit :=
  match cost with
  | tap => do
    let card ← s.card source
    Outcome.require (!card.tapped) (.tapped source)
    Outcome.require (!(card.isCreature && card.isSummoningSick)) (.summoningSick source)
  | mana cost => do
    let p ← s.player player
    Outcome.require (p.mana.canPay cost) .cannotPayCost
  | payLife amount => do
    let p ← s.player player
    Outcome.require (amount ≤ p.life) .cannotPayCost

/-- The state after paying, which the check allows. -/
def pay (cost : ActivationCost) (s : State) (source : CardId) (player : Seat) : Outcome State := do
  cost.check s source player
  match cost with
  | tap => .ok (s.updateCard source fun c => { c with tapped := true })
  | mana cost => .ok (s.updatePlayer player fun p => { p with mana := (p.mana.pay? cost).getD p.mana })
  | payLife amount =>
    .ok (s.updatePlayer player fun p => { p with life := word (p.life - amount) })

/-- Check several costs, each against the state as it is. -/
def checkAll (costs : List ActivationCost) (s : State) (source : CardId) (player : Seat) :
    Outcome Unit :=
  costs.forM fun cost => cost.check s source player

/-- Pay several costs in turn, each from what the ones before leave. -/
def payAll (costs : List ActivationCost) (s : State) (source : CardId) (player : Seat) :
    Outcome State :=
  costs.foldlM (fun s cost => cost.pay s source player) s

end ActivationCost

namespace ActivatedAbility

/-- May the player activate the ability, targets aside? Its card must be on a battlefield under the
    player's control, and each cost must be payable. -/
def check (ability : ActivatedAbility) (s : State) (player : Seat) : Outcome Unit := do
  let source ← s.card ability.source
  Outcome.require (s.isOnBattlefield ability.source) (.notOnBattlefield ability.source)
  Outcome.require (source.controller = player) (.notController ability.source player)
  ActivationCost.checkAll ability.costs s ability.source player

/-- Pay the costs, then let the effect happen at once. -/
def activate (ability : ActivatedAbility) (s : State) (player : Seat) (targets : List CardId) :
    Outcome State := do
  ability.check s player
  ability.effect.checkTargets s targets
  let paid ← ActivationCost.payAll ability.costs s ability.source player
  ability.effect.resolve paid ⟨ability.source, player, targets⟩

end ActivatedAbility

end CardGame
