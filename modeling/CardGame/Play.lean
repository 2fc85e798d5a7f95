import CardGame.Ability.Activate
import CardGame.Stack
import CardGame.State.Derive

/-! # Playing cards and abilities

Each way to act has a check, which names the first rule in the way, a predicate, which tells whether
there is none, and an operation, which succeeds where the check does.
-/

namespace CardGame.State

def requirePriority (s : State) (player : Seat) : Outcome Unit :=
  Outcome.require (s.priorityPlayer = player) (.notPriorityHolder player)

/-- Lands and all spells but instants wait for a main phase of the player's own turn and an empty
    stack. -/
def requireSorceryTiming (s : State) (player : Seat) : Outcome Unit := do
  Outcome.require (player = s.activePlayer) (.notActivePlayer player)
  Outcome.require s.moment.phase.isMain (.wrongTiming s.moment)
  Outcome.require s.stackIsEmpty .stackNotEmpty

def cardInHand (s : State) (player : Seat) (id : CardId) : Outcome Card := do
  let card ← s.card id
  let p ← s.player player
  Outcome.require (card.zone = p.zones.hand) (.notInHand id)
  .ok card

/-- Are these targets that every written effect can have? -/
def checkEffectTargets (s : State) (targets : List CardId) (effects : List Descriptor) :
    Outcome Unit :=
  effects.forM fun d => do
    let effect ← Effect.ofDescriptor d
    effect.checkTargets s targets

/-- May the player cast the card with these targets? -/
def checkCast (s : State) (player : Seat) (id : CardId) (targets : List CardId) : Outcome Unit := do
  s.requirePriority player
  let card ← s.cardInHand player id
  Outcome.require (!card.isLand) (.cannotCastLand id)
  if card.definition.hasType .instant then .ok () else s.requireSorceryTiming player
  let cost ← card.definition.manaCost
  let caster ← s.player player
  Outcome.require (caster.mana.canPay cost) .cannotPayCost
  s.derive.checkEffectTargets targets card.definition.effects

def canCast (s : State) (player : Seat) (id : CardId) (targets : List CardId) : Bool :=
  (s.checkCast player id targets).isOk

/-- Pay for a card and put it on the stack. -/
def cast (s : State) (player : Seat) (id : CardId) (targets : List CardId) : Outcome State := do
  s.checkCast player id targets
  let card ← s.card id
  let cost ← card.definition.manaCost
  let paid := s.updatePlayer player fun p => { p with mana := (p.mana.pay? cost).getD p.mana }
  let next ← paid.putOnStack id player targets
  .ok next.noteAction

/-- May the player play the card as the land of the turn? -/
def checkLand (s : State) (player : Seat) (id : CardId) : Outcome Unit := do
  s.requirePriority player
  s.requireSorceryTiming player
  let card ← s.cardInHand player id
  Outcome.require card.isLand (.notALand id)
  let p ← s.player player
  Outcome.require (p.landsPlayed = 0) .landAlreadyPlayed

def canPlayLand (s : State) (player : Seat) (id : CardId) : Bool := (s.checkLand player id).isOk

/-- Put a land from the hand onto the battlefield, past the stack. -/
def playLand (s : State) (player : Seat) (id : CardId) : Outcome State := do
  s.checkLand player id
  let next ← s.enter id player
  .ok (next.updatePlayer player fun p => { p with landsPlayed := p.landsPlayed + 1 }).noteAction

def activatedAbility (s : State) (id : CardId) (ability : AbilityId) : Outcome ActivatedAbility := do
  let card ← s.card id
  match card.activated? ability with
  | some a => .ok a
  | none => .error (.illegal (.unknownAbility id ability))

/-- May the player activate the ability with these targets, by derived characteristics? -/
def checkActivate (s : State) (player : Seat) (id : CardId) (ability : AbilityId)
    (targets : List CardId) : Outcome Unit := do
  s.requirePriority player
  let view := s.derive
  let a ← view.activatedAbility id ability
  a.check view player
  a.effect.checkTargets view targets

def canActivate (s : State) (player : Seat) (id : CardId) (ability : AbilityId)
    (targets : List CardId) : Bool :=
  (s.checkActivate player id ability targets).isOk

/-- Activate an ability. It does not use the stack, and the state comes out derived. -/
def activate (s : State) (player : Seat) (id : CardId) (ability : AbilityId)
    (targets : List CardId) : Outcome State := do
  s.checkActivate player id ability targets
  let view := s.derive
  let a ← view.activatedAbility id ability
  let next ← a.activate view player targets
  .ok next.noteAction

end CardGame.State
