import CardGame.State.Derive

/-! # Declaring attackers and blockers

Declarations are judged on derived characteristics and recorded in the state as it is.
-/

namespace CardGame.State

def requireCombatStep (s : State) (step : Step) : Outcome Unit :=
  Outcome.require (s.moment = ⟨.combat, some step⟩) (.wrongTiming s.moment)

/-- A card that the player can attack or block with: an untapped creature on a battlefield under
    the player's control. -/
def readyCreature (s : State) (id : CardId) (player : Seat) : Outcome Card := do
  let card ← s.card id
  Outcome.require (s.isOnBattlefield id) (.notOnBattlefield id)
  Outcome.require (card.controller = player) (.notController id player)
  Outcome.require card.isCreature (.notACreature id)
  Outcome.require (!card.tapped) (.tapped id)
  .ok card

/-- Declare one more attacker of a combat, in the view of derived characteristics. -/
def addAttacker (view : State) (player : Seat) (combat : Combat) (attacker : CardId) :
    Outcome Combat := do
  Outcome.require (!combat.isAttacking attacker) (.duplicateDeclaration attacker)
  let card ← view.readyCreature attacker player
  Outcome.require (!card.isSummoningSick) (.summoningSick attacker)
  .ok { combat with attackers := combat.attackers ++ [attacker] }

/-- Tap the attackers that have no vigilance in the view. -/
def tapAttackers (s view : State) (attackers : List CardId) : State :=
  attackers.foldl
    (fun s attacker =>
      if (view.card? attacker).any (·.hasKeyword .vigilance) then s
      else s.updateCard attacker fun c => { c with tapped := true })
    s

/-- Open combat with the attackers of the active player, of whom there may be none. -/
def declareAttackers (s : State) (player : Seat) (attackers : List CardId) : Outcome State := do
  s.requireCombatStep .declareAttackers
  Outcome.require (player = s.activePlayer) (.notActivePlayer player)
  Outcome.require s.combat.isNone (.wrongTiming s.moment)
  let view := s.derive
  let combat ← attackers.foldlM (view.addAttacker player) (.opening player (s.nextSeat player))
  .ok { s.tapAttackers view attackers with combat := some combat }

/-- Declare one more blocker of a combat, in the view of derived characteristics. A flying attacker
    is blocked by flying creatures only. -/
def addBlocker (view : State) (player : Seat) (combat : Combat) (block : CardId × CardId) :
    Outcome Combat := do
  let (blocker, attacker) := block
  Outcome.require (!combat.isBlocking blocker) (.duplicateDeclaration blocker)
  let blocking ← view.readyCreature blocker player
  Outcome.require (combat.isAttacking attacker) (.notAttacking attacker)
  let attacking ← view.card attacker
  Outcome.require (!attacking.hasKeyword .flying || blocking.hasKeyword .flying)
    (.cannotBlock blocker attacker)
  .ok (combat.addBlock blocker attacker)

/-- Declare blockers of the defending player, each with the attacker that it blocks. -/
def declareBlockers (s : State) (player : Seat) (blocks : List (CardId × CardId)) :
    Outcome State := do
  s.requireCombatStep .declareBlockers
  match s.combat with
  | none => .error (.illegal (.wrongTiming s.moment))
  | some combat => do
    Outcome.require (player = combat.defendingPlayer) (.notDefendingPlayer player)
    let declared ← blocks.foldlM (s.derive.addBlocker player) combat
    .ok { s with combat := some declared }

end CardGame.State
