import CardGame.Effect.Resolve

/-! # The stack and priority

Spells wait on the stack until every player has passed in turn; then the top one resolves.
-/

namespace CardGame

inductive PassOutcome where
  | passed
  /-- Every player has passed, and the top of the stack resolved. -/
  | resolved (card : CardId)
  /-- Every player has passed, and the stack was empty. -/
  | allPassed
  deriving DecidableEq, Repr

namespace State

/-- Put a card on top of the stack, with its controller and targets. -/
def putOnStack (s : State) (card : CardId) (controller : Seat) (targets : List CardId) :
    Outcome State := do
  let next ← s.move card s.stackZone
  .ok (next.updateCard card fun c => { c with controller := controller, targets := targets })

/-- Let written effects happen in turn. -/
def resolveEffects (s : State) (context : EffectContext) (effects : List Descriptor) :
    Outcome State :=
  effects.foldlM (fun s d => do
    let effect ← Effect.ofDescriptor d
    effect.resolve s context) s

/-- Resolve one card of the stack: a permanent enters the battlefield, an instant or sorcery has
    its effects and goes to the graveyard. -/
def resolveCard (s : State) (id : CardId) : Outcome State := do
  let card ← s.card id
  if card.definition.isPermanent then s.enter id card.controller
  else do
    let next ← s.resolveEffects ⟨id, card.controller, card.targets⟩ card.definition.effects
    next.bury id

def resolveTop (s : State) : Outcome State := do
  let stack ← s.zone s.stackZone
  match stack.top? with
  | none => .ok s
  | some top => s.resolveCard top

/-- Note that somebody acted. -/
def noteAction (s : State) : State := { s with passes := 0 }

def giveActivePriority (s : State) : State := { s with priorityPlayer := s.activePlayer, passes := 0 }

/-- Pass priority. The last of all players to pass in a row lets the top of the stack resolve. -/
def pass (s : State) : Outcome (State × PassOutcome) := do
  let s := { s with passes := s.passes + 1 }
  if s.passes < s.playerCount then
    .ok ({ s with priorityPlayer := s.nextSeat s.priorityPlayer }, .passed)
  else do
    let stack ← s.zone s.stackZone
    match stack.top? with
    | none => .ok (s.giveActivePriority, .allPassed)
    | some top => do
      let next ← s.resolveTop
      .ok (next.giveActivePriority, .resolved top)

end State

end CardGame
