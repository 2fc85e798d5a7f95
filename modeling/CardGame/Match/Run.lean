import CardGame.Action
import CardGame.Combat.Declare
import CardGame.Match.Basic
import CardGame.Match.Settle
import CardGame.Play
import CardGame.Turn

/-! # Running a match

An operation works on the state with printed characteristics, and the result is settled before it
becomes the present state. An operation that fails changes nothing.
-/

namespace CardGame

namespace State

/-- The settled state after an operation, and the deaths on the way. -/
def perform (s : State) (config : Config) (operation : State → Outcome State) :
    Outcome (State × List Event) := do
  let after ← operation s.strip
  State.settle config.maxEventRounds s after

/-- How many moments a player ends in a row at most. A turn in order has twelve. A moment outside the
    order repeats, and only combat damage can end the game then; each time takes something from a
    life total or from a creature, so the bound is larger than any of these is in a game. -/
def maxMoments : Nat := Nat.pow 2 64

/-- Let the active player end moment after moment until the turn is over or the game is, in `left`
    moments at most. -/
def endMoments (config : Config) (player : Seat) (turn : Nat) (s : State) (events : List Event) :
    (left : Nat) → Outcome (State × List Event)
  | 0 => .error (.nonConvergence maxMoments)
  | left + 1 => do
    let (next, more) ← s.perform config fun s => s.endMoment config player
    if next.turn = turn && !next.isOver then
      endMoments config player turn next (events ++ more) left
    else .ok (next, events ++ more)

def endTurn (s : State) (config : Config) (player : Seat) : Outcome (State × List Event) :=
  endMoments config player s.turn s [] maxMoments

/-- The settled state after an action, and the deaths on the way. -/
def act (s : State) (config : Config) (player : Seat) (action : Action) :
    Outcome (State × List Event) :=
  match action with
  | .playLand card => s.perform config fun s => s.playLand player card
  | .castSpell card targets => s.perform config fun s => s.cast player card targets
  | .activateAbility card ability targets =>
    s.perform config fun s => s.activate player card ability targets
  | .passPriority => s.perform config fun s => do
    let (next, _) ← s.pass
    .ok next
  | .advanceStep => s.perform config fun s => s.endMoment config player
  | .advanceTurn => s.endTurn config player

end State

inductive Submission where
  | applied (events : List Event)
  | ignored (reason : RuleError)
  deriving DecidableEq, Repr

namespace Match

/-- Apply an action of the player who holds priority. -/
def apply (m : Match) (player : Seat) (action : Action) : Outcome (Match × List Event) := do
  Outcome.require (!m.state.isOver) .gameOver
  let _ ← m.state.player player
  m.state.requirePriority player
  let (next, events) ← m.state.act m.config player action
  .ok (m.commit next events, events)

/-- Apply an action, or say why the match stays as it is. -/
def submit (m : Match) (player : Seat) (action : Action) : Match × Submission :=
  match m.apply player action with
  | .ok (next, events) => (next, .applied events)
  | .error reason => (m, .ignored reason)

/-- Apply a declaration. It needs no priority, and passes start again after it. -/
def declare (m : Match) (declaration : State → Outcome State) : Outcome (Match × List Event) := do
  Outcome.require (!m.state.isOver) .gameOver
  let (next, events) ← m.state.perform m.config fun s => do
    let declared ← declaration s
    .ok declared.noteAction
  .ok (m.commit next events, events)

def declareAttackers (m : Match) (player : Seat) (attackers : List CardId) :
    Outcome (Match × List Event) :=
  m.declare fun s => s.declareAttackers player attackers

/-- Each blocker is declared with the attacker that it blocks. -/
def declareBlockers (m : Match) (player : Seat) (blocks : List (CardId × CardId)) :
    Outcome (Match × List Event) :=
  m.declare fun s => s.declareBlockers player blocks

/-- Bring the present state to rest. Where that changes nothing, no checkpoint is kept. -/
def checkState (m : Match) : Outcome (Match × List Event) := do
  let (next, events) ← State.settle m.config.maxEventRounds m.state m.state
  if next = m.state ∧ events = [] then .ok (m, []) else .ok (m.commit next events, events)

end Match

end CardGame
