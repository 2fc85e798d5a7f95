import CardGame.Combat.Damage
import CardGame.Config
import CardGame.Stack

/-! # The course of a turn

Moments follow each other in the order of the turn; after the last one the next seat begins a turn.
Beginning a moment empties the mana pools and does what its step asks for.
-/

namespace CardGame.State

/-- The first moment of the next seat's turn. -/
def nextTurn (s : State) : State :=
  let active := s.nextSeat s.activePlayer
  { s with turn := s.turn + 1, moment := .first, activePlayer := active, priorityPlayer := active,
           passes := 0 }

/-- Go to the next moment. A moment outside the order of the turn has none. -/
def advance (s : State) : State :=
  match s.moment.next? with
  | some moment => { s with moment := moment }
  | none => if s.moment.position?.isSome then s.nextTurn else s

/-- The permanents of the active player untap, and every player may play a land again. -/
def untapStep (s : State) : Outcome State := do
  let own := s.permanents fun c => c.controller = s.activePlayer
  let ready ← s.changeCards own fun c => { c with tapped := false, summoningSick := false }
  .ok (ready.updateSeats fun p => { p with landsPlayed := 0 })

/-- The active player draws, but not in a first turn without a draw. -/
def drawStep (s : State) (config : Config) : Outcome State :=
  if s.turn = 1 && config.skipFirstDraw then .ok s
  else do
    let (next, _) ← s.draw s.activePlayer
    .ok next

/-- Damage wears off. -/
def cleanupStep (s : State) : Outcome State :=
  s.changeCards (s.permanents fun c => c.damage ≠ 0) fun c => { c with damage := 0 }

def beginMoment (s : State) (config : Config) : Outcome State :=
  let s := s.emptyPools
  match s.moment.step with
  | some .untap => s.untapStep
  | some .draw => s.drawStep config
  | some .combatDamage => s.combatDamage
  | some .endCombat => .ok { s with combat := none }
  | some .cleanup => s.cleanupStep
  | _ => .ok s

/-- The active player ends the present moment; the stack must be empty. -/
def endMoment (s : State) (config : Config) (player : Seat) : Outcome State := do
  Outcome.require (player = s.activePlayer) (.notActivePlayer player)
  Outcome.require s.stackIsEmpty .stackNotEmpty
  let next ← s.advance.beginMoment config
  .ok next.giveActivePriority

end CardGame.State
