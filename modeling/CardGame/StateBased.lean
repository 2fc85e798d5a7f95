import CardGame.State.Derive
import CardGame.State.Move

/-! # State-based actions

Players without life lose, and creatures with lethal damage go to the graveyard, again and again
until nothing changes. Since a player loses once and a creature dies once, the players and creatures
at the start bound the number of passes.
-/

namespace CardGame

/-- Has the player no life left, and not lost yet? -/
def Player.isLosing (p : Player) : Bool := p.life ≤ 0 && !p.hasLost

/-- A player without life loses. -/
def Player.checkLife (p : Player) : Player := if p.life ≤ 0 then { p with hasLost := true } else p

namespace State

def markLosers (s : State) : State := s.updateSeats Player.checkLife

/-- Does a player at the table lose now? -/
def hasLoser (s : State) : Bool :=
  (Seat.all s.playerCount).any fun seat => (s.player? seat).any Player.isLosing

/-- The creatures on battlefields with lethal damage. -/
def dying (s : State) : List CardId :=
  (s.creatures.filter fun e => e.2.hasLethalDamage).map (·.1)

/-- One pass, and whether it changed anything. Characteristics are derived before it and, after a
    change, once more. -/
def stateBasedPass (s : State) : Outcome (State × Bool) := do
  let derived := s.derive
  let dying := derived.dying
  let next ← dying.foldlM bury derived.markLosers
  if derived.hasLoser || !dying.isEmpty then .ok (next.derive, true)
  else .ok (next, false)

end State

/-- A state in which no state-based action is left to do, and how many passes changed something on
    the way to it. -/
structure AtRest where
  state : State
  passes : Nat
  deriving DecidableEq, Repr

def AtRest.changed (r : AtRest) : Bool := r.passes > 0

namespace State

/-- Repeat passes until one changes nothing, `left` of them at most; `done` were made before. -/
def repeatPasses (s : State) (done : Nat) : (left : Nat) → Outcome AtRest
  | 0 => .error (.nonConvergence done)
  | left + 1 => do
    let (next, changed) ← s.stateBasedPass
    if changed then next.repeatPasses (done + 1) left else .ok ⟨next, done⟩

/-- Do state-based actions until none is left. -/
def toRest (s : State) : Outcome AtRest :=
  let derived := s.derive
  derived.repeatPasses 0 (derived.playerCount + derived.creatures.length + 1)

end State

end CardGame
