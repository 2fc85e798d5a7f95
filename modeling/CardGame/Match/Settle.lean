import CardGame.StateBased
import CardGame.Trigger.Resolve

/-! # Settling

After every operation the game comes to rest: deaths are published and what they trigger resolves,
and state-based actions follow, round by round until a round brings nothing new.
-/

namespace CardGame.State

/-- Settle from `current`, counting deaths since `baseline` and adding them to `events`, in `left`
    rounds at most out of `limit`. -/
def settleRounds (limit : Nat) (baseline current : State) (events : List Event) :
    (left : Nat) → Outcome (State × List Event)
  | 0 => .error (.nonConvergence limit)
  | left + 1 => do
    let deaths := baseline.deaths current
    let resolved ← current.dispatch deaths
    let r ← resolved.toRest
    if deaths.isEmpty && !r.changed then .ok (r.state, events ++ deaths)
    else settleRounds limit current r.state (events ++ deaths) left

/-- Bring a state to rest after an operation that began in `before`; gives the deaths on the way. -/
def settle (rounds : Nat) (before after : State) : Outcome (State × List Event) :=
  settleRounds rounds before after.derive [] rounds

end CardGame.State
