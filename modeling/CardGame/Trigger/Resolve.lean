import CardGame.Effect.Resolve
import CardGame.State.Derive
import CardGame.Trigger.Evaluate

/-! # Resolving triggered abilities

Events are handled one after the other. For each, the abilities that fire resolve in the order of
their numbers.
-/

namespace CardGame

namespace TriggeredAbility

/-- Who controls the ability on an event: for the death of its own card the controller in the
    event, otherwise the present controller of its card. -/
def controllerOn (ability : TriggeredAbility) (s : State) (event : Event) : Outcome Seat :=
  if event.subject = ability.source then .ok event.controller
  else do
    let source ← s.card ability.source
    .ok source.controller

def resolve (ability : TriggeredAbility) (s : State) (event : Event) : Outcome State := do
  let controller ← ability.controllerOn s event
  ability.effect.resolve s ⟨ability.source, controller, []⟩

/-- Put an ability in front of the first one with a larger number. -/
def insertById (ability : TriggeredAbility) : List TriggeredAbility → List TriggeredAbility
  | [] => [ability]
  | other :: rest =>
    if ability.id ≤ other.id then ability :: other :: rest
    else other :: insertById ability rest

/-- List abilities by number; those of one number keep their order. -/
def orderById (abilities : List TriggeredAbility) : List TriggeredAbility :=
  abilities.foldr insertById []

end TriggeredAbility

namespace State

/-- Every triggered ability that fires on an event, by number. -/
def fired (s : State) (event : Event) : List TriggeredAbility :=
  TriggeredAbility.orderById
    ((s.cards.values.flatMap fun c => c.triggered).filter fun ability => ability.fires event s)

/-- Resolve abilities in turn, deriving characteristics after each. -/
def resolveTriggers (s : State) (event : Event) (abilities : List TriggeredAbility) :
    Outcome State :=
  abilities.foldlM (fun s ability => do
    let next ← ability.resolve s event
    .ok next.derive) s

/-- Resolve what fires on each event in turn. -/
def dispatch (s : State) (events : List Event) : Outcome State :=
  events.foldlM (fun s event => s.resolveTriggers event (s.fired event)) s

end State

end CardGame
