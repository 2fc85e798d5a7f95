import CardGame.State.Basic

/-! # Evaluating trigger conditions -/

namespace CardGame

namespace TriggerPredicate

mutual

/-- Does the predicate hold for an event, seen from the card with the ability? -/
def holds (event : Event) (s : State) (source : CardId) : TriggerPredicate → Bool
  | always => true
  | subjectIsSource => event.subject = source
  | subjectIsNotSource => event.subject ≠ source
  | subjectControlledBySourceController =>
    (s.card? source).any fun c => c.controller = event.controller
  | sourceOnBattlefield => s.isOnBattlefield source
  | all predicates => allHold event s source predicates
  | not predicate => !holds event s source predicate

def allHold (event : Event) (s : State) (source : CardId) : List TriggerPredicate → Bool
  | [] => true
  | predicate :: rest => holds event s source predicate && allHold event s source rest

end

end TriggerPredicate

def TriggerCondition.holds (c : TriggerCondition) (event : Event) (s : State) (source : CardId) :
    Bool :=
  event.kind = c.event && c.predicate.holds event s source

def TriggeredAbility.fires (ability : TriggeredAbility) (event : Event) (s : State) : Bool :=
  ability.condition.holds event s ability.source

/-- The deaths that lie between two states: creatures on battlefields before that are in graveyards
    after. -/
def State.deaths (before after : State) : List Event :=
  (before.creatures.filter fun e => after.zoneKind? e.1 = some .graveyard).map fun e =>
    .creatureDied e.1 e.2.controller e.2.owner

end CardGame
