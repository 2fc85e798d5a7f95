import CardGame.Id

/-! # Events

Things that happen in a game and that abilities can wait for.
-/

namespace CardGame

inductive EventKind where
  | creatureDied
  deriving DecidableEq, Repr

def EventKind.label : EventKind → String
  | creatureDied => "CREATURE_DIED"

inductive Event where
  /-- A creature went from a battlefield to a graveyard; controller and owner as they were on the
      battlefield. -/
  | creatureDied (card : CardId) (controller owner : Seat)
  deriving DecidableEq, Repr

namespace Event

def kind : Event → EventKind
  | creatureDied .. => .creatureDied

def subject : Event → CardId
  | creatureDied card _ _ => card

def controller : Event → Seat
  | creatureDied _ controller _ => controller

/-- The kind, and the subject in braces. -/
def label (event : Event) : String := s!"{event.kind.label}\x7b{event.subject.label}\x7d"

end Event

end CardGame
