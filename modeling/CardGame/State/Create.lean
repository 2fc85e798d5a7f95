import CardGame.Ability.Registry

/-! # Creating cards -/

namespace CardGame.State

/-- Create a card on top of a zone, with the abilities that the registry builds for it. -/
def create (s : State) (registry : Registry) (d : Definition) (owner : Seat) (zone : ZoneId) :
    Outcome (State × CardId) := do
  let _ ← s.player owner
  let _ ← s.zone zone
  let id := s.nextCard
  let (s, abilities) ← registry.buildAll id s d.abilities
  let s :=
    { s with
      cards := s.cards.insert id (Card.create id d owner zone abilities), nextCard := id + 1 }
  .ok (s.updateZone zone (·.push id), id)

end CardGame.State
