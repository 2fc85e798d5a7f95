import CardGame.Effect.Apply

/-! # Deriving characteristics

The characteristics of all cards are the printed ones, changed by the static abilities of cards on
battlefields, layer by layer, and last by counters. Deriving them again changes nothing.
-/

namespace CardGame

/-- What the plus-one and minus-one counters of a card amount to. -/
def Card.counterDelta (card : Card) : Int :=
  (card.counterCount plusOne : Int) - (card.counterCount minusOne : Int)

/-- Has the card plus-one or minus-one counters? The counters of both kinds are counted together. -/
def Card.isCountered (card : Card) : Bool :=
  tally (card.counterCount plusOne + card.counterCount minusOne) > 0

/-- Let counters change power and toughness, if the card has both. -/
def Card.withCounters (card : Card) : Card :=
  match card.characteristics.power, card.characteristics.toughness with
  | some _, some _ =>
    { card with
      characteristics := card.characteristics.raise card.counterDelta card.counterDelta }
  | _, _ => card

namespace State

/-- Make the characteristics of every card the printed ones. -/
def strip (s : State) : State := { s with cards := s.cards.map Card.strip }

/-- The static abilities of the cards on battlefields, in the order in which they apply: by layer,
    then by card, then as listed on the card. -/
def activeStatics (s : State) : List StaticAbility :=
  Layer.arrange StaticAbility.layer (s.battlefield.flatMap fun e => e.2.statics)

/-- Apply static abilities in turn, each to what the ones before have made. -/
def applyStatics (s : State) (abilities : List StaticAbility) : State :=
  abilities.foldl (fun s ability => ability.effect.apply s) s

/-- Let the counters of the cards on battlefields count. -/
def countCounters (s : State) : State :=
  s.updateCards (s.permanents Card.isCountered) Card.withCounters

/-- Derive the characteristics of every card. -/
def derive (s : State) : State := (s.strip.applyStatics s.activeStatics).countCounters

end State

end CardGame
