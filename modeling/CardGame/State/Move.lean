import CardGame.State.Basic

/-! # Moving cards

A card's own zone and the sequences of the zones change together. Every number is looked up before
anything changes, so a failing move leaves no trace.
-/

namespace CardGame

/-- What happens to a card that goes from a zone of one kind to a zone of another. Off the
    battlefield nothing of what happened there is left, targets are kept only on the stack, and
    outside the stack and the battlefield the owner has control. -/
def Card.movedTo (card : Card) (source target : ZoneKind) (zone : ZoneId) : Card :=
  let card := { card with zone := zone }
  let card :=
    if source.isBattlefield && !target.isBattlefield then
      { card with tapped := false, damage := 0, counters := .empty, summoningSick := false,
                  enteredTurn := none }
    else card
  let card := if target = .stack then card else { card with targets := [] }
  if target = .stack ∨ target = .battlefield then card else { card with controller := card.owner }

namespace State

/-- Move a card to the top of a zone. -/
def move (s : State) (card : CardId) (target : ZoneId) : Outcome State := do
  let c ← s.card card
  let sourceZone ← s.zone c.zone
  let targetZone ← s.zone target
  let s := s.updateZone c.zone (·.remove card)
  let s := s.updateZone target (·.push card)
  .ok (s.updateCard card (·.movedTo sourceZone.kind targetZone.kind target))

/-- Move the top card of a player's library to the player's hand. There may be none. -/
def draw (s : State) (seat : Seat) : Outcome (State × Option CardId) := do
  let p ← s.player seat
  let library ← s.zone p.zones.library
  match library.top? with
  | none => .ok (s, none)
  | some card => do
    let next ← s.move card p.zones.hand
    .ok (next, some card)

/-- Draw up to so many cards, as long as there are any. -/
def drawMany (s : State) (seat : Seat) : Nat → Outcome State
  | 0 => .ok s
  | n + 1 => do
    let (next, drawn) ← s.draw seat
    match drawn with
    | none => .ok next
    | some _ => next.drawMany seat n

/-- Put a card onto a player's battlefield as a new permanent of that player. -/
def enter (s : State) (card : CardId) (seat : Seat) : Outcome State := do
  let p ← s.player seat
  let next ← s.move card p.zones.battlefield
  .ok (next.updateCard card fun c =>
    { c with controller := seat, enteredTurn := some s.turn, summoningSick := true })

/-- Put a card into its owner's graveyard. -/
def bury (s : State) (card : CardId) : Outcome State := do
  let c ← s.card card
  let p ← s.player c.owner
  s.move card p.zones.graveyard

/-- Put creatures on battlefields into their owners' graveyards; other cards stay. -/
def destroy (s : State) : List CardId → Outcome State
  | [] => .ok s
  | card :: rest =>
    if s.isCreatureInPlay card then do
      let next ← s.bury card
      next.destroy rest
    else s.destroy rest

def emptyPools (s : State) : State :=
  { s with players := s.players.map fun p => { p with mana := .empty } }

end State

end CardGame
