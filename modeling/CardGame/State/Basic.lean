import CardGame.Card
import CardGame.Combat.Basic
import CardGame.Player
import CardGame.Zone

/-! # The state of a game

One value holds the players by seat, the zones by number, every card ever created, and where the
turn stands. Looking up a number that names nothing fails; asking about it gives the plain answer.
-/

namespace CardGame

structure State where
  /-- The players, each at the number of the seat. -/
  players : List Player
  zones : Table ZoneId Zone
  /-- Every card ever created. In a game each is at the number that it carries. -/
  cards : Table CardId Card
  /-- Whose turn it is. -/
  activePlayer : Seat
  /-- Who may act. -/
  priorityPlayer : Seat
  turn : Nat
  moment : Moment
  stackZone : ZoneId
  /-- Passes in a row since somebody last acted. -/
  passes : Nat
  combat : Option Combat
  nextCard : CardId
  nextAbility : AbilityId
  deriving DecidableEq, Repr

namespace State

/-- The zones of a seat, empty. -/
def zonesOf (seat : Seat) : List (ZoneId × Zone) :=
  (PlayerZones.ofSeat seat).all.zip (PlayerZones.kinds.map fun kind => .empty kind (some seat))

/-- The number of the stack, which comes after the zones of all the players. -/
def stackOf (players : Nat) : ZoneId := PlayerZones.count * players

/-- Players with empty zones at the start of turn one. -/
def initial (players : Nat) (life : Int) : State where
  players := (List.range players).map fun seat => .initial seat life
  zones := .ofList ((List.range players).flatMap zonesOf ++ [(stackOf players, .empty .stack none)])
  cards := .empty
  activePlayer := 0
  priorityPlayer := 0
  turn := 1
  moment := .first
  stackZone := stackOf players
  passes := 0
  combat := none
  nextCard := 1
  nextAbility := 1

/-- The largest number of players whose zones have numbers. -/
def maxPlayers : Nat := 51

/-- A new game for at least one player and no more than there are zones for. -/
def seated (players : Nat) (life : Int) : Except SetupError State :=
  if players = 0 then .error .noPlayers
  else if players > maxPlayers then .error .tooManyForZones
  else .ok (initial players life)

def playerCount (s : State) : Nat := s.players.length

def seats (s : State) : List Seat := List.range s.playerCount

def nextSeat (s : State) (seat : Seat) : Seat := seat.next s.playerCount

def player? (s : State) (seat : Seat) : Option Player := s.players[seat]?

def zone? (s : State) (id : ZoneId) : Option Zone := s.zones.get? id

def card? (s : State) (id : CardId) : Option Card := s.cards.get? id

def player (s : State) (seat : Seat) : Outcome Player := .find (s.player? seat) (.player seat)

def zone (s : State) (id : ZoneId) : Outcome Zone := .find (s.zone? id) (.zone id)

def card (s : State) (id : CardId) : Outcome Card := .find (s.card? id) (.card id)

def kindOfZone? (s : State) (id : ZoneId) : Option ZoneKind := (s.zone? id).map (·.kind)

def zoneKind? (s : State) (card : CardId) : Option ZoneKind :=
  (s.card? card).bind fun c => s.kindOfZone? c.zone

/-- The kind of the zone a card is in, or what is missing. -/
def zoneKind (s : State) (card : CardId) : Outcome ZoneKind := do
  let c ← s.card card
  let zone ← s.zone c.zone
  .ok zone.kind

def isBattlefield (s : State) (zone : ZoneId) : Bool := s.kindOfZone? zone = some .battlefield

def isOnBattlefield (s : State) (card : CardId) : Bool := s.zoneKind? card = some .battlefield

/-- Is the card, as it is now, a creature on a battlefield? -/
def isCreatureInPlay (s : State) (card : CardId) : Bool :=
  s.isOnBattlefield card && (s.card? card).any (·.isCreature)

/-- The cards on battlefields, with the numbers that they carry. -/
def battlefield (s : State) : List (CardId × Card) :=
  (s.cards.values.filter fun c => s.isBattlefield c.zone).map fun c => (c.id, c)

/-- The numbers of the cards on battlefields that have a property. -/
def permanents (s : State) (p : Card → Bool) : List CardId :=
  (s.battlefield.filter fun e => p e.2).map (·.1)

/-- The creatures on battlefields, with the numbers that they carry. -/
def creatures (s : State) : List (CardId × Card) := s.battlefield.filter fun e => e.2.isCreature

/-- The cards on the stack, bottom first. -/
def stack (s : State) : List CardId := ((s.zone? s.stackZone).map (·.cards)).getD []

def stackIsEmpty (s : State) : Bool := s.stack.isEmpty

/-- The seats of the players who have not lost. -/
def remaining (s : State) : List Seat :=
  s.seats.filter fun seat => (s.player? seat).any fun p => !p.hasLost

/-- At most one player remains. -/
def isOver (s : State) : Bool := s.remaining.length ≤ 1

def winner? (s : State) : Option Seat :=
  match s.remaining with
  | [seat] => some seat
  | _ => none

/-- Change a player. Here and below, a change to something that is not there changes nothing. -/
def updatePlayer (s : State) (seat : Seat) (f : Player → Player) : State :=
  { s with players := s.players.modify seat f }

/-- Change the players at the table. -/
def updateSeats (s : State) (f : Player → Player) : State :=
  { s with players := s.players.mapIdx fun seat p =>
      if seat ∈ Seat.all s.playerCount then f p else p }

def updateZone (s : State) (id : ZoneId) (f : Zone → Zone) : State :=
  { s with zones := s.zones.update id f }

def updateCard (s : State) (id : CardId) (f : Card → Card) : State :=
  { s with cards := s.cards.update id f }

def takeAbilityId (s : State) : State × AbilityId :=
  ({ s with nextAbility := s.nextAbility + 1 }, s.nextAbility)

/-- Change cards one after the other. -/
def updateCards (s : State) (ids : List CardId) (f : Card → Card) : State :=
  ids.foldl (fun s id => s.updateCard id f) s

/-- Change cards one after the other, all of which must be there. -/
def changeCards (s : State) (ids : List CardId) (f : Card → Card) : Outcome State :=
  ids.foldlM (fun s id => do
    let _ ← s.card id
    .ok (s.updateCard id f)) s

end State

end CardGame
