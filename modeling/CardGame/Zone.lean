import CardGame.Id

/-! # Zones

A zone is a sequence of cards from bottom to top. At the start of a game the zones are numbered five
for each seat, in seat order, then the stack.
-/

namespace CardGame

inductive ZoneKind where
  | hand
  | library
  | graveyard
  | exile
  | battlefield
  | stack
  deriving DecidableEq, Repr

namespace ZoneKind

def isBattlefield : ZoneKind → Bool
  | battlefield => true
  | _ => false

def label : ZoneKind → String
  | hand => "Hand"
  | library => "Library"
  | graveyard => "Graveyard"
  | exile => "Exile"
  | battlefield => "Battlefield"
  | stack => "Stack"

end ZoneKind

/-- A sequence of cards, bottom first. -/
structure Zone where
  kind : ZoneKind
  owner : Option Seat
  cards : List CardId
  deriving DecidableEq, Repr

namespace Zone

def empty (kind : ZoneKind) (owner : Option Seat) : Zone := ⟨kind, owner, []⟩

/-- The owner, if the zone has one, and the kind. -/
def name (zone : Zone) : String :=
  match zone.owner with
  | some seat => s!"{seat.label} {zone.kind.label}"
  | none => zone.kind.label

def isEmpty (zone : Zone) : Bool := zone.cards.isEmpty

def size (zone : Zone) : Nat := zone.cards.length

def contains (zone : Zone) (card : CardId) : Bool := card ∈ zone.cards

def top? (zone : Zone) : Option CardId := zone.cards.getLast?

def push (zone : Zone) (card : CardId) : Zone := { zone with cards := zone.cards ++ [card] }

def pop (zone : Zone) : Zone := { zone with cards := zone.cards.dropLast }

/-- Take a card out, the lowest one if it is there more than once. -/
def remove (zone : Zone) (card : CardId) : Zone := { zone with cards := zone.cards.erase card }

end Zone

/-- The zones that belong to one player. -/
structure PlayerZones where
  hand : ZoneId
  library : ZoneId
  graveyard : ZoneId
  exile : ZoneId
  battlefield : ZoneId
  deriving DecidableEq, Repr

namespace PlayerZones

def count : Nat := 5

/-- The zones of a seat at the start of a game. -/
def ofSeat (seat : Seat) : PlayerZones where
  hand := count * seat
  library := count * seat + 1
  graveyard := count * seat + 2
  exile := count * seat + 3
  battlefield := count * seat + 4

/-- The five zones, in a fixed order. -/
def all (zones : PlayerZones) : List ZoneId :=
  [zones.hand, zones.library, zones.graveyard, zones.exile, zones.battlefield]

/-- The kinds of these zones, in the same order. -/
def kinds : List ZoneKind := [.hand, .library, .graveyard, .exile, .battlefield]

end PlayerZones

end CardGame
