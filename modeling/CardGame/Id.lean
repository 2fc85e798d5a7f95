/-! # Numbers that name things

Cards, abilities, definitions, zones and seats are named by numbers. Seats are numbered from zero
in turn order.
-/

namespace CardGame

/-- One physical card in one game. -/
abbrev CardId := Nat

/-- One ability of one card. -/
abbrev AbilityId := Nat

/-- A printed card, shared by all its copies. -/
abbrev DefinitionId := Nat

abbrev ZoneId := Nat

/-- A player's place in turn order. -/
abbrev Seat := Nat

def CardId.label (id : CardId) : String := s!"Instance({id})"

def AbilityId.label (id : AbilityId) : String := s!"Ability({id})"

def DefinitionId.label (id : DefinitionId) : String := s!"Card({id})"

def ZoneId.label (id : ZoneId) : String := s!"Zone({id})"

namespace Seat

def label (seat : Seat) : String := s!"Player {seat}"

/-- Seats have numbers below this one. -/
def limit : Nat := 256

/-- The seats at a table for `count`, in turn order. -/
def all (count : Nat) : List Seat := List.range (count % limit)

/-- The seat after this one, the first seat following the last. -/
def next (seat : Seat) (count : Nat) : Seat := (seat + 1) % max count 1 % limit

end Seat

end CardGame
