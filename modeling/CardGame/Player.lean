import CardGame.Mana.Pool
import CardGame.Zone

/-! # Players -/

namespace CardGame

/-- What belongs to a player and not to a card. -/
structure Player where
  life : Int
  mana : Mana.Pool
  zones : PlayerZones
  /-- Lands played in the current turn. -/
  landsPlayed : Nat
  hasLost : Bool
  deriving DecidableEq, Repr

/-- The player of a seat at the start of a game. -/
def Player.initial (seat : Seat) (life : Int) : Player := ⟨life, .empty, .ofSeat seat, 0, false⟩

end CardGame
