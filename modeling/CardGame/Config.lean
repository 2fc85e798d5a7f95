import CardGame.Error

/-! # Settings of a game -/

namespace CardGame

structure Config where
  playerCount : Nat := 2
  startingLife : Int := 20
  openingHandSize : Nat := 7
  seed : UInt64 := 0
  shuffleLibraries : Bool := true
  /-- The first turn has no draw. -/
  skipFirstDraw : Bool := true
  /-- How often deaths may lead to further deaths before the game gives up. -/
  maxEventRounds : Nat := 16
  maxUndoDepth : Nat := 64
  deriving DecidableEq, Repr

namespace Config

def minPlayers : Nat := 2

def maxPlayers : Nat := 8

def forPlayers (players : Nat) : Except SetupError Config :=
  if players < minPlayers then .error .fewerThanTwo
  else if players > maxPlayers then .error .moreThanEight
  else .ok { playerCount := players }

end Config

end CardGame
