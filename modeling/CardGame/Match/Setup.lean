import CardGame.Match.Basic
import CardGame.Shuffle.Generator
import CardGame.State.Create
import CardGame.State.Derive
import CardGame.State.Move

/-! # Setting up a match

Each deck becomes the library of its seat, shuffled unless the settings say otherwise, and every
player draws an opening hand.
-/

namespace CardGame

/-- The order of a seat's deck in its library, bottom first. It depends on the seed and the seat,
    not on the other decks. -/
def Config.libraryOrder (config : Config) (generator : Generator) (seat : Seat)
    (deck : List DefinitionId) : List DefinitionId :=
  if config.shuffleLibraries then
    (((generator.source config.seed).forContext s!"library:{seat}").shuffle deck).1
  else deck

namespace State

/-- Put the cards of a deck on top of a seat's library, in order. -/
def fillLibrary (s : State) (catalog : Catalog) (registry : Registry) (seat : Seat)
    (order : List DefinitionId) : Outcome State := do
  let p ← s.player seat
  order.foldlM
    (fun s id => do
      let d ← catalog.lookup id
      let (next, _) ← s.create registry d seat p.zones.library
      .ok next)
    s

/-- Every player draws an opening hand, in seat order. -/
def drawHands (s : State) (size : Nat) : Outcome State :=
  s.seats.foldlM (fun s seat => s.drawMany seat size) s

end State

namespace Match

/-- Is the number of seats allowed, with one deck for each? -/
def checkSeats (config : Config) (decks : List (List DefinitionId)) : Outcome Unit :=
  if config.playerCount < Config.minPlayers ∨ config.playerCount > Config.maxPlayers then
    .error (.invalidParameter "game_config" "player_count" (.seatCount config.playerCount))
  else if decks.length ≠ config.playerCount then
    .error (.invalidParameter "game_config" "player_count"
      (.deckCount decks.length config.playerCount))
  else .ok ()

def start (config : Config) (catalog : Catalog) (registry : Registry)
    (decks : List (List DefinitionId)) (generator : Generator := .chacha) : Outcome Match := do
  checkSeats config decks
  let empty := State.initial config.playerCount config.startingLife
  let filled ← decks.zipIdx.foldlM
    (fun s (entry : List DefinitionId × Seat) =>
      s.fillLibrary catalog registry entry.2 (config.libraryOrder generator entry.2 entry.1))
    empty
  let dealt ← filled.drawHands config.openingHandSize
  .ok (ofState config catalog registry dealt.derive)

end Match

end CardGame
