import CardGame.Ability.Builtin
import CardGame.Catalog
import CardGame.Config
import CardGame.Event
import CardGame.State.Basic

/-! # Matches

A match is a running game: its present state, the events published so far, and the earlier states
that undoing goes back to.
-/

namespace CardGame

/-- What undoing an operation brings back. -/
structure Checkpoint where
  state : State
  log : List Event
  deriving DecidableEq, Repr

structure Match where
  config : Config
  catalog : Catalog
  registry : Registry
  state : State
  /-- Every event published so far, oldest first. -/
  log : List Event
  /-- Checkpoints, latest first. -/
  history : List Checkpoint

namespace Match

def ofState (config : Config) (catalog : Catalog) (registry : Registry) (state : State) : Match :=
  ⟨config, catalog, registry, state, [], []⟩

def undoDepth (m : Match) : Nat := m.history.length

def isOver (m : Match) : Bool := m.state.isOver

def winner? (m : Match) : Option Seat := m.state.winner?

/-- Make a state the present one and publish events, keeping a checkpoint of what was before. The
    oldest checkpoint goes when there are too many. -/
def commit (m : Match) (next : State) (events : List Event) : Match :=
  { m with
    state := next
    log := m.log ++ events
    history := (⟨m.state, m.log⟩ :: m.history).take m.config.maxUndoDepth }

def undo? (m : Match) : Option Match :=
  match m.history with
  | [] => none
  | checkpoint :: rest =>
    some { m with state := checkpoint.state, log := checkpoint.log, history := rest }

end Match

end CardGame
