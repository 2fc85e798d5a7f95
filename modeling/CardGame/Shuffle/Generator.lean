import CardGame.Shuffle.Basic

/-! # Generators

A game takes its shuffles from a generator. All it knows of one is that a stream belongs to every
seed, and that every context has a seed of its own under another seed.
-/

namespace CardGame

structure Generator where
  Stream : Type
  ofSeed : UInt64 → Stream
  /-- The seed for a context, such as the library of one seat, under the given seed. -/
  contextSeed : UInt64 → String → UInt64
  /-- A new order of the items, and the stream after what was drawn for it. -/
  shuffle : {α : Type} → Stream → List α → List α × Stream

namespace Generator

/-- A shuffle neither loses nor doubles an item. -/
def Permutes (g : Generator) : Prop :=
  ∀ {α : Type} (stream : g.Stream) (items : List α), (g.shuffle stream items).1.Perm items

/-- The generator that a game has unless it is given another. -/
def chacha : Generator where
  Stream := Shuffle.WordStream
  ofSeed := .ofSeed
  contextSeed := Shuffle.contextSeed
  shuffle := Shuffle.shuffle

/-- A stream, with the seed that it began from. -/
structure Source (g : Generator) where
  stream : g.Stream
  seed : UInt64

def source (g : Generator) (seed : UInt64) : g.Source := ⟨g.ofSeed seed, seed⟩

namespace Source

variable {g : Generator}

/-- The source for a context. It depends on the seed, not on what was drawn since. -/
def forContext (source : g.Source) (context : String) : g.Source :=
  g.source (g.contextSeed source.seed context)

def shuffle {α : Type} (source : g.Source) (items : List α) : List α × g.Source :=
  let (order, stream) := g.shuffle source.stream items
  (order, { source with stream })

end Source

end Generator

end CardGame
