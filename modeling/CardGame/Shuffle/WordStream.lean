/-! # Word streams

An endless stream of 32-bit words from a 64-bit seed: the seed is spread to a key of eight words,
and the words are the successive blocks of the ChaCha cipher of eight rounds under that key.
-/

namespace CardGame.Shuffle

def rotateLeft32 (x : UInt32) (n : UInt32) : UInt32 := (x <<< n) ||| (x >>> (32 - n))

def rotateRight32 (x : UInt32) (n : UInt32) : UInt32 := (x >>> n) ||| (x <<< (32 - n))

/-- The next state of the generator that spreads a seed. -/
def stepSeed (s : UInt64) : UInt64 := s * 6364136223846793005 + 11634580027462260723

/-- The word a state stands for: its high bits folded together, rotated by its highest bits. -/
def seedWord (s : UInt64) : UInt32 :=
  rotateRight32 (((s >>> 18) ^^^ s) >>> 27).toUInt32 (s >>> 59).toUInt32

/-- Words from the states that follow a seed. -/
def spread (s : UInt64) : Nat → List UInt32
  | 0 => []
  | n + 1 => seedWord (stepSeed s) :: spread (stepSeed s) n

def key (seed : UInt64) : List UInt32 := spread seed 8

/-- The words that every block starts with. -/
def constants : List UInt32 := [0x61707865, 0x3320646e, 0x79622d32, 0x6b206574]

/-- The sixteen words a block is made from. -/
def blockStart (key : List UInt32) (counter : UInt64) : Array UInt32 :=
  (constants ++ key ++ [counter.toUInt32, (counter >>> 32).toUInt32, 0, 0]).toArray

def quarterRound (x : Array UInt32) (a b c d : Nat) : Array UInt32 :=
  let xa := x.getD a 0 + x.getD b 0
  let xd := rotateLeft32 (x.getD d 0 ^^^ xa) 16
  let xc := x.getD c 0 + xd
  let xb := rotateLeft32 (x.getD b 0 ^^^ xc) 12
  let xa := xa + xb
  let xd := rotateLeft32 (xd ^^^ xa) 8
  let xc := xc + xd
  let xb := rotateLeft32 (xb ^^^ xc) 7
  (((x.setIfInBounds a xa).setIfInBounds b xb).setIfInBounds c xc).setIfInBounds d xd

/-- Mix the columns, then the diagonals. -/
def doubleRound (x : Array UInt32) : Array UInt32 :=
  let x := quarterRound x 0 4 8 12
  let x := quarterRound x 1 5 9 13
  let x := quarterRound x 2 6 10 14
  let x := quarterRound x 3 7 11 15
  let x := quarterRound x 0 5 10 15
  let x := quarterRound x 1 6 11 12
  let x := quarterRound x 2 7 8 13
  quarterRound x 3 4 9 14

/-- One block: four double rounds, added to where it started. -/
def block (key : List UInt32) (counter : UInt64) : Array UInt32 :=
  let start := blockStart key counter
  let mixed := doubleRound (doubleRound (doubleRound (doubleRound start)))
  mixed.zipWith (· + ·) start

/-- The place in a word stream from which words are still to be read. -/
structure WordStream where
  key : List UInt32
  /-- The number of the block that follows the words at hand. -/
  counter : UInt64
  /-- Words at hand, next first. -/
  ready : List UInt32
  deriving DecidableEq, Inhabited, Repr

namespace WordStream

def ofSeed (seed : UInt64) : WordStream := ⟨Shuffle.key seed, 0, []⟩

def next (stream : WordStream) : UInt32 × WordStream :=
  match stream.ready with
  | word :: rest => (word, { stream with ready := rest })
  | [] =>
    match (block stream.key stream.counter).toList with
    | word :: rest => (word, { stream with counter := stream.counter + 1, ready := rest })
    | [] => (0, stream)

end WordStream

end CardGame.Shuffle
