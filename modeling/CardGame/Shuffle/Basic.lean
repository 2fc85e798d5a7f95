import CardGame.Shuffle.WordStream

/-! # Shuffling

A shuffle takes cards from a pile one by one, each from a place drawn at random, and builds the new
order from its end. The places depend on nothing but the seed and the number of cards.
-/

namespace CardGame.Shuffle

def mix (h x : UInt64) : UInt64 := (((h <<< 5) ||| (h >>> 59)) ^^^ x) * 0x517cc1b727220a95

/-- The number written by bytes, least significant first. -/
def littleEndian (bytes : List UInt8) : UInt64 :=
  bytes.foldr (fun b n => n * 256 + b.toUInt64) 0

/-- Mix in the bytes of a text: words of eight bytes while there are so many, then at most one each
    of four bytes, two bytes and one byte. -/
def mixBytes (h : UInt64) (bytes : List UInt8) : UInt64 :=
  if bytes.length ≥ 8 then mixBytes (mix h (littleEndian (bytes.take 8))) (bytes.drop 8)
  else
    let part (h : UInt64) (bytes : List UInt8) (n : Nat) : UInt64 × List UInt8 :=
      if bytes.length ≥ n then (mix h (littleEndian (bytes.take n)), bytes.drop n) else (h, bytes)
    let (h, bytes) := part h bytes 4
    let (h, bytes) := part h bytes 2
    (part h bytes 1).1
termination_by bytes.length
decreasing_by simp only [List.length_drop]; omega

/-- The seed for a context, such as the library of one seat, within a game with the given seed. -/
def contextSeed (seed : UInt64) (context : String) : UInt64 :=
  mix (mixBytes (mix 0 seed) context.toUTF8.toList) 0xff

/-- The largest low half that a product may have for its high half to be uniform. -/
def acceptance (bound : UInt32) : UInt32 :=
  (bound <<< (31 - bound.toNat.log2).toUInt32) - 1

/-- Read a word for a number below a bound. The number is the high half of their product, if the
    low half is accepted. -/
def attempt (bound : UInt32) (stream : WordStream) : WordStream ⊕ Nat × WordStream :=
  let (word, stream) := stream.next
  let product := word.toUInt64 * bound.toUInt64
  if product.toUInt32 ≤ acceptance bound then .inr ((product >>> 32).toNat, stream)
  else .inl stream

/-- Draw a number below a bound: words are read until one gives a number. -/
def below (bound : UInt32) (stream : WordStream) : Option (Nat × WordStream) :=
  repeatM (fun stream => some (attempt bound stream)) stream

variable {α : Type}

/-- Take out the item at a place; the last item fills the gap. -/
def takeAt (pile : List α) (place : Nat) : Option (α × List α) :=
  match pile[place]?, pile.getLast? with
  | some item, some last => some (item, (pile.set place last).dropLast)
  | _, _ => none

/-- Take `count` items from the pile, the last one taken coming first. What cannot be taken stays
    where it is. -/
def takeAll (stream : WordStream) (pile done : List α) : (count : Nat) → List α × WordStream
  | 0 => (pile ++ done, stream)
  | count + 1 =>
    if pile.length ≤ 1 then (pile ++ done, stream)
    else
      match below pile.length.toUInt32 stream with
      | none => (pile ++ done, stream)
      | some (place, stream) =>
        match takeAt pile place with
        | some (item, rest) => takeAll stream rest (item :: done) count
        | none => (pile ++ done, stream)

/-- A new order of the items, and the stream after the words that it took. -/
def shuffle (stream : WordStream) (items : List α) : List α × WordStream :=
  takeAll stream items [] items.length

end CardGame.Shuffle
