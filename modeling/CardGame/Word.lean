/-! # Words

Power, toughness, damage and life are words of 64 bits with a sign, and numbers of counters are
words of 32 bits without one. Whatever is too large for its word wraps around. Turns, passes, cards
and abilities are numbered without end: it would take 2^32 of them for a word to be too small.
-/

namespace CardGame

/-- The signed word of 64 bits that a number comes to. -/
def word (n : Int) : Int := n.bmod 18446744073709551616

/-- The number is a signed word of 64 bits itself. -/
def IsWord (n : Int) : Prop := -9223372036854775808 ≤ n ∧ n ≤ 9223372036854775807

instance (n : Int) : Decidable (IsWord n) := inferInstanceAs (Decidable (_ ∧ _))

/-- The unsigned word of 32 bits that a number comes to. -/
def tally (n : Nat) : Nat := n % 4294967296

end CardGame
