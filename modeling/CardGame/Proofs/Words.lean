import CardGame.Card

/-! # Words wrap around

Sums of words are sums modulo the number of words: it makes no difference whether the parts wrapped
around before. A sum that is a word itself is exact.
-/

namespace CardGame

variable {a b : Int}

theorem isWord_word (n : Int) : IsWord (word n) := by
  have lower := Int.le_bmod (x := n) (m := 18446744073709551616) (by decide)
  have upper := Int.bmod_lt (x := n) (m := 18446744073709551616) (by decide)
  unfold IsWord word
  omega

theorem word_of_isWord (exact : IsWord a) : word a = a := by
  unfold IsWord at exact
  exact Int.bmod_eq_of_le (by omega) (by omega)

theorem word_eq_self_iff : word a = a ↔ IsWord a :=
  ⟨fun same => same ▸ isWord_word a, word_of_isWord⟩

@[simp]
theorem word_word (n : Int) : word (word n) = word n := word_of_isWord (isWord_word n)

@[simp]
theorem word_word_add (a b : Int) : word (word a + b) = word (a + b) := Int.bmod_add_bmod

namespace Characteristics

/-- Power and toughness, where there are such, are words. -/
def AreWords (c : Characteristics) : Prop :=
  (∀ power ∈ c.power, IsWord power) ∧ ∀ toughness ∈ c.toughness, IsWord toughness

instance (c : Characteristics) : Decidable c.AreWords := inferInstanceAs (Decidable (_ ∧ _))

end Characteristics

end CardGame
