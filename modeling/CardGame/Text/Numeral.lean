/-! # Unsigned numerals

A numeral is an optional plus sign and at least one decimal digit. Leading zeros are allowed, so a
numeral may be of any length.
-/

namespace CardGame.Text

/-- The digits after an optional plus sign. -/
def unsigned : List Char → List Char
  | '+' :: digits => digits
  | digits => digits

/-- Read a numeral of value at most `limit`. -/
def numeral? (limit : Nat) (cs : List Char) : Option Nat :=
  let digits := unsigned cs
  let value := Nat.ofDigitChars 10 digits 0
  if digits ≠ [] ∧ digits.all Char.isDigit ∧ value ≤ limit then some value else none

/-- Write a numeral: no sign, no leading zeros. -/
def numeral (n : Nat) : List Char := Nat.toDigits 10 n

theorem numeral?_numeral {limit n : Nat} (h : n ≤ limit) : numeral? limit (numeral n) = some n := by
  have hdigits : unsigned (numeral n) = numeral n := by
    unfold unsigned
    split
    · rename_i rest heq
      have : ('+').isDigit := Nat.isDigit_of_mem_toDigits (b := 10) (n := n) (by decide) (by decide)
        (by rw [numeral] at heq; simp [heq])
      exact absurd this (by decide)
    · rfl
  have hall : (numeral n).all Char.isDigit := by
    simp only [List.all_eq_true]
    exact fun c hc => Nat.isDigit_of_mem_toDigits (by decide) (by decide) hc
  have hvalue : Nat.ofDigitChars 10 (numeral n) 0 = n := Nat.ofDigitChars_ten_toDigits
  simp only [numeral?, hdigits, hvalue]
  exact if_pos ⟨Nat.toDigits_ne_nil, hall, h⟩

end CardGame.Text
