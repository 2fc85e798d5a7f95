import CardGame.Mana.Amounts

/-! # Mana costs

A cost asks for amounts of single colors, and for a generic amount that mana of any color pays.
-/

namespace CardGame.Mana

/-- What has to be paid: the generic amount, and one amount for each other color. -/
structure Cost where
  amounts : Amounts
  deriving DecidableEq, Repr

namespace Cost

def free : Cost := ⟨.zero⟩

/-- A cost that mana of any color pays. -/
def ofGeneric (n : Nat) : Cost := ⟨Amounts.zero.set .generic n⟩

def add (cost : Cost) (color : Color) (n : Nat) : Cost := ⟨cost.amounts.add color n⟩

def generic (cost : Cost) : Nat := cost.amounts.generic

/-- Mana value: all that is asked for, held to the largest amount. -/
def value (cost : Cost) : Nat := cost.amounts.total

def isFree (cost : Cost) : Bool := cost.value = 0

end Cost

end CardGame.Mana
