import CardGame.Mana.Cost

/-! # Mana pools

A pool holds mana of each color. Paying a cost takes each color from its own mana, then the generic
amount from whatever is left, in a fixed order of colors.
-/

namespace CardGame.Mana

structure Pool where
  amounts : Amounts
  deriving DecidableEq, Repr

namespace Pool

def empty : Pool := ⟨.zero⟩

def get (pool : Pool) (color : Color) : Nat := pool.amounts.get color

def add (pool : Pool) (color : Color) (n : Nat) : Pool := ⟨pool.amounts.add color n⟩

def total (pool : Pool) : Nat := pool.amounts.total

def isEmpty (pool : Pool) : Bool := pool.total = 0

/-- The colors that have mana of their own in a cost. -/
def ownColors : List Color := [.white, .blue, .black, .red, .green, .colorless]

/-- The colors in the order in which they pay a generic amount. -/
def genericOrder : List Color := [.generic, .colorless, .white, .blue, .black, .red, .green]

/-- Take an amount of one color, if there is as much. -/
def take? (amounts : Amounts) (color : Color) (n : Nat) : Option Amounts :=
  if n ≤ amounts.get color then some (amounts.set color (amounts.get color - n)) else none

/-- Take up to `owed` mana from the colors in turn; gives what is left and what is still owed. -/
def spend (amounts : Amounts) (owed : Nat) : List Color → Amounts × Nat
  | [] => (amounts, owed)
  | color :: rest =>
    let used := min (amounts.get color) owed
    spend (amounts.set color (amounts.get color - used)) (owed - used) rest

/-- The pool left after paying, if the cost can be paid. -/
def pay? (pool : Pool) (cost : Cost) : Option Pool :=
  match ownColors.foldlM (fun a color => take? a color (cost.amounts.get color)) pool.amounts with
  | none => none
  | some amounts =>
    match spend amounts cost.generic genericOrder with
    | (rest, 0) => some ⟨rest⟩
    | (_, _ + 1) => none

def canPay (pool : Pool) (cost : Cost) : Bool := (pool.pay? cost).isSome

end Pool

end CardGame.Mana
