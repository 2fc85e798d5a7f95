import CardGame.Id
import CardGame.Table

/-! # The state of a combat -/

namespace CardGame

/-- Who attacks, and what was declared so far. -/
structure Combat where
  attackingPlayer : Seat
  defendingPlayer : Seat
  /-- In the order of declaration. -/
  attackers : List CardId
  /-- Blockers of each blocked attacker, in the order of declaration. -/
  blocks : Table CardId (List CardId)
  deriving DecidableEq, Repr

namespace Combat

def opening (attacking defending : Seat) : Combat := ⟨attacking, defending, [], .empty⟩

def isAttacking (combat : Combat) (card : CardId) : Bool := card ∈ combat.attackers

def isBlocking (combat : Combat) (card : CardId) : Bool :=
  combat.blocks.values.any fun blockers => card ∈ blockers

def blockersOf (combat : Combat) (attacker : CardId) : List CardId :=
  (combat.blocks.get? attacker).getD []

/-- Was this attacker blocked? It stays so when its blockers are gone. -/
def isBlocked (combat : Combat) (attacker : CardId) : Bool := !(combat.blockersOf attacker).isEmpty

def addBlock (combat : Combat) (blocker attacker : CardId) : Combat :=
  { combat with blocks := combat.blocks.insert attacker (combat.blockersOf attacker ++ [blocker]) }

end Combat

end CardGame
