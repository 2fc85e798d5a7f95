import CardGame.StateBased

/-! # Combat damage

Damage is dealt in two passes, the first by creatures with first or double strike. In each pass the
damage of all creatures is planned before any is dealt. An attacker gives its blockers, in turn, as
much as still kills them.
-/

namespace CardGame

/-- One of the two passes of combat damage. -/
inductive DamagePass where
  | firstStrike
  | regular
  deriving DecidableEq, Repr

/-- Does the card deal damage in this pass? -/
def DamagePass.includes (pass : DamagePass) (card : Card) : Bool :=
  let first := card.hasKeyword .firstStrike
  let double := card.hasKeyword .doubleStrike
  match pass with
  | firstStrike => first || double
  | regular => !first || double

/-- Damage to be dealt at once. -/
structure DamagePlan where
  toCards : List (CardId × Int)
  toPlayer : Int
  deriving DecidableEq, Repr

/-- What attackers have given to each blocker, over both passes. -/
abbrev Assigned := Table CardId Int

namespace DamagePlan

def none : DamagePlan := ⟨[], 0⟩

def isNone (plan : DamagePlan) : Bool := plan.toCards.isEmpty && plan.toPlayer = 0

def hitCard (plan : DamagePlan) (card : CardId) (amount : Int) : DamagePlan :=
  { plan with toCards := plan.toCards ++ [(card, amount)] }

def hitPlayer (plan : DamagePlan) (amount : Int) : DamagePlan :=
  { plan with toPlayer := word (plan.toPlayer + amount) }

end DamagePlan

/-- A plan in the making: the damage, and what blockers have been given. -/
structure Planning where
  plan : DamagePlan
  assigned : Assigned
  deriving DecidableEq, Repr

namespace Planning

def give (p : Planning) (blocker : CardId) (amount : Int) : Planning where
  plan := p.plan.hitCard blocker amount
  assigned := p.assigned.insert blocker (word ((p.assigned.get? blocker).getD 0 + amount))

/-- Damage that a blocker can still take before it is dead. -/
def capacity (p : Planning) (id : CardId) (blocker : Card) : Int :=
  max (word (blocker.toughness - (p.assigned.get? id).getD 0)) 0

/-- Give each blocker in turn what it can take; gives what is left over. -/
def spread (p : Planning) (power : Int) : List (CardId × Card) → Planning × Int
  | [] => (p, power)
  | (id, blocker) :: rest =>
    let dealt := min power (p.capacity id blocker)
    if dealt > 0 then (p.give id dealt).spread (power - dealt) rest else p.spread power rest

/-- Plan the damage of a blocked attacker. What is left over goes to the player if the attacker has
    trample, and to the last blocker if not. -/
def strikeBlockers (p : Planning) (attacker : Card) (blockers : List (CardId × Card)) : Planning :=
  let (p, left) := p.spread attacker.power blockers
  if left > 0 then
    if attacker.hasKeyword .trample then { p with plan := p.plan.hitPlayer left }
    else
      match blockers.getLast? with
      | some (last, _) => p.give last left
      | none => p
  else p

/-- Plan what blockers deal to an attacker. -/
def strikeBack (p : Planning) (pass : DamagePass) (attacker : CardId)
    (blockers : List (CardId × Card)) : Planning :=
  blockers.foldl
    (fun p b =>
      if pass.includes b.2 && b.2.power > 0 then
        { p with plan := p.plan.hitCard attacker b.2.power }
      else p)
    p

/-- Plan the damage of one attacker and its blockers. Only cards on a battlefield take part, but an
    attacker once blocked stays blocked. -/
def attack (s : State) (combat : Combat) (pass : DamagePass) (p : Planning) (id : CardId) :
    Planning :=
  if s.isOnBattlefield id then
    match s.card? id with
    | none => p
    | some attacker =>
      let blockers := (combat.blockersOf id).filterMap fun b =>
        if s.isOnBattlefield b then (s.card? b).map (b, ·) else none
      let struck :=
        if pass.includes attacker && attacker.power > 0 then
          if combat.isBlocked id then p.strikeBlockers attacker blockers
          else { p with plan := p.plan.hitPlayer attacker.power }
        else p
      struck.strikeBack pass id blockers
  else p

end Planning

namespace State

/-- Plan a pass, given what blockers were assigned before; gives the damage and what they are
    assigned then. -/
def planDamage (s : State) (combat : Combat) (pass : DamagePass) (assigned : Assigned) : Planning :=
  combat.attackers.foldl (Planning.attack s combat pass) ⟨.none, assigned⟩

def dealDamage (s : State) (defending : Seat) (plan : DamagePlan) : Outcome State := do
  let hurt := plan.toCards.foldl
    (fun s hit => s.updateCard hit.1 fun c => { c with damage := word (c.damage + hit.2) }) s
  if plan.toPlayer = 0 then .ok hurt
  else do
    let _ ← hurt.player defending
    .ok (hurt.updatePlayer defending fun p => { p with life := word (p.life - plan.toPlayer) })

/-- Deal the damage of the first pass, if there is any, and do what follows from it. -/
def dealFirstStrike (s : State) (defending : Seat) (plan : DamagePlan) : Outcome State :=
  if plan.isNone then .ok s
  else do
    let hurt ← s.dealDamage defending plan
    let r ← hurt.toRest
    .ok r.state

/-- Deal the damage of the present combat. Without attackers nothing happens. -/
def combatDamage (s : State) : Outcome State :=
  match s.combat with
  | none => .ok s
  | some combat =>
    if combat.attackers.isEmpty then .ok s
    else do
      let derived := s.derive
      let first := derived.planDamage combat .firstStrike .empty
      let between ← derived.dealFirstStrike combat.defendingPlayer first.plan
      let regular := between.planDamage combat .regular first.assigned
      between.dealDamage combat.defendingPlayer regular.plan

end State

end CardGame
