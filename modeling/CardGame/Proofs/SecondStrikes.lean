import CardGame.Proofs.FirstStrikes
import CardGame.Proofs.Wounds

/-! # Striking again

What blockers were assigned in the first pass of combat damage counts against what they can take in the
second, and it is recorded apart from the damage on them. The two records never contradict each other:
all that is assigned is dealt, and what follows from the first pass leaves the damage on every card that
stays in play. So a creature that is still there has toughness left, whatever it was assigned, unless the
damage on it has wrapped around.
-/

namespace CardGame

theorem Stroke.given_le_toCard {stroke : Stroke} (nonneg : 0 ≤ stroke.amount) (card : CardId) :
    stroke.given card ≤ stroke.toCard card := by
  cases stroke with
  | onBlocker blocker n => exact Int.le_refl _
  | onPlayer n => exact Int.le_refl _
  | onAttacker attacker n =>
      simp only [given, toCard]
      split
      · exact nonneg
      · exact Int.le_refl 0

namespace State

variable {s t : State} {combat : Combat} {assigned : Assigned} {defending : Seat}

/-- Where the damage on no card is negative, what can be marked on all of them is a word itself. -/
theorem CanMark.isWord_total {plan : DamagePlan} (fits : s.CanMark plan) (wounds : s.Wounds plan)
    (unharmed : ∀ id c, s.card? id = some c → 0 ≤ c.damage) (id : CardId) :
    IsWord (plan.total id) := by
  have some := wounds.total_nonneg id
  cases found : s.card? id with
  | some c =>
      have fits := fits id c found
      have unharmed := unharmed id c found
      unfold IsWord at fits ⊢
      omega
  | none =>
      have missed : ¬∃ hit ∈ plan.toCards, hit.1 = id := by
        rintro ⟨hit, member, rfl⟩
        obtain ⟨c, known, -⟩ := isOnBattlefield_iff.mp (wounds hit member).1
        cases found.symm.trans known
      rw [DamagePlan.total_eq_zero missed]
      decide

/-- A card is assigned no more in a pass than it is dealt. -/
theorem assigned_le_total (s : State) (distinct : combat.attackers.Nodup)
    (once : combat.blockers.Nodup) (pass : DamagePass) {card : CardId}
    (fits : IsWord ((s.planDamage combat pass .empty).plan.total card)) :
    0 ≤ ((s.planDamage combat pass .empty).assigned.get? card).getD 0 ∧
      ((s.planDamage combat pass .empty).assigned.get? card).getD 0 ≤
        (s.planDamage combat pass .empty).plan.total card := by
  have nonneg := s.flatMap_strokes_nonneg combat pass .empty (s.survivors combat.attackers)
  have less := List.sum_le_sum fun stroke member => Stroke.given_le_toCard (nonneg stroke member) card
  have some := List.sum_nonneg (List.forall_mem_map.mpr fun stroke member =>
    Stroke.given_nonneg (nonneg stroke member) card)
  have nothing : DamagePlan.none.total card = 0 := rfl
  have unassigned : ((Table.empty : Assigned).get? card).getD 0 = 0 := rfl
  rw [s.planDamage_eq combat distinct once, Planning.total_strikes nonneg, nothing] at fits ⊢
  rw [Planning.get?_strikes nonneg, Assigned.getD_grown, unassigned]
  · omega
  · change IsWord (0 + _)
    unfold IsWord at fits ⊢
    omega

/-- Every card in play has as much damage on it as it was assigned. -/
def Bears (s : State) (assigned : Assigned) : Prop :=
  ∀ id c, s.InPlay id c → (assigned.get? id).getD 0 ≤ c.damage

namespace Bears

theorem of_strip (h : s.Bears assigned) (same : s.strip = t.strip) : t.Bears assigned := by
  intro id c inPlay
  -- Only derived characteristics are stripped, so the zone and the damage are the same.
  have printed : (s.card? id).map Card.strip = some c.strip := by
    rw [← card?_strip, same, card?_strip, inPlay.found, Option.map_some]
  obtain ⟨b, known, strip⟩ := Option.map_eq_some_iff.mp printed
  have zone : b.zone = c.zone := (congrArg Card.zone strip :)
  have damage : b.damage = c.damage := (congrArg Card.damage strip :)
  have there := inPlay.inPlay
  rw [isBattlefield_congr (layout_of_strip same), ← zone] at there
  exact damage ▸ h id b ⟨known, there⟩

/-- What a pass assigns is dealt, so it is on the cards, if that leaves a word on each of them. -/
theorem of_dealDamage (unharmed : ∀ id c, s.card? id = some c → 0 ≤ c.damage)
    (distinct : combat.attackers.Nodup) (once : combat.blockers.Nodup) (pass : DamagePass)
    (fits : s.CanMark (s.planDamage combat pass .empty).plan)
    (dealt : s.dealDamage defending (s.planDamage combat pass .empty).plan = .ok t) :
    t.Bears (s.planDamage combat pass .empty).assigned := by
  intro id c inPlay
  have found := inPlay.found
  rw [card?_dealDamage dealt, Option.map_eq_some_iff] at found
  obtain ⟨b, known, rfl⟩ := found
  have marked := DamagePlan.mark_of_isWord (fits id b known)
  have total := fits.isWord_total (wounds_planDamage s combat pass .empty) unharmed id
  have less := (s.assigned_le_total distinct once pass total).2
  have before := unharmed id b known
  dsimp only
  omega

/-- State-based actions take no damage from a card that stays in play. -/
theorem toRest (h : s.Bears assigned) (housed : s.Housed) {r : AtRest}
    (rest : s.toRest = .ok r) : r.state.Bears assigned := by
  -- A burial takes its card out of play and leaves the others alone, and nothing else moves a card.
  refine (toRest_invariant (P := fun s => s.Housed ∧ s.Bears assigned) ?_ ?_ ?_ ⟨housed, h⟩ rest).2
  · rintro s ⟨housed, h⟩
    exact ⟨housed.congr (layout_derive s), h.of_strip (strip_derive s).symm⟩
  · rintro s ⟨housed, h⟩
    exact ⟨housed.congr (layout_markLosers s), fun id c inPlay => h id c ⟨inPlay.found, inPlay.inPlay⟩⟩
  · rintro s t id buried ⟨housed, h⟩
    obtain ⟨c, -, -, -, found, -⟩ := bury_eq_ok.mp buried
    obtain ⟨next, buried', housed, burial⟩ := housed.bury (Option.isSome_iff_exists.mpr ⟨c, found⟩)
    cases buried.symm.trans buried'
    refine ⟨housed, fun other d inPlay => ?_⟩
    obtain ⟨-, known, there⟩ := burial.inPlay inPlay.found inPlay.inPlay
    exact h other d ⟨known, there⟩

/-- A creature in a settled state has toughness left beyond what it was assigned. -/
theorem lt_toughness (h : s.Bears assigned) (settled : s.Settled) {id : CardId} {c : Card}
    (inPlay : s.InPlay id c) (creature : c.isCreature = true) :
    (assigned.get? id).getD 0 < c.toughness := by
  have healthy := (settled.healthy inPlay.found inPlay.inPlay creature).2
  exact Int.lt_of_le_of_lt (h id c inPlay) healthy

end Bears

/-- After the first pass, and what follows from it, there is nothing left to do, and what was assigned is
    on the cards in play. -/
theorem settled_dealFirstStrike (settled : s.Settled) (housed : s.Housed)
    (unharmed : ∀ id c, s.card? id = some c → 0 ≤ c.damage)
    (distinct : combat.attackers.Nodup) (once : combat.blockers.Nodup)
    (fits : s.CanMark (s.planDamage combat .firstStrike .empty).plan)
    (first : s.dealFirstStrike defending (s.planDamage combat .firstStrike .empty).plan = .ok t) :
    t.Settled ∧ t.Bears (s.planDamage combat .firstStrike .empty).assigned := by
  obtain ⟨hurt, dealt, after⟩ := dealFirstStrike_eq_ok first
  have bears := Bears.of_dealDamage unharmed distinct once .firstStrike fits dealt
  obtain ⟨rfl, rfl⟩ | ⟨r, rest, rfl⟩ := after
  · exact ⟨settled, bears⟩
  · exact ⟨toRest_settled rest, bears.toRest (housed.congr (still_dealDamage dealt).layout) rest⟩

end State

namespace Planning

variable {s : State} {combat : Combat} {pass : DamagePass} {p : Planning}

/-- The planning of a pass when a blocker gets its turn: the attackers before the one that it blocks have
    had theirs, and so have the blockers before it. -/
def reaching (s : State) (combat : Combat) (pass : DamagePass) (assigned : Assigned)
    (before : List CardId) (power : Int) (earlier : List (CardId × Card)) : Planning :=
  ((before.foldl (attack s combat pass) ⟨.none, assigned⟩).spread power earlier).1

theorem get?_spread_of_not_mem {blockers : List (CardId × Card)} {id : CardId}
    (other : id ∉ blockers.map (·.1)) (power : Int) :
    (p.spread power blockers).1.assigned.get? id = p.assigned.get? id := by
  induction blockers generalizing p power with
  | nil => rfl
  | cons b rest ih =>
      rw [List.map_cons, List.mem_cons, not_or] at other
      obtain ⟨different, others⟩ := other
      unfold spread
      dsimp only
      split
      · rw [ih others, give, Table.get?_insert, if_neg different]
      · exact ih others power

/-- What one attacker gives makes no difference to what the blockers of another were assigned. -/
theorem get?_foldl_attack {before : List CardId} {assigned : Assigned} {id : CardId}
    (distinct : (before.flatMap combat.blockersOf).Nodup)
    (other : id ∉ before.flatMap combat.blockersOf) :
    (before.foldl (attack s combat pass) ⟨.none, assigned⟩).assigned.get? id = assigned.get? id := by
  rw [foldl_attack_eq distinct fun _ _ => rfl,
    get?_strikes_of_given (s.flatMap_strokes_nonneg combat pass assigned _)]
  intro n struck
  obtain ⟨attacker, member, blow⟩ := List.mem_flatMap.mp struck
  have attacks := (State.mem_survivors.mp member).1
  exact other (List.mem_flatMap.mpr ⟨attacker.1, attacks, mem_of_onBlocker_mem_strokes blow⟩)

/-- When a blocker gets its turn, it has been assigned what it had been before the pass. -/
theorem get?_reaching (distinct : combat.attackers.Nodup) (once : combat.blockers.Nodup)
    {before after : List CardId} {attacker : CardId}
    (attackers : combat.attackers = before ++ attacker :: after)
    {earlier later : List (CardId × Card)} {b : CardId × Card}
    (blockers : s.survivors (combat.blockersOf attacker) = earlier ++ b :: later)
    (assigned : Assigned) (power : Int) :
    (reaching s combat pass assigned before power earlier).assigned.get? b.1 =
      assigned.get? b.1 := by
  have own := s.nodup_survivors (Combat.nodup_blockersOf once attacker)
  rw [blockers, List.map_append, List.map_cons, List.nodup_append] at own
  have fresh : b.1 ∉ earlier.map (·.1) := fun member => own.2.2 _ member _ List.mem_cons_self rfl
  have shared := Combat.nodup_flatMap_blockersOf once distinct
  rw [attackers, List.flatMap_append, List.flatMap_cons, List.nodup_append] at shared
  have blocks : b.1 ∈ combat.blockersOf attacker := by
    have member : b ∈ s.survivors (combat.blockersOf attacker) := by simp [blockers]
    exact (State.mem_survivors.mp member).1
  have other : b.1 ∉ before.flatMap combat.blockersOf :=
    fun member => shared.2.2 _ member _ (List.mem_append_left _ blocks) rfl
  rw [reaching, get?_spread_of_not_mem fresh, get?_foldl_attack shared.1 other]

end Planning

namespace State

/-- A creature at its owner's battlefield, which gives keywords to itself. -/
def vanguard : Card :=
  .create 1 (.creature 1 "Vanguard" 3 3) 0 (PlayerZones.ofSeat 0).battlefield
    [.static (.ofEffect 1 ⟨1, .source, .grantKeyword .doubleStrike⟩)]

def fencer : Card :=
  .create 2 (.creature 2 "Fencer" 2 2) 0 (PlayerZones.ofSeat 0).battlefield
    [.static (.ofEffect 2 ⟨2, .source, .grantKeyword .firstStrike⟩)]

def bulwark : Card := .create 3 (.creature 3 "Bulwark" 2 4) 1 (PlayerZones.ofSeat 1).battlefield []

/-- The bulwark after three damage. -/
def bruised : Card := { bulwark with damage := 3 }

/-- Gives toughness to the other creatures of its controller. -/
def captain : Card :=
  .create 4 (.creature 4 "Captain" 1 1) 1 (PlayerZones.ofSeat 1).battlefield
    [.static (.ofEffect 3 ⟨4, .creaturesYouControl false, .modifyPowerToughness 0 1⟩)]

def breachCombat : Combat := ⟨0, 1, [1, 2], .ofList [(1, [3]), (2, [4])]⟩

/-- The bulwark blocks the vanguard, the captain blocks the fencer. -/
def breach : State :=
  let table := [(1, vanguard), (2, fencer), (3, bulwark), (4, captain)]
  State.derive
    { table.foldl (fun s e => s.updateZone e.2.zone (·.push e.1)) (initial 2 20) with
      cards := .ofList table
      nextCard := 5
      nextAbility := 4
      combat := some breachCombat }

/-- Strikes twice, with as much power as a word can hold. -/
def colossus : Card :=
  .create 1 (.creature 1 "Colossus" 9223372036854775807 3) 0 (PlayerZones.ofSeat 0).battlefield
    [.static (.ofEffect 1 ⟨1, .source, .grantKeyword .doubleStrike⟩)]

/-- Has one toughness left. -/
def veteran : Card :=
  { Card.create 2 (.creature 2 "Veteran" 0 5) 1 (PlayerZones.ofSeat 1).battlefield [] with damage := 4 }

def crushCombat : Combat := ⟨0, 1, [1], .ofList [(1, [2])]⟩

def crush : State :=
  State.derive
    { ((initial 2 20).updateZone colossus.zone (·.push 1)).updateZone veteran.zone (·.push 2) with
      cards := .ofList [(1, colossus), (2, veteran)]
      nextCard := 3
      nextAbility := 2
      combat := some crushCombat }

end State

end CardGame
