import CardGame.Proofs.DamagePlan
import CardGame.Proofs.Waning

/-! # Wounds

A plan of damage hits nothing but cards on battlefields. Once it is dealt, a card is marked with all
that the plan deals to it on top of what there was, which is exact as long as it is a word.
-/

namespace CardGame

namespace DamagePlan

variable {plan : DamagePlan} {id : CardId} {damage : Int}

/-- What the damage on a card comes to when the plan is dealt. -/
def mark (plan : DamagePlan) (id : CardId) (damage : Int) : Int :=
  if ∃ hit ∈ plan.toCards, hit.1 = id then word (damage + plan.total id) else damage

theorem total_eq_zero (missed : ¬∃ hit ∈ plan.toCards, hit.1 = id) : plan.total id = 0 := by
  have none : (plan.toCards.filter fun hit => hit.1 = id) = [] :=
    List.filter_eq_nil_iff.mpr fun hit member same => missed ⟨hit, member, of_decide_eq_true same⟩
  rw [total, none]
  rfl

theorem mark_of_isWord (fits : IsWord (damage + plan.total id)) :
    plan.mark id damage = damage + plan.total id := by
  unfold mark
  split
  · exact word_of_isWord fits
  · rename_i missed
    rw [total_eq_zero missed, Int.add_zero]

/-- The first hit is marked, and then the others are. -/
theorem mark_cons (hit : CardId × Int) (rest : List (CardId × Int)) (n : Int) :
    mark ⟨hit :: rest, n⟩ id damage =
      mark ⟨rest, n⟩ id (if id = hit.1 then word (damage + hit.2) else damage) := by
  by_cases same : id = hit.1
  · subst same
    have total : total ⟨hit :: rest, n⟩ hit.1 = hit.2 + total ⟨rest, n⟩ hit.1 := by
      simp [DamagePlan.total]
    rw [mark, if_pos ⟨hit, List.mem_cons_self, rfl⟩, total, if_pos rfl, mark]
    split
    · rw [word_word_add, Int.add_assoc]
    · rename_i last
      rw [total_eq_zero last, Int.add_zero]
  · have total : total ⟨hit :: rest, n⟩ id = total ⟨rest, n⟩ id := by
      simp [DamagePlan.total, Ne.symm same]
    rw [mark, if_neg same, mark, total]
    exact if_congr (by simp [Ne.symm same]) rfl rfl

end DamagePlan

namespace State

variable {s t : State} {id : CardId} {plan : DamagePlan} {defending : Seat}

/-- Damage is marked on cards and changes nothing else about them. -/
theorem card?_dealDamage (dealt : s.dealDamage defending plan = .ok t) (id : CardId) :
    t.card? id = (s.card? id).map fun c => { c with damage := plan.mark id c.damage } := by
  have hurt (hits : List (CardId × Int)) (s : State) :
      (hits.foldl (fun s hit => s.updateCard hit.1 fun c => { c with damage := word (c.damage + hit.2) })
          s).card? id =
        (s.card? id).map fun c => { c with damage := DamagePlan.mark ⟨hits, 0⟩ id c.damage } := by
    induction hits generalizing s with
    | nil => simp [DamagePlan.mark]
    | cons hit rest ih =>
        rw [List.foldl_cons, ih, card?_updateCard]
        by_cases same : id = hit.1
        · subst same
          simp [Function.comp_def, DamagePlan.mark_cons]
        · simp [same, DamagePlan.mark_cons]
  unfold dealDamage at dealt
  dsimp only at dealt
  split at dealt
  · cases dealt
    exact hurt plan.toCards s
  · obtain ⟨p, -, dealt⟩ := Outcome.bind_eq_ok.mp dealt
    cases dealt
    exact hurt plan.toCards s

/-- The first pass is dealt as planned. Where nothing is planned it comes to the same, and nothing
    follows from it. -/
theorem dealFirstStrike_eq_ok (first : s.dealFirstStrike defending plan = .ok t) :
    ∃ hurt, s.dealDamage defending plan = .ok hurt ∧
      (hurt = s ∧ t = s ∨ ∃ r, hurt.toRest = .ok r ∧ t = r.state) := by
  unfold dealFirstStrike at first
  split at first
  · rename_i nothing
    cases first
    simp only [DamagePlan.isNone, Bool.and_eq_true, List.isEmpty_iff, decide_eq_true_eq] at nothing
    refine ⟨s, ?_, .inl ⟨rfl, rfl⟩⟩
    simp [dealDamage, nothing]
  · simp only [Outcome.bind_eq_ok] at first
    obtain ⟨hurt, dealt, r, rest, first⟩ := first
    cases first
    exact ⟨hurt, dealt, .inr ⟨r, rest, rfl⟩⟩

/-- Combat damage is dealt in two passes, or there is none. -/
theorem combatDamage_cases (dealt : s.combatDamage = .ok t) :
    t = s ∨ ∃ combat between, s.combat = some combat ∧
      s.derive.dealFirstStrike combat.defendingPlayer
        (s.derive.planDamage combat .firstStrike .empty).plan = .ok between ∧
      between.dealDamage combat.defendingPlayer (between.planDamage combat .regular
        (s.derive.planDamage combat .firstStrike .empty).assigned).plan = .ok t := by
  unfold combatDamage at dealt
  split at dealt
  · cases dealt
    exact .inl rfl
  · rename_i combat opened
    split at dealt
    · cases dealt
      exact .inl rfl
    · obtain ⟨between, first, dealt⟩ := Outcome.bind_eq_ok.mp dealt
      exact .inr ⟨combat, between, opened, first, dealt⟩

/-- The damage on every card is still a word when the plan is dealt. -/
def CanMark (s : State) (plan : DamagePlan) : Prop :=
  ∀ id c, s.card? id = some c → IsWord (c.damage + plan.total id)

/-- Every hit of the plan is some damage to a card on a battlefield. -/
def Wounds (s : State) (plan : DamagePlan) : Prop :=
  ∀ hit ∈ plan.toCards, s.isOnBattlefield hit.1 = true ∧ 0 < hit.2

theorem Wounds.hitCard {plan : DamagePlan} (h : s.Wounds plan) (inPlay : s.isOnBattlefield id = true)
    {amount : Int} (some : 0 < amount) : s.Wounds (plan.hitCard id amount) := by
  intro hit member
  rcases List.mem_append.mp member with member | new
  · exact h hit member
  · rw [List.mem_singleton.mp new]
    exact ⟨inPlay, some⟩

section Planning

variable {p : Planning} {blockers : List (CardId × Card)} (h : s.Wounds p.plan)
  (inPlay : ∀ b ∈ blockers, s.isOnBattlefield b.1 = true)
include h inPlay

theorem wounds_spread {power : Int} : s.Wounds (p.spread power blockers).1.plan := by
  induction blockers generalizing p power with
  | nil => exact h
  | cons b rest ih =>
      obtain ⟨here, others⟩ := List.forall_mem_cons.mp inPlay
      unfold Planning.spread
      dsimp only
      split
      · rename_i some
        exact ih (h.hitCard here some) others
      · exact ih h others

theorem wounds_strikeBlockers (attacker : Card) : s.Wounds (p.strikeBlockers attacker blockers).plan := by
  have spread : s.Wounds (p.spread attacker.power blockers).1.plan := wounds_spread h inPlay
  unfold Planning.strikeBlockers
  generalize p.spread attacker.power blockers = result at spread
  obtain ⟨q, left⟩ := result
  dsimp only
  split
  · rename_i some
    split
    · exact spread
    · split
      · rename_i last blocker isLast
        exact spread.hitCard (inPlay _ (List.mem_of_getLast? isLast)) some
      · exact spread
  · exact spread

end Planning

theorem wounds_strikeBack {p : Planning} {blockers : List (CardId × Card)} (h : s.Wounds p.plan)
    (pass : DamagePass) {attacker : CardId} (attacks : s.isOnBattlefield attacker = true) :
    s.Wounds (p.strikeBack pass attacker blockers).plan := by
  induction blockers generalizing p with
  | nil => exact h
  | cons b rest ih =>
      refine ih ?_
      dsimp only
      split
      · rename_i strikes
        rw [Bool.and_eq_true, decide_eq_true_eq] at strikes
        exact h.hitCard attacks strikes.2
      · exact h

theorem wounds_attack {p : Planning} (h : s.Wounds p.plan) (combat : Combat) (pass : DamagePass)
    (id : CardId) : s.Wounds (Planning.attack s combat pass p id).plan := by
  unfold Planning.attack
  split
  · rename_i attacks
    split
    · exact h
    · rename_i attacker _
      have inPlay : ∀ b ∈ s.survivors (combat.blockersOf id), s.isOnBattlefield b.1 = true :=
        fun b member => (mem_survivors.mp member).2.1
      refine wounds_strikeBack ?_ pass attacks
      split
      · split
        · exact wounds_strikeBlockers h inPlay attacker
        · exact h
      · exact h
  · exact h

theorem wounds_planDamage (s : State) (combat : Combat) (pass : DamagePass) (assigned : Assigned) :
    s.Wounds (s.planDamage combat pass assigned).plan := by
  have fold {attackers : List CardId} {p : Planning} (h : s.Wounds p.plan) :
      s.Wounds (attackers.foldl (Planning.attack s combat pass) p).plan := by
    induction attackers generalizing p with
    | nil => exact h
    | cons first rest ih => exact ih (wounds_attack h combat pass first)
  exact fold nofun

namespace Wounds

theorem total_nonneg (h : s.Wounds plan) (id : CardId) : 0 ≤ plan.total id := by
  refine List.sum_nonneg fun amount member => ?_
  obtain ⟨hit, listed, rfl⟩ := List.mem_map.mp member
  exact (h hit (List.mem_filter.mp listed).1).2.le

/-- A card that is not on a battlefield is spared. -/
theorem mark_eq (h : s.Wounds plan) (off : s.isOnBattlefield id = false) (damage : Int) :
    plan.mark id damage = damage := by
  refine if_neg ?_
  rintro ⟨hit, member, rfl⟩
  rw [(h hit member).1] at off
  cases off

end Wounds

end State

end CardGame
