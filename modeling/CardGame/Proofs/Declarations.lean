import CardGame.Proofs.Changes

/-! # Declarations

A declaration succeeds in its step of combat only, and of every creature it asks the same: that it is
there, ready, and not declared already. Attackers are recorded in the order in which they are listed,
and each blocker with the attacker that it blocks.
-/

namespace CardGame

/-- Adding an item to the list of one key adds it to all the lists taken together. -/
theorem Key.Ordered.perm_flatMap_place {κ α : Type} [Key κ] [DecidableEq κ]
    {entries : List (κ × List α)} (h : Key.Ordered entries) (key : κ) (item : α) :
    ((Table.place key ((entries.lookup key).getD [] ++ [item]) entries).flatMap (·.2)).Perm
      (item :: entries.flatMap (·.2)) := by
  induction entries with
  | nil => exact .refl _
  | cons entry rest ih =>
      have ordered := List.pairwise_cons.mp h
      unfold Table.place
      split
      · rename_i before
        have absent : (entry :: rest).lookup key = none := by
          refine List.lookup_eq_none_iff.mpr fun other member => ?_
          have later : Key.before key other.1 := by
            rcases List.mem_cons.mp member with rfl | member
            · exact before
            · exact Key.trans before (ordered.1 other member)
          refine bne_iff_ne.mpr fun same => Key.irrefl other.1 ?_
          rwa [same] at later
        rw [absent]
        exact .refl _
      · split
        · rename_i same
          simp only [Table.lookup_cons_eq_ite, same, if_true, Option.getD_some, List.flatMap_cons,
            List.append_assoc, List.singleton_append]
          exact List.perm_middle
        · rename_i different
          rw [Table.lookup_cons_eq_ite, if_neg different, List.flatMap_cons, List.flatMap_cons]
          exact ((ih ordered.2).append_left entry.2).trans List.perm_middle

namespace Combat

variable {combat : Combat} {id blocker attacker : CardId}

/-- All blockers, whatever they block. -/
def blockers (combat : Combat) : List CardId := combat.blocks.values.flatten

theorem isBlocking_iff : combat.isBlocking id = true ↔ id ∈ combat.blockers := by
  simp [isBlocking, blockers]

theorem perm_blockers_addBlock (combat : Combat) (blocker attacker : CardId) :
    (combat.addBlock blocker attacker).blockers.Perm (blocker :: combat.blockers) :=
  combat.blocks.ordered.perm_flatMap_place attacker blocker

theorem get?_addBlock (combat : Combat) (blocker attacker other : CardId) :
    (combat.addBlock blocker attacker).blocks.get? other =
      if other = attacker then some (combat.blockersOf attacker ++ [blocker])
      else combat.blocks.get? other :=
  Table.get?_insert ..

end Combat

namespace State

variable {s t view : State} {player : Seat} {combat declared : Combat} {id : CardId} {c : Card}

/-- The card can attack or block for the player. -/
structure Ready (view : State) (player : Seat) (id : CardId) (c : Card) : Prop
    extends InPlay view id c where
  controller : c.controller = player
  creature : c.isCreature = true
  untapped : c.tapped = false

theorem readyCreature_eq_ok : view.readyCreature id player = .ok c ↔ view.Ready player id c := by
  simp only [readyCreature, Outcome.bind_eq_ok, Outcome.require_eq_ok, card_eq_ok,
    isOnBattlefield_iff, decide_eq_true_eq, Bool.not_eq_true', exists_const]
  constructor
  · rintro ⟨d, found, ⟨e, known, inPlay⟩, controller, creature, untapped, same⟩
    cases same
    cases found.symm.trans known
    exact ⟨⟨found, inPlay⟩, controller, creature, untapped⟩
  · rintro ⟨⟨found, inPlay⟩, controller, creature, untapped⟩
    exact ⟨c, found, ⟨c, found, inPlay⟩, controller, creature, untapped, rfl⟩

/-- The card can attack for the player: it is ready, and has not just entered, or has haste. -/
def MayAttack (view : State) (player : Seat) (id : CardId) : Prop :=
  ∃ c, view.Ready player id c ∧ c.isSummoningSick = false

theorem addAttacker_eq_ok : view.addAttacker player combat id = .ok declared ↔
    id ∉ combat.attackers ∧ view.MayAttack player id ∧
      declared = { combat with attackers := combat.attackers ++ [id] } := by
  simp only [addAttacker, Outcome.bind_eq_ok, Outcome.require_eq_ok, readyCreature_eq_ok,
    Combat.isAttacking, Bool.not_eq_true', decide_eq_false_iff_not, exists_const, MayAttack,
    Except.ok.injEq, eq_comm (b := declared), ← exists_and_right, and_assoc]

/-- The attackers are listed after those that were declared before. -/
theorem addAttackers_eq_ok {attackers : List CardId} :
    attackers.foldlM (view.addAttacker player) combat = .ok declared ↔
      attackers.Nodup ∧ (∀ id ∈ attackers, id ∉ combat.attackers ∧ view.MayAttack player id) ∧
        declared = { combat with attackers := combat.attackers ++ attackers } := by
  induction attackers generalizing combat with
  | nil => simp [pure, Except.pure, eq_comm]
  | cons id rest ih =>
      simp only [List.foldlM_cons, Outcome.bind_eq_ok, addAttacker_eq_ok, ih, List.nodup_cons,
        List.forall_mem_cons]
      constructor
      · rintro ⟨_, ⟨fresh, able, rfl⟩, nodup, all, rfl⟩
        simp only [List.mem_append, List.mem_singleton, not_or] at all
        have distinct : id ∉ rest := fun member => (all id member).1.2 rfl
        exact ⟨⟨distinct, nodup⟩,
          ⟨⟨fresh, able⟩, fun other member => (all other member).imp_left And.left⟩, by simp⟩
      · rintro ⟨⟨distinct, nodup⟩, ⟨⟨fresh, able⟩, all⟩, rfl⟩
        refine ⟨_, ⟨fresh, able, rfl⟩, nodup, fun other member => ?_, by simp⟩
        have different : other ≠ id := fun same => distinct (same ▸ member)
        simpa [different] using all other member

theorem declareAttackers_eq_ok {attackers : List CardId} :
    s.declareAttackers player attackers = .ok t ↔
      s.moment = ⟨.combat, some .declareAttackers⟩ ∧ player = s.activePlayer ∧ s.combat = none ∧
        attackers.Nodup ∧ (∀ id ∈ attackers, s.derive.MayAttack player id) ∧
        t = { s.tapAttackers s.derive attackers with
          combat := some ⟨player, s.nextSeat player, attackers, .empty⟩ } := by
  simp only [declareAttackers, requireCombatStep, Outcome.bind_eq_ok, Outcome.require_eq_ok,
    addAttackers_eq_ok, decide_eq_true_eq, Option.isNone_iff_eq_none, exists_const,
    Combat.opening, List.not_mem_nil, not_false_eq_true, true_and, List.nil_append, Except.ok.injEq]
  refine and_congr_right fun _ => and_congr_right fun _ => and_congr_right fun _ => ?_
  constructor
  · rintro ⟨_, ⟨nodup, able, rfl⟩, rfl⟩
    exact ⟨nodup, able, rfl⟩
  · rintro ⟨nodup, able, rfl⟩
    exact ⟨_, ⟨nodup, able, rfl⟩, rfl⟩

/-- An attacker without vigilance is tapped, and every other card stays as it is. -/
theorem card?_tapAttackers (s view : State) (attackers : List CardId) (id : CardId) :
    (s.tapAttackers view attackers).card? id =
      if id ∈ attackers ∧ (view.card? id).any (·.hasKeyword .vigilance) = false then
        (s.card? id).map fun c => { c with tapped := true }
      else s.card? id := by
  induction attackers generalizing s with
  | nil => simp [tapAttackers]
  | cons first rest ih =>
      rw [tapAttackers, List.foldl_cons, ← tapAttackers, ih]
      by_cases vigilant : (view.card? first).any (·.hasKeyword .vigilance) = true
      · rw [if_pos vigilant]
        by_cases same : id = first
        · simp [same, vigilant]
        · simp [same]
      · rw [if_neg vigilant, card?_updateCard]
        by_cases same : id = first
        · subst same
          cases s.card? id <;> simp [vigilant]
        · simp [same]

/-- The first card can block the second one for the player. Only what flies blocks what flies. -/
def MayBlock (view : State) (player : Seat) (blocker attacker : CardId) : Prop :=
  ∃ blocking attacking, view.Ready player blocker blocking ∧ view.card? attacker = some attacking ∧
    (attacking.hasKeyword .flying = true → blocking.hasKeyword .flying = true)

theorem addBlocker_eq_ok {blocker attacker : CardId} :
    view.addBlocker player combat (blocker, attacker) = .ok declared ↔
      blocker ∉ combat.blockers ∧ attacker ∈ combat.attackers ∧
        view.MayBlock player blocker attacker ∧ declared = combat.addBlock blocker attacker := by
  simp only [addBlocker, Outcome.bind_eq_ok, Outcome.require_eq_ok, readyCreature_eq_ok, card_eq_ok,
    Combat.isAttacking, Bool.not_eq_true', decide_eq_true_eq, Bool.or_eq_true, exists_const,
    Except.ok.injEq, ← Bool.not_eq_true, Combat.isBlocking_iff, ← imp_iff_not_or, MayBlock]
  constructor
  · rintro ⟨fresh, blocking, ready, attacks, attacking, found, flies, rfl⟩
    exact ⟨fresh, attacks, ⟨blocking, attacking, ready, found, flies⟩, rfl⟩
  · rintro ⟨fresh, attacks, ⟨blocking, attacking, ready, found, flies⟩, rfl⟩
    exact ⟨fresh, blocking, ready, attacks, attacking, found, flies, rfl⟩

/-- Blockers are recorded among the blocks, and nothing else of the combat changes. -/
theorem addBlockers_eq {blocks : List (CardId × CardId)}
    (added : blocks.foldlM (view.addBlocker player) combat = .ok declared) :
    declared = { combat with blocks := declared.blocks } := by
  refine Outcome.foldlM_relates (R := fun c d : Combat => d = { c with blocks := d.blocks })
    (fun _ => rfl) (fun first rest => ?_) ?_ added
  · rw [rest, first]
  · rintro before ⟨blocker, attacker⟩ - after step
    obtain ⟨-, -, -, rfl⟩ := addBlocker_eq_ok.mp step
    rfl

theorem declareBlockers_eq_ok {blocks : List (CardId × CardId)} :
    s.declareBlockers player blocks = .ok t ↔
      s.moment = ⟨.combat, some .declareBlockers⟩ ∧ ∃ combat declared, s.combat = some combat ∧
        player = combat.defendingPlayer ∧
        blocks.foldlM (s.derive.addBlocker player) combat = .ok declared ∧
        t = { s with combat := some declared } := by
  simp only [declareBlockers, requireCombatStep, Outcome.bind_eq_ok, Outcome.require_eq_ok,
    decide_eq_true_eq, exists_const]
  refine and_congr_right fun _ => ?_
  cases s.combat with
  | none => simp
  | some combat =>
      simp [Outcome.bind_eq_ok, Outcome.require_eq_ok, eq_comm (a := t)]

end State

end CardGame
