import CardGame.Proofs.Declarations
import CardGame.Proofs.Rederiving

/-! # What declarations ask for and do

A declaration is judged by derived characteristics and recorded in the state as it is. So what it asks
for can be told of the cards themselves, apart from what was derived for them, and what it changes is
the combat and, for attackers, which cards are tapped.
-/

namespace CardGame

namespace Combat

/-- Record each blocker with the attacker that it blocks, in order. -/
def addBlocks (combat : Combat) (blocks : List (CardId × CardId)) : Combat :=
  blocks.foldl (fun combat block => combat.addBlock block.1 block.2) combat

/-- What an attacker is blocked by: the blockers from before, then those that name it. -/
theorem get?_addBlocks (combat : Combat) (blocks : List (CardId × CardId)) (attacker : CardId) :
    (combat.addBlocks blocks).blocks.get? attacker =
      if attacker ∈ blocks.map (·.2) then
        some (combat.blockersOf attacker ++ (blocks.filter (·.2 = attacker)).map (·.1))
      else combat.blocks.get? attacker := by
  induction blocks generalizing combat with
  | nil => rfl
  | cons block rest ih =>
      rw [addBlocks, List.foldl_cons, ← addBlocks, ih, blockersOf, get?_addBlock]
      by_cases same : attacker = block.2
      · subst same
        by_cases again : block.2 ∈ rest.map (·.2)
        · simp [again]
        · have others : rest.filter (·.2 = block.2) = [] := by
            refine List.filter_eq_nil_iff.mpr fun other listed => ?_
            exact fun names => again (List.mem_map.mpr ⟨other, listed, of_decide_eq_true names⟩)
          simp [again, others]
      · have names : attacker ∈ (block :: rest).map (·.2) ↔ attacker ∈ rest.map (·.2) := by
          rw [List.map_cons, List.mem_cons, or_iff_right same]
        have others : (block :: rest).filter (·.2 = attacker) = rest.filter (·.2 = attacker) :=
          List.filter_cons_of_neg (by simpa using Ne.symm same)
        simp only [names, others, if_neg same, blockersOf]

theorem addBlocks_eq (combat : Combat) (blocks : List (CardId × CardId)) :
    combat.addBlocks blocks = { combat with blocks := (combat.addBlocks blocks).blocks } := by
  induction blocks generalizing combat with
  | nil => rfl
  | cons block rest ih => exact (ih (combat.addBlock block.1 block.2)).trans rfl

end Combat

namespace State

variable {s t view : State} {player : Seat} {combat declared : Combat} {id : CardId} {c : Card}

/-- Blockers are recorded if each is fresh and may block the attacker that it names. -/
theorem addBlockers_eq_ok {blocks : List (CardId × CardId)} :
    blocks.foldlM (view.addBlocker player) combat = .ok declared ↔
      (blocks.map (·.1)).Nodup ∧
        (∀ block ∈ blocks, block.1 ∉ combat.blockers ∧ block.2 ∈ combat.attackers ∧
          view.MayBlock player block.1 block.2) ∧
        declared = combat.addBlocks blocks := by
  induction blocks generalizing combat with
  | nil => simp [pure, Except.pure, Combat.addBlocks, eq_comm]
  | cons block rest ih =>
      obtain ⟨blocker, attacker⟩ := block
      simp only [List.foldlM_cons, Outcome.bind_eq_ok, addBlocker_eq_ok, ih, List.map_cons,
        List.nodup_cons, List.forall_mem_cons]
      have members (other : CardId) :
          other ∈ (combat.addBlock blocker attacker).blockers ↔
            other = blocker ∨ other ∈ combat.blockers := by
        rw [(combat.perm_blockers_addBlock blocker attacker).mem_iff, List.mem_cons]
      constructor
      · rintro ⟨_, ⟨fresh, attacks, able, rfl⟩, nodup, all, rfl⟩
        simp only [members, not_or] at all
        have distinct : blocker ∉ rest.map (·.1) := by
          intro listed
          obtain ⟨other, member, same⟩ := List.mem_map.mp listed
          exact (all other member).1.1 same
        exact ⟨⟨distinct, nodup⟩,
          ⟨⟨fresh, attacks, able⟩, fun other member => (all other member).imp_left And.right⟩, rfl⟩
      · rintro ⟨⟨distinct, nodup⟩, ⟨⟨fresh, attacks, able⟩, all⟩, rfl⟩
        refine ⟨_, ⟨fresh, attacks, able, rfl⟩, nodup, fun other member => ?_, rfl⟩
        have different : other.1 ≠ blocker := fun same =>
          distinct (List.mem_map.mpr ⟨other, member, same⟩)
        rw [members, or_iff_right different]
        exact all other member

/-- The characteristics that are derived for a card. -/
def looks? (s : State) (id : CardId) : Option Characteristics :=
  (s.derive.card? id).map (·.characteristics)

/-- A derived card is the card as it is, but for its characteristics. -/
theorem card?_derive_eq_some {d : Card} :
    s.derive.card? id = some d ↔
      ∃ c looks, s.card? id = some c ∧ s.looks? id = some looks ∧
        d = { c with characteristics := looks } := by
  have same := s.sameButDerived_derive.cards id
  unfold looks?
  cases found : s.card? id <;> cases derived : s.derive.card? id <;>
    rw [found, derived] at same <;> cases same
  · simp
  · rename_i c e look
    rw [Card.SameButDerived] at look
    simp only [Option.map_some, Option.some.injEq, exists_and_left, exists_eq_left', ← look]
    exact eq_comm

/-- An untapped card in play under the player's control, which is a creature by what is derived for it. -/
structure Able (s : State) (player : Seat) (id : CardId) (c : Card) (looks : Characteristics) :
    Prop where
  found : s.card? id = some c
  inPlay : s.isBattlefield c.zone = true
  controller : c.controller = player
  untapped : c.tapped = false
  derived : s.looks? id = some looks
  creature : .creature ∈ looks.types

theorem ready_derive_iff {d : Card} :
    s.derive.Ready player id d ↔
      ∃ c looks, s.Able player id c looks ∧ d = { c with characteristics := looks } := by
  constructor
  · rintro ⟨⟨found, inPlay⟩, controller, creature, untapped⟩
    obtain ⟨c, looks, known, derived, rfl⟩ := card?_derive_eq_some.mp found
    rw [isBattlefield_congr (layout_derive s)] at inPlay
    exact ⟨c, looks,
      ⟨known, inPlay, controller, untapped, derived, of_decide_eq_true creature⟩, rfl⟩
  · rintro ⟨c, looks, able, rfl⟩
    refine ⟨⟨card?_derive_eq_some.mpr ⟨c, looks, able.found, able.derived, rfl⟩, ?_⟩,
      able.controller, decide_eq_true able.creature, able.untapped⟩
    rw [isBattlefield_congr (layout_derive s)]
    exact able.inPlay

/-- The card can attack for the player: it has not just entered, or it has haste. -/
def CanAttack (s : State) (player : Seat) (id : CardId) : Prop :=
  ∃ c looks, s.Able player id c looks ∧ (c.summoningSick = true → .haste ∈ looks.keywords)

theorem mayAttack_derive_iff : s.derive.MayAttack player id ↔ s.CanAttack player id := by
  have rested (c : Card) (looks : Characteristics) :
      { c with characteristics := looks }.isSummoningSick = false ↔
        (c.summoningSick = true → .haste ∈ looks.keywords) := by
    cases sick : c.summoningSick <;> simp [Card.isSummoningSick, Card.hasKeyword]
  simp only [MayAttack, CanAttack, ready_derive_iff]
  constructor
  · rintro ⟨-, ⟨c, looks, able, rfl⟩, awake⟩
    exact ⟨c, looks, able, (rested c looks).mp awake⟩
  · rintro ⟨c, looks, able, awake⟩
    exact ⟨_, ⟨c, looks, able, rfl⟩, (rested c looks).mpr awake⟩

/-- Is the keyword among what is derived for the card? -/
def shows (s : State) (id : CardId) (keyword : Keyword) : Bool :=
  (s.looks? id).any fun looks => keyword ∈ looks.keywords

theorem any_hasKeyword_derive (keyword : Keyword) :
    (s.derive.card? id).any (·.hasKeyword keyword) = s.shows id keyword := by
  rw [shows, looks?, Option.any_map]
  rfl

/-- The card can block for the player: it flies if the attacker does. -/
def CanBlock (s : State) (player : Seat) (blocker attacker : CardId) : Prop :=
  ∃ c looks, s.Able player blocker c looks ∧
    (s.shows attacker .flying = true → .flying ∈ looks.keywords)

theorem mayBlock_derive_iff {blocker attacker : CardId} (known : (s.card? attacker).isSome) :
    s.derive.MayBlock player blocker attacker ↔ s.CanBlock player blocker attacker := by
  obtain ⟨attacking, found⟩ : ∃ attacking, s.derive.card? attacker = some attacking := by
    obtain ⟨c, found⟩ := Option.isSome_iff_exists.mp known
    obtain ⟨d, derived, -⟩ := card?_congr (layout_derive s).symm found
    exact ⟨d, derived⟩
  have flies : s.shows attacker .flying = attacking.hasKeyword .flying := by
    rw [← any_hasKeyword_derive, found, Option.any_some]
  simp only [MayBlock, CanBlock, ready_derive_iff, flies]
  constructor
  · rintro ⟨-, other, ⟨c, looks, able, rfl⟩, same, meets⟩
    cases found.symm.trans same
    exact ⟨c, looks, able, fun flying => of_decide_eq_true (meets flying)⟩
  · rintro ⟨c, looks, able, meets⟩
    exact ⟨_, attacking, ⟨c, looks, able, rfl⟩, found, fun flying => decide_eq_true (meets flying)⟩

/-- The listed cards are tapped, but for those that show vigilance. -/
def tapped (s : State) (attackers : List CardId) : Table CardId Card :=
  s.cards.mapWithKey fun id c =>
    if id ∈ attackers ∧ s.shows id .vigilance = false then { c with tapped := true } else c

theorem tapAttackers_derive (s : State) (attackers : List CardId) :
    s.tapAttackers s.derive attackers = { s with cards := s.tapped attackers } := by
  have rest (t : State) : t.tapAttackers s.derive attackers =
      { t with cards := (t.tapAttackers s.derive attackers).cards } := by
    induction attackers generalizing t with
    | nil => rfl
    | cons first rest ih =>
        rw [tapAttackers, List.foldl_cons, ← tapAttackers, ih]
        split <;> rfl
  have cards : (s.tapAttackers s.derive attackers).cards = s.tapped attackers := by
    refine Table.ext_get? fun id => ?_
    rw [tapped, Table.get?_mapWithKey]
    refine (card?_tapAttackers s s.derive attackers id).trans ?_
    rw [any_hasKeyword_derive]
    split
    · rfl
    · exact Option.map_id'.symm
  rw [rest, cards]

/-- What a declaration of attackers asks for and does, and a declaration of blockers in a combat whose
    attackers exist. Nothing else changes. -/
theorem declarations_exact (s : State) :
    (∀ (player : Seat) (attackers : List CardId) (t : State),
      s.declareAttackers player attackers = .ok t ↔
        s.moment = ⟨.combat, some .declareAttackers⟩ ∧ player = s.activePlayer ∧ s.combat = none ∧
        attackers.Nodup ∧ (∀ id ∈ attackers, s.CanAttack player id) ∧
        t = { s with
          combat := some ⟨player, s.nextSeat player, attackers, .empty⟩
          cards := s.tapped attackers }) ∧
    ((∀ combat, s.combat = some combat → ∀ id ∈ combat.attackers, (s.card? id).isSome) →
      ∀ (player : Seat) (blocks : List (CardId × CardId)) (t : State),
        s.declareBlockers player blocks = .ok t ↔
          s.moment = ⟨.combat, some .declareBlockers⟩ ∧ ∃ combat, s.combat = some combat ∧
          player = combat.defendingPlayer ∧ (blocks.map (·.1)).Nodup ∧
          (∀ block ∈ blocks, block.1 ∉ combat.blockers ∧ block.2 ∈ combat.attackers ∧
            s.CanBlock player block.1 block.2) ∧
          ∃ blocking, t = { s with combat := some { combat with blocks := blocking } } ∧
            ∀ attacker, blocking.get? attacker =
              if attacker ∈ blocks.map (·.2) then
                some (combat.blockersOf attacker ++ (blocks.filter (·.2 = attacker)).map (·.1))
              else combat.blocks.get? attacker) := by
  refine ⟨fun player attackers t => ?attackers, fun existing player blocks t => ?blockers⟩
  case attackers =>
    simp only [declareAttackers_eq_ok, mayAttack_derive_iff, tapAttackers_derive]
  case blockers =>
    simp only [declareBlockers_eq_ok, addBlockers_eq_ok]
    refine and_congr_right fun _ => exists_congr fun combat => ?_
    have blocks_iff : s.combat = some combat →
        ((∀ block ∈ blocks, block.1 ∉ combat.blockers ∧ block.2 ∈ combat.attackers ∧
            s.derive.MayBlock player block.1 block.2) ↔
          ∀ block ∈ blocks, block.1 ∉ combat.blockers ∧ block.2 ∈ combat.attackers ∧
            s.CanBlock player block.1 block.2) := by
      intro opened
      refine forall₂_congr fun block _ => and_congr_right fun _ => and_congr_right fun attacks => ?_
      exact mayBlock_derive_iff (existing combat opened _ attacks)
    have record (blocking : Table CardId (List CardId)) :
        (∀ attacker, blocking.get? attacker =
          if attacker ∈ blocks.map (·.2) then
            some (combat.blockersOf attacker ++ (blocks.filter (·.2 = attacker)).map (·.1))
          else combat.blocks.get? attacker) ↔ blocking = (combat.addBlocks blocks).blocks := by
      simp only [← Combat.get?_addBlocks]
      exact ⟨Table.ext_get?, fun same _ => same ▸ rfl⟩
    simp only [record, exists_eq_right]
    constructor
    · rintro ⟨declared, opened, defends, ⟨nodup, able, rfl⟩, rfl⟩
      exact ⟨opened, defends, nodup, (blocks_iff opened).mp able, by rw [← Combat.addBlocks_eq]⟩
    · rintro ⟨opened, defends, nodup, able, rfl⟩
      exact ⟨_, opened, defends, ⟨nodup, (blocks_iff opened).mpr able, rfl⟩,
        by rw [← Combat.addBlocks_eq]⟩

/-- A creature in play that has a keyword by an ability of its own. -/
def soldier (id : CardId) (seat : Seat) (keyword : Keyword) : Card :=
  Card.create id (.creature id "Soldier" 2 2) seat (PlayerZones.ofSeat seat).battlefield
    [.static (.ofEffect id ⟨id, .source, .grantKeyword keyword⟩)]

def siegeCombat : Combat := ⟨0, 1, [1, 2], .empty⟩

/-- Of two attackers the first one flies, and so does the first of the creatures that may block. -/
def siege : State :=
  { initial 2 20 with
    cards := .ofList [(1, soldier 1 0 .flying), (2, soldier 2 0 .trample), (3, soldier 3 1 .flying),
      (4, soldier 4 1 .haste)]
    moment := ⟨.combat, some .declareBlockers⟩
    combat := some siegeCombat }

/-- The creature that does not fly can block the second attacker, and not the first one. -/
theorem declarations_exact_siege :
    (∀ combat, siege.combat = some combat → ∀ id ∈ combat.attackers, (siege.card? id).isSome) ∧
      (∃ t, siege.declareBlockers 1 [(3, 1), (4, 2)] = .ok t ∧ ∃ blocking,
        t = { siege with combat := some { siegeCombat with blocks := blocking } } ∧
          blocking.get? 1 = some [3] ∧ blocking.get? 2 = some [4]) ∧
      ¬ siege.CanBlock 1 4 1 := by
  have existing : ∀ combat, siege.combat = some combat → ∀ id ∈ combat.attackers,
      (siege.card? id).isSome := by
    intro combat opened
    obtain rfl : siegeCombat = combat := Option.some.inj opened
    decide
  obtain ⟨-, exact⟩ := declarations_exact siege
  refine ⟨existing, ?_, fun able => ?_⟩
  · obtain ⟨t, declared⟩ := Outcome.isOk_iff.mp
      (by decide : (siege.declareBlockers 1 [(3, 1), (4, 2)]).isOk = true)
    obtain ⟨-, combat, opened, -, -, -, blocking, result, lists⟩ :=
      (exact existing 1 [(3, 1), (4, 2)] t).mp declared
    obtain rfl : siegeCombat = combat := Option.some.inj opened
    exact ⟨t, declared, blocking, result, lists 1, lists 2⟩
  · have allowed : ∀ block ∈ [((4 : CardId), (1 : CardId))], block.1 ∉ siegeCombat.blockers ∧
        block.2 ∈ siegeCombat.attackers ∧ siege.CanBlock 1 block.1 block.2 := by
      intro block listed
      obtain rfl := List.mem_singleton.mp listed
      exact ⟨by decide, by decide, able⟩
    have declared := (exact existing 1 [(4, 1)] _).mpr ⟨rfl, siegeCombat, rfl, rfl, by decide, allowed,
      (siegeCombat.addBlocks [(4, 1)]).blocks, rfl, siegeCombat.get?_addBlocks [(4, 1)]⟩
    have refused : (siege.declareBlockers 1 [(4, 1)]).isOk = false := by decide
    rw [declared] at refused
    cases refused

end State

end CardGame
