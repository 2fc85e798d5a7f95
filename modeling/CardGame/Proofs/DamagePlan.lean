import CardGame.Proofs.Declarations
import CardGame.Proofs.Words
import Mathlib.Algebra.Order.BigOperators.Group.List
import Mathlib.Algebra.Ring.Int.Defs
import Mathlib.Data.List.Pairwise

/-! # What combat damage is planned

In a pass an attacker gives its blockers, in turn, as much as still kills them. Instead of step by
step, each share can be told at once: it is what the blockers before leave over, up to what the
blocker can take. As no creature blocks twice, what one attacker gives does not depend on the others,
nor on the order in which they attack. What the player is dealt and what blockers are assigned are sums
that wrap around, and exact where they are words.
-/

namespace CardGame

/-- Damage from one creature: of an attacker to a blocker or to the player, or of a blocker to the
    attacker. -/
inductive Stroke where
  | onBlocker (blocker : CardId) (amount : Int)
  | onPlayer (amount : Int)
  | onAttacker (attacker : CardId) (amount : Int)
  deriving DecidableEq, Repr

namespace Stroke

def amount : Stroke → Int
  | onBlocker _ n => n
  | onPlayer n => n
  | onAttacker _ n => n

/-- What the player is dealt. -/
def toPlayer : Stroke → Int
  | onPlayer n => n
  | _ => 0

/-- What a card is dealt. -/
def toCard (card : CardId) : Stroke → Int
  | onBlocker blocker n => if blocker = card then n else 0
  | onAttacker attacker n => if attacker = card then n else 0
  | onPlayer _ => 0

/-- What a card is given as a blocker. -/
def given (card : CardId) : Stroke → Int
  | onBlocker blocker n => if blocker = card then n else 0
  | _ => 0

/-- The hit of a card in a plan. There is none without damage. -/
def hit? : Stroke → Option (CardId × Int)
  | onBlocker blocker n => if n > 0 then some (blocker, n) else none
  | onAttacker attacker n => if n > 0 then some (attacker, n) else none
  | onPlayer _ => none

theorem given_nonneg {stroke : Stroke} (nonneg : 0 ≤ stroke.amount) (card : CardId) :
    0 ≤ stroke.given card := by
  cases stroke with
  | onBlocker blocker n =>
      simp only [given]
      split
      · exact nonneg
      · exact Int.le_refl 0
  | onPlayer n => exact Int.le_refl 0
  | onAttacker attacker n => exact Int.le_refl 0

end Stroke

/-- The damage that a card deals in a pass. -/
def DamagePass.force (pass : DamagePass) (card : Card) : Int :=
  if pass.includes card && card.power > 0 then card.power else 0

theorem DamagePass.force_nonneg (pass : DamagePass) (card : Card) : 0 ≤ pass.force card := by
  unfold force
  split
  · rename_i deals
    simp only [Bool.and_eq_true, decide_eq_true_eq] at deals
    exact deals.2.le
  · exact Int.le_refl 0

/-- Those cards of a list that are on a battlefield. -/
def State.survivors (s : State) (ids : List CardId) : List (CardId × Card) :=
  ids.filterMap fun id => if s.isOnBattlefield id then (s.card? id).map (id, ·) else none

namespace Assigned

/-- The damage that a blocker can still take before it is dead. -/
def capacity (assigned : Assigned) (b : CardId × Card) : Int :=
  max (word (b.2.toughness - (assigned.get? b.1).getD 0)) 0

/-- The damage that all the blockers can take. -/
def room (assigned : Assigned) (blockers : List (CardId × Card)) : Int :=
  (blockers.map assigned.capacity).sum

/-- What blockers get of some damage: each what those before it leave over, and no more than it can
    take. -/
def shares (assigned : Assigned) (force : Int) (blockers : List (CardId × Card)) : List Stroke :=
  blockers.zipIdx.map fun (b, i) =>
    .onBlocker b.1 (min (assigned.capacity b) (max (force - assigned.room (blockers.take i)) 0))

/-- What all the blockers leave over. -/
def excess (assigned : Assigned) (force : Int) (blockers : List (CardId × Card)) : Int :=
  max (force - assigned.room blockers) 0

end Assigned

/-- What an attacker deals in a pass. -/
def Combat.blows (combat : Combat) (pass : DamagePass) (assigned : Assigned)
    (attacker : CardId × Card) (blockers : List (CardId × Card)) : List Stroke :=
  let force := pass.force attacker.2
  if combat.isBlocked attacker.1 then
    let excess := assigned.excess force blockers
    assigned.shares force blockers ++
      if attacker.2.hasKeyword .trample then [.onPlayer excess]
      else (blockers.getLast?.map fun last => .onBlocker last.1 excess).toList
  else [.onPlayer force]

/-- What an attacker and its blockers deal in a pass, given what the blockers were assigned before. -/
def State.strokes (s : State) (combat : Combat) (pass : DamagePass) (assigned : Assigned)
    (attacker : CardId × Card) : List Stroke :=
  let blockers := s.survivors (combat.blockersOf attacker.1)
  combat.blows pass assigned attacker blockers ++
    blockers.map fun b => .onAttacker attacker.1 (pass.force b.2)

theorem State.mem_survivors {s : State} {ids : List CardId} {b : CardId × Card} :
    b ∈ s.survivors ids ↔
      b.1 ∈ ids ∧ s.isOnBattlefield b.1 = true ∧ s.card? b.1 = some b.2 := by
  rw [survivors, List.mem_filterMap]
  constructor
  · rintro ⟨id, listed, found⟩
    split at found
    · rename_i inPlay
      obtain ⟨card, known, rfl⟩ := Option.map_eq_some_iff.mp found
      exact ⟨listed, inPlay, known⟩
    · cases found
  · rintro ⟨listed, inPlay, known⟩
    refine ⟨b.1, listed, ?_⟩
    rw [if_pos inPlay, known]
    rfl

theorem State.nodup_survivors (s : State) {ids : List CardId} (h : ids.Nodup) :
    ((s.survivors ids).map (·.1)).Nodup := by
  refine h.sublist ?_
  induction ids with
  | nil => exact .slnil
  | cons id rest ih =>
      have ih := ih h.of_cons
      unfold survivors at ih ⊢
      rw [List.filterMap_cons]
      split
      · exact ih.cons id
      · rename_i b found
        obtain rfl : b.1 = id := by
          split at found
          · obtain ⟨card, -, rfl⟩ := Option.map_eq_some_iff.mp found
            rfl
          · cases found
        exact ih.cons_cons b.1

namespace Assigned

variable (assigned : Assigned) {assigned' : Assigned} {blockers : List (CardId × Card)}

theorem capacity_nonneg (b : CardId × Card) : 0 ≤ assigned.capacity b := Int.le_max_right ..

theorem capacity_of_isWord {b : CardId × Card}
    (fits : IsWord (b.2.toughness - (assigned.get? b.1).getD 0)) :
    assigned.capacity b = max (b.2.toughness - (assigned.get? b.1).getD 0) 0 := by
  rw [capacity, word_of_isWord fits]

@[simp]
theorem room_nil : assigned.room [] = 0 := rfl

@[simp]
theorem room_cons (b : CardId × Card) (rest : List (CardId × Card)) :
    assigned.room (b :: rest) = assigned.capacity b + assigned.room rest := List.sum_cons

theorem room_nonneg (blockers : List (CardId × Card)) : 0 ≤ assigned.room blockers := by
  induction blockers with
  | nil => simp
  | cons b rest ih =>
      have := assigned.capacity_nonneg b
      simp only [room_cons]
      omega

theorem shares_cons (force : Int) (b : CardId × Card) (rest : List (CardId × Card)) :
    assigned.shares force (b :: rest) =
      .onBlocker b.1 (min (assigned.capacity b) (max force 0)) ::
        assigned.shares (force - assigned.capacity b) rest := by
  unfold shares
  rw [List.zipIdx_cons, List.zipIdx_succ, List.map_cons, List.map_map]
  simp only [Function.comp_def, List.take_zero, List.take_succ_cons, room_nil, room_cons, Int.sub_zero,
    Int.sub_sub]

/-- Where nothing is left over nothing more is missing. -/
theorem shares_max (force : Int) (blockers : List (CardId × Card)) :
    assigned.shares (max force 0) blockers = assigned.shares force blockers := by
  unfold shares
  apply List.map_congr_left
  intro (b, i) _
  have := assigned.room_nonneg (blockers.take i)
  have : max (max force 0 - assigned.room (blockers.take i)) 0 =
      max (force - assigned.room (blockers.take i)) 0 := by omega
  simp only [this]

theorem excess_max (force : Int) (blockers : List (CardId × Card)) :
    assigned.excess (max force 0) blockers = assigned.excess force blockers := by
  have := assigned.room_nonneg blockers
  simp only [excess]
  omega

variable {assigned}

/-- Only what the blockers themselves were assigned counts. -/
theorem capacity_congr (h : ∀ b ∈ blockers, assigned'.get? b.1 = assigned.get? b.1) :
    ∀ b ∈ blockers, assigned'.capacity b = assigned.capacity b := by
  intro b member
  simp only [capacity, h b member]

theorem room_congr (h : ∀ b ∈ blockers, assigned'.get? b.1 = assigned.get? b.1) :
    assigned'.room blockers = assigned.room blockers :=
  congrArg List.sum (List.map_congr_left (capacity_congr h))

theorem shares_congr (h : ∀ b ∈ blockers, assigned'.get? b.1 = assigned.get? b.1) (force : Int) :
    assigned'.shares force blockers = assigned.shares force blockers := by
  unfold shares
  apply List.map_congr_left
  intro (b, i) listed
  have member : b ∈ blockers := List.fst_mem_of_mem_zipIdx listed
  have before := room_congr fun other earlier => h other (List.mem_of_mem_take (i := i) earlier)
  simp only [capacity_congr h b member, before]

theorem excess_congr (h : ∀ b ∈ blockers, assigned'.get? b.1 = assigned.get? b.1) (force : Int) :
    assigned'.excess force blockers = assigned.excess force blockers := by
  simp only [excess, room_congr h]

/-- What a card was assigned, and more. Nothing more leaves no entry. -/
def grown (before : Option Int) (more : Int) : Option Int :=
  if more = 0 then before else some (word (before.getD 0 + more))

theorem getD_grown {before : Option Int} {more : Int} (fits : IsWord (before.getD 0 + more)) :
    (grown before more).getD 0 = before.getD 0 + more := by
  unfold grown
  split
  · simp [*]
  · exact word_of_isWord fits

theorem grown_grown (before : Option Int) {first rest : Int} (hf : 0 ≤ first)
    (hr : 0 ≤ rest) : grown (grown before first) rest = grown before (first + rest) := by
  unfold grown
  by_cases nothing : first = 0
  · simp [nothing]
  · by_cases done : rest = 0
    · simp [done, nothing]
    · have : first + rest ≠ 0 := by omega
      simp [nothing, done, this, Int.add_assoc]

end Assigned

theorem State.strokes_congr {s : State} {combat : Combat} {assigned assigned' : Assigned}
    {attacker : CardId × Card}
    (h : ∀ id ∈ combat.blockersOf attacker.1, assigned'.get? id = assigned.get? id)
    (pass : DamagePass) :
    s.strokes combat pass assigned' attacker = s.strokes combat pass assigned attacker := by
  have same : ∀ b ∈ s.survivors (combat.blockersOf attacker.1),
      assigned'.get? b.1 = assigned.get? b.1 := fun b member => h b.1 (mem_survivors.mp member).1
  simp only [strokes, Combat.blows, Assigned.shares_congr same, Assigned.excess_congr same]

/-- Who can be struck. -/
theorem State.strokes_cases {s : State} {combat : Combat} {pass : DamagePass} {assigned : Assigned}
    {attacker : CardId × Card} {stroke : Stroke}
    (member : stroke ∈ s.strokes combat pass assigned attacker) :
    0 ≤ stroke.amount ∧
      ((∃ b ∈ s.survivors (combat.blockersOf attacker.1), ∃ n, stroke = .onBlocker b.1 n) ∨
        (∃ n, stroke = .onPlayer n) ∨ ∃ n, stroke = .onAttacker attacker.1 n) := by
  simp only [strokes, Combat.blows, List.mem_append, List.mem_map] at member
  rcases member with blow | ⟨b, -, rfl⟩
  · split at blow
    · rcases List.mem_append.mp blow with share | rest
      · obtain ⟨⟨b, i⟩, listed, rfl⟩ := List.mem_map.mp share
        refine ⟨?_, .inl ⟨b, List.fst_mem_of_mem_zipIdx listed, _, rfl⟩⟩
        exact Int.le_min.mpr ⟨assigned.capacity_nonneg b, Int.le_max_right ..⟩
      · split at rest
        · rw [List.mem_singleton.mp rest]
          exact ⟨Int.le_max_right .., .inr (.inl ⟨_, rfl⟩)⟩
        · obtain ⟨b, last, rfl⟩ := Option.map_eq_some_iff.mp (Option.mem_toList.mp rest)
          exact ⟨Int.le_max_right .., .inl ⟨b, List.mem_of_getLast? last, _, rfl⟩⟩
    · rw [List.mem_singleton.mp blow]
      exact ⟨pass.force_nonneg attacker.2, .inr (.inl ⟨_, rfl⟩)⟩
  · exact ⟨pass.force_nonneg b.2, .inr (.inr ⟨_, rfl⟩)⟩

theorem State.flatMap_strokes_nonneg (s : State) (combat : Combat) (pass : DamagePass)
    (assigned : Assigned) (attackers : List (CardId × Card)) :
    ∀ stroke ∈ attackers.flatMap (s.strokes combat pass assigned), 0 ≤ stroke.amount := by
  intro stroke member
  obtain ⟨attacker, -, member⟩ := List.mem_flatMap.mp member
  exact (strokes_cases member).1

namespace Planning

variable {s : State} {combat : Combat} {pass : DamagePass} {p : Planning}
  {blockers : List (CardId × Card)}

/-- Plan one more stroke. Without damage nobody is hit. -/
def strike (p : Planning) : Stroke → Planning
  | .onBlocker blocker n => if n > 0 then p.give blocker n else p
  | .onPlayer n => if n > 0 then { p with plan := p.plan.hitPlayer n } else p
  | .onAttacker attacker n => if n > 0 then { p with plan := p.plan.hitCard attacker n } else p

/-- Plan strokes one after the other. -/
def strikes (p : Planning) (strokes : List Stroke) : Planning := strokes.foldl strike p

@[simp]
theorem strikes_nil (p : Planning) : p.strikes [] = p := rfl

@[simp]
theorem strikes_cons (p : Planning) (stroke : Stroke) (rest : List Stroke) :
    p.strikes (stroke :: rest) = (p.strike stroke).strikes rest := rfl

@[simp]
theorem strikes_append (p : Planning) (first rest : List Stroke) :
    p.strikes (first ++ rest) = (p.strikes first).strikes rest := List.foldl_append

theorem get?_strike (p : Planning) {stroke : Stroke} (nonneg : 0 ≤ stroke.amount) (card : CardId) :
    (p.strike stroke).assigned.get? card =
      Assigned.grown (p.assigned.get? card) (stroke.given card) := by
  cases stroke with
  | onPlayer n =>
      simp only [strike]
      split <;> rfl
  | onAttacker attacker n =>
      simp only [strike]
      split <;> rfl
  | onBlocker blocker n =>
      by_cases some : n > 0
      · by_cases same : blocker = card
        · simp [strike, Stroke.given, Assigned.grown, give, some, same, some.ne']
        · simp [strike, Stroke.given, Assigned.grown, give, some, same, Ne.symm same]
      · obtain rfl : n = 0 := Int.le_antisymm (Int.not_lt.mp some) nonneg
        simp [strike, Stroke.given, Assigned.grown]

theorem get?_strikes (nonneg : ∀ stroke ∈ strokes, 0 ≤ stroke.amount) (card : CardId) :
    (p.strikes strokes).assigned.get? card =
      Assigned.grown (p.assigned.get? card) (strokes.map (Stroke.given card)).sum := by
  induction strokes generalizing p with
  | nil => rfl
  | cons stroke rest ih =>
      obtain ⟨now, later⟩ := List.forall_mem_cons.mp nonneg
      have others : 0 ≤ (rest.map (Stroke.given card)).sum := by
        apply List.sum_nonneg
        intro given member
        obtain ⟨stroke, listed, rfl⟩ := List.mem_map.mp member
        exact Stroke.given_nonneg (later stroke listed) card
      rw [strikes_cons, ih later, p.get?_strike now, List.map_cons, List.sum_cons]
      exact Assigned.grown_grown _ (Stroke.given_nonneg now card) others

theorem get?_strikes_of_given {card : CardId} {strokes : List Stroke}
    (nonneg : ∀ stroke ∈ strokes, 0 ≤ stroke.amount) (none : ∀ n, .onBlocker card n ∉ strokes) :
    (p.strikes strokes).assigned.get? card = p.assigned.get? card := by
  have nothing : (strokes.map (Stroke.given card)).sum = 0 := by
    apply List.sum_eq_zero
    intro given member
    obtain ⟨stroke, listed, rfl⟩ := List.mem_map.mp member
    cases stroke with
    | onBlocker blocker n =>
        refine if_neg fun same => none n ?_
        rwa [← same]
    | onPlayer n => rfl
    | onAttacker attacker n => rfl
  rw [get?_strikes nonneg, nothing]
  rfl

theorem spread_cons {power : Int} (h : 0 ≤ power) (b : CardId × Card)
    (rest : List (CardId × Card)) :
    p.spread power (b :: rest) =
      (p.strike (.onBlocker b.1 (min power (p.assigned.capacity b)))).spread
        (max (power - p.assigned.capacity b) 0) rest := by
  have room := p.assigned.capacity_nonneg b
  have dealt : power - min power (p.assigned.capacity b) = max (power - p.assigned.capacity b) 0 := by
    omega
  rw [spread, strike, ← dealt]
  change (if min power (p.assigned.capacity b) > 0 then _ else _) = _
  split
  · rfl
  · rename_i nothing
    have none : min power (p.assigned.capacity b) = 0 := by omega
    rw [none, Int.sub_zero]

/-- The loop over the blockers gives each its share. -/
theorem spread_eq {power : Int} (h : 0 ≤ power) (distinct : (blockers.map (·.1)).Nodup) :
    p.spread power blockers =
      (p.strikes (p.assigned.shares power blockers), p.assigned.excess power blockers) := by
  induction blockers generalizing p power with
  | nil => simp [spread, Assigned.shares, Assigned.excess, h]
  | cons b rest ih =>
      obtain ⟨fresh, distinct⟩ := List.nodup_cons.mp distinct
      rw [spread_cons h, ih (Int.le_max_right ..) distinct]
      -- what this blocker is given makes no difference to the later ones
      have others : ∀ other ∈ rest,
          (p.strike (.onBlocker b.1 (min power (p.assigned.capacity b)))).assigned.get? other.1 =
            p.assigned.get? other.1 := by
        intro other member
        have different : b.1 ≠ other.1 := fun same =>
          fresh (List.mem_map.mpr ⟨other, member, same.symm⟩)
        have nonneg : 0 ≤ (Stroke.onBlocker b.1 (min power (p.assigned.capacity b))).amount :=
          Int.le_min.mpr ⟨h, p.assigned.capacity_nonneg b⟩
        rw [get?_strike p nonneg, Stroke.given, if_neg different]
        rfl
      rw [Assigned.shares_congr others, Assigned.excess_congr others, Assigned.shares_max,
        Assigned.excess_max, Assigned.shares_cons, Int.max_eq_left h, Int.min_comm, strikes_cons]
      simp only [Assigned.excess, Assigned.room_cons, Int.sub_sub]

theorem strikes_onPlayer (p : Planning) {n : Int} (some : n > 0) :
    p.strikes [.onPlayer n] = { p with plan := p.plan.hitPlayer n } := if_pos some

theorem strikeBlockers_eq (attacker : CardId × Card) (deals : pass.force attacker.2 = attacker.2.power)
    (blocked : combat.isBlocked attacker.1 = true) (distinct : (blockers.map (·.1)).Nodup) :
    p.strikeBlockers attacker.2 blockers =
      p.strikes (combat.blows pass p.assigned attacker blockers) := by
  have power : 0 ≤ attacker.2.power := deals ▸ pass.force_nonneg attacker.2
  have left : 0 ≤ p.assigned.excess attacker.2.power blockers := Int.le_max_right ..
  simp only [strikeBlockers, spread_eq power distinct, Combat.blows, blocked, deals, if_true,
    strikes_append]
  generalize p.assigned.excess attacker.2.power blockers = excess at left
  generalize p.strikes (p.assigned.shares attacker.2.power blockers) = q
  by_cases some : excess > 0
  · rw [if_pos some]
    split
    · exact (strikes_onPlayer q some).symm
    · split
      · rename_i last blocker isLast
        simp [isLast, strike, some]
      · rename_i none
        simp [none]
  · obtain rfl : excess = 0 := by omega
    rw [if_neg some]
    split
    · simp [strike]
    · cases blockers.getLast? <;> simp [strike]

/-- Without any force nothing happens. -/
theorem strikes_blows_of_force (attacker : CardId × Card) (none : pass.force attacker.2 = 0)
    (distinct : (blockers.map (·.1)).Nodup) :
    p.strikes (combat.blows pass p.assigned attacker blockers) = p := by
  have spread : (p.spread 0 blockers) = (p, 0) := by
    induction blockers with
    | nil => rfl
    | cons b rest ih =>
        have := p.assigned.capacity_nonneg b
        change 0 ≤ p.capacity b.1 b.2 at this
        have nothing : ¬ min 0 (p.capacity b.1 b.2) > 0 := by omega
        simp only [Planning.spread, if_neg nothing]
        exact ih (List.nodup_cons.mp distinct).2
  rw [spread_eq (Int.le_refl 0) distinct, Prod.mk.injEq] at spread
  simp only [Combat.blows, none]
  split
  · rw [strikes_append, spread.1, spread.2]
    split
    · simp [strike]
    · cases blockers.getLast? <;> simp [strike]
  · simp [strike]

theorem strikeBack_eq (p : Planning) (pass : DamagePass) (attacker : CardId)
    (blockers : List (CardId × Card)) :
    p.strikeBack pass attacker blockers =
      p.strikes (blockers.map fun b => .onAttacker attacker (pass.force b.2)) := by
  induction blockers generalizing p with
  | nil => rfl
  | cons b rest ih =>
      rw [strikeBack, List.foldl_cons, ← strikeBack, ih, List.map_cons, strikes_cons]
      congr 1
      simp only [strike, DamagePass.force]
      split
      · rename_i deals
        simp only [Bool.and_eq_true, decide_eq_true_eq] at deals
        rw [if_pos deals.2]
      · rw [if_neg (Int.lt_irrefl 0)]

/-- The turn of one attacker is made of its strokes. -/
theorem attack_eq {id : CardId} (distinct : (combat.blockersOf id).Nodup) :
    p.attack s combat pass id =
      p.strikes ((s.survivors [id]).flatMap (s.strokes combat pass p.assigned)) := by
  have blockers := s.nodup_survivors distinct
  unfold attack State.survivors
  rw [List.filterMap_cons]
  split
  · cases s.card? id with
    | none => rfl
    | some attacker =>
        simp only [Option.map_some, List.filterMap_nil, List.flatMap_cons, List.flatMap_nil,
          List.append_nil, State.strokes, strikes_append, strikeBack_eq]
        congr 1
        split
        · rename_i deals
          have force : pass.force attacker = attacker.power := by rw [DamagePass.force, if_pos deals]
          split
          · rename_i blocked
            exact strikeBlockers_eq (id, attacker) force blocked blockers
          · rename_i free
            simp only [Bool.and_eq_true, decide_eq_true_eq] at deals
            simp only [Combat.blows, if_neg free, force, strikes_onPlayer _ deals.2]
        · rename_i idle
          have force : pass.force attacker = 0 := by rw [DamagePass.force, if_neg idle]
          exact (strikes_blows_of_force (id, attacker) force blockers).symm
  · rfl

theorem mem_of_onBlocker_mem_strokes {assigned : Assigned} {attacker : CardId × Card} {card : CardId}
    {n : Int} (member : .onBlocker card n ∈ s.strokes combat pass assigned attacker) :
    card ∈ combat.blockersOf attacker.1 := by
  obtain ⟨-, ⟨b, listed, m, same⟩ | ⟨m, same⟩ | ⟨m, same⟩⟩ := State.strokes_cases member
  · rw [(Stroke.onBlocker.inj same).1]
    exact (State.mem_survivors.mp listed).1
  · cases same
  · cases same

/-- Attackers that share no blockers are planned from what the blockers were assigned at first. -/
theorem foldl_attack_eq {attackers : List CardId} {assigned : Assigned}
    (distinct : (attackers.flatMap combat.blockersOf).Nodup)
    (same : ∀ id ∈ attackers.flatMap combat.blockersOf,
      p.assigned.get? id = assigned.get? id) :
    attackers.foldl (Planning.attack s combat pass) p =
      p.strikes ((s.survivors attackers).flatMap (s.strokes combat pass assigned)) := by
  induction attackers generalizing p with
  | nil => rfl
  | cons id rest ih =>
      rw [List.flatMap_cons, List.nodup_append] at distinct
      obtain ⟨own, others, apart⟩ := distinct
      have split : s.survivors (id :: rest) = s.survivors [id] ++ s.survivors rest :=
        List.filterMap_append (l := [id])
      have first : (s.survivors [id]).flatMap (s.strokes combat pass p.assigned) =
          (s.survivors [id]).flatMap (s.strokes combat pass assigned) := by
        refine List.flatMap_congr fun attacker member => State.strokes_congr ?_ pass
        intro blocker blocks
        obtain rfl : attacker.1 = id := List.mem_singleton.mp (State.mem_survivors.mp member).1
        exact same blocker (List.mem_flatMap.mpr ⟨_, List.mem_cons_self, blocks⟩)
      rw [List.foldl_cons, attack_eq own, first, split, List.flatMap_append, strikes_append]
      refine ih others ?_
      intro blocker later
      have before : blocker ∈ (id :: rest).flatMap combat.blockersOf :=
        List.mem_append_right _ later
      rw [get?_strikes_of_given (s.flatMap_strokes_nonneg combat pass assigned _), same blocker before]
      intro n struck
      obtain ⟨attacker, member, blow⟩ := List.mem_flatMap.mp struck
      have own := mem_of_onBlocker_mem_strokes blow
      rw [List.mem_singleton.mp (State.mem_survivors.mp member).1] at own
      exact apart blocker own blocker later rfl

end Planning

namespace Combat

variable {combat : Combat}

theorem nodup_blockersOf (once : combat.blockers.Nodup) (attacker : CardId) :
    (combat.blockersOf attacker).Nodup := by
  unfold blockersOf
  cases found : combat.blocks.get? attacker with
  | none => exact List.nodup_nil
  | some blockers =>
      refine (List.nodup_flatten.mp once).1 blockers ?_
      exact List.mem_map.mpr ⟨_, Table.mem_entries.mpr found, rfl⟩

theorem disjoint_blockersOf (once : combat.blockers.Nodup) {a b : CardId} (different : a ≠ b) :
    (combat.blockersOf a).Disjoint (combat.blockersOf b) := by
  unfold blockersOf
  cases found : combat.blocks.get? a with
  | none => exact List.disjoint_nil_left _
  | some blockers =>
      cases found' : combat.blocks.get? b with
      | none => exact List.disjoint_nil_right _
      | some blockers' =>
          have apart := List.pairwise_map.mp (List.nodup_flatten.mp once).2
          have symm : Std.Symm fun e f : CardId × List CardId => e.2.Disjoint f.2 :=
            ⟨fun _ _ disjoint => List.disjoint_symm disjoint⟩
          refine apart.forall (Table.mem_entries.mpr found) (Table.mem_entries.mpr found') ?_
          intro same
          exact different (congrArg Prod.fst same)

theorem nodup_flatMap_blockersOf (once : combat.blockers.Nodup) {attackers : List CardId}
    (distinct : attackers.Nodup) : (attackers.flatMap combat.blockersOf).Nodup := by
  rw [List.nodup_flatMap]
  refine ⟨fun attacker _ => nodup_blockersOf once attacker, ?_⟩
  exact distinct.imp fun different => disjoint_blockersOf once different

end Combat

/-- A pass is planned stroke by stroke, each stroke as if its attacker were the only one. -/
theorem State.planDamage_eq (s : State) (combat : Combat) (distinct : combat.attackers.Nodup)
    (once : combat.blockers.Nodup) (pass : DamagePass) (assigned : Assigned) :
    s.planDamage combat pass assigned =
      Planning.strikes ⟨.none, assigned⟩
        ((s.survivors combat.attackers).flatMap (s.strokes combat pass assigned)) :=
  Planning.foldl_attack_eq (Combat.nodup_flatMap_blockersOf once distinct) fun _ _ => rfl

/-- All the damage that a plan deals to a card. -/
def DamagePlan.total (plan : DamagePlan) (card : CardId) : Int :=
  ((plan.toCards.filter fun hit => hit.1 = card).map (·.2)).sum

theorem DamagePlan.total_hitCard (plan : DamagePlan) (hit card : CardId) (n : Int) :
    (plan.hitCard hit n).total card = plan.total card + if hit = card then n else 0 := by
  unfold total hitCard
  rw [List.filter_append, List.map_append, List.sum_append]
  by_cases same : hit = card <;> simp [same]

namespace Planning

variable {p : Planning} {strokes : List Stroke}

theorem toCards_strikes :
    (p.strikes strokes).plan.toCards = p.plan.toCards ++ strokes.filterMap Stroke.hit? := by
  induction strokes generalizing p with
  | nil => simp
  | cons stroke rest ih =>
      rw [strikes_cons, ih]
      cases stroke with
      | onPlayer n =>
          rw [List.filterMap_cons_none rfl]
          by_cases some : n > 0 <;> simp [strike, some, DamagePlan.hitPlayer]
      | onBlocker blocker n =>
          by_cases some : n > 0 <;> simp [strike, Stroke.hit?, some, give, DamagePlan.hitCard]
      | onAttacker attacker n =>
          by_cases some : n > 0 <;> simp [strike, Stroke.hit?, some, DamagePlan.hitCard]

/-- What each stroke adds, they add all together. -/
theorem strikes_adds {f : Planning → Int} {g : Stroke → Int}
    (adds : ∀ (p : Planning) (stroke : Stroke), 0 ≤ stroke.amount →
      f (p.strike stroke) = f p + g stroke)
    (nonneg : ∀ stroke ∈ strokes, 0 ≤ stroke.amount) :
    f (p.strikes strokes) = f p + (strokes.map g).sum := by
  induction strokes generalizing p with
  | nil => simp
  | cons stroke rest ih =>
      obtain ⟨now, later⟩ := List.forall_mem_cons.mp nonneg
      rw [strikes_cons, ih later, adds p stroke now, List.map_cons, List.sum_cons, Int.add_assoc]

theorem toPlayer_strike (fits : IsWord p.plan.toPlayer) {stroke : Stroke}
    (nonneg : 0 ≤ stroke.amount) :
    (p.strike stroke).plan.toPlayer = word (p.plan.toPlayer + stroke.toPlayer) := by
  cases stroke with
  | onPlayer n =>
      by_cases some : n > 0
      · simp [strike, some, DamagePlan.hitPlayer, Stroke.toPlayer]
      · obtain rfl : n = 0 := Int.le_antisymm (Int.not_lt.mp some) nonneg
        simp [strike, Stroke.toPlayer, word_of_isWord fits]
  | onBlocker blocker n => by_cases some : n > 0 <;>
      simp [strike, some, give, DamagePlan.hitCard, Stroke.toPlayer, word_of_isWord fits]
  | onAttacker attacker n => by_cases some : n > 0 <;>
      simp [strike, some, DamagePlan.hitCard, Stroke.toPlayer, word_of_isWord fits]

theorem toPlayer_strikes (fits : IsWord p.plan.toPlayer)
    (nonneg : ∀ stroke ∈ strokes, 0 ≤ stroke.amount) :
    (p.strikes strokes).plan.toPlayer =
      word (p.plan.toPlayer + (strokes.map Stroke.toPlayer).sum) := by
  induction strokes generalizing p with
  | nil => simp [word_of_isWord fits]
  | cons stroke rest ih =>
      obtain ⟨now, later⟩ := List.forall_mem_cons.mp nonneg
      have next := toPlayer_strike fits now
      rw [strikes_cons, ih (next ▸ isWord_word _) later, next, word_word_add, List.map_cons,
        List.sum_cons, Int.add_assoc]

theorem total_strikes (nonneg : ∀ stroke ∈ strokes, 0 ≤ stroke.amount) (card : CardId) :
    (p.strikes strokes).plan.total card =
      p.plan.total card + (strokes.map (Stroke.toCard card)).sum := by
  refine strikes_adds (f := fun p => p.plan.total card) (fun p stroke nonneg => ?_) nonneg
  cases stroke with
  | onPlayer n =>
      refine Eq.trans ?_ (Int.add_zero _).symm
      simp only [strike]
      split <;> rfl
  | onBlocker blocker n =>
      simp only [strike, Stroke.toCard]
      split
      · exact p.plan.total_hitCard blocker card n
      · obtain rfl : n = 0 := Int.le_antisymm (Int.not_lt.mp ‹_›) nonneg
        simp
  | onAttacker attacker n =>
      simp only [strike, Stroke.toCard]
      split
      · exact p.plan.total_hitCard attacker card n
      · obtain rfl : n = 0 := Int.le_antisymm (Int.not_lt.mp ‹_›) nonneg
        simp

/-- Strokes come to the same in any order. -/
theorem strikes_perm {others : List Stroke} (perm : others.Perm strokes)
    (fits : IsWord p.plan.toPlayer) (nonneg : ∀ stroke ∈ strokes, 0 ≤ stroke.amount) :
    (p.strikes others).plan.toPlayer = (p.strikes strokes).plan.toPlayer ∧
      (p.strikes others).plan.toCards.Perm (p.strikes strokes).plan.toCards ∧
      (p.strikes others).assigned = (p.strikes strokes).assigned := by
  have nonneg' : ∀ stroke ∈ others, 0 ≤ stroke.amount :=
    fun stroke member => nonneg stroke (perm.mem_iff.mp member)
  refine ⟨?_, ?_, ?_⟩
  · rw [toPlayer_strikes fits nonneg, toPlayer_strikes fits nonneg', (perm.map Stroke.toPlayer).sum_eq]
  · rw [toCards_strikes, toCards_strikes]
    exact (perm.filterMap Stroke.hit?).append_left _
  · apply Table.ext_get?
    intro card
    rw [get?_strikes nonneg, get?_strikes nonneg', (perm.map (Stroke.given card)).sum_eq]

end Planning

namespace State

variable {s : State}

/-- Damage is dealt at once: the order of the hits makes no difference. -/
theorem dealDamage_perm {plan plan' : DamagePlan} (hits : plan'.toCards.Perm plan.toCards)
    (player : plan'.toPlayer = plan.toPlayer) (defending : Seat) :
    s.dealDamage defending plan' = s.dealDamage defending plan := by
  have comm (z : State) (x y : CardId × Int) :
      (z.updateCard x.1 fun c => { c with damage := word (c.damage + x.2) }).updateCard y.1
          (fun c => { c with damage := word (c.damage + y.2) }) =
        (z.updateCard y.1 fun c => { c with damage := word (c.damage + y.2) }).updateCard x.1
          fun c => { c with damage := word (c.damage + x.2) } := by
    simp only [updateCard]
    rw [Table.update_comm]
    intro c
    simp only [word_word_add, Int.add_right_comm]
  unfold dealDamage
  rw [hits.foldl_eq' (fun x _ y _ z => comm z x y) s, player]

/-- A creature in play. -/
def fighter (id : CardId) (seat : Seat) (power toughness : Int) (keywords : List Keyword) : Card :=
  let card := Card.create id (.creature 0 "Fighter" power toughness) seat
    (PlayerZones.ofSeat seat).battlefield []
  { card with characteristics := { card.characteristics with keywords } }

def melee : State :=
  { initial 2 20 with
    cards := .ofList [(1, fighter 1 0 7 5 []), (2, fighter 2 0 4 4 [.trample]),
      (3, fighter 3 1 2 2 []), (4, fighter 4 1 1 3 []), (5, fighter 5 1 1 1 [.firstStrike])] }

/-- The first attacker is blocked by two creatures, the second by one. -/
def meleeCombat : Combat := ⟨0, 1, [1, 2], .ofList [(1, [3, 4]), (2, [5])]⟩

/-- Two creatures that are as strong as can be, and one more. -/
def stampede : State :=
  { initial 2 20 with
    cards := .ofList [(1, fighter 1 0 9223372036854775807 1 []),
      (2, fighter 2 0 9223372036854775807 1 []), (3, fighter 3 0 2 1 [])] }

/-- They attack, and nobody blocks. -/
def stampedeCombat : Combat := ⟨0, 1, [1, 2, 3], .empty⟩

end State

end CardGame
