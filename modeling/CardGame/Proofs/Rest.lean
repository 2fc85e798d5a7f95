import CardGame.Combat.Damage
import CardGame.Proofs.Derivation
import CardGame.Proofs.EmptyTable

/-! # Coming to rest

Passes of state-based actions end. A pass that changes something marks a player as having lost or
puts a creature into a graveyard. Neither is ever undone, and cards that leave the battlefield never
make a creature of a card that was none, so the players and creatures at the start bound the number
of passes. A player loses who has a seat at the table, and so does everybody as long as the number of
players is below the limit of seats.
-/

namespace CardGame

namespace State

variable {s t : State}

/-- Nothing is left to do: characteristics are derived, every player at the table without life has
    lost, and no creature in play has lethal damage. -/
structure Settled (s : State) : Prop where
  derived : s.derive = s
  alive : ∀ {seat p}, seat ∈ Seat.all s.playerCount → s.player? seat = some p → p.life ≤ 0 →
    p.hasLost = true
  healthy : ∀ {id c}, s.card? id = some c → s.isBattlefield c.zone = true → c.isCreature = true →
    0 < c.toughness ∧ c.damage < c.toughness

theorem mem_seats {seat : Seat} {count : Nat} (few : count < Seat.limit) :
    seat ∈ Seat.all count ↔ seat < count := by
  rw [Seat.all, List.mem_range, Nat.mod_eq_of_lt few]

/-- Where all players have seats at the table, all without life have lost. -/
theorem Settled.lost (h : s.Settled) (few : s.playerCount < Seat.limit) {p : Player}
    (member : p ∈ s.players) (lifeless : p.life ≤ 0) : p.hasLost = true := by
  obtain ⟨seat, seated⟩ := List.mem_iff_getElem?.mp member
  have present := (List.getElem?_eq_some_iff.mp seated).choose
  exact h.alive ((mem_seats few).mpr present) seated lifeless

theorem hasLoser_eq_false :
    s.hasLoser = false ↔ ∀ {seat p}, seat ∈ Seat.all s.playerCount → s.player? seat = some p →
      p.life ≤ 0 → p.hasLost = true := by
  simp only [hasLoser, List.any_eq_false, Bool.not_eq_true, Option.any_eq_false, Player.isLosing,
    Bool.and_eq_false_imp, decide_eq_true_eq, Bool.not_eq_false']
  exact ⟨fun h _ _ present => h _ present _, fun h _ present _ => h present⟩

theorem Keyed.mem_dying (keyed : s.Keyed) {id : CardId} :
    id ∈ s.dying ↔ ∃ c, s.card? id = some c ∧ s.isBattlefield c.zone = true ∧
      c.isCreature = true ∧ c.hasLethalDamage = true := by
  simp [dying, keyed.mem_creatures, and_assoc]

theorem dying_eq_nil :
    s.dying = [] ↔ ∀ {id c}, s.card? id = some c → s.isBattlefield c.zone = true →
      c.isCreature = true → 0 < c.toughness ∧ c.damage < c.toughness := by
  have lethal (c : Card) :
      c.hasLethalDamage = false ↔ 0 < c.toughness ∧ c.damage < c.toughness := by
    simp [Card.hasLethalDamage]
  rw [dying, List.map_eq_nil_iff, List.filter_eq_nil_iff]
  simp only [Prod.forall, mem_creatures, Bool.not_eq_true, lethal]
  exact ⟨fun h id c found inPlay creature => h c.id c ⟨rfl, inPlay, creature, id, found⟩,
    fun h _ c ⟨_, inPlay, creature, _, found⟩ => h found inPlay creature⟩

/-- The settled states are the ones that have their characteristics derived and nobody losing or
    dying. -/
theorem settled_iff :
    s.Settled ↔ s.derive = s ∧ s.hasLoser = false ∧ s.dying = [] := by
  rw [hasLoser_eq_false, dying_eq_nil]
  exact ⟨fun h => ⟨h.derived, h.alive, h.healthy⟩, fun ⟨d, a, h⟩ => ⟨d, a, h⟩⟩

theorem markLosers_of_alive (alive : s.hasLoser = false) : s.markLosers = s := by
  rw [hasLoser_eq_false] at alive
  have unmarked : s.markLosers.players = s.players := by
    refine List.ext_getElem? fun seat => (player?_updateSeats s Player.checkLife seat).trans ?_
    refine (Option.map_congr fun p seated => ?_).trans Option.map_id_apply
    unfold Player.checkLife
    split
    · rename_i present
      split
      · rename_i lifeless
        simp [← alive present seated lifeless]
      · rfl
    · rfl
  show { s with players := s.markLosers.players } = s
  rw [unmarked]

/-- What a pass over derived characteristics comes to. -/
theorem stateBasedPass_eq_ok (derived : s.derive = s) {changed : Bool} :
    s.stateBasedPass = .ok (t, changed) ↔
      ∃ next, s.dying.foldlM bury s.markLosers = .ok next ∧
        changed = (s.hasLoser || !s.dying.isEmpty) ∧
        t = if changed then next.derive else next := by
  unfold stateBasedPass
  simp only [derived, Outcome.bind_eq_ok]
  refine exists_congr fun next => and_congr_right fun _ => ?_
  cases s.hasLoser || !s.dying.isEmpty <;>
    simp only [if_true, if_false, Bool.false_eq_true, Except.ok.injEq, Prod.mk.injEq] <;>
    exact ⟨by rintro ⟨rfl, rfl⟩; simp, by rintro ⟨rfl, rfl⟩; simp⟩

/-- Exactly in the settled states a pass changes nothing. -/
theorem stateBasedPass_eq_ok_false (derived : s.derive = s) :
    s.stateBasedPass = .ok (t, false) ↔ s.Settled ∧ t = s := by
  rw [stateBasedPass_eq_ok derived, settled_iff]
  constructor
  · rintro ⟨next, buried, quiet, rfl⟩
    obtain ⟨alive, healthy⟩ : s.hasLoser = false ∧ s.dying = [] := by
      simpa [eq_comm (a := false)] using quiet
    rw [healthy, markLosers_of_alive alive] at buried
    exact ⟨⟨derived, alive, healthy⟩, (Except.ok.inj buried).symm⟩
  · rintro ⟨⟨-, alive, healthy⟩, rfl⟩
    exact ⟨t, by rw [healthy, markLosers_of_alive alive]; rfl, by simp [alive, healthy], rfl⟩

/-- After a pass that changes something the characteristics are derived. -/
theorem derive_of_stateBasedPass (derived : s.derive = s) (h : s.stateBasedPass = .ok (t, true)) :
    t.derive = t := by
  obtain ⟨next, -, -, rfl⟩ := (stateBasedPass_eq_ok derived).mp h
  exact derive_derive next

theorem repeatPasses_succ_eq_ok {done left : Nat} {r : AtRest} :
    s.repeatPasses done (left + 1) = .ok r ↔
      (∃ t, s.stateBasedPass = .ok (t, true) ∧ t.repeatPasses (done + 1) left = .ok r) ∨
        ∃ t, s.stateBasedPass = .ok (t, false) ∧ r = ⟨t, done⟩ := by
  rw [repeatPasses, or_comm, ← exists_or]
  simp only [Outcome.bind_eq_ok, Prod.exists, Bool.exists_bool]
  refine exists_congr fun t => or_congr (and_congr_right fun _ => ?_) Iff.rfl
  simp [eq_comm]

theorem repeatPasses_settled {done left : Nat} {r : AtRest} (derived : s.derive = s)
    (h : s.repeatPasses done left = .ok r) : r.state.Settled := by
  induction left generalizing s done with
  | zero => cases h
  | succ left ih =>
      obtain ⟨t, pass, rest⟩ | ⟨t, pass, rfl⟩ := repeatPasses_succ_eq_ok.mp h
      · exact ih (derive_of_stateBasedPass derived pass) rest
      · obtain ⟨settled, rfl⟩ := (stateBasedPass_eq_ok_false derived).mp pass
        exact settled

theorem toRest_settled {r : AtRest} (h : s.toRest = .ok r) : r.state.Settled :=
  repeatPasses_settled (derive_derive s) h

theorem passes_le_of_repeatPasses {done left : Nat} {r : AtRest}
    (h : s.repeatPasses done left = .ok r) : done ≤ r.passes := by
  induction left generalizing s done with
  | zero => cases h
  | succ left ih =>
      obtain ⟨t, -, rest⟩ | ⟨t, -, rfl⟩ := repeatPasses_succ_eq_ok.mp h
      · exact Nat.le_of_succ_le (ih rest)
      · exact Nat.le_refl done

/-- Where no pass changed anything, the state is as it was. -/
theorem toRest_unchanged {r : AtRest} (derived : s.derive = s) (h : s.toRest = .ok r)
    (unchanged : r.passes = 0) : r.state = s := by
  unfold toRest at h
  simp only [derived] at h
  obtain ⟨t, -, rest⟩ | ⟨t, pass, rfl⟩ := repeatPasses_succ_eq_ok.mp h
  · have some := passes_le_of_repeatPasses rest
    omega
  · exact ((stateBasedPass_eq_ok_false derived).mp pass).2

/-- A settled state is at rest. -/
theorem Settled.toRest (h : s.Settled) : s.toRest = .ok ⟨s, 0⟩ := by
  have pass : s.stateBasedPass = .ok (s, false) :=
    (stateBasedPass_eq_ok_false h.derived).mpr ⟨h, rfl⟩
  unfold State.toRest
  simp only [h.derived]
  exact repeatPasses_succ_eq_ok.mpr (.inr ⟨s, pass, rfl⟩)

/-- Burying a card does not save another that is about to die. -/
theorem Keyed.mem_dying_of_bury (keyed : s.Keyed) {id other : CardId} (different : other ≠ id)
    (dies : other ∈ s.dying) (h : s.bury id = .ok t) : other ∈ t.dying := by
  rw [(keyed.bury h).mem_dying]
  rw [keyed.mem_dying] at dies
  obtain ⟨c, p, source, kind, -, -, -, -, rfl⟩ := bury_eq_ok.mp h
  simpa [different] using dies

theorem Keyed.nodup_dying (keyed : s.Keyed) : s.dying.Nodup :=
  keyed.nodup_creatures.sublist (List.filter_sublist.map _)

theorem Keyed.isCreatureInPlay_of_dying (keyed : s.Keyed) {id : CardId} (dies : id ∈ s.dying) :
    s.isCreatureInPlay id = true := by
  obtain ⟨c, found, inPlay, creature, -⟩ := keyed.mem_dying.mp dies
  exact isCreatureInPlay_eq_true.mpr ⟨c, found, inPlay, creature⟩

section Invariant

variable {P : State → Prop} (derived : ∀ s, P s → P s.derive)
include derived

/-- What deriving keeps, and every burial of those who have to die, holds when nothing is left to
    do. -/
theorem toRest_of_burials
    (burials : ∀ {s t : State}, P s → s.dying.foldlM State.bury s.markLosers = .ok t → P t)
    {r : AtRest} (holds : P s) (h : s.toRest = .ok r) : P r.state := by
  have pass {s t : State} {changed : Bool} (holds : P s)
      (h : s.stateBasedPass = .ok (t, changed)) : P t := by
    obtain ⟨next, burial, h⟩ := Outcome.bind_eq_ok.mp h
    have after : P next := burials (derived s holds) burial
    split at h
    · cases h
      exact derived next after
    · cases h
      exact after
  have passes {done left : Nat} {s : State} (holds : P s) (h : s.repeatPasses done left = .ok r) :
      P r.state := by
    induction left generalizing s done with
    | zero => cases h
    | succ left ih =>
        obtain ⟨t, first, rest⟩ | ⟨t, last, rfl⟩ := repeatPasses_succ_eq_ok.mp h
        · exact ih (pass holds first) rest
        · exact pass holds last
  exact passes (derived s holds) h

variable (marked : ∀ s, P s → P s.markLosers)
include marked

/-- What deriving keeps, and marking losers, and burying cards, holds when nothing is left to do. -/
theorem toRest_invariant
    (buried : ∀ {s t : State} {id : CardId}, s.bury id = .ok t → P s → P t) {r : AtRest}
    (holds : P s) (h : s.toRest = .ok r) : P r.state :=
  toRest_of_burials derived (fun {s _} holds burial =>
    Outcome.foldlM_preserves (fun _ _ _ _ => buried) burial (marked s holds)) holds h

/-- Where every card is at its own number, it is enough that the death of a creature that has to die
    keeps the property. -/
theorem Keyed.toRest_invariant
    (buried : ∀ {s t : State} {id : CardId}, s.Keyed → id ∈ s.dying → s.bury id = .ok t → P s → P t)
    (keyed : s.Keyed) {r : AtRest} (holds : P s) (h : s.toRest = .ok r) : P r.state := by
  have buryAll {ids : List CardId} {s t : State} (keyed : s.Keyed) (distinct : ids.Nodup)
      (dies : ids ⊆ s.dying) (holds : P s) (h : ids.foldlM State.bury s = .ok t) :
      t.Keyed ∧ P t := by
    induction ids generalizing s with
    | nil =>
        cases h
        exact ⟨keyed, holds⟩
    | cons id rest ih =>
        rw [List.foldlM_cons, Outcome.bind_eq_ok] at h
        obtain ⟨mid, first, h⟩ := h
        obtain ⟨fresh, distinct⟩ := List.nodup_cons.mp distinct
        obtain ⟨now, later⟩ := List.cons_subset.mp dies
        refine ih (keyed.bury first) distinct (fun other member => ?_)
          (buried keyed now first holds) h
        have different : other ≠ id := by
          intro same
          exact fresh (same ▸ member)
        exact keyed.mem_dying_of_bury different (later member) first
  refine (toRest_of_burials (P := fun s => s.Keyed ∧ P s)
    (fun s ⟨keyed, holds⟩ => ⟨keyed.congr (layout_derive s), derived s holds⟩)
    (fun {s t} ⟨keyed, holds⟩ burial => ?_) ⟨keyed, holds⟩ h).2
  have still : s.markLosers.Keyed := keyed.congr (layout_markLosers s)
  exact buryAll still still.nodup_dying (List.Subset.refl _) (marked s holds) burial

end Invariant

theorem playerCount_toRest {r : AtRest} (h : s.toRest = .ok r) :
    r.state.playerCount = s.playerCount := by
  refine toRest_invariant (P := fun t => t.playerCount = s.playerCount) (fun t same => ?_)
    (fun t same => ?_) (fun buried same => ?_) rfl h
  · rw [playerCount, players_derive, ← playerCount, same]
  · exact List.length_mapIdx.trans same
  · rw [playerCount, players_bury buried, ← playerCount, same]

/-- How much could still happen: the players who have not lost, and the creatures in play. -/
def unrest (s : State) : Nat := s.players.countP (fun p => !p.hasLost) + s.creatures.length

/-- What is in play after a burial was in play before, with the same types. -/
theorem Buried.within {ids : List CardId} (h : s.Buried ids t) : t.Within s := by
  intro id c hc hz
  obtain ⟨-, hd, hdz⟩ := h.inPlay hc hz
  exact ⟨c, hd, hdz, rfl, List.Subset.refl _⟩

/-- The creatures after a burial are creatures from before that were not buried, also when deriving
    has changed what is a creature. -/
theorem Buried.creatures_subset (keyedₛ : s.Keyed) (keyedₜ : t.Keyed) (derived : s.derive = s)
    {ids : List CardId} (h : s.Buried ids t) :
    t.derive.creatures.map (·.1) ⊆ (s.creatures.map (·.1)).filter (· ∉ ids) := by
  intro id member
  obtain ⟨⟨id, c⟩, creature, rfl⟩ := List.mem_map.mp member
  have after : t.derive.Keyed := keyedₜ.congr (layout_derive t)
  obtain ⟨d, before, -⟩ := (h.within.derive keyedₜ keyedₛ).creature after
    (keyedₛ.congr (layout_derive s)) creature
  rw [derived] at before
  obtain ⟨hc, hz, -⟩ := after.mem_creatures.mp creature
  obtain ⟨c', hc', place⟩ := card?_congr (layout_derive t) hc
  have still : t.isBattlefield c'.zone = true := by
    rw [← isBattlefield_congr (layout_derive t), Card.zone_eq_of_placement place]
    exact hz
  obtain ⟨unburied, -⟩ := h.inPlay hc' still
  exact List.mem_filter.mpr ⟨List.mem_map.mpr ⟨_, before, rfl⟩, by simpa using unburied⟩

theorem Buried.length_creatures_le (keyedₛ : s.Keyed) (keyedₜ : t.Keyed) (derived : s.derive = s)
    {ids : List CardId} (h : s.Buried ids t) :
    t.derive.creatures.length ≤ ((s.creatures.map (·.1)).filter (· ∉ ids)).length := by
  have distinct := (keyedₜ.congr (layout_derive t)).nodup_creatures
  have bound := (distinct.subperm (h.creatures_subset keyedₛ keyedₜ derived)).length_le
  simpa using bound

/-- Every player who loses now is one less who has not lost. -/
theorem countP_markLosers (s : State) :
    s.markLosers.players.countP (fun p => !p.hasLost) +
        s.players.zipIdx.countP (fun e => e.2 ∈ Seat.all s.playerCount && e.1.isLosing) =
      s.players.countP fun p => !p.hasLost := by
  have pairs (entries : List (Player × Seat)) :
      entries.countP (fun e =>
          !(if e.2 ∈ Seat.all s.playerCount then e.1.checkLife else e.1).hasLost) +
        entries.countP (fun e => e.2 ∈ Seat.all s.playerCount && e.1.isLosing) =
      entries.countP fun e => !e.1.hasLost := by
    induction entries with
    | nil => rfl
    | cons e rest ih =>
        simp only [List.countP_cons, Player.checkLife, Player.isLosing] at ih ⊢
        by_cases present : e.2 ∈ Seat.all s.playerCount <;> by_cases lifeless : e.1.life ≤ 0 <;>
          by_cases lost : e.1.hasLost = true <;>
          simp only [present, lifeless, lost, if_true, if_false, decide_true, decide_false,
            Bool.not_true, Bool.not_false, Bool.and_true, Bool.and_false, Bool.false_eq_true] <;>
          omega
  have all := pairs s.players.zipIdx
  rw [markLosers, updateSeats, List.mapIdx_eq_zipIdx_map, List.countP_map]
  refine all.trans ?_
  rw [← List.zipIdx_map_fst 0 s.players, List.countP_map, List.zipIdx_map_fst]
  rfl

theorem countP_pos_of_hasLoser (loses : s.hasLoser = true) :
    0 < s.players.zipIdx.countP fun e => e.2 ∈ Seat.all s.playerCount && e.1.isLosing := by
  obtain ⟨seat, present, loses⟩ := List.any_eq_true.mp loses
  obtain ⟨p, seated, loses⟩ := (Option.any_eq_true ..).mp loses
  refine List.countP_pos_iff.mpr ⟨(p, seat), ?_, by simp [present, loses]⟩
  exact List.mem_zipIdx_iff_getElem?.mpr seated

/-- Fewer creatures are left if there are any that die. -/
theorem length_undying (s : State) :
    ((s.creatures.map (·.1)).filter (· ∉ s.dying)).length ≤ s.creatures.length ∧
      (s.dying ≠ [] →
        ((s.creatures.map (·.1)).filter (· ∉ s.dying)).length < s.creatures.length) := by
  have length : (s.creatures.map (·.1)).length = s.creatures.length := List.length_map _
  rw [← length]
  refine ⟨List.length_filter_le _ _, fun some => ?_⟩
  obtain ⟨id, dies⟩ := List.exists_mem_of_ne_nil _ some
  have member : id ∈ s.creatures.map (·.1) := (List.filter_sublist.map _).subset dies
  exact List.length_filter_lt_length_iff_exists.mpr ⟨id, member, by simpa using dies⟩

/-- A pass succeeds, and leaves less that could happen if it changes something. -/
theorem Housed.stateBasedPass (h : s.Housed) (derived : s.derive = s) :
    ∃ t changed, s.stateBasedPass = .ok (t, changed) ∧ t.Housed ∧
      (changed = true → t.unrest < s.unrest) := by
  have known : ∀ id ∈ s.dying, (s.markLosers.card? id).isSome := by
    intro id dying
    obtain ⟨c, hc, -⟩ := h.keyed.mem_dying.mp dying
    exact Option.isSome_iff_exists.mpr ⟨c, hc⟩
  obtain ⟨next, burial, housed, buried⟩ := (h.congr (layout_markLosers s)).buryAll known
  refine ⟨_, _, (stateBasedPass_eq_ok derived).mpr ⟨next, burial, rfl, rfl⟩, ?_, fun changed => ?_⟩
  · split
    · exact housed.congr (layout_derive next)
    · exact housed
  · rw [if_pos changed, unrest, unrest, players_derive, players_buryAll burial]
    have marked := countP_markLosers s
    have creatures :=
      Buried.length_creatures_le h.keyed housed.keyed derived ⟨buried.known, buried.inPlay⟩
    obtain ⟨undying, fewer⟩ := length_undying s
    rcases Bool.or_eq_true_iff.mp changed with losing | dying
    · have some := countP_pos_of_hasLoser losing
      omega
    · have fewer := fewer (by simpa using dying)
      omega

/-- Repeating passes comes to an end within as many as `unrest` tells. -/
theorem Housed.repeatPasses (h : s.Housed) (derived : s.derive = s) (done : Nat) {left : Nat}
    (enough : s.unrest < left) :
    ∃ r, s.repeatPasses done left = .ok r ∧ r.passes ≤ done + s.unrest := by
  induction left generalizing s done with
  | zero => cases enough
  | succ left ih =>
      obtain ⟨t, changed, pass, housed, decrease⟩ := h.stateBasedPass derived
      cases changed with
      | true =>
          have less := decrease rfl
          obtain ⟨r, rest, few⟩ :=
            ih housed (derive_of_stateBasedPass derived pass) (done + 1) (by omega)
          exact ⟨r, repeatPasses_succ_eq_ok.mpr (.inl ⟨t, pass, rest⟩), by omega⟩
      | false =>
          exact ⟨⟨t, done⟩, repeatPasses_succ_eq_ok.mpr (.inr ⟨t, pass, rfl⟩), by simp⟩

theorem unrest_le (s : State) : s.unrest ≤ s.playerCount + s.creatures.length :=
  Nat.add_le_add_right List.countP_le_length _

/-- State-based actions always come to rest in a well-formed state, after no more changing passes
    than there are players and creatures, and what they leave is settled for good. Then every player
    without life has lost, unless there are more players than seats. -/
theorem WellFormed.comes_to_rest (h : s.WellFormed) :
    ∃ r, s.toRest = .ok r ∧ r.passes ≤ s.derive.playerCount + s.derive.creatures.length ∧
      r.state.Settled ∧ r.state.toRest = .ok ⟨r.state, 0⟩ ∧
      (s.playerCount < Seat.limit → ∀ p ∈ r.state.players, p.life ≤ 0 → p.hasLost = true) := by
  have bound := s.derive.unrest_le
  obtain ⟨r, rest, passes⟩ :=
    (h.housed.congr (layout_derive s)).repeatPasses (derive_derive s) 0
      (Nat.lt_succ_of_le bound)
  have settled := toRest_settled rest
  refine ⟨r, rest, by omega, settled, settled.toRest, fun few p member => ?_⟩
  exact settled.lost (playerCount_toRest rest ▸ few) member

/-- A lord with lethal damage, and a creature of the other player that lives by its help alone. -/
def lordDying : State :=
  let anthem : ContinuousEffect := ⟨1, .allCreatures, .modifyPowerToughness 1 1⟩
  let lord := Card.create 1 (.creature 1 "Lord" 1 1) 0 (PlayerZones.ofSeat 0).battlefield
    [.static (.ofEffect 1 anthem)]
  let ward := Card.create 2 (.creature 2 "Ward" 1 1) 1 (PlayerZones.ofSeat 1).battlefield []
  let table := (initial 2 20).updateZone lord.zone (·.push 1) |>.updateZone ward.zone (·.push 2)
  { table with
    cards := .ofList [(1, { lord with damage := 2 }), (2, { ward with damage := 1 })]
    nextCard := 3
    nextAbility := 2 }

theorem comes_to_rest_lordDying :
    lordDying.WellFormed ∧
      ∃ r, lordDying.toRest = .ok r ∧
        r.passes ≤ lordDying.derive.playerCount + lordDying.derive.creatures.length ∧
        r.state.Settled ∧ r.state.toRest = .ok ⟨r.state, 0⟩ ∧
        (lordDying.playerCount < Seat.limit →
          ∀ p ∈ r.state.players, p.life ≤ 0 → p.hasLost = true) :=
  have wellFormed : lordDying.WellFormed := by decide
  ⟨wellFormed, wellFormed.comes_to_rest⟩

example : lordDying.toRest.map (·.passes) = .ok 2 := by decide

/-- As many players as seats have numbers, none of whom has any life. -/
def fullTable : State := initial 256 0

theorem settled_fullTable : fullTable.Settled := by
  have count : fullTable.playerCount = Seat.limit := by
    rw [playerCount, fullTable, initial, List.length_map, List.length_range, Seat.limit]
  refine settled_iff.mpr ⟨derive_initial 256 0, ?_, rfl⟩
  rw [hasLoser, count]
  rfl

theorem mem_fullTable : Player.initial 0 0 ∈ fullTable.players :=
  List.mem_map.mpr ⟨0, List.mem_range.mpr (by decide), rfl⟩

/-- The number of players is one for which no seat is at the table, so nobody loses. -/
theorem nobody_loses_fullTable :
    fullTable.WellFormed ∧ ∃ r, fullTable.toRest = .ok r ∧
      ∃ p ∈ r.state.players, p.life ≤ 0 ∧ p.hasLost = false :=
  ⟨(initial_orderly 256 0).toWellFormed, _, settled_fullTable.toRest, _, mem_fullTable, by decide, rfl⟩

section Relation

variable {R : State → State → Prop} (refl : ∀ s, R s s)
  (trans : ∀ {s t u : State}, R s t → R t u → R s u)
include refl trans

/-- Dealing damage is marking it on one card after the other, and taking the rest from a life total. -/
theorem dealDamage_relates
    (hurt : ∀ (s : State) (id : CardId) (n : Int),
      R s (s.updateCard id fun c => { c with damage := word (c.damage + n) }))
    (struck : ∀ (s : State) (seat : Seat) (n : Int),
      R s (s.updatePlayer seat fun p => { p with life := word (p.life - n) }))
    {defending : Seat} {plan : DamagePlan} (h : s.dealDamage defending plan = .ok t) : R s t := by
  have marked (hits : List (CardId × Int)) (s : State) :
      R s (hits.foldl
        (fun s hit => s.updateCard hit.1 fun c => { c with damage := word (c.damage + hit.2) }) s) := by
    induction hits generalizing s with
    | nil => exact refl s
    | cons hit rest ih => exact trans (hurt s hit.1 hit.2) (ih _)
  unfold dealDamage at h
  dsimp only at h
  split at h
  · cases h
    exact marked plan.toCards s
  · obtain ⟨p, -, h⟩ := Outcome.bind_eq_ok.mp h
    cases h
    exact trans (marked plan.toCards s) (struck _ defending plan.toPlayer)

/-- Combat damage is planned twice and dealt as it was planned, with what follows from the first plan in
    between. -/
theorem combatDamage_relates (derived : ∀ s, R s s.derive)
    (dealt : ∀ {s t : State} (combat : Combat) (pass : DamagePass) (assigned : Assigned),
      s.dealDamage combat.defendingPlayer (s.planDamage combat pass assigned).plan = .ok t → R s t)
    (rest : ∀ {s : State} {r : AtRest}, s.toRest = .ok r → R s r.state)
    (h : s.combatDamage = .ok t) : R s t := by
  unfold combatDamage at h
  split at h
  · cases h
    exact refl s
  · split at h
    · cases h
      exact refl s
    · obtain ⟨between, first, h⟩ := Outcome.bind_eq_ok.mp h
      refine trans (derived s) (trans ?_ (dealt _ .regular _ h))
      unfold dealFirstStrike at first
      split at first
      · cases first
        exact refl _
      · simp only [Outcome.bind_eq_ok] at first
        obtain ⟨hurt, struck, r, quiet, first⟩ := first
        cases first
        exact trans (dealt _ .firstStrike _ struck) (rest quiet)

end Relation

end State

end CardGame
