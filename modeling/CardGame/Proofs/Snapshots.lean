import CardGame.Proofs.Rederiving
import CardGame.Proofs.Settling
import CardGame.Proofs.Transforms
import CardGame.State.Create

/-! # Snapshots

A host may hand over a state with characteristics that are out of date. An operation transforms the
printed characteristics and then derives them, so it sees none of that; but the deaths of its first
stage are told by what was taken for a creature in the state as it was handed over.
-/

namespace CardGame

namespace State

variable {s t u : State}

/-- Of the state before, the deaths depend on which cards are taken for creatures in play, and on what
    is not derived. -/
theorem Keyed.deaths_eq (keyed : s.Keyed) (u : State) :
    s.deaths u = (s.strip.cards.entries.filter fun e =>
      s.isCreatureInPlay e.1 && decide (u.zoneKind? e.1 = some .graveyard)).map fun e =>
        .creatureDied e.1 e.2.controller e.2.owner := by
  have stripped : s.strip.cards.entries = s.cards.entries.map fun e => (e.1, e.2.strip) := rfl
  have taken : ∀ e ∈ s.cards.entries,
      s.isCreatureInPlay e.1 = (s.isBattlefield e.2.zone && e.2.isCreature) := by
    intro (id, c) listed
    have found : s.card? id = some c := Table.mem_entries.mp listed
    simp [isCreatureInPlay, isOnBattlefield, isBattlefield, zoneKind?_of_card? found, found]
  rw [deaths, creatures, keyed.battlefield_eq, stripped, List.filter_map, List.map_map, List.filter_filter,
    List.filter_filter]
  refine congrArg₂ List.map rfl (List.filter_congr fun e listed => ?_)
  simp only [Function.comp_apply, taken e listed, Bool.and_comm, Bool.and_left_comm,
    Bool.and_assoc]

/-- Two states that differ in derived characteristics only tell the same deaths exactly if they take
    the same of the cards that end up in graveyards for creatures in play. -/
theorem Keyed.deaths_eq_iff (keyed : s.Keyed) (same : s.strip = t.strip) :
    s.deaths u = t.deaths u ↔
      ∀ id, u.zoneKind? id = some .graveyard → s.isCreatureInPlay id = t.isCreatureInPlay id := by
  have keyedₜ : t.Keyed := keyed.congr (layout_of_strip same)
  constructor
  · intro told id buried
    have named {r : State} (keyed : r.Keyed) :
        r.isCreatureInPlay id = true ↔ id ∈ (r.deaths u).map Event.subject := by
      simp only [keyed.isCreatureInPlay_iff, List.mem_map, mem_deaths]
      constructor
      · rintro ⟨c, creature⟩
        exact ⟨_, ⟨id, c, creature, buried, rfl⟩, rfl⟩
      · rintro ⟨-, ⟨other, c, creature, -, rfl⟩, rfl⟩
        exact ⟨c, creature⟩
    rw [Bool.eq_iff_iff, named keyed, named keyedₜ, told]
  · intro taken
    rw [keyed.deaths_eq, keyedₜ.deaths_eq, same]
    refine congrArg _ (List.filter_congr fun e _ => ?_)
    by_cases buried : u.zoneKind? e.1 = some .graveyard
    · rw [taken e.1 buried]
    · simp [buried]

/-- Settling compares with the state before an operation only to tell the deaths of the operation. -/
theorem settle_congr {rounds : Nat} {after : State}
    (told : s.deaths after.derive = t.deaths after.derive) :
    settle rounds s after = settle rounds t after := by
  cases rounds with
  | zero => rfl
  | succ rounds => simp only [settle, settleRounds, told]

/-- Of the cards that the transform puts into graveyards, the state takes those for creatures in play
    that are creatures in play once it is derived. -/
def TellsDeaths (s : State) (config : Config) (transform : Transform) : Prop :=
  ∀ after id, transform.run config s.strip = .ok after →
    after.zoneKind? id = some .graveyard → s.isCreatureInPlay id = s.derive.isCreatureInPlay id

theorem tellsDeaths_iff {config : Config} {transform : Transform} :
    s.TellsDeaths config transform ↔
      ∀ after ∈ (transform.run config s.strip).toOption, ∀ e ∈ after.cards.entries,
        after.zoneKind? e.1 = some .graveyard →
          s.isCreatureInPlay e.1 = s.derive.isCreatureInPlay e.1 := by
  constructor
  · intro tells after result e _ buried
    exact tells after e.1 (Outcome.mem_toOption.mp result) buried
  · intro tells after id run buried
    cases found : after.card? id with
    | none => simp [zoneKind?, found] at buried
    | some c =>
        exact tells after (Outcome.mem_toOption.mpr run) (id, c) (Table.mem_entries.mpr found)
          buried

instance (s : State) (config : Config) (transform : Transform) :
    Decidable (s.TellsDeaths config transform) :=
  decidable_of_iff _ tellsDeaths_iff.symm

theorem TellsDeaths.perform (keyed : s.Keyed) {config : Config} {transform : Transform}
    (tells : s.TellsDeaths config transform) :
    s.perform config (transform.run config) = s.derive.perform config (transform.run config) := by
  unfold State.perform
  rw [strip_derive]
  cases run : transform.run config s.strip with
  | error reason => rfl
  | ok after =>
      refine settle_congr ((keyed.deaths_eq_iff (strip_derive s).symm).mpr fun id buried => ?_)
      rw [zoneKind?_congr (layout_derive after)] at buried
      exact tells after id run buried

variable {config : Config}

theorem tellsDeaths_of_off {transform : Transform}
    (off : ∀ after id, transform.run config s.strip = .ok after →
      after.zoneKind? id = some .graveyard → s.strip.zoneKind? id ≠ some .battlefield) :
    s.TellsDeaths config transform := by
  intro after id run buried
  have off := off after id run buried
  have derived : s.derive.zoneKind? id = s.strip.zoneKind? id := by
    rw [zoneKind?_congr (layout_derive s), zoneKind?_congr (layout_strip s)]
  rw [zoneKind?_congr (layout_strip s)] at derived off
  simp [isCreatureInPlay, isOnBattlefield, derived, off]

theorem off_of_layout {id : CardId} (same : t.layout = s.layout)
    (buried : t.zoneKind? id = some .graveyard) : s.zoneKind? id ≠ some .battlefield := by
  rw [← zoneKind?_congr same, buried]
  nofun

theorem off_of_enter (h : s.WellFormed) {id other : CardId} {seat : Seat}
    (entered : s.enter id seat = .ok t) (buried : t.zoneKind? other = some .graveyard) :
    s.zoneKind? other ≠ some .battlefield := by
  obtain ⟨c, p, source, kind, found, player, -, -, rfl⟩ := enter_eq_ok entered
  rw [zoneKind?_relocate _ _ found] at buried
  split at buried
  · rw [Card.zone_movedTo, h.battlefield player] at buried
    cases buried
  · rw [buried]
    nofun

theorem off_of_putOnStack {id other : CardId} {seat : Seat} {targets : List CardId}
    (inHand : s.zoneKind? id = some .hand) (pushed : s.putOnStack id seat targets = .ok t)
    (buried : t.zoneKind? other = some .graveyard) : s.zoneKind? other ≠ some .battlefield := by
  obtain ⟨c, source, kind, found, -, -, rfl⟩ := putOnStack_eq_ok pushed
  rw [zoneKind?_relocate _ _ found] at buried
  split at buried
  · rename_i same
    rw [same, inHand]
    nofun
  · rw [buried]
    nofun

end State

/-- Can the transform put a card in play into a graveyard? -/
def Transform.buries : Transform → Bool
  | activate .. | pass | endMoment _ => true
  | playLand .. | cast .. | declareAttackers .. | declareBlockers .. | stay => false

theorem Transform.tellsDeaths {config : Config} {transform : Transform} {s : State}
    (h : s.WellFormed) (quiet : transform.buries = false) : s.TellsDeaths config transform := by
  have stripped : s.strip.WellFormed := h.congr (State.layout_strip s)
  refine State.tellsDeaths_of_off fun after id run buried => ?_
  cases transform with
  | activate | pass | endMoment => cases quiet
  | playLand player card =>
      obtain ⟨next, played, same⟩ := State.happens_playLand run
      rw [State.zoneKind?_congr same.layout] at buried
      cases played with
      | play player found inHand land entered => exact State.off_of_enter stripped entered buried
  | cast player card targets =>
      obtain ⟨paid, next, payment, put, same⟩ := State.happens_cast run
      rw [State.zoneKind?_congr same.layout] at buried
      rw [← State.zoneKind?_congr payment.layout]
      cases put with
      | cast player found inHand notLand pushed =>
          refine State.off_of_putOnStack ?_ pushed buried
          rw [State.zoneKind?_of_card? found, inHand, (stripped.congr payment.layout).hand player]
  | declareAttackers player attackers =>
      obtain ⟨next, declared, run⟩ := Outcome.bind_eq_ok.mp run
      cases run
      exact State.off_of_layout (State.still_declareAttackers declared).layout buried
  | declareBlockers player blocks =>
      obtain ⟨next, declared, run⟩ := Outcome.bind_eq_ok.mp run
      cases run
      exact State.off_of_layout (State.still_declareBlockers declared).layout buried
  | stay =>
      cases run
      exact State.off_of_layout rfl buried

/-- The transform of the first stage of an operation. -/
def Operation.opening : Operation → Transform
  | act player .advanceTurn => .endMoment player
  | operation => operation.transform?.getD .stay

namespace Match

/-- What an operation comes to: the state that it leaves and the events. -/
def outcome (m : Match) (operation : Operation) : Outcome (State × List Event) := do
  let (next, events) ← m.call operation
  .ok (next.state, events)

theorem keeps_eq_false {m : Match} {operation : Operation} {next : State} {events : List Event}
    (h : m.keeps operation next events = false) : next = m.state ∧ events = [] := by
  cases operation <;> simp_all [keeps]

theorem outcome_eq (m : Match) (operation : Operation) :
    m.outcome operation = m.operate operation := by
  unfold outcome
  rw [call_eq]
  cases m.operate operation with
  | error reason => rfl
  | ok result =>
      obtain ⟨next, events⟩ := result
      simp only [bind, Except.bind]
      cases kept : m.keeps operation next events with
      | true => rfl
      | false => rw [(keeps_eq_false kept).1, if_neg Bool.false_ne_true]

variable {s : State} {config : Config} {catalog : Catalog} {registry : Registry}

theorem allow_derive (player : Seat) :
    (ofState config catalog registry s.derive).allow player =
      (ofState config catalog registry s).allow player := by
  rw [State.derive_eq]
  rfl

theorem endTurn_derive (keyed : s.Keyed) {player : Seat}
    (tells : s.TellsDeaths config (.endMoment player)) :
    s.endTurn config player = s.derive.endTurn config player := by
  have turn : s.derive.turn = s.turn := by rw [State.derive_eq]
  unfold State.endTurn
  rw [turn]
  cases State.maxMoments with
  | zero => rfl
  | succ left => exact congrArg (· >>= _) (tells.perform keyed)

theorem operate_derive (keyed : s.Keyed) {operation : Operation}
    (tells : s.TellsDeaths config operation.opening) :
    (ofState config catalog registry s).operate operation =
      (ofState config catalog registry s.derive).operate operation := by
  have ended : (ofState config catalog registry s.derive).state.isOver =
      (ofState config catalog registry s).state.isOver := by
    rw [State.derive_eq]
    rfl
  cases operation with
  | act player action =>
      simp only [operate]
      rw [allow_derive]
      refine bind_congr fun _ => ?_
      simp only [ofState]
      cases action with
      | advanceTurn => exact endTurn_derive keyed tells
      | _ => exact tells.perform keyed
  | declareAttackers player attackers =>
      simp only [operate]
      rw [ended]
      simp only [ofState]
      exact bind_congr fun _ => tells.perform keyed
  | declareBlockers player blocks =>
      simp only [operate]
      rw [ended]
      simp only [ofState]
      exact bind_congr fun _ => tells.perform keyed
  | checkState =>
      simp only [operate, ofState]
      rw [← State.perform_stay, ← State.perform_stay]
      exact tells.perform keyed

/-- An operation comes to the same on a well-formed snapshot as on one that is derived afresh. For a
    stage that may put cards in play into graveyards, the snapshot must take exactly those of them for
    creatures that are. -/
theorem outcome_of_snapshot (config : Config) (catalog : Catalog) (registry : Registry) (s : State)
    (operation : Operation) (wellFormed : s.WellFormed)
    (tells : operation.opening.buries = true → s.TellsDeaths config operation.opening) :
    (ofState config catalog registry s).outcome operation =
      (ofState config catalog registry s.derive).outcome operation := by
  rw [outcome_eq, outcome_eq]
  refine operate_derive wellFormed.keyed ?_
  cases buries : operation.opening.buries with
  | true => exact tells buries
  | false => exact operation.opening.tellsDeaths wellFormed buries

/-- A land that is a creature by its own abilities, against a permanent that destroys and a creature
    that mourns. Nothing was derived yet. -/
def standoff : Outcome State := do
  let grove : Definition := { Definition.basicLand 0 "Grove" with
    abilities := [⟨"add_type", .ofList [("type", .text "creature")]⟩,
      ⟨"set_base_pt", .ofList [("power", .int 2), ("toughness", .int 2)]⟩] }
  let assassin : Definition :=
    { id := 1, name := "Assassin", types := [.artifact], abilities := [⟨"activated_destroy", .empty⟩] }
  let mourner : Definition := { Definition.creature 2 "Mourner" 1 1 with
    abilities := [⟨"creature_dies_gain_life", .ofList [("amount", .int 3)]⟩] }
  let empty := State.initial 2 20
  let player ← empty.player 0
  let opponent ← empty.player 1
  let (s, _) ← empty.create .builtin grove 1 opponent.zones.battlefield
  let (s, _) ← s.create .builtin assassin 0 player.zones.battlefield
  let (s, _) ← s.create .builtin mourner 0 player.zones.battlefield
  .ok s

/-- Let the permanent destroy a card. -/
def destroying (target : CardId) : Operation := .act 0 (.activateAbility 2 3 [target])

/-- Destroying the creature by print comes to the same on the snapshot as it is and derived. -/
theorem outcome_of_snapshot_mourner :
    ∃ s t, standoff = .ok s ∧ s.WellFormed ∧
      s.TellsDeaths {} (destroying 3).opening ∧ s.derive ≠ s ∧
      (ofState {} ⟨.empty⟩ .builtin s.derive).outcome (destroying 3) =
        .ok (t, [.creatureDied 3 0 0]) ∧
      (ofState {} ⟨.empty⟩ .builtin s).outcome (destroying 3) =
        (ofState {} ⟨.empty⟩ .builtin s.derive).outcome (destroying 3) := by
  have played : (do
      let s ← standoff
      let answer ← (ofState {} ⟨.empty⟩ .builtin s.derive).outcome (destroying 3)
      .ok (answer.2, decide s.WellFormed, decide (s.TellsDeaths {} (destroying 3).opening),
        decide (s.derive ≠ s)) : Outcome (List Event × Bool × Bool × Bool)) =
      .ok ([.creatureDied 3 0 0], true, true, true) := by decide +kernel
  obtain ⟨s, set, played⟩ := Outcome.bind_eq_ok.mp played
  obtain ⟨⟨t, events⟩, fresh, same⟩ := Outcome.bind_eq_ok.mp played
  simp only [Except.ok.injEq, Prod.mk.injEq, decide_eq_true_eq] at same
  obtain ⟨rfl, wellFormed, tells, stale⟩ := same
  exact ⟨s, t, set, wellFormed, tells, stale, fresh,
    outcome_of_snapshot {} ⟨.empty⟩ .builtin s (destroying 3) wellFormed fun _ => tells⟩

/-- Destroying the land goes unnoticed on the snapshot as it is: its death is not published, and
    nobody mourns. -/
theorem grove_dies_unnoticed :
    ∃ s t t', standoff = .ok s ∧ s.WellFormed ∧
      (ofState {} ⟨.empty⟩ .builtin s).outcome (destroying 1) = .ok (t, []) ∧
      (ofState {} ⟨.empty⟩ .builtin s.derive).outcome (destroying 1) =
        .ok (t', [.creatureDied 1 1 1]) ∧
      t ≠ t' := by
  have played : (do
      let s ← standoff
      let stale ← (ofState {} ⟨.empty⟩ .builtin s).outcome (destroying 1)
      let fresh ← (ofState {} ⟨.empty⟩ .builtin s.derive).outcome (destroying 1)
      .ok (stale.2, fresh.2, decide s.WellFormed, decide (stale.1 ≠ fresh.1)) :
        Outcome (List Event × List Event × Bool × Bool)) =
      .ok ([], [.creatureDied 1 1 1], true, true) := by decide +kernel
  obtain ⟨s, set, played⟩ := Outcome.bind_eq_ok.mp played
  obtain ⟨⟨t, events⟩, stale, played⟩ := Outcome.bind_eq_ok.mp played
  obtain ⟨⟨t', events'⟩, fresh, same⟩ := Outcome.bind_eq_ok.mp played
  simp only [Except.ok.injEq, Prod.mk.injEq, decide_eq_true_eq] at same
  obtain ⟨rfl, rfl, wellFormed, different⟩ := same
  exact ⟨s, t, t', set, wellFormed, stale, fresh, different⟩

end Match

end CardGame
