import CardGame.Proofs.Stages
import CardGame.Proofs.Waning

/-! # What a stage does before it settles

A stage that puts a card onto a battlefield does nothing else to any card, and every other one wanes,
but for the spell that it casts or spends.
-/

namespace CardGame

namespace State

variable {base s t u : State}

/-- A course leads from the one state to the other on which nothing dies but creatures of `base`. -/
def Leads (base s t : State) : Prop :=
  ∃ trace, Course s trace t ∧ ∀ event ∈ deathsIn trace, base.isCreatureInPlay event.subject = true

namespace Leads

theorem trans (first : Leads base s t) (rest : Leads base t u) : Leads base s u := by
  obtain ⟨trace, course, deaths⟩ := first
  obtain ⟨later, more, moreDeaths⟩ := rest
  refine ⟨trace ++ later, course.trans more, fun event member => ?_⟩
  rw [deathsIn_append, List.mem_append] at member
  exact member.elim (deaths event) (moreDeaths event)

theorem of_layout (same : t.layout = s.layout) : Leads base s t :=
  ⟨[], .of_layout same, nofun⟩

theorem of_happens {happening : Happening} (happens : s.Happens happening t)
    (noDeath : happening.death? = none) : Leads base s t := by
  refine ⟨[happening], .of_happens happens, fun event member => ?_⟩
  rw [deathsIn_cons, noDeath] at member
  cases member

end Leads

theorem Wanes.leads (h : Wanes base s t) (orderly : s.Orderly) (keyed : base.Keyed)
    (within : s.Within base) : Leads base s t := by
  obtain ⟨-, trace, course, takes⟩ := h.play orderly keyed within
  exact ⟨trace, course, fun _ => isCreatureInPlay_of_takes takes⟩

/-- Nothing leaves the stack while play wanes. -/
theorem Course.onStack {trace : List Happening} (course : Course s trace t) (h : s.Orderly)
    (takes : ∀ happening ∈ trace, base.Takes happening) {id : CardId}
    (onStack : s.zoneKind? id = some .stack) : t.zoneKind? id = some .stack := by
  induction course with
  | done => exact onStack
  | still same _ ih => exact ih (h.congr same) takes (by rw [zoneKind?_congr same, onStack])
  | @next s t u happening trace happens _ ih =>
      have shifts := happens.shifts h
      have other : id ≠ happening.card := by
        rintro rfl
        have taken := takes happening List.mem_cons_self
        rw [shifts.source] at onStack
        cases happening <;> simp [Takes, Happening.source] at taken onStack
      exact ih shifts.orderly (fun later member => takes later (List.mem_cons_of_mem _ member))
        (by rw [shifts.others other, onStack])

/-- A spell that becomes a permanent enters, and any other has its effects and is spent. -/
theorem resolveCard_cases (h : s.Orderly) {id : CardId} (onStack : s.zoneKind? id = some .stack)
    (resolved : s.resolveCard id = .ok t) : ∃ c, s.card? id = some c ∧
      (c.definition.isPermanent = true ∧ s.enter id c.controller = .ok t ∧
          s.Happens (.entered id) t ∨
        ∃ context next, s.resolveEffects context c.definition.effects = .ok next ∧
          next.Happens (.spent id) t) := by
  obtain ⟨c, found, resolved⟩ := Outcome.bind_eq_ok.mp resolved
  rw [card_eq_ok] at found
  refine ⟨c, found, ?_⟩
  split at resolved
  · rename_i permanent
    rw [zoneKind?_of_card? found] at onStack
    exact .inl ⟨permanent, resolved, .resolve found onStack permanent resolved⟩
  · rename_i notPermanent
    obtain ⟨next, effects, buried⟩ := Outcome.bind_eq_ok.mp resolved
    refine .inr ⟨_, next, effects, ?_⟩
    have wanes : Wanes s s next := wanes_resolveEffects effects
    obtain ⟨trace, course, takes⟩ := wanes.course h
    have onStack := course.onStack h takes onStack
    obtain ⟨d, known, definition, -⟩ := card?_of_identity (course.identity h) found
    rw [zoneKind?_of_card? known] at onStack
    exact .spend known onStack (by simpa [definition] using notPermanent) buried

theorem leads_resolveCard (h : s.Orderly) (keyed : base.Keyed) (within : s.Within base) {id : CardId}
    (onStack : s.zoneKind? id = some .stack) (resolved : s.resolveCard id = .ok t) :
    Leads base s t := by
  obtain ⟨c, -, ⟨-, -, entered⟩ | ⟨context, next, effects, spent⟩⟩ :=
    resolveCard_cases h onStack resolved
  · exact .of_happens entered rfl
  · exact ((wanes_resolveEffects effects).leads h keyed within).trans (.of_happens spent rfl)

theorem leads_resolveTop (h : s.Orderly) (keyed : base.Keyed) (within : s.Within base)
    (resolved : s.resolveTop = .ok t) : Leads base s t := by
  obtain ⟨stack, found, resolved⟩ := Outcome.bind_eq_ok.mp resolved
  split at resolved
  · cases resolved
    exact .of_layout rfl
  · rename_i top isTop
    have member : top ∈ s.contents s.stackZone :=
      contents_of_zone? (zone_eq_ok.mp found) ▸ List.mem_of_getLast? isTop
    obtain ⟨c, known, zone⟩ := h.known member
    refine leads_resolveCard h keyed within ?_ resolved
    rw [zoneKind?_of_card? known, zone, h.stack]

theorem leads_pass (h : s.Orderly) (keyed : base.Keyed) (within : s.Within base)
    {outcome : PassOutcome} (passed : s.pass = .ok (t, outcome)) : Leads base s t := by
  unfold pass at passed
  dsimp only at passed
  split at passed
  · cases passed
    exact .of_layout rfl
  · obtain ⟨stack, -, passed⟩ := Outcome.bind_eq_ok.mp passed
    split at passed
    · cases passed
      exact .of_layout rfl
    · obtain ⟨next, resolved, passed⟩ := Outcome.bind_eq_ok.mp passed
      cases passed
      have counted : Leads base s { s with passes := s.passes + 1 } := .of_layout rfl
      exact (counted.trans (leads_resolveTop (h.congr rfl) keyed within resolved)).trans (.of_layout rfl)

theorem isLand_strip {id : CardId} {c : Card} (found : s.strip.card? id = some c) :
    c.isLand = c.definition.hasType .land := by
  rw [card?_strip, Option.map_eq_some_iff] at found
  obtain ⟨c, -, rfl⟩ := found
  rfl

theorem cardInHand_eq_ok {player : Seat} {id : CardId} {c : Card} :
    s.cardInHand player id = .ok c ↔
      s.card? id = some c ∧ ∃ p, s.player? player = some p ∧ c.zone = p.zones.hand := by
  simp only [cardInHand, Outcome.bind_eq_ok, card_eq_ok, player_eq_ok, Outcome.require_eq_ok,
    decide_eq_true_eq, exists_const]
  constructor
  · rintro ⟨c, found, p, hp, inHand, same⟩
    cases same
    exact ⟨found, p, hp, inHand⟩
  · rintro ⟨found, p, hp, inHand⟩
    exact ⟨c, found, p, hp, inHand, rfl⟩

theorem requireSorceryTiming_eq_ok {player : Seat} {u : Unit} :
    s.requireSorceryTiming player = .ok u ↔
      player = s.activePlayer ∧ s.moment.phase.isMain = true ∧ s.stack = [] := by
  simp only [requireSorceryTiming, Outcome.bind_eq_ok, Outcome.require_eq_ok, decide_eq_true_eq,
    stackIsEmpty, List.isEmpty_iff, exists_const]

/-- The timing that a spell asks for. -/
def requireTiming (s : State) (player : Seat) (d : Definition) : Outcome Unit :=
  if d.hasType .instant then .ok () else s.requireSorceryTiming player

theorem requireTiming_eq_ok {player : Seat} {d : Definition} {u : Unit} :
    s.requireTiming player d = .ok u ↔
      d.hasType .instant = true ∨
        player = s.activePlayer ∧ s.moment.phase.isMain = true ∧ s.stack = [] := by
  unfold requireTiming
  split <;> simp [*, requireSorceryTiming_eq_ok]

theorem checkCast_eq (s : State) (player : Seat) (id : CardId) (targets : List CardId) :
    s.checkCast player id targets = (do
      s.requirePriority player
      let card ← s.cardInHand player id
      Outcome.require (!card.isLand) (.cannotCastLand id)
      s.requireTiming player card.definition
      let cost ← card.definition.manaCost
      let caster ← s.player player
      Outcome.require (caster.mana.canPay cost) .cannotPayCost
      s.derive.checkEffectTargets targets card.definition.effects) := by
  unfold checkCast requireTiming
  refine bind_congr fun _ => bind_congr fun card => bind_congr fun _ => ?_
  split <;> rfl

/-- Everything that the check of a cast asks for. -/
theorem checkCast_eq_ok {player : Seat} {id : CardId} {targets : List CardId} {u : Unit} :
    s.checkCast player id targets = .ok u ↔
      s.priorityPlayer = player ∧ ∃ c p cost, s.card? id = some c ∧ s.player? player = some p ∧
        c.zone = p.zones.hand ∧ c.isLand = false ∧
        (c.definition.hasType .instant = true ∨
          player = s.activePlayer ∧ s.moment.phase.isMain = true ∧ s.stack = []) ∧
        c.definition.manaCost = .ok cost ∧ p.mana.canPay cost = true ∧
        s.derive.checkEffectTargets targets c.definition.effects = .ok u := by
  simp only [checkCast_eq, requirePriority, Outcome.bind_eq_ok, Outcome.require_eq_ok,
    cardInHand_eq_ok, player_eq_ok, requireTiming_eq_ok, decide_eq_true_eq, Bool.not_eq_true',
    exists_const]
  refine and_congr_right fun _ => ⟨?_, ?_⟩
  · rintro ⟨c, ⟨found, p, hp, inHand⟩, notLand, timely, cost, priced, q, hq, paid, targeted⟩
    obtain rfl := Option.some.inj (hp.symm.trans hq)
    exact ⟨c, p, cost, found, hp, inHand, notLand, timely, priced, paid, targeted⟩
  · rintro ⟨c, p, cost, found, hp, inHand, notLand, timely, priced, paid, targeted⟩
    exact ⟨c, ⟨found, p, hp, inHand⟩, notLand, timely, cost, priced, p, hp, paid, targeted⟩

/-- The cards are the same, and so are the zones and what lies in them. -/
structure SameBoard (s t : State) : Prop where
  cards : t.cards = s.cards
  layout : t.layout = s.layout

theorem SameBoard.updatePlayer (s : State) (seat : Seat) {f : Player → Player}
    (h : ∀ p, (f p).zones = p.zones) : s.SameBoard (s.updatePlayer seat f) :=
  ⟨rfl, layout_updatePlayer s seat h⟩

/-- Everything that playing a land asks for, and what it does. -/
theorem playLand_eq_ok {player : Seat} {id : CardId} (h : s.playLand player id = .ok t) :
    player = s.activePlayer ∧ s.moment.phase.isMain = true ∧ ∃ c p next, s.card? id = some c ∧
      s.player? player = some p ∧ c.zone = p.zones.hand ∧ c.isLand = true ∧
      s.enter id player = .ok next ∧ next.SameBoard t := by
  simp only [playLand, checkLand, Outcome.bind_eq_ok, Outcome.require_eq_ok,
    requireSorceryTiming_eq_ok] at h
  obtain ⟨-, ⟨-, -, -, ⟨active, main, -⟩, c, inHand, -, land, -⟩, next, entered, h⟩ := h
  cases h
  obtain ⟨found, p, seated, zone⟩ := cardInHand_eq_ok.mp inHand
  exact ⟨active, main, c, p, next, found, seated, zone, land, entered,
    rfl, layout_updatePlayer next player fun _ => rfl⟩

theorem happens_playLand {player : Seat} {id : CardId} (h : s.strip.playLand player id = .ok t) :
    ∃ next, s.strip.Happens (.played id) next ∧ next.SameBoard t := by
  obtain ⟨-, -, c, p, next, found, seated, zone, land, entered, same⟩ := playLand_eq_ok h
  rw [isLand_strip found] at land
  exact ⟨next, .play seated found zone land entered, same⟩

theorem happens_cast {player : Seat} {id : CardId} {targets : List CardId}
    (h : s.strip.cast player id targets = .ok t) :
    ∃ paid next : State, s.strip.SameBoard paid ∧ paid.Happens (.cast id) next ∧
      next.SameBoard t := by
  simp only [cast, Outcome.bind_eq_ok] at h
  obtain ⟨_, checked, -, -, cost, -, next, pushed, h⟩ := h
  cases h
  obtain ⟨-, c, p, -, found, hp, zone, notLand, -⟩ := checkCast_eq_ok.mp checked
  rw [isLand_strip found] at notLand
  have paid := SameBoard.updatePlayer s.strip player
    (f := fun p => { p with mana := (p.mana.pay? cost).getD p.mana }) fun _ => rfl
  obtain ⟨q, hq, zones⟩ := player?_congr paid.layout.symm hp
  exact ⟨_, next, paid, .cast hq found (zone.trans (by rw [zones])) notLand pushed, rfl, rfl⟩

theorem resolveTop_eq {z : Zone} {top : CardId} (found : s.zone s.stackZone = .ok z)
    (isTop : z.top? = some top) : s.resolveTop = s.resolveCard top := by
  simp only [resolveTop, found, isTop, bind, Except.bind]

/-- All that a pass can do. -/
theorem pass_cases {outcome : PassOutcome} (h : s.pass = .ok (t, outcome)) :
    (outcome = .passed ∧ s.passes + 1 < s.playerCount ∧
      t = { s with passes := s.passes + 1, priorityPlayer := s.nextSeat s.priorityPlayer }) ∨
    (outcome = .allPassed ∧ s.playerCount ≤ s.passes + 1 ∧ s.stack = [] ∧
      t = s.giveActivePriority) ∨
    ∃ top next, outcome = .resolved top ∧ s.playerCount ≤ s.passes + 1 ∧
      s.stack.getLast? = some top ∧
      { s with passes := s.passes + 1 }.resolveCard top = .ok next ∧
      t = next.giveActivePriority := by
  unfold pass at h
  dsimp only at h
  split at h
  · rename_i early
    cases h
    exact .inl ⟨rfl, early, rfl⟩
  · rename_i last
    have complete : s.playerCount ≤ s.passes + 1 := Nat.le_of_not_lt last
    obtain ⟨stack, found, h⟩ := Outcome.bind_eq_ok.mp h
    have cards : s.stack = stack.cards := contents_of_zone? (zone_eq_ok.mp found)
    split at h
    · rename_i empty
      cases h
      exact .inr (.inl ⟨rfl, complete, by rwa [cards, ← List.getLast?_eq_none_iff], rfl⟩)
    · rename_i top isTop
      obtain ⟨next, resolved, h⟩ := Outcome.bind_eq_ok.mp h
      cases h
      rw [resolveTop_eq found isTop] at resolved
      exact .inr (.inr ⟨top, next, rfl, complete, by rwa [cards], resolved, rfl⟩)

section Keyed

variable (keyed : s.Keyed)
include keyed

theorem Keyed.resolveCard {id : CardId} (resolved : s.resolveCard id = .ok t) : t.Keyed := by
  obtain ⟨c, -, resolved⟩ := Outcome.bind_eq_ok.mp resolved
  split at resolved
  · exact keyed.enter resolved
  · obtain ⟨next, effects, buried⟩ := Outcome.bind_eq_ok.mp resolved
    have wanes : Wanes s s next := wanes_resolveEffects effects
    exact (wanes.keyed keyed).bury buried

theorem Keyed.pass {outcome : PassOutcome} (passed : s.pass = .ok (t, outcome)) : t.Keyed := by
  obtain ⟨-, -, rfl⟩ | ⟨-, -, -, rfl⟩ | ⟨top, next, -, -, -, resolved, rfl⟩ := pass_cases passed
  · exact keyed
  · exact keyed
  · have counted : Keyed { s with passes := s.passes + 1 } := keyed
    have after : next.Keyed := counted.resolveCard resolved
    exact after

theorem Keyed.cast {player : Seat} {id : CardId} {targets : List CardId}
    (h : s.cast player id targets = .ok t) : t.Keyed := by
  simp only [State.cast, Outcome.bind_eq_ok] at h
  obtain ⟨-, -, -, -, cost, -, next, pushed, h⟩ := h
  cases h
  have paid : (s.updatePlayer player fun p => { p with mana := (p.mana.pay? cost).getD p.mana }).Keyed :=
    keyed.congr (layout_updatePlayer s player fun _ => rfl)
  have after : next.Keyed := paid.putOnStack pushed
  exact after

end Keyed

end State

open State

/-- What a stage does before it settles leaves the cards their numbers. -/
theorem Transform.keyed {config : Config} {transform : Transform} {s t : State} (keyed : s.Keyed)
    (run : transform.run config s = .ok t) : t.Keyed := by
  have derived : s.derive.derive = s.derive := derive_derive s
  cases transform with
  | playLand player card =>
      obtain ⟨-, -, c, p, next, -, -, -, -, entered, same⟩ := playLand_eq_ok run
      exact (keyed.enter entered).congr same.layout
  | cast player card targets => exact keyed.cast run
  | activate player card ability targets => exact (wanes_activate derived run).keyed keyed
  | pass =>
      obtain ⟨⟨next, outcome⟩, passed, run⟩ := Outcome.bind_eq_ok.mp run
      cases run
      exact keyed.pass passed
  | endMoment player => exact (wanes_endMoment derived run).keyed keyed
  | declareAttackers player attackers =>
      obtain ⟨next, declared, run⟩ := Outcome.bind_eq_ok.mp run
      cases run
      exact keyed.congr (still_declareAttackers declared).layout
  | declareBlockers player blocks =>
      obtain ⟨next, declared, run⟩ := Outcome.bind_eq_ok.mp run
      cases run
      exact keyed.congr (still_declareBlockers declared).layout
  | stay =>
      cases run
      exact keyed

/-- Between a derived state and what comes out of a stage before it settles, nothing dies but
    creatures of the former. -/
theorem Transform.leads {config : Config} {transform : Transform} {s t : State}
    (derived : s.derive = s) (h : s.Orderly) (run : transform.run config s.strip = .ok t) :
    Leads s s t := by
  have orderly : s.strip.Orderly := h.congr (layout_strip s)
  have within := h.keyed.strip_within_derive
  rw [derived] at within
  have stripped : Leads s s s.strip := .of_layout (layout_strip s)
  refine stripped.trans ?_
  cases transform with
  | playLand player card =>
      obtain ⟨next, played, same⟩ := happens_playLand run
      exact (Leads.of_happens played rfl).trans (.of_layout same.layout)
  | cast player card targets =>
      obtain ⟨paid, next, payment, put, same⟩ := happens_cast run
      exact ((Leads.of_layout payment.layout).trans (.of_happens put rfl)).trans
        (.of_layout same.layout)
  | activate player card ability targets => exact (wanes_activate derived run).leads orderly h.keyed within
  | pass =>
      obtain ⟨⟨next, outcome⟩, passed, run⟩ := Outcome.bind_eq_ok.mp run
      cases run
      exact leads_pass orderly h.keyed within passed
  | endMoment player => exact (wanes_endMoment derived run).leads orderly h.keyed within
  | declareAttackers player attackers =>
      obtain ⟨next, declared, run⟩ := Outcome.bind_eq_ok.mp run
      cases run
      exact .of_layout (still_declareAttackers declared).layout
  | declareBlockers player blocks =>
      obtain ⟨next, declared, run⟩ := Outcome.bind_eq_ok.mp run
      cases run
      exact .of_layout (still_declareBlockers declared).layout
  | stay =>
      cases run
      exact .of_layout rfl

end CardGame
