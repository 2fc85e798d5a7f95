import CardGame.Proofs.Changes
import CardGame.Proofs.StackOrder

/-! # Where permanents come from

A permanent after a stage was one before and has stayed, unless a new turn has readied it or it has
just entered. Permanents enter in a main phase only, under the control of the player whose turn it is.
-/

namespace CardGame

/-- Where a permanent of the state after a stage comes from. -/
inductive State.Provenance (s t : State) (id : CardId) (c : Card) : Prop where
  | stayed {b : Card} (before : s.InPlay id b) (stays : b.Stays c) (turn : t.turn = s.turn)
  | entered (since : c.enteredTurn = some t.turn) (sick : c.summoningSick = true)
      (controller : c.controller = t.activePlayer) (main : t.moment.phase.isMain = true)
      (turn : t.turn = s.turn)
  | readied {b : Card} (before : s.InPlay id b) (controller : c.controller = b.controller)
      (since : c.enteredTurn = b.enteredTurn)
      (sick : c.summoningSick = (b.summoningSick && decide (c.controller ≠ t.activePlayer)))
      (turn : t.turn = s.turn + 1) (moment : t.moment = .first)

namespace State

variable {config : Config} {s t u : State} {id : CardId} {c : Card} {n : Nat}

/-- While permanents stay and the date is the same, they come from where they came from. -/
theorem Provenance.trans {b : Card} (first : Provenance s t id b) (stays : b.Stays c)
    (same : u.date = t.date) : Provenance s u id c := by
  have turn : u.turn = t.turn := congrArg Date.turn same
  have moment : u.moment = t.moment := congrArg Date.moment same
  have active : u.activePlayer = t.activePlayer := congrArg Date.activePlayer same
  cases first with
  | stayed before earlier sameTurn =>
      exact .stayed before (earlier.trans stays) (turn.trans sameTurn)
  | entered since sick controller main sameTurn =>
      refine .entered ?_ (stays.sick.trans sick) ?_ (moment ▸ main) (turn.trans sameTurn)
      · rw [stays.entered, since, turn]
      · rw [stays.controller, controller, active]
  | readied before controller since sick newTurn newMoment =>
      refine .readied before (stays.controller.trans controller) (stays.entered.trans since) ?_
        (turn.trans newTurn) (moment.trans newMoment)
      rw [stays.sick, sick, stays.controller, active]

theorem Provenance.of_stays {r : State} (stays : s.Stays r) (turn : r.turn = s.turn)
    (rest : Provenance r t id c) : Provenance s t id c := by
  cases rest with
  | stayed before later sameTurn =>
      obtain ⟨a, first, earlier⟩ := stays _ _ before
      exact .stayed first (earlier.trans later) (sameTurn.trans turn)
  | entered since sick controller main sameTurn =>
      exact .entered since sick controller main (sameTurn.trans turn)
  | readied before controller since sick newTurn moment =>
      obtain ⟨a, first, earlier⟩ := stays _ _ before
      exact .readied first (controller.trans earlier.controller) (since.trans earlier.entered)
        (earlier.sick ▸ sick) (turn ▸ newTurn) moment

/-- Small changes that take no turn only let permanents stay. -/
theorem Changes.provenance (changes : Changes s t) (h : s.Orderly) (turn : t.turn = s.turn)
    (permanent : t.InPlay id c) : Provenance s t id c := by
  obtain ⟨b, before, stays⟩ := (changes.stays h).2 id c permanent
  exact .stayed before stays turn

/-- A card that enters in a main phase, for the player whose turn it is, is the only new permanent. -/
theorem provenance_of_enter {card : CardId} {seat : Seat} (entered : s.enter card seat = .ok t)
    (active : seat = s.activePlayer) (main : s.moment.phase.isMain = true)
    (permanent : t.InPlay id c) : Provenance s t id c := by
  obtain ⟨found, inPlay⟩ := permanent
  obtain ⟨old, p, source, kind, known, -, -, -, rfl⟩ := enter_eq_ok entered
  rw [isBattlefield_relocate] at inPlay
  obtain ⟨-, rfl⟩ | ⟨-, found⟩ := (card?_relocate_eq_some _ _ known).mp found
  · exact .entered rfl rfl active main rfl
  · exact .stayed ⟨found, inPlay⟩ (.refl c) rfl

theorem InPlay.congr (permanent : t.InPlay id c) (same : s.SameBoard t) : s.InPlay id c := by
  obtain ⟨found, inPlay⟩ := permanent
  rw [isBattlefield_congr same.layout] at inPlay
  exact ⟨by rwa [card?, ← same.cards], inPlay⟩

theorem provenance_playLand {player : Seat} {card : CardId} (h : s.playLand player card = .ok t)
    (permanent : t.InPlay id c) : Provenance s t id c := by
  obtain ⟨active, main, -, -, next, -, -, -, -, entered, same⟩ := playLand_eq_ok h
  have date : t.date = next.date := by
    rw [date_of_tempo (tempo_playLand h), date_of_tempo (tempo_enter entered)]
    rfl
  exact (provenance_of_enter entered active main (permanent.congr same)).trans (.refl c) date

/-- A spell of the stack that is no instant was cast in time. -/
theorem StackOrder.main_of_mem (order : s.StackOrder) (member : id ∈ s.stack)
    (found : s.card? id = some c) (permanent : c.definition.isPermanent = true) :
    c.controller = s.activePlayer ∧ s.moment.phase.isMain = true := by
  have notInstant : ¬c.definition.hasType .instant = true := by
    simp only [Definition.isPermanent, Bool.and_eq_true, Bool.not_eq_true'] at permanent
    simp [permanent.1]
  cases stack : s.stack with
  | nil => simp [stack] at member
  | cons bottom rest =>
      rw [stack, List.mem_cons] at member
      rcases member with rfl | above
      · obtain ⟨d, known, timely⟩ := order.bottom id (by simp [stack])
        cases known.symm.trans found
        obtain ⟨main, controller⟩ := timely.resolve_left notInstant
        exact ⟨controller, main⟩
      · obtain ⟨d, known, instant⟩ := order.above id (by simp [stack, above])
        cases known.symm.trans found
        exact absurd instant notInstant

theorem StackOrder.strip (order : s.StackOrder) (h : s.Orderly) : s.strip.StackOrder := by
  have same := layout_strip s
  exact order.of_prefix (.of_layout same) h (stack_congr same ▸ List.prefix_rfl) fun _ => rfl

theorem provenance_resolveCard (h : s.Orderly) (order : s.StackOrder) (member : id ∈ s.stack)
    (onStack : s.zoneKind? id = some .stack) (resolved : s.resolveCard id = .ok t) {other : CardId}
    (permanent : t.InPlay other c) : Provenance s t other c := by
  obtain ⟨d, found, ⟨lasts, entered, -⟩ | ⟨context, next, effects, spent⟩⟩ :=
    resolveCard_cases h onStack resolved
  · obtain ⟨active, main⟩ := order.main_of_mem member found lasts
    exact provenance_of_enter entered active main permanent
  · have changes := (changes_resolveEffects effects).trans (.of_happens spent nofun)
    exact changes.provenance h (congrArg Tempo.turn (tempo_resolveCard resolved)) permanent

theorem provenance_pass {outcome : PassOutcome} (h : s.Orderly) (order : s.StackOrder)
    (passed : s.pass = .ok (t, outcome)) (permanent : t.InPlay id c) : Provenance s t id c := by
  obtain ⟨-, -, rfl⟩ | ⟨-, -, -, rfl⟩ | ⟨top, next, -, -, isTop, resolved, rfl⟩ := pass_cases passed
  · exact .stayed (permanent.congr (s := s) ⟨rfl, rfl⟩) (.refl c) rfl
  · exact .stayed (permanent.congr (s := s) ⟨rfl, rfl⟩) (.refl c) rfl
  · have count : s.SameBoard { s with passes := s.passes + 1 } := ⟨rfl, rfl⟩
    have ordered : { s with passes := s.passes + 1 }.StackOrder := ⟨order.above, order.bottom⟩
    have came := provenance_resolveCard (h.congr count.layout) ordered (List.mem_of_getLast? isTop)
      (h.erase_top isTop).1 resolved (permanent.congr (s := next) ⟨rfl, rfl⟩)
    exact (came.of_stays ((Changes.aside count).stays h).2 rfl).trans (.refl c) rfl

/-- What untapping makes of a permanent. -/
def readied (active : Seat) (c : Card) : Card :=
  if c.controller = active then { c with tapped := false, summoningSick := false } else c

@[simp]
theorem controller_readied (active : Seat) (c : Card) : (readied active c).controller = c.controller := by
  unfold readied
  split <;> rfl

@[simp]
theorem enteredTurn_readied (active : Seat) (c : Card) :
    (readied active c).enteredTurn = c.enteredTurn := by
  unfold readied
  split <;> rfl

theorem summoningSick_readied (active : Seat) (c : Card) :
    (readied active c).summoningSick = (c.summoningSick && decide (c.controller ≠ active)) := by
  unfold readied
  split <;> simp [*]

theorem inPlay_untapStep (keyed : s.Keyed) (untapped : s.untapStep = .ok t)
    (permanent : t.InPlay id c) : ∃ b, s.InPlay id b ∧ c = readied s.activePlayer b := by
  have still := still_untapStep untapped
  obtain ⟨ready, changed, untapped⟩ := Outcome.bind_eq_ok.mp untapped
  cases untapped
  obtain ⟨-, rfl⟩ := changeCards_eq_ok.mp changed
  obtain ⟨found, inPlay⟩ := permanent
  replace found := (keyed.card?_updatePermanents _ _ id).symm.trans found
  obtain ⟨b, known, rfl⟩ := Option.map_eq_some_iff.mp found
  have zone : (if s.isBattlefield b.zone && decide (b.controller = s.activePlayer) then
      { b with tapped := false, summoningSick := false } else b).zone = b.zone := by
    split <;> rfl
  rw [zone, isBattlefield_congr still.layout] at inPlay
  exact ⟨b, ⟨known, inPlay⟩, by simp [readied, inPlay]⟩

/-- When a turn begins, the permanents of its player are ready. -/
theorem provenance_nextTurn (keyed : s.Keyed) (begun : s.nextTurn.beginMoment config = .ok t)
    (permanent : t.InPlay id c) : Provenance s t id c := by
  have emptied : s.SameBoard s.nextTurn.emptyPools := ⟨rfl, layout_mapPlayers _ fun _ => rfl⟩
  have tempo := tempo_beginMoment begun
  obtain ⟨b, before, rfl⟩ := inPlay_untapStep (keyed.congr emptied.layout) begun permanent
  have active : t.activePlayer = s.nextTurn.activePlayer := congrArg Tempo.activePlayer tempo
  refine .readied (before.congr emptied) (controller_readied _ b) (enteredTurn_readied _ b) ?_
    (congrArg Tempo.turn tempo) (congrArg Tempo.moment tempo)
  rw [summoningSick_readied, controller_readied, active]
  rfl

/-- No moment but the first is an untap step. -/
theorem step_ne_untap {m : Moment} (ordered : m ∈ Moment.sequence) (later : m.left < 12) :
    m.step ≠ some .untap := by
  revert m
  decide

theorem provenance_endMoment {player : Seat} (h : s.Orderly) (ordered : s.moment ∈ Moment.sequence)
    (ended : s.endMoment config player = .ok t) (permanent : t.InPlay id c) :
    Provenance s t id c := by
  obtain ⟨-, -, begun, begins, rfl⟩ := endMoment_eq_ok.mp ended
  have given : Provenance s begun id c := by
    replace permanent : begun.InPlay id c := permanent.congr ⟨rfl, rfl⟩
    obtain ⟨next, member, advanced, less⟩ | ⟨advanced, -⟩ := advance_cases ordered
    · rw [advanced] at begins
      have later : next.left < 12 := by
        have := s.moment.left_le
        omega
      have moved : Changes s { s with moment := next } := .aside ⟨rfl, rfl⟩
      have begun := changes_beginMoment (moved.keyed h.keyed) (step_ne_untap member later) begins
      have turn : _ = s.turn := congrArg Tempo.turn (tempo_beginMoment begins)
      exact (moved.trans begun).provenance h turn permanent
    · rw [advanced] at begins
      exact provenance_nextTurn h.keyed begins permanent
  exact given.trans (.refl c) rfl

end State

open State

variable {config : Config} {transform : Transform} {s t : State} {id : CardId} {c : Card} {n : Nat}

theorem Transform.provenance (h : s.Orderly) (regular : s.tempo.Regular n) (order : s.StackOrder)
    (run : transform.run config s.strip = .ok t) (permanent : t.InPlay id c) :
    Provenance s t id c := by
  -- a permanent of the printed state is one of the state itself
  have printed := (Changes.strip s).stays h
  refine Provenance.of_stays printed.2 rfl ?_
  have turn (notEnd : ∀ player, transform ≠ .endMoment player) : t.turn = s.strip.turn := by
    obtain same | ⟨player, ends⟩ := transform.date_cases run
    · exact congrArg Date.turn same
    · exact absurd ends (notEnd player)
  cases transform with
  | playLand player card => exact provenance_playLand run permanent
  | cast player card targets => exact (changes_cast run).provenance printed.1 (turn nofun) permanent
  | activate player card ability targets =>
      exact (changes_activate run).provenance printed.1 (turn nofun) permanent
  | pass =>
      obtain ⟨⟨next, outcome⟩, passed, run⟩ := Outcome.bind_eq_ok.mp run
      cases run
      exact provenance_pass printed.1 (order.strip h) passed permanent
  | endMoment player => exact provenance_endMoment printed.1 regular.moment run permanent
  | declareAttackers player attackers =>
      obtain ⟨next, declared, run⟩ := Outcome.bind_eq_ok.mp run
      cases run
      have noted : Changes next next.noteAction := .aside ⟨rfl, rfl⟩
      exact ((changes_declareAttackers declared).trans noted).provenance printed.1 (turn nofun) permanent
  | declareBlockers player blocks =>
      obtain ⟨next, declared, run⟩ := Outcome.bind_eq_ok.mp run
      cases run
      have noted : Changes next next.noteAction := .aside ⟨rfl, rfl⟩
      exact ((changes_declareBlockers declared).trans noted).provenance printed.1 (turn nofun) permanent
  | stay =>
      cases run
      exact (Changes.refl _).provenance printed.1 rfl permanent

theorem State.provenance_perform {events : List Event} (h : s.Orderly) (derived : s.derive = s)
    (regular : s.tempo.Regular n) (order : s.StackOrder)
    (performed : s.perform config (transform.run config) = .ok (t, events))
    (permanent : t.InPlay id c) : Provenance s t id c := by
  obtain ⟨after, run, settled⟩ := Outcome.bind_eq_ok.mp performed
  obtain ⟨trace, course, -⟩ := transform.leads derived h run
  have ran := course.orderly h
  have settling := (changes_settle ran.keyed settled).stays ran
  obtain ⟨b, before, stays⟩ := settling.2 id c permanent
  exact (transform.provenance h regular order run before).trans stays
    (date_of_tempo (tempo_settle settled))

end CardGame
