import CardGame.Proofs.Declarations
import CardGame.Proofs.Permanents

/-! # Summoning sickness

The turns of a game go round the seats, and no turn is skipped. A permanent enters in a turn of its
controller, and is sick until the next one begins, which is as many turns later as there are players.
-/

namespace CardGame

section Turns

variable {n since turn : Nat} (players : 0 < n) (first : 1 ≤ since) (past : since ≤ turn)
include players first past

/-- One turn later, less than a round has gone by unless the seat has its turn again. -/
theorem lt_round_succ_iff : turn + 1 < since + n ↔ turn < since + n ∧ turn % n ≠ (since - 1) % n := by
  have divides : turn % n = (since - 1) % n ↔ n ∣ turn - (since - 1) := by
    rw [eq_comm]
    exact Nat.modEq_iff_dvd' (by omega)
  rw [Ne, divides]
  constructor
  · intro less
    refine ⟨by omega, fun multiple => ?_⟩
    have := Nat.le_of_dvd (by omega) multiple
    omega
  · rintro ⟨less, notMultiple⟩
    have : turn - (since - 1) ≠ n := fun same => notMultiple (same ▸ dvd_refl _)
    omega

/-- A round has gone by exactly if the seat has had its turn again. -/
theorem lt_round_iff : turn < since + n ↔
    ∀ later, since < later → later ≤ turn → (later - 1) % n ≠ (since - 1) % n := by
  -- with each turn the round comes closer to its end, or the seat has its turn again
  induction turn, past using Nat.le_induction with
  | base =>
      refine iff_of_true (by omega) fun later after before => ?_
      omega
  | succ turn past ih =>
      rw [lt_round_succ_iff players first past, ih]
      constructor
      · rintro ⟨earlier, now⟩ later after before
        rcases Nat.lt_or_eq_of_le before with before | rfl
        · exact earlier later after (by omega)
        · exact now
      · intro all
        exact ⟨fun later after before => all later after (by omega), all (turn + 1) (by omega) le_rfl⟩

end Turns

/-- What the record of a permanent says about its arrival, in a game of `n` players: in which turn it
    was, that this was a turn of its controller, and that the permanent is sick if less than a round
    has gone by. -/
def Card.Arrived (n turn : Nat) (c : Card) : Prop :=
  ∃ since, c.enteredTurn = some since ∧ 1 ≤ since ∧ since ≤ turn ∧ (since - 1) % n = c.controller ∧
    (c.summoningSick = true ↔ turn < since + n)

/-- The permanent is sick exactly as long as its controller has not begun a turn since it entered. -/
theorem Card.Arrived.sick_iff {n turn : Nat} {c : Card} (players : 0 < n) (h : c.Arrived n turn) :
    c.summoningSick = true ↔
      ∀ since, c.enteredTurn = some since →
        ∀ later, since < later → later ≤ turn → (later - 1) % n ≠ c.controller := by
  obtain ⟨since, entered, first, past, controller, sick⟩ := h
  simp only [sick, lt_round_iff players first past, controller, entered, Option.some.injEq,
    forall_eq']

namespace State

variable {config : Config} {s t : State} {events : List Event} {n : Nat}

/-- The turns go round the `n` seats, from the first one on. -/
structure Dated (n : Nat) (s : State) : Prop where
  regular : s.tempo.Regular n
  first : 1 ≤ s.turn
  active : s.activePlayer = (s.turn - 1) % n

theorem Dated.of_date (h : s.Dated n) (regular : t.tempo.Regular n) (same : t.date = s.date) :
    t.Dated n := by
  have turn : t.turn = s.turn := congrArg Date.turn same
  have active : t.activePlayer = s.activePlayer := congrArg Date.activePlayer same
  exact ⟨regular, turn ▸ h.first, by rw [active, turn, h.active]⟩

theorem Dated.advance (h : s.Dated n) (few : n ≤ Seat.limit) : s.advance.Dated n := by
  have regular := regular_advance h.regular
  obtain ⟨next, -, same, -⟩ | ⟨same, -⟩ := advance_cases h.regular.moment
  · rw [same] at regular ⊢
    exact ⟨regular, h.first, h.active⟩
  · rw [same] at regular ⊢
    have seats : s.playerCount = n := h.regular.seats
    have some : 0 < s.playerCount := Nat.zero_lt_of_lt (seated_of_regular h.regular).active
    refine ⟨regular, Nat.le_add_left _ _, ?_⟩
    show s.nextSeat s.activePlayer = (s.turn + 1 - 1) % n
    rw [nextSeat_eq some (seats ▸ few), seats, h.active, Nat.mod_add_mod,
      Nat.sub_add_cancel h.first, Nat.add_sub_cancel]

theorem dated_perform {transform : Transform} (few : n ≤ Seat.limit) (h : s.Dated n)
    (performed : s.perform config (transform.run config) = .ok (t, events)) : t.Dated n := by
  have regular := regular_perform h.regular performed
  obtain ⟨after, run, settled⟩ := Outcome.bind_eq_ok.mp performed
  obtain same | ⟨player, rfl⟩ := transform.date_cases run
  · exact h.of_date regular ((date_of_tempo (tempo_settle settled)).trans same)
  · exact (h.advance few).of_date regular (perform_endMoment performed).2.2.1

/-- All permanents tell rightly when they arrived. -/
def AllArrived (n : Nat) (s : State) : Prop := ∀ id c, s.InPlay id c → c.Arrived n s.turn

theorem Provenance.arrived {id : CardId} {c : Card} (h : s.Dated n) (dated : t.Dated n)
    (arrived : s.AllArrived n) (came : Provenance s t id c) : c.Arrived n t.turn := by
  have players : 0 < n := Nat.zero_lt_of_lt h.regular.active
  cases came with
  | stayed before stays turn =>
      obtain ⟨since, entered, first, past, controller, sick⟩ := arrived _ _ before
      refine ⟨since, stays.entered.trans entered, first, turn ▸ past, ?_, ?_⟩
      · rw [stays.controller, controller]
      · rw [stays.sick, turn, sick]
  | entered since sick controller main turn =>
      refine ⟨t.turn, since, dated.first, le_rfl, ?_, ?_⟩
      · rw [controller, dated.active]
      · exact iff_of_true sick (by omega)
  | readied before controller since sick turn moment =>
      obtain ⟨entered, known, first, past, seat, wasSick⟩ := arrived _ _ before
      refine ⟨entered, since.trans known, first, by omega, controller ▸ seat, ?_⟩
      have active : t.activePlayer = s.turn % n := by
        rw [dated.active, turn, Nat.add_sub_cancel]
      rw [sick, turn, lt_round_succ_iff players first past, Bool.and_eq_true, wasSick,
        decide_eq_true_eq, controller, ← seat, active, ne_comm]

end State

namespace Match

variable {config : Config} {generator : Generator} {catalog : Catalog} {registry : Registry}
  {decks : List (List DefinitionId)} {m : Match} {n : Nat}

theorem dated_start (started : start config catalog registry decks generator = .ok m) :
    m.state.Dated config.playerCount := by
  have tempo := tempo_start started
  have turn : m.state.turn = 1 := congrArg Tempo.turn tempo
  have active : m.state.activePlayer = 0 := congrArg Tempo.activePlayer tempo
  exact ⟨regular_start started, turn.ge, by rw [active, turn, Nat.sub_self, Nat.zero_mod]⟩

theorem few_players (started : start config catalog registry decks generator = .ok m) :
    config.playerCount < Seat.limit := by
  obtain ⟨-, most, -⟩ := inRound_start started
  exact Nat.lt_of_le_of_lt most (by decide)

theorem dated_run (started : start config catalog registry decks generator = .ok m)
    (commands : List Command) : (m.run commands).state.Dated config.playerCount :=
  Lasting.run (fun _ _ _ h stage => State.dated_perform (few_players started).le h stage) started
    (dated_start started) commands

theorem lasting_arrived (few : n ≤ Seat.limit) :
    Lasting fun s => s.StackOrder ∧ s.Dated n ∧ s.AllArrived n := by
  intro config s t events transform orderly derived h stage
  obtain ⟨order, dated, arrived⟩ := h
  have after := State.dated_perform few dated stage
  refine ⟨State.order_perform orderly derived order stage, after, fun id c permanent => ?_⟩
  have came := State.provenance_perform orderly derived dated.regular order stage permanent
  exact came.arrived dated after arrived

/-- A deal puts nothing onto a battlefield. -/
theorem no_permanents_start (started : start config catalog registry decks generator = .ok m) (id : CardId)
    (c : Card) : ¬m.state.InPlay id c := by
  refine (start_induction started (P := fun s => ∀ id c, ¬s.InPlay id c) (fun id c permanent => ?_)
    (fun {s t d seat p id} dealt hp created none other c permanent => ?_)
    (fun orderly drawn none id c permanent => ?_) fun orderly none id c permanent => ?_).2 id c
  · cases permanent.found
  · obtain ⟨abilities, n, rfl, -⟩ := State.create_eq_ok created
    obtain ⟨found, inPlay⟩ := permanent
    rw [State.isBattlefield, State.kindOfZone?_withCard] at inPlay
    obtain ⟨-, rfl⟩ | ⟨-, found⟩ := (State.card?_withCard_eq_some _ n).mp found
    · have library : s.kindOfZone? (Card.create s.nextCard d seat p.zones.library abilities).zone =
        some .library := dealt.library hp
      simp [library] at inPlay
    · exact none other c ⟨found, inPlay⟩
  · have changes := State.Changes.of_ripples (State.ripples_drawMany drawn)
    obtain ⟨b, before, -⟩ := (changes.stays orderly).2 id c permanent
    exact none id b before
  · obtain ⟨b, before, -⟩ := ((State.Changes.derive _).stays orderly).2 id c permanent
    exact none id b before

theorem arrived_run (started : start config catalog registry decks generator = .ok m)
    (commands : List Command) : (m.run commands).state.AllArrived config.playerCount := by
  have none := no_permanents_start started
  exact (Lasting.run (lasting_arrived (few_players started).le) started
    ⟨.of_empty (stack_start started), dated_start started,
      fun id c permanent => absurd permanent (none id c)⟩ commands).2.2

/-- Every attacker of a declaration that succeeds is a permanent that is not sick, or has haste. -/
theorem attackers_ready {player : Seat} {attackers : List CardId} {next : Match}
    {events : List Event} (derived : m.state.derive = m.state)
    (called : m.call (.declareAttackers player attackers) = .ok (next, events)) {id : CardId}
    (attacks : id ∈ attackers) :
    ∃ c, m.state.InPlay id c ∧ (c.summoningSick = false ∨ c.hasKeyword .haste = true) := by
  obtain ⟨after, run, -⟩ := Outcome.bind_eq_ok.mp (perform_of_call rfl called)
  obtain ⟨declared, declaration, -⟩ := Outcome.bind_eq_ok.mp run
  obtain ⟨-, -, -, -, able, -⟩ := State.declareAttackers_eq_ok.mp declaration
  obtain ⟨c, ready, notSick⟩ := able id attacks
  rw [State.derive_strip, derived] at ready
  rw [Card.isSummoningSick, Bool.and_eq_false_iff, Bool.not_eq_false'] at notSick
  exact ⟨c, ready.toInPlay, notSick⟩

/-- Along every run from a deal for `n` players the turns go round the seats. Every permanent entered
    in a turn of its controller, and is sick for less than `n` turns, which is until its controller
    begins the next turn. So an attacker entered at least `n` turns ago, or has haste. -/
theorem permanents_arrived (config : Config) {generator : Generator} (catalog : Catalog)
    (registry : Registry) (decks : List (List DefinitionId)) (m : Match) (commands : List Command)
    (started : start config catalog registry decks generator = .ok m) :
    (m.run commands).state.Dated config.playerCount ∧
      (∀ id c, (m.run commands).state.InPlay id c →
        c.Arrived config.playerCount (m.run commands).state.turn ∧
          (c.summoningSick = true ↔ ∀ since, c.enteredTurn = some since → ∀ later, since < later →
            later ≤ (m.run commands).state.turn → (later - 1) % config.playerCount ≠ c.controller)) ∧
      ∀ player attackers next events,
        (m.run commands).call (.declareAttackers player attackers) = .ok (next, events) →
          ∀ id ∈ attackers, ∃ c since, (m.run commands).state.InPlay id c ∧
            c.enteredTurn = some since ∧
            (since + config.playerCount ≤ (m.run commands).state.turn ∨
              c.hasKeyword .haste = true) := by
  have dated := dated_run started commands
  have players : 0 < config.playerCount := Nat.zero_lt_of_lt dated.regular.active
  have arrived := arrived_run started commands
  refine ⟨dated, fun id c permanent => ?_, fun player attackers next events called id attacks => ?_⟩
  · have arrived := arrived id c permanent
    exact ⟨arrived, arrived.sick_iff players⟩
  · obtain ⟨-, derived, -⟩ := ((kept_start started).run commands).present
    obtain ⟨c, permanent, ready⟩ := attackers_ready derived called attacks
    obtain ⟨since, entered, first, past, controller, sick⟩ := arrived id c permanent
    refine ⟨c, since, permanent, entered, ready.imp_left fun notSick => ?_⟩
    simpa [notSick] using sick

/-- A match of two players with one creature each. -/
def skirmish : Outcome Match :=
  start { openingHandSize := 1, shuffleLibraries := false }
    ⟨Table.ofList [(0, .creature 0 "Bear" 2 2)]⟩ .builtin [[0], [0]]

/-- Both creatures are in play, and the first player comes to declare attackers. -/
def untilAttack : List Operation :=
  toMain ++ [.act 0 (.castSpell 1 []), .act 0 .passPriority, .act 1 .passPriority,
    .act 0 .advanceTurn] ++ List.replicate 3 (.act 1 .advanceStep) ++
  [.act 1 (.castSpell 2 []), .act 1 .passPriority, .act 0 .passPriority, .act 1 .advanceTurn] ++
  List.replicate 5 (.act 0 .advanceStep)

/-- In the third turn the creature of the first turn attacks, and nothing else has happened to it. -/
theorem permanents_arrived_skirmish :
    ∃ m next c since, skirmish = .ok m ∧ (m.run (untilAttack.map .call)).state.turn = 3 ∧
      (m.run (untilAttack.map .call)).call (.declareAttackers 0 [1]) = .ok (next, []) ∧
      (m.run (untilAttack.map .call)).state.InPlay 1 c ∧ c.enteredTurn = some since ∧
      (since + 2 ≤ 3 ∨ c.hasKeyword .haste = true) := by
  have played : (do
      let m ← skirmish
      let answer ← (m.run (untilAttack.map .call)).call (.declareAttackers 0 [1])
      .ok ((m.run (untilAttack.map .call)).state.turn, answer.2) : Outcome (Nat × List Event)) =
      .ok (3, []) := by decide +kernel
  obtain ⟨m, started, played⟩ := Outcome.bind_eq_ok.mp played
  obtain ⟨⟨next, events⟩, called, same⟩ := Outcome.bind_eq_ok.mp played
  obtain ⟨turn, rfl⟩ := Prod.mk.inj (Except.ok.inj same)
  obtain ⟨-, -, attackers⟩ := permanents_arrived _ _ _ _ m (untilAttack.map .call) started
  obtain ⟨c, since, permanent, entered, early⟩ := attackers 0 [1] next [] called 1 (by simp)
  rw [turn] at early
  exact ⟨m, next, c, since, started, turn, called, permanent, entered, early⟩

end Match

end CardGame
