import CardGame.Proofs.Calendar

/-! # Turns, moment by moment

To end a turn is to end its moments one after the other, as a player could do who asks for each of
them. The only difference is that the turn is committed as a whole.
-/

namespace CardGame.Match

variable {config : Config} {m mid next last : Match} {player : Seat} {turn count n : Nat}
  {events later : List Event} {reason : RuleError}

/-- The player ends one moment after the other until the turn or the game is over: how many of them,
    the events of all, and the match that this leads to. -/
inductive StepsThrough (player : Seat) (turn : Nat) : Match → Nat → List Event → Match → Prop where
  | last {m next : Match} {events : List Event}
      (stepped : m.call (.act player .advanceStep) = .ok (next, events))
      (ended : next.state.turn ≠ turn ∨ next.isOver = true) :
      StepsThrough player turn m 1 events next
  | next {m mid next : Match} {events later : List Event} {count : Nat}
      (stepped : m.call (.act player .advanceStep) = .ok (mid, events))
      (same : mid.state.turn = turn) (running : mid.isOver = false)
      (rest : StepsThrough player turn mid count later next) :
      StepsThrough player turn m (count + 1) (events ++ later) next

/-- The player ends moments until one of them cannot be ended, for this reason. -/
inductive StepFails (player : Seat) (turn : Nat) : Match → RuleError → Prop where
  | here {m : Match} {reason : RuleError}
      (failed : m.call (.act player .advanceStep) = .error reason) : StepFails player turn m reason
  | later {m mid : Match} {events : List Event} {reason : RuleError}
      (stepped : m.call (.act player .advanceStep) = .ok (mid, events))
      (same : mid.state.turn = turn) (running : mid.isOver = false)
      (rest : StepFails player turn mid reason) : StepFails player turn m reason

namespace StepsThrough

/-- The moments of a turn can be ended in one way only. -/
theorem unique (h : StepsThrough player turn m count events last) :
    (∀ {count' events' last'}, StepsThrough player turn m count' events' last' →
      events' = events ∧ last' = last) ∧ ∀ reason, ¬ StepFails player turn m reason := by
  induction h with
  | last stepped ended =>
      refine ⟨fun other => ?_, fun reason fails => ?_⟩
      · cases other with
        | last stepped' =>
            cases stepped.symm.trans stepped'
            exact ⟨rfl, rfl⟩
        | next stepped' same running =>
            cases stepped.symm.trans stepped'
            simp [same, running] at ended
      · cases fails with
        | here failed => cases stepped.symm.trans failed
        | later stepped' same running =>
            cases stepped.symm.trans stepped'
            simp [same, running] at ended
  | next stepped same running _ ih =>
      refine ⟨fun other => ?_, fun reason fails => ?_⟩
      · cases other with
        | last stepped' ended =>
            cases stepped.symm.trans stepped'
            simp [same, running] at ended
        | next stepped' _ _ rest =>
            cases stepped.symm.trans stepped'
            obtain ⟨rfl, rfl⟩ := ih.1 rest
            exact ⟨rfl, rfl⟩
      · cases fails with
        | here failed => cases stepped.symm.trans failed
        | later stepped' _ _ rest =>
            cases stepped.symm.trans stepped'
            exact ih.2 reason rest

end StepsThrough

theorem StepFails.unique (h : StepFails player turn m reason) {reason' : RuleError}
    (other : StepFails player turn m reason') : reason' = reason := by
  induction h with
  | here failed =>
      cases other with
      | here failed' => exact Except.error.inj (failed'.symm.trans failed)
      | later stepped => cases stepped.symm.trans failed
  | later stepped _ _ _ ih =>
      cases other with
      | here failed => cases stepped.symm.trans failed
      | later stepped' _ _ rest =>
          cases stepped.symm.trans stepped'
          exact ih rest

/-- The end of a moment leads to the next one, which is up to the same player, or to the first moment of
    the next seat's turn. -/
theorem step_cases (regular : m.state.tempo.Regular n)
    (stepped : m.call (.act player .advanceStep) = .ok (next, events)) :
    next.state.tempo.Regular n ∧ next.state.priorityPlayer = next.state.activePlayer ∧
      (next.state.turn = m.state.turn ∧ next.state.activePlayer = m.state.activePlayer ∧
          m.state.activePlayer = player ∧ next.state.moment.left + 1 = m.state.moment.left ∨
        next.state.turn = m.state.turn + 1 ∧ next.state.moment = .first ∧
          next.state.activePlayer = m.state.nextSeat m.state.activePlayer ∧
          m.state.moment.left = 1) := by
  obtain ⟨-, t, performed, rfl⟩ := call_act_eq_ok.mp stepped
  obtain ⟨rfl, -, date, priority⟩ := State.perform_endMoment performed
  refine ⟨?_, priority, ?_⟩
  · obtain ⟨after, run, settled⟩ := Outcome.bind_eq_ok.mp performed
    rw [commit, State.tempo_settle settled]
    exact State.regular_endMoment (s := m.state.strip) regular run
  · have turn : t.turn = m.state.advance.turn := congrArg Date.turn date
    have moment : t.moment = m.state.advance.moment := congrArg Date.moment date
    have active : t.activePlayer = m.state.advance.activePlayer := congrArg Date.activePlayer date
    obtain ⟨following, -, same, less⟩ | ⟨same, less⟩ := State.advance_cases regular.moment
    · rw [same] at turn moment active
      exact .inl ⟨turn, active, rfl, moment ▸ less⟩
    · rw [same] at turn moment active
      exact .inr ⟨turn, moment, active, less⟩

/-- While the turn and the game go on, the same player may go on as well. -/
theorem Allows.step (allows : m.Allows player) (regular : m.state.tempo.Regular n)
    (stepped : m.call (.act player .advanceStep) = .ok (next, events))
    (same : next.state.turn = m.state.turn) (running : next.isOver = false) :
    next.Allows player ∧ next.state.moment.left + 1 = m.state.moment.left := by
  obtain ⟨after, priority, ⟨-, active, holds, less⟩ | ⟨other, -⟩⟩ := step_cases regular stepped
  · refine ⟨⟨running, ?_, priority.trans (active.trans holds)⟩, less⟩
    rw [show next.state.playerCount = m.state.playerCount from after.seats.trans regular.seats.symm]
    exact allows.seated
  · omega

theorem endMoments_of_step {left : Nat} {earlier : List Event}
    (stepped : m.call (.act player .advanceStep) = .ok (next, events)) :
    State.endMoments m.config player turn m.state earlier (left + 1) =
      if next.state.turn = turn && !next.isOver then
        State.endMoments next.config player turn next.state (earlier ++ events) left
      else .ok (next.state, earlier ++ events) := by
  obtain ⟨-, t, performed, rfl⟩ := call_act_eq_ok.mp stepped
  replace performed : m.state.perform m.config (fun s => s.endMoment m.config player) =
      .ok (t, events) := performed
  rw [State.endMoments, performed]
  rfl

theorem endMoments_of_failed {left : Nat} {earlier : List Event} (allows : m.Allows player)
    (failed : m.call (.act player .advanceStep) = .error reason) :
    State.endMoments m.config player turn m.state earlier (left + 1) = .error reason := by
  obtain refused | ⟨-, failed⟩ := call_act_eq_error.mp failed
  · rw [(allow_eq_ok (u := ())).mpr allows] at refused
    cases refused
  · exact Outcome.bind_eq_error.mpr (.inl failed)

/-- With as many rounds as the turn has moments left, the loop does what ending each of them does. -/
theorem endMoments_agrees {left : Nat} (allows : m.Allows player)
    (regular : m.state.tempo.Regular n) (same : m.state.turn = turn)
    (enough : m.state.moment.left ≤ left) (earlier : List Event) :
    (∃ count later last, StepsThrough player turn m count later last ∧
      State.endMoments m.config player turn m.state earlier left =
        .ok (last.state, earlier ++ later)) ∨
    ∃ reason, StepFails player turn m reason ∧
      State.endMoments m.config player turn m.state earlier left = .error reason := by
  induction left generalizing m earlier with
  | zero => exact absurd enough (Nat.not_le.mpr (Moment.left_pos regular.moment))
  | succ left ih =>
      cases stepped : m.call (.act player .advanceStep) with
      | error reason =>
          exact .inr ⟨reason, .here stepped, endMoments_of_failed allows stepped⟩
      | ok result =>
          obtain ⟨next, events⟩ := result
          rw [endMoments_of_step stepped]
          by_cases goesOn : next.state.turn = turn ∧ next.isOver = false
          · obtain ⟨turnSame, running⟩ := goesOn
            obtain ⟨allowed, less⟩ := allows.step regular stepped (turnSame.trans same.symm) running
            rw [if_pos (by simp [turnSame, running])]
            obtain ⟨count, later, last, rest, ends⟩ | ⟨reason, rest, fails⟩ :=
              ih allowed (step_cases regular stepped).1 turnSame (by omega) (earlier ++ events)
            · refine .inl ⟨_, _, last, .next stepped turnSame running rest, ?_⟩
              rw [← List.append_assoc]
              exact ends
            · exact .inr ⟨reason, .later stepped turnSame running rest, fails⟩
          · rw [if_neg (by simpa using goesOn)]
            refine .inl ⟨1, events, next, .last stepped ?_, rfl⟩
            rw [not_and_or, Bool.not_eq_false] at goesOn
            exact goesOn

/-- A turn is over after as many moments as it had left at most. -/
theorem StepsThrough.ends (h : StepsThrough player turn m count events last)
    (regular : m.state.tempo.Regular n) (same : m.state.turn = turn) :
    count ≤ m.state.moment.left ∧ last.log = m.log ++ events ∧
      (last.isOver = true ∨ last.state.turn = turn + 1 ∧ last.state.moment = .first ∧
        last.state.activePlayer = m.state.nextSeat m.state.activePlayer ∧
        last.state.priorityPlayer = last.state.activePlayer) := by
  induction h with
  | @last m next events stepped ended =>
      obtain ⟨after, priority, change⟩ := step_cases regular stepped
      obtain ⟨-, t, -, rfl⟩ := call_act_eq_ok.mp stepped
      refine ⟨Moment.left_pos regular.moment, rfl, ?_⟩
      obtain ⟨unchanged, -⟩ | ⟨turns, first, active, -⟩ := change
      · exact .inl (ended.resolve_left fun other => other (unchanged.trans same))
      · exact .inr ⟨same ▸ turns, first, active, priority⟩
  | @next m mid last events later count stepped turnSame running _ ih =>
      obtain ⟨after, -, ⟨-, active, -, less⟩ | ⟨other, -⟩⟩ := step_cases regular stepped
      · obtain ⟨few, log, ends⟩ := ih after turnSame
        have seats : mid.state.nextSeat mid.state.activePlayer =
            m.state.nextSeat m.state.activePlayer := by
          rw [State.nextSeat, State.nextSeat, active,
            show mid.state.playerCount = m.state.playerCount from after.seats.trans regular.seats.symm]
        obtain ⟨-, t, -, rfl⟩ := call_act_eq_ok.mp stepped
        exact ⟨by omega, log.trans (List.append_assoc ..), seats ▸ ends⟩
      · omega

/-- What it is for a player to end the turn, in a game of `n` players. -/
structure EndsTurn (n : Nat) (player : Seat) (m : Match) : Prop where
  /-- It succeeds if all the moments that are left can be ended. Then it commits, once, the state that
      this leads to, with the events of all of them. -/
  succeeds : ∀ {next events}, m.call (.act player .advanceTurn) = .ok (next, events) ↔
    ∃ count last, StepsThrough player m.state.turn m count events last ∧
      next = m.commit last.state events
  /-- It fails as the first moment does that cannot be ended. -/
  fails : ∀ {reason}, m.call (.act player .advanceTurn) = .error reason ↔
    StepFails player m.state.turn m reason
  unchanged : ∀ {reason}, m.call (.act player .advanceTurn) = .error reason →
    m.submit player .advanceTurn = (m, .ignored reason)
  /-- It takes no more than twelve moments. Then the game is over or the next seat begins a turn. -/
  ends : ∀ {count events last}, StepsThrough player m.state.turn m count events last →
    1 ≤ count ∧ count ≤ 12 ∧ last.log = m.log ++ events ∧
      (last.isOver = true ∨ last.state.turn = m.state.turn + 1 ∧
        last.state.moment = ⟨.beginning, some .untap⟩ ∧
        last.state.activePlayer = (m.state.activePlayer + 1) % n ∧
        last.state.priorityPlayer = last.state.activePlayer)

theorem advanceTurn_agrees (regular : m.state.tempo.Regular n) (player : Seat) :
    (∃ count events last, StepsThrough player m.state.turn m count events last ∧
      m.call (.act player .advanceTurn) = .ok (m.commit last.state events, events)) ∨
    ∃ reason, StepFails player m.state.turn m reason ∧
      m.call (.act player .advanceTurn) = .error reason := by
  cases allowed : m.allow player with
  | error reason =>
      have refused (action : Action) : m.call (.act player action) = .error reason :=
        call_act_eq_error.mpr (.inl allowed)
      exact .inr ⟨reason, .here (refused .advanceStep), refused .advanceTurn⟩
  | ok _ =>
      have allows := allow_eq_ok.mp allowed
      have enough : m.state.moment.left ≤ State.maxMoments :=
        Nat.le_trans m.state.moment.left_le (by decide)
      obtain ⟨count, events, last, steps, ends⟩ | ⟨reason, fails, ends⟩ :=
        endMoments_agrees allows regular rfl enough []
      · exact .inl ⟨count, events, last, steps, call_act_eq_ok.mpr ⟨allows, last.state, ends, rfl⟩⟩
      · exact .inr ⟨reason, fails, call_act_eq_error.mpr (.inr ⟨allows, ends⟩)⟩

/-- Along every run from a deal, ending a turn is ending its moments. Once the game is over, neither can
    be done. -/
theorem turn_is_its_moments (config : Config) {generator : Generator} (catalog : Catalog)
    (registry : Registry) (decks : List (List DefinitionId)) (m : Match) (commands : List Command)
    (player : Seat) (started : start config catalog registry decks generator = .ok m) :
    EndsTurn config.playerCount player (m.run commands) := by
  obtain ⟨several, eight, -⟩ := inRound_start started
  have few : config.playerCount ≤ Seat.limit := Nat.le_trans eight (by decide)
  have regular := regular_run started commands
  generalize m.run commands = present at *
  have seats : present.state.playerCount = config.playerCount := regular.seats
  have agrees := advanceTurn_agrees regular player
  refine {
    succeeds := fun {next events} => ⟨fun called => ?steps, ?committed⟩
    fails := fun {reason} => ⟨fun called => ?fails, fun failing => ?failed⟩
    unchanged := fun called => ?unchanged
    ends := fun {count events last} steps => ?ends }
  case steps =>
    obtain ⟨count, events, last, steps, turn⟩ | ⟨reason, -, turn⟩ := agrees
    · cases called.symm.trans turn
      exact ⟨count, last, steps, rfl⟩
    · cases called.symm.trans turn
  case committed =>
    rintro ⟨count, last, steps, rfl⟩
    obtain ⟨_, _, _, steps', turn⟩ | ⟨reason, failing, -⟩ := agrees
    · obtain ⟨rfl, rfl⟩ := steps.unique.1 steps'
      exact turn
    · exact absurd failing (steps.unique.2 reason)
  case fails =>
    obtain ⟨_, _, _, -, turn⟩ | ⟨reason, failing, turn⟩ := agrees
    · cases called.symm.trans turn
    · cases called.symm.trans turn
      exact failing
  case failed =>
    obtain ⟨_, _, _, steps, -⟩ | ⟨reason', failing', turn⟩ := agrees
    · exact absurd failing (steps.unique.2 reason)
    · rwa [failing'.unique failing]
  case unchanged =>
    replace called : present.apply player .advanceTurn = .error _ := called
    rw [submit, called]
  case ends =>
    obtain ⟨count_le, log, ends⟩ := steps.ends regular rfl
    have seat := State.nextSeat_eq (by omega) (seats ▸ few) present.state.activePlayer
    rw [seat, seats] at ends
    refine ⟨?_, Nat.le_trans count_le present.state.moment.left_le, log, ends⟩
    cases steps <;> omega

/-- At the deal the first player ends the turn. -/
theorem turn_is_its_moments_mayflies :
    ∃ m next, mayflies = .ok m ∧ EndsTurn 2 0 (m.run []) ∧
      (m.run []).call (.act 0 .advanceTurn) = .ok (next, []) ∧ next.state.turn = 2 := by
  have played : (do
      let m ← mayflies
      let answer ← (m.run []).call (.act 0 .advanceTurn)
      .ok (answer.2, answer.1.state.turn) : Outcome (List Event × Nat)) = .ok ([], 2) := by
    decide +kernel
  obtain ⟨m, started, played⟩ := Outcome.bind_eq_ok.mp played
  obtain ⟨⟨next, events⟩, called, same⟩ := Outcome.bind_eq_ok.mp played
  obtain ⟨rfl, turn⟩ := Prod.mk.inj (Except.ok.inj same)
  exact ⟨m, next, started, turn_is_its_moments _ _ _ _ m [] 0 started, called, turn⟩

end CardGame.Match
