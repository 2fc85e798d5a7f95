import CardGame.Match.Run
import CardGame.Proofs.Derivation
import CardGame.Proofs.Outcome

/-! # Operations, stage by stage

Every operation of a match runs through one or more stages. In each of them the state is
transformed and settled. Ending a turn is the one operation with several stages; bringing the present
state to rest is a stage whose transformation changes nothing.
-/

namespace CardGame

/-- What happens to the state in a stage before it is settled. -/
inductive Transform where
  | playLand (player : Seat) (card : CardId)
  | cast (player : Seat) (card : CardId) (targets : List CardId)
  | activate (player : Seat) (card : CardId) (ability : AbilityId) (targets : List CardId)
  | pass
  | endMoment (player : Seat)
  | declareAttackers (player : Seat) (attackers : List CardId)
  | declareBlockers (player : Seat) (blocks : List (CardId × CardId))
  | stay

def Transform.run (config : Config) (transform : Transform) (s : State) : Outcome State :=
  match transform with
  | playLand player card => s.playLand player card
  | cast player card targets => s.cast player card targets
  | activate player card ability targets => s.activate player card ability targets
  | pass => do
    let (next, _) ← s.pass
    .ok next
  | endMoment player => s.endMoment config player
  | declareAttackers player attackers => do
    let declared ← s.declareAttackers player attackers
    .ok declared.noteAction
  | declareBlockers player blocks => do
    let declared ← s.declareBlockers player blocks
    .ok declared.noteAction
  | stay => .ok s

namespace State

/-- One or more stages on the way from one state to another, with the deaths published in all of
    them. -/
inductive Stages (config : Config) : State → List Event → State → Prop where
  | last {s t : State} {events : List Event} (transform : Transform)
      (stage : s.perform config (transform.run config) = .ok (t, events)) :
      Stages config s events t
  | next {s t u : State} {events later : List Event} (transform : Transform)
      (stage : s.perform config (transform.run config) = .ok (t, events))
      (rest : Stages config t later u) : Stages config s (events ++ later) u

variable {config : Config} {s t : State} {events : List Event}

theorem stages_of_endMoments {player : Seat} {turn : Nat} {earlier : List Event} {left : Nat}
    (h : endMoments config player turn s earlier left = .ok (t, events)) :
    ∃ later, events = earlier ++ later ∧ Stages config s later t := by
  induction left generalizing s earlier with
  | zero => cases h
  | succ left ih =>
      obtain ⟨⟨next, more⟩, stage, h⟩ := Outcome.bind_eq_ok.mp h
      dsimp only at h
      split at h
      · obtain ⟨later, rfl, rest⟩ := ih h
        exact ⟨more ++ later, List.append_assoc .., .next (.endMoment player) stage rest⟩
      · cases h
        exact ⟨more, rfl, .last (.endMoment player) stage⟩

/-- What the end of each moment does, wherever a property holds that none of them breaks, the end of a
    turn does. All moments but the last are ended in the same turn. -/
theorem endTurn_relates {player : Seat} {P : State → Prop} {R : State → State → Prop}
    (trans : ∀ {s t u : State}, t.turn = s.turn → R s t → R t u → R s u)
    (step : ∀ {s t events}, P s →
      s.perform config (Transform.run config (.endMoment player)) = .ok (t, events) → P t ∧ R s t)
    (h : P s) (ended : s.endTurn config player = .ok (t, events)) : R s t := by
  have moments {turn left : Nat} {s : State} {earlier : List Event} (h : P s) (now : s.turn = turn)
      (ended : endMoments config player turn s earlier left = .ok (t, events)) : R s t := by
    induction left generalizing s earlier with
    | zero => cases ended
    | succ left ih =>
        obtain ⟨⟨next, more⟩, stage, ended⟩ := Outcome.bind_eq_ok.mp ended
        obtain ⟨after, first⟩ := step h stage
        dsimp only at ended
        split at ended
        · rename_i goesOn
          obtain ⟨same, -⟩ : next.turn = turn ∧ next.isOver = false := by simpa using goesOn
          exact trans (same.trans now.symm) first (ih after same ended)
        · cases ended
          exact first
  exact moments h rfl ended

/-- Settling the present state is a stage of its own, since it starts by deriving anyway. -/
theorem perform_stay (s : State) :
    s.perform config (Transform.stay.run config) = settle config.maxEventRounds s s := by
  show settle config.maxEventRounds s s.strip = _
  rw [settle, settle, derive_strip]

end State

/-- What a host can ask of a match besides undoing. -/
inductive Operation where
  | act (player : Seat) (action : Action)
  | declareAttackers (player : Seat) (attackers : List CardId)
  | declareBlockers (player : Seat) (blocks : List (CardId × CardId))
  | checkState

/-- The stage that an operation is. Only the end of a turn has more than one. -/
def Operation.transform? : Operation → Option Transform
  | act player (.playLand card) => some (.playLand player card)
  | act player (.castSpell card targets) => some (.cast player card targets)
  | act player (.activateAbility card ability targets) => some (.activate player card ability targets)
  | act _ .passPriority => some .pass
  | act player .advanceStep => some (.endMoment player)
  | act _ .advanceTurn => none
  | declareAttackers player attackers => some (.declareAttackers player attackers)
  | declareBlockers player blocks => some (.declareBlockers player blocks)
  | checkState => some .stay

namespace Match

def call (m : Match) : Operation → Outcome (Match × List Event)
  | .act player action => m.apply player action
  | .declareAttackers player attackers => m.declareAttackers player attackers
  | .declareBlockers player blocks => m.declareBlockers player blocks
  | .checkState => m.checkState

/-- Whether an action is let through at all: the game goes on, and the player has a seat and
    priority. -/
def allow (m : Match) (player : Seat) : Outcome Unit := do
  Outcome.require (!m.state.isOver) .gameOver
  let _ ← m.state.player player
  m.state.requirePriority player

theorem apply_eq (m : Match) (player : Seat) (action : Action) :
    m.apply player action = (do
      m.allow player
      let (next, events) ← m.state.act m.config player action
      .ok (m.commit next events, events)) := by
  simp only [apply, allow, bind_assoc]

structure Allows (m : Match) (player : Seat) : Prop where
  running : m.isOver = false
  seated : player < m.state.playerCount
  priority : m.state.priorityPlayer = player

theorem allow_eq_ok {m : Match} {player : Seat} {u : Unit} :
    m.allow player = .ok u ↔ m.Allows player := by
  simp only [allow, State.requirePriority, State.player, Outcome.bind_eq_ok, Outcome.require_eq_ok,
    Outcome.find_eq_ok, Bool.not_eq_true', decide_eq_true_eq]
  constructor
  · rintro ⟨-, running, p, seated, priority⟩
    exact ⟨running, (List.getElem?_eq_some_iff.mp seated).1, priority⟩
  · rintro ⟨running, seated, priority⟩
    exact ⟨(), running, _, List.getElem?_eq_getElem seated, priority⟩

theorem call_act_eq_ok {m next : Match} {player : Seat} {action : Action} {events : List Event} :
    m.call (.act player action) = .ok (next, events) ↔
      m.Allows player ∧
        ∃ t, m.state.act m.config player action = .ok (t, events) ∧ next = m.commit t events := by
  simp only [call, apply_eq, Outcome.bind_eq_ok, allow_eq_ok, exists_const]
  refine and_congr_right fun _ => ?_
  constructor
  · rintro ⟨⟨t, events⟩, acted, committed⟩
    cases committed
    exact ⟨t, acted, rfl⟩
  · rintro ⟨t, acted, rfl⟩
    exact ⟨(t, events), acted, rfl⟩

theorem call_act_eq_error {m : Match} {player : Seat} {action : Action} {reason : RuleError} :
    m.call (.act player action) = .error reason ↔
      m.allow player = .error reason ∨
        m.Allows player ∧ m.state.act m.config player action = .error reason := by
  simp only [call, apply_eq, Outcome.bind_eq_error, allow_eq_ok, exists_const]
  refine or_congr_right (and_congr_right fun _ => or_iff_left ?_)
  rintro ⟨result, -, committed⟩
  cases committed

/-- What an operation comes to that succeeds, and whether it is committed. -/
theorem call_cases {m next : Match} {operation : Operation} {events : List Event}
    (h : m.call operation = .ok (next, events)) :
    ((∃ transform, operation.transform? = some transform ∧
        m.state.perform m.config (transform.run m.config) = .ok (next.state, events)) ∨
      ∃ player, operation = .act player .advanceTurn ∧
        m.state.endTurn m.config player = .ok (next.state, events)) ∧
      (next = m.commit next.state events ∨ next = m ∧ events = []) := by
  cases operation with
  | act player action =>
      obtain ⟨-, t, acted, rfl⟩ := call_act_eq_ok.mp h
      refine ⟨?_, .inl rfl⟩
      cases action with
      | advanceTurn => exact .inr ⟨player, rfl, acted⟩
      | _ => exact .inl ⟨_, rfl, acted⟩
  | declareAttackers player attackers =>
      simp only [call, Match.declareAttackers, declare, Outcome.bind_eq_ok] at h
      obtain ⟨-, -, ⟨state, more⟩, stage, h⟩ := h
      cases h
      exact ⟨.inl ⟨_, rfl, stage⟩, .inl rfl⟩
  | declareBlockers player blocks =>
      simp only [call, Match.declareBlockers, declare, Outcome.bind_eq_ok] at h
      obtain ⟨-, -, ⟨state, more⟩, stage, h⟩ := h
      cases h
      exact ⟨.inl ⟨_, rfl, stage⟩, .inl rfl⟩
  | checkState =>
      simp only [call, checkState, Outcome.bind_eq_ok] at h
      obtain ⟨⟨state, more⟩, settled, h⟩ := h
      rw [← State.perform_stay] at settled
      dsimp only at h
      split at h
      · rename_i unchanged
        cases h
        obtain ⟨rfl, rfl⟩ := unchanged
        exact ⟨.inl ⟨_, rfl, settled⟩, .inr ⟨rfl, rfl⟩⟩
      · cases h
        exact ⟨.inl ⟨_, rfl, settled⟩, .inl rfl⟩

/-- An operation that succeeds commits the outcome of its stages, or is one that changed nothing. -/
theorem call_eq_ok {m next : Match} {operation : Operation} {events : List Event}
    (h : m.call operation = .ok (next, events)) :
    State.Stages m.config m.state events next.state ∧
      (next = m.commit next.state events ∨ next = m ∧ events = []) := by
  obtain ⟨⟨transform, -, stage⟩ | ⟨player, -, ended⟩, committed⟩ := call_cases h
  · exact ⟨.last transform stage, committed⟩
  · obtain ⟨later, rfl, stages⟩ := State.stages_of_endMoments ended
    exact ⟨stages, committed⟩

/-- The operation ends a moment in this state: in the present one or, if it ends the turn, in one that it
    comes to in the same turn. -/
inductive EndsMoment (m : Match) : Operation → State → Prop where
  | step (player : Seat) : EndsMoment m (.act player .advanceStep) m.state
  | turn (player : Seat) : EndsMoment m (.act player .advanceTurn) m.state
  | next {player : Seat} {s t : State} {events : List Event}
      (before : EndsMoment m (.act player .advanceTurn) s)
      (stage : s.perform m.config (Transform.run m.config (.endMoment player)) = .ok (t, events))
      (same : t.turn = m.state.turn) (goesOn : t.isOver = false) :
      EndsMoment m (.act player .advanceTurn) t

/-- What each stage keeps that an operation goes through, the operation keeps. -/
theorem call_keeps {P : State → Prop} {m next : Match} {operation : Operation} {events : List Event}
    (keeps : ∀ {s t : State} {events : List Event} (transform : Transform),
      (∀ player, transform = .endMoment player → m.EndsMoment operation s) → P s →
        s.perform m.config (transform.run m.config) = .ok (t, events) → P t)
    (h : P m.state) (called : m.call operation = .ok (next, events)) : P next.state := by
  obtain ⟨⟨transform, one, stage⟩ | ⟨player, rfl, ended⟩, -⟩ := call_cases called
  · refine keeps transform (fun player ends => ?_) h stage
    obtain rfl : operation = .act player .advanceStep := by
      subst ends
      cases operation with
      | act seat action =>
          cases action <;> simp only [Operation.transform?, Option.some.injEq, reduceCtorEq,
            Transform.endMoment.injEq] at one
          rw [one]
      | _ => simp [Operation.transform?] at one
    exact .step player
  · have moments {left : Nat} {s t : State} {earlier later : List Event}
        (ends : m.EndsMoment (.act player .advanceTurn) s) (h : P s)
        (ended : State.endMoments m.config player m.state.turn s earlier left = .ok (t, later)) :
        P t := by
      induction left generalizing s earlier with
      | zero => cases ended
      | succ left ih =>
          obtain ⟨⟨mid, more⟩, stage, ended⟩ := Outcome.bind_eq_ok.mp ended
          have after := keeps (.endMoment player) (fun _ _ => ends) h stage
          dsimp only at ended
          split at ended
          · rename_i goesOn
            obtain ⟨same, running⟩ : mid.turn = m.state.turn ∧ mid.isOver = false := by
              simpa using goesOn
            exact ih (.next ends stage same running) after ended
          · cases ended
            exact after
    exact moments (.turn player) h ended

/-- What an operation makes of the state, before it is known whether that is committed. -/
def operate (m : Match) : Operation → Outcome (State × List Event)
  | .act player action => do
    m.allow player
    m.state.act m.config player action
  | .declareAttackers player attackers => do
    Outcome.require (!m.state.isOver) .gameOver
    m.state.perform m.config ((Transform.declareAttackers player attackers).run m.config)
  | .declareBlockers player blocks => do
    Outcome.require (!m.state.isOver) .gameOver
    m.state.perform m.config ((Transform.declareBlockers player blocks).run m.config)
  | .checkState => State.settle m.config.maxEventRounds m.state m.state

/-- Whether what an operation made of the state is committed. All is but a check that changed
    nothing. -/
def keeps (m : Match) (operation : Operation) (next : State) (events : List Event) : Bool :=
  match operation with
  | .checkState => next ≠ m.state ∨ events ≠ []
  | _ => true

theorem call_eq (m : Match) (operation : Operation) :
    m.call operation = (do
      let (next, events) ← m.operate operation
      .ok (if m.keeps operation next events then m.commit next events else m, events)) := by
  cases operation with
  | act player action => simp only [call, apply_eq, operate, keeps, bind_assoc, if_true]
  | declareAttackers player attackers =>
      simp only [call, Match.declareAttackers, declare, operate, keeps, bind_assoc, if_true]
      rfl
  | declareBlockers player blocks =>
      simp only [call, Match.declareBlockers, declare, operate, keeps, bind_assoc, if_true]
      rfl
  | checkState =>
      simp only [call, checkState, operate, keeps]
      cases State.settle m.config.maxEventRounds m.state m.state with
      | error reason => rfl
      | ok result =>
          by_cases quiet : result.1 = m.state ∧ result.2 = []
          · simp [quiet, Bind.bind, Except.bind]
          · simp [quiet, Bind.bind, Except.bind, ← imp_iff_not_or]

theorem perform_of_call {m next : Match} {operation : Operation} {events : List Event}
    {transform : Transform} (one : operation.transform? = some transform)
    (h : m.call operation = .ok (next, events)) :
    m.state.perform m.config (transform.run m.config) = .ok (next.state, events) := by
  obtain ⟨⟨other, stage, performed⟩ | ⟨player, rfl, -⟩, -⟩ := call_cases h
  · cases one.symm.trans stage
    exact performed
  · cases one

end Match

end CardGame
