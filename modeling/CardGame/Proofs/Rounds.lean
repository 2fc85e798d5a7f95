import CardGame.Proofs.Passing
import CardGame.Proofs.Run
import Mathlib.Data.List.DropRight
import Mathlib.Data.Nat.ModEq

/-! # Rounds of passes

Players pass in turn. A round is complete once each of them has passed, and until then whoever acts
begins it anew. The count of passes in a state is that of the passes in the open round, however
operations follow each other, and whoever may act is the one whose turn it is to pass next.
-/

namespace CardGame

namespace State

/-- Whose turn it is and who may act are players of the game. -/
structure Seated (s : State) : Prop where
  active : s.activePlayer < s.playerCount
  priority : s.priorityPlayer < s.playerCount

/-- The same players go on, and none of them has passed yet. -/
structure Restarts (s t : State) : Prop where
  players : t.playerCount = s.playerCount
  passes : t.passes = 0
  seated : s.Seated → t.Seated

variable {s t u : State}

theorem nextSeat_lt (seated : 0 < s.playerCount) (seat : Seat) : s.nextSeat seat < s.playerCount := by
  calc
    s.nextSeat seat ≤ (seat + 1) % max s.playerCount 1 := Nat.mod_le _ _
    _ < max s.playerCount 1 := Nat.mod_lt _ (Nat.lt_of_lt_of_le Nat.one_pos (Nat.le_max_right _ _))
    _ = s.playerCount := Nat.max_eq_left seated

theorem nextSeat_eq (seated : 0 < s.playerCount) (few : s.playerCount ≤ Seat.limit) (seat : Seat) :
    s.nextSeat seat = (seat + 1) % s.playerCount := by
  show (seat + 1) % max s.playerCount 1 % Seat.limit = (seat + 1) % s.playerCount
  rw [Nat.max_eq_left seated]
  exact Nat.mod_eq_of_lt (Nat.lt_of_lt_of_le (Nat.mod_lt _ seated) few)

theorem Seated.of_tempo (h : s.Seated) (same : t.tempo = s.tempo) : t.Seated where
  active := by
    rw [activePlayer_of_tempo same, playerCount_of_tempo same]
    exact h.active
  priority := by
    rw [priorityPlayer_of_tempo same, playerCount_of_tempo same]
    exact h.priority

namespace Restarts

theorem trans (first : s.Restarts t) (rest : t.Restarts u) : s.Restarts u :=
  ⟨rest.players.trans first.players, rest.passes, rest.seated ∘ first.seated⟩

theorem of_tempo (h : s.Restarts t) (same : u.tempo = t.tempo) : s.Restarts u where
  players := (playerCount_of_tempo same).trans h.players
  passes := (passes_of_tempo same).trans h.passes
  seated seated := (h.seated seated).of_tempo same

/-- To note that somebody acted restarts the count, whatever it is about. -/
theorem of_act {combat : Option Combat}
    (h : t.tempo = { s.tempo with passes := 0, combat := combat }) : s.Restarts t :=
  of_tempo (t := { s with passes := 0, combat := combat })
    ⟨rfl, rfl, fun seated => ⟨seated.active, seated.priority⟩⟩ h

theorem of_declare {combat : Option Combat} (h : t.tempo = { s.tempo with combat := combat }) :
    s.Restarts t.noteAction := by
  have acted : t.noteAction.tempo = { s.tempo with passes := 0, combat := combat } := by
    change { t.tempo with passes := 0 } = _
    rw [h]
  exact of_act acted

end Restarts

theorem advance_activePlayer (s : State) :
    s.advance.playerCount = s.playerCount ∧
      (s.advance.activePlayer = s.activePlayer ∨
        s.advance.activePlayer = s.nextSeat s.activePlayer) := by
  unfold advance
  split
  · exact ⟨rfl, .inl rfl⟩
  · split
    · exact ⟨rfl, .inr rfl⟩
    · exact ⟨rfl, .inl rfl⟩

theorem restarts_endMoment {config : Config} {player : Seat}
    (h : s.endMoment config player = .ok t) : s.Restarts t := by
  obtain ⟨players, active⟩ := s.advance_activePlayer
  have tempo := tempo_endMoment h
  have players : t.playerCount = s.playerCount := (congrArg Tempo.seats tempo).trans players
  have activeAfter : t.activePlayer = s.advance.activePlayer := congrArg Tempo.activePlayer tempo
  have priority : t.priorityPlayer = s.advance.activePlayer := congrArg Tempo.priorityPlayer tempo
  refine ⟨players, congrArg Tempo.passes tempo, fun seated => ?_⟩
  have bound : s.advance.activePlayer < t.playerCount := by
    rw [players]
    rcases active with same | next
    · exact same ▸ seated.active
    · exact next ▸ nextSeat_lt (Nat.zero_lt_of_lt seated.active) _
  exact ⟨activeAfter ▸ bound, priority ▸ bound⟩

end State

/-- Does the transformation come from somebody who acts? -/
def Transform.acts : Transform → Bool
  | pass | stay => false
  | _ => true

theorem Transform.restarts {config : Config} {transform : Transform} (acts : transform.acts = true)
    {s t : State} (run : transform.run config s = .ok t) : s.Restarts t := by
  cases transform with
  | playLand player card => exact .of_act (State.tempo_playLand run)
  | cast player card targets => exact .of_act (State.tempo_cast run)
  | activate player card ability targets => exact .of_act (State.tempo_activate run)
  | endMoment player => exact State.restarts_endMoment run
  | declareAttackers player attackers =>
      obtain ⟨next, declared, run⟩ := Outcome.bind_eq_ok.mp run
      cases run
      exact .of_declare (State.tempo_declareAttackers declared)
  | declareBlockers player blocks =>
      obtain ⟨next, declared, run⟩ := Outcome.bind_eq_ok.mp run
      cases run
      exact .of_declare (State.tempo_declareBlockers declared)
  | pass | stay => cases acts

namespace State

variable {config : Config} {s t : State} {events : List Event}

theorem Restarts.perform (transform : Transform) (acts : transform.acts = true)
    (h : s.perform config (transform.run config) = .ok (t, events)) : s.Restarts t := by
  obtain ⟨after, run, settled⟩ := Outcome.bind_eq_ok.mp h
  have stripped : s.strip.Restarts t := (transform.restarts acts run).of_tempo (tempo_settle settled)
  exact ⟨stripped.players, stripped.passes, fun seated => stripped.seated ⟨seated.1, seated.2⟩⟩

theorem restarts_endTurn {player : Seat} (h : s.endTurn config player = .ok (t, events)) :
    s.Restarts t := by
  refine endTurn_relates (P := fun _ => True) (fun _ => Restarts.trans) (fun _ stage => ?_) trivial h
  exact ⟨trivial, .perform (.endMoment player) rfl stage⟩

theorem restarts_act {player : Seat} {action : Action} (noPass : action ≠ .passPriority)
    (h : s.act config player action = .ok (t, events)) : s.Restarts t := by
  cases action with
  | playLand card => exact .perform (.playLand player card) rfl h
  | castSpell card targets => exact .perform (.cast player card targets) rfl h
  | activateAbility card ability targets =>
      exact .perform (.activate player card ability targets) rfl h
  | passPriority => exact absurd rfl noPass
  | advanceStep => exact .perform (.endMoment player) rfl h
  | advanceTurn => exact restarts_endTurn h

end State

/-- What a successful operation is to the rounds of passes. -/
inductive Deed where
  /-- A pass after which others are missing. -/
  | passed (player : Seat)
  /-- A pass that completes a round. -/
  | completed (player : Seat)
  /-- Any other action, or a declaration. -/
  | acted
  /-- The present state was brought to rest. -/
  | checked
  deriving DecidableEq, Repr

namespace Deed

/-- Are passes counted anew after it? -/
def restarts : Deed → Bool
  | completed _ | acted => true
  | passed _ | checked => false

def passer? : Deed → Option Seat
  | passed player | completed player => some player
  | acted | checked => none

end Deed

/-- Those who have passed since passes were last counted anew. -/
def openRound (deeds : List Deed) : List Seat :=
  (deeds.rtakeWhile fun deed => !deed.restarts).filterMap Deed.passer?

theorem openRound_restart (deeds : List Deed) {deed : Deed} (restarts : deed.restarts = true) :
    openRound (deeds ++ [deed]) = [] := by
  simp [openRound, restarts]

theorem openRound_continue (deeds : List Deed) {deed : Deed} (continues : deed.restarts = false) :
    openRound (deeds ++ [deed]) = openRound deeds ++ deed.passer?.toList := by
  cases passer : deed.passer? <;> simp [openRound, continues, passer]

namespace Match

/-- Does a pass now complete a round? Then the top of the stack resolves, or nothing is left to. -/
def completesRound (m : Match) : Bool :=
  match m.state.strip.pass with
  | .ok (_, .passed) => false
  | .ok _ => true
  | .error _ => false

/-- What an operation does if it succeeds. -/
def deed (m : Match) : Operation → Deed
  | .act player .passPriority => if m.completesRound then .completed player else .passed player
  | .act .. | .declareAttackers .. | .declareBlockers .. => .acted
  | .checkState => .checked

/-- What was done by operations in turn, those that fail left out. -/
def deeds (m : Match) : List Operation → List Deed
  | [] => []
  | operation :: rest =>
    match m.call operation with
    | .ok (next, _) => m.deed operation :: next.deeds rest
    | .error _ => m.deeds rest

/-- What holds at first, and after each operation that succeeds, of what was done and of the match that
    it led to, holds after any operations. -/
theorem run_deeds {P : List Deed → Match → Prop}
    (step : ∀ {past m operation next events}, P past m → m.call operation = .ok (next, events) →
      P (past ++ [m.deed operation]) next)
    {past : List Deed} {m : Match} (h : P past m) (operations : List Operation) :
    P (past ++ m.deeds operations) (m.run (operations.map .call)) := by
  induction operations generalizing past m with
  | nil => simpa [deeds, run] using h
  | cons operation rest ih =>
      rw [deeds, List.map_cons, run_cons, Match.step]
      cases called : m.call operation with
      | error reason => simpa [called] using ih h
      | ok result => simpa [called] using ih (step h called)

end Match

/-- So many of `n` seats in turn order, from a first one on. -/
def seatsFrom (n first count : Nat) : List Seat := (List.range count).map fun i => (first + i) % n

theorem seatsFrom_succ (n first count : Nat) :
    seatsFrom n first (count + 1) = seatsFrom n first count ++ [(first + count) % n] := by
  simp [seatsFrom, List.range_succ]

/-- Up to once around the table no seat comes twice. -/
theorem nodup_seatsFrom {n count : Nat} (first : Nat) (around : count ≤ n) :
    (seatsFrom n first count).Nodup := by
  refine List.Nodup.map_on (fun i hi j hj same => ?_) List.nodup_range
  have same : i ≡ j [MOD n] := Nat.ModEq.add_left_cancel' first same
  exact same.eq_of_lt_of_lt (Nat.lt_of_lt_of_le (List.mem_range.mp hi) around)
    (Nat.lt_of_lt_of_le (List.mem_range.mp hj) around)

open State

/-- The players of an unfinished round have passed in turn order, and the next in order may act. -/
structure InRound (n : Nat) (round : List Seat) (s : State) : Prop where
  players : s.playerCount = n
  active : s.activePlayer < n
  passes : s.passes = round.length
  unfinished : round.length < n
  order : ∃ first, round = seatsFrom n first round.length ∧
    s.priorityPlayer = (first + round.length) % n

namespace InRound

variable {n : Nat} {round : List Seat} {s t : State}

theorem seated (h : InRound n round s) : s.Seated where
  active := h.players.symm ▸ h.active
  priority := by
    obtain ⟨first, -, priority⟩ := h.order
    rw [priority, h.players]
    exact Nat.mod_lt _ (Nat.zero_lt_of_lt h.unfinished)

theorem start (players : s.playerCount = n) (seated : s.Seated) (passes : s.passes = 0) :
    InRound n [] s where
  players := players
  active := players ▸ seated.active
  passes := passes
  unfinished := players ▸ Nat.zero_lt_of_lt seated.active
  order := ⟨s.priorityPlayer, rfl, (Nat.mod_eq_of_lt (players ▸ seated.priority)).symm⟩

theorem restart (h : InRound n round s) (restarts : s.Restarts t) : InRound n [] t :=
  .start (restarts.players.trans h.players) (restarts.seated h.seated) restarts.passes

theorem of_tempo (h : InRound n round s) (same : t.tempo = s.tempo) : InRound n round t where
  players := (playerCount_of_tempo same).trans h.players
  active := by
    rw [activePlayer_of_tempo same]
    exact h.active
  passes := (passes_of_tempo same).trans h.passes
  unfinished := h.unfinished
  order := by
    rw [priorityPlayer_of_tempo same]
    exact h.order

/-- The round with the player who may act in it is in turn order as well. -/
theorem snoc (h : InRound n round s) :
    ∃ first, round ++ [s.priorityPlayer] = seatsFrom n first (round.length + 1) := by
  obtain ⟨first, seats, priority⟩ := h.order
  exact ⟨first, by rw [seatsFrom_succ, ← seats, priority]⟩

end InRound

namespace Match

/-- A deal leaves the tempo as it is on the empty table. -/
theorem tempo_start {config : Config} {generator : Generator} {catalog : Catalog}
    {registry : Registry} {decks : List (List DefinitionId)} {m : Match}
    (h : start config catalog registry decks generator = .ok m) :
    m.state.tempo = (State.initial config.playerCount config.startingLife).tempo := by
  let first := State.initial config.playerCount config.startingLife
  refine (start_induction h (P := fun s => s.tempo = first.tempo) rfl (fun _ _ created same => ?_)
    (fun _ drawn same => (alike_drawMany drawn).tempo.trans same)
    fun _ same => (tempo_derive _).trans same).2
  obtain ⟨abilities, n, rfl, -⟩ := create_eq_ok created
  exact same

/-- A deal is for two to eight players, and begins with the first seat and no passes. -/
theorem inRound_start {config : Config} {generator : Generator} {catalog : Catalog}
    {registry : Registry} {decks : List (List DefinitionId)} {m : Match}
    (h : start config catalog registry decks generator = .ok m) :
    2 ≤ config.playerCount ∧ config.playerCount ≤ 8 ∧ InRound config.playerCount [] m.state := by
  have tempo := tempo_start h
  obtain ⟨_, checked, -⟩ := Outcome.bind_eq_ok.mp h
  have seats := (checkSeats_eq_ok.mp checked).1
  refine ⟨seats.1, seats.2, ?_⟩
  have players : (State.initial config.playerCount config.startingLife).playerCount =
      config.playerCount := by simp [State.initial, State.playerCount]
  have positive : 0 < (State.initial config.playerCount config.startingLife).playerCount := by
    omega
  have initial : InRound config.playerCount []
      (State.initial config.playerCount config.startingLife) :=
    .start players ⟨positive, positive⟩ rfl
  exact initial.of_tempo tempo

theorem completesRound_of_pass {m : Match} {after : State} {outcome : PassOutcome}
    (passed : m.state.strip.pass = .ok (after, outcome)) :
    m.completesRound = true ↔ outcome ≠ .passed := by
  rw [completesRound, passed]
  cases outcome <;> simp

end Match

namespace InRound

variable {n : Nat} {round : List Seat} {s : State} {m next : Match} {events : List Event}

theorem nextSeat (h : InRound n round s) (few : n ≤ Seat.limit) (seat : Seat) :
    s.nextSeat seat = (seat + 1) % n := by
  rw [State.nextSeat_eq (Nat.zero_lt_of_lt h.seated.active) (h.players ▸ few), h.players]

/-- With one more pass the round is that of one more player, if others are missing still. -/
theorem passOn (h : InRound n round s) (few : n ≤ Seat.limit) (missing : round.length + 1 < n) :
    InRound n (round ++ [s.priorityPlayer])
      (s.withPriority (s.nextSeat s.priorityPlayer) (s.passes + 1)) where
  players := h.players
  active := h.active
  passes := by
    rw [List.length_append, ← h.passes]
    rfl
  unfinished := by rwa [List.length_append]
  order := by
    obtain ⟨first, seats, priority⟩ := h.order
    refine ⟨first, ?_, ?_⟩
    · rw [List.length_append, List.length_singleton, seatsFrom_succ, ← seats, priority]
    · show s.nextSeat s.priorityPlayer = _
      rw [h.nextSeat few, priority, List.length_append, Nat.mod_add_mod, Nat.add_assoc]
      rfl

/-- A pass completes the round if everybody else has passed, and then the active player may act; else
    the next player may. -/
theorem pass (h : InRound n round m.state) (few : n ≤ Seat.limit) {player : Seat}
    (called : m.call (.act player .passPriority) = .ok (next, events)) :
    (m.completesRound = true ↔ round.length + 1 = n) ∧
      InRound n (if m.completesRound then [] else round ++ [player]) next.state ∧
      (m.completesRound = true → next.state.priorityPlayer = next.state.activePlayer) := by
  obtain ⟨rfl, -, after, outcome, passed, settled⟩ := Match.pass_eq_ok called
  obtain ⟨early, tempo⟩ := tempo_pass passed
  replace early : outcome = .passed ↔ m.state.passes + 1 < m.state.playerCount := early
  rw [h.passes, h.players] at early
  rw [← tempo_settle settled] at tempo
  have completes := Match.completesRound_of_pass passed
  have unfinished := h.unfinished
  by_cases others : outcome = .passed
  · have missing := early.mp others
    have goesOn : m.completesRound = false := by simpa [others] using completes
    rw [if_pos others] at tempo
    refine ⟨?_, ?_, ?_⟩
    · simpa [goesOn] using Nat.ne_of_lt missing
    · simpa [goesOn] using (h.passOn few missing).of_tempo tempo
    · simp [goesOn]
  · have last : round.length + 1 = n := by
      have := mt early.mpr others
      omega
    have finished : m.completesRound = true := completes.mpr others
    rw [if_neg others] at tempo
    refine ⟨iff_of_true finished last, ?_, fun _ => ?_⟩
    · have restarted : InRound n [] (m.state.withPriority m.state.activePlayer 0) :=
        .start h.players ⟨h.seated.active, h.seated.active⟩ rfl
      simpa [finished] using restarted.of_tempo tempo
    · rw [priorityPlayer_of_tempo (s := m.state.withPriority m.state.activePlayer 0) tempo,
        activePlayer_of_tempo (s := m.state.withPriority m.state.activePlayer 0) tempo]
      rfl

end InRound

namespace Match

variable {m next : Match} {operation : Operation} {events : List Event} {n : Nat}

theorem restarts_of_acted (acted : m.deed operation = .acted)
    (called : m.call operation = .ok (next, events)) : m.state.Restarts next.state := by
  cases operation with
  | act player action =>
      have noPass : action ≠ .passPriority := by
        rintro rfl
        rw [deed] at acted
        split at acted <;> cases acted
      simp only [call, apply, Outcome.bind_eq_ok] at called
      obtain ⟨_, -, _, -, _, -, ⟨state, more⟩, performed, committed⟩ := called
      cases committed
      exact State.restarts_act noPass performed
  | declareAttackers player attackers =>
      simp only [call, Match.declareAttackers, declare, Outcome.bind_eq_ok] at called
      obtain ⟨_, -, ⟨state, more⟩, performed, committed⟩ := called
      cases committed
      exact .perform (.declareAttackers player attackers) rfl performed
  | declareBlockers player blocks =>
      simp only [call, Match.declareBlockers, declare, Outcome.bind_eq_ok] at called
      obtain ⟨_, -, ⟨state, more⟩, performed, committed⟩ := called
      cases committed
      exact .perform (.declareBlockers player blocks) rfl performed
  | checkState => cases acted

theorem tempo_of_checked (called : m.call .checkState = .ok (next, events)) :
    next.state.tempo = m.state.tempo := by
  simp only [call, checkState, Outcome.bind_eq_ok] at called
  obtain ⟨⟨state, more⟩, settled, committed⟩ := called
  dsimp only at committed
  split at committed
  · cases committed
    rfl
  · cases committed
    exact State.tempo_settle settled

theorem deed_cases (m : Match) (operation : Operation) :
    (∃ player, operation = .act player .passPriority ∧
      m.deed operation = if m.completesRound then .completed player else .passed player) ∨
    (operation = .checkState ∧ m.deed operation = .checked) ∨ m.deed operation = .acted := by
  cases operation with
  | act player action =>
      cases action with
      | passPriority => exact .inl ⟨player, rfl, rfl⟩
      | _ => exact .inr (.inr rfl)
  | checkState => exact .inr (.inl ⟨rfl, rfl⟩)
  | _ => exact .inr (.inr rfl)

/-- Every operation leads from round to round as its deed says. -/
theorem inRound_call {past : List Deed} (h : InRound n (openRound past) m.state)
    (few : n ≤ Seat.limit) (called : m.call operation = .ok (next, events)) :
    InRound n (openRound (past ++ [m.deed operation])) next.state := by
  obtain ⟨player, rfl, done⟩ | ⟨rfl, done⟩ | done := m.deed_cases operation
  · obtain ⟨-, after, -⟩ := h.pass few called
    rw [done]
    split
    · rename_i complete
      rw [openRound_restart past rfl]
      rwa [if_pos complete] at after
    · rename_i goesOn
      rw [openRound_continue past rfl]
      rwa [if_neg goesOn] at after
  · rw [done, openRound_continue past rfl]
    simpa [Deed.passer?] using h.of_tempo (tempo_of_checked called)
  · rw [done, openRound_restart past rfl]
    exact h.restart (restarts_of_acted done called)

section Pass

variable {player : Seat} (called : m.call (.act player .passPriority) = .ok (next, events))
include called

theorem resolves_of_completes (complete : m.completesRound = true) {top : CardId}
    (isTop : m.state.stack.getLast? = some top) :
    ∃ after, m.state.strip.pass = .ok (after, .resolved top) ∧
      State.settle m.config.maxEventRounds m.state after = .ok (next.state, events) := by
  obtain ⟨-, -, after, outcome, passed, settled⟩ := pass_eq_ok called
  rw [← State.stack_congr (State.layout_strip m.state)] at isTop
  obtain ⟨rfl, -⟩ | ⟨-, -, empty, -⟩ | ⟨other, -, rfl, -, isOther, -⟩ := State.pass_cases passed
  · exact absurd rfl ((completesRound_of_pass passed).mp complete)
  · rw [empty] at isTop
    cases isTop
  · rw [isTop] at isOther
    cases isOther
    exact ⟨after, passed, settled⟩

theorem stack_of_pass (orderly : m.state.Orderly) :
    next.state.stack = if m.completesRound then m.state.stack.dropLast else m.state.stack := by
  obtain ⟨-, -, after, outcome, passed, settled⟩ := pass_eq_ok called
  have layout := State.layout_strip m.state
  have orderly : m.state.strip.Orderly := orderly.congr layout
  obtain ⟨trace, course, -⟩ := State.leads_pass orderly orderly.keyed (State.Within.refl _) passed
  rw [State.stack_settle (course.orderly orderly) settled, State.stack_pass orderly passed,
    State.stack_congr layout]
  have finishes := completesRound_of_pass passed
  by_cases complete : m.completesRound = true
  · rw [if_pos complete, if_neg (finishes.mp complete)]
  · rw [if_neg complete, if_pos (by simpa using mt finishes.mpr complete)]

theorem idle_of_completes (atRest : m.state.Settled) (keyed : m.state.Keyed)
    (complete : m.completesRound = true) (empty : m.state.stack = []) :
    next.state = m.state.giveActivePriority ∧ events = [] := by
  obtain ⟨-, -, after, outcome, passed, settled⟩ := pass_eq_ok called
  rw [← State.stack_congr (State.layout_strip m.state)] at empty
  obtain ⟨rfl, -⟩ | ⟨-, -, -, rfl⟩ | ⟨top, -, -, -, isTop, -⟩ := State.pass_cases passed
  · exact absurd rfl ((completesRound_of_pass passed).mp complete)
  · have quiet := atRest.settle_withPriority keyed m.state.activePlayer 0
      (State.settleRounds_settled settled).2
    exact Prod.mk.inj (Except.ok.inj (settled.symm.trans quiet))
  · rw [empty] at isTop
    cases isTop

end Pass

/-- What a pass comes to in a game of `n` players, once those of a round have passed. -/
structure Passes (n : Nat) (round : List Seat) (player : Seat) (m next : Match)
    (events : List Event) : Prop where
  /-- It completes the round if and only if all the others have passed. -/
  completes : m.completesRound = true ↔ round.length + 1 = n
  /-- Then all players have passed, each once and in turn order. -/
  inTurn : m.completesRound = true →
    (round ++ [player]).Nodup ∧ ∃ first, round ++ [player] = seatsFrom n first n
  /-- The top of the stack resolves. -/
  resolves : m.completesRound = true → ∀ {top}, m.state.stack.getLast? = some top →
    ∃ after, m.state.strip.pass = .ok (after, .resolved top) ∧
      State.settle m.config.maxEventRounds m.state after = .ok (next.state, events)
  /-- It leaves the stack. Otherwise the stack stays as it is. -/
  stack : next.state.stack = if m.completesRound then m.state.stack.dropLast else m.state.stack
  /-- With nothing on the stack nothing else happens. -/
  idle : m.completesRound = true → m.state.stack = [] →
    next.state = m.state.giveActivePriority ∧ events = []
  /-- The active player may act, and no pass is counted. -/
  reopens : m.completesRound = true →
    next.state.priorityPlayer = next.state.activePlayer ∧ next.state.passes = 0

theorem passes_of_inRound {round : List Seat} (h : InRound n round m.state) (few : n ≤ Seat.limit)
    (several : 2 ≤ n) (orderly : m.state.Orderly) (settled : round ≠ [] → m.state.Settled)
    {player : Seat} (called : m.call (.act player .passPriority) = .ok (next, events)) :
    Passes n round player m next events := by
  obtain ⟨completes, inRound, active⟩ := h.pass few called
  refine {
    completes := completes
    inTurn := fun complete => ?inTurn
    resolves := fun complete _ => resolves_of_completes called complete
    stack := stack_of_pass called orderly
    idle := fun complete => idle_of_completes called (settled ?somebody) orderly.keyed complete
    reopens := fun complete => ⟨active complete, ?uncounted⟩ }
  case inTurn =>
    obtain ⟨first, seats⟩ := h.snoc
    rw [(pass_eq_ok called).1, completes.mp complete] at seats
    exact ⟨seats ▸ nodup_seatsFrom first le_rfl, first, seats⟩
  case somebody =>
    have last := completes.mp complete
    rintro rfl
    rw [List.length_nil] at last
    omega
  case uncounted =>
    rw [if_pos complete] at inRound
    exact inRound.passes

/-- Along every run from a deal that undoes nothing, the count of passes is that of the players in the
    open round, who have passed in turn order, and the pass of the last one that is missing completes
    the round. -/
theorem passes_in_rounds (config : Config) {generator : Generator} (catalog : Catalog)
    (registry : Registry) (decks : List (List DefinitionId)) (m : Match)
    (operations : List Operation)
    (started : start config catalog registry decks generator = .ok m) :
    InRound config.playerCount (openRound (m.deeds operations)) (m.run (operations.map .call)).state ∧
      ∀ player next events,
        (m.run (operations.map .call)).call (.act player .passPriority) = .ok (next, events) →
          Passes config.playerCount (openRound (m.deeds operations)) player
            (m.run (operations.map .call)) next events := by
  obtain ⟨several, eight, first⟩ := inRound_start started
  have few : config.playerCount ≤ Seat.limit := Nat.le_trans eight (by decide)
  have first : InRound config.playerCount (openRound []) m.state := first
  have orderly := ((kept_start started).run (operations.map .call)).present.orderly
  obtain ⟨inRound, settled⟩ : InRound config.playerCount (openRound ([] ++ m.deeds operations))
      (m.run (operations.map .call)).state ∧
        ([] ++ m.deeds operations ≠ [] → (m.run (operations.map .call)).state.Settled) := by
    refine run_deeds (P := fun past m => InRound config.playerCount (openRound past) m.state ∧
      (past ≠ [] → m.state.Settled)) (fun h called => ?_) ⟨first, nofun⟩ operations
    exact ⟨inRound_call h.1 few called, fun _ => (call_eq_ok called).1.settled.1⟩
  rw [List.nil_append] at inRound settled
  refine ⟨inRound, fun player next events called => ?_⟩
  refine passes_of_inRound inRound few several orderly (fun somebody => settled fun none => ?_) called
  rw [none] at somebody
  exact somebody rfl

/-- Both players of a match pass with nothing on the stack. -/
theorem passes_in_rounds_mayflies :
    ∃ m next, mayflies = .ok m ∧
      InRound 2 [0] (m.run ([.act 0 .passPriority].map .call)).state ∧
      (m.run ([.act 0 .passPriority].map .call)).call (.act 1 .passPriority) = .ok (next, []) ∧
      Passes 2 [0] 1 (m.run ([.act 0 .passPriority].map .call)) next [] := by
  have played : (do
      let m ← mayflies
      let (_, events) ← (m.run ([.act 0 .passPriority].map .call)).call (.act 1 .passPriority)
      .ok (events, openRound (m.deeds [.act 0 .passPriority])) : Outcome (List Event × List Seat)) =
      .ok ([], [0]) := by decide +kernel
  obtain ⟨m, started, played⟩ := Outcome.bind_eq_ok.mp played
  obtain ⟨⟨next, events⟩, called, same⟩ := Outcome.bind_eq_ok.mp played
  obtain ⟨rfl, round⟩ := Prod.mk.inj (Except.ok.inj same)
  obtain ⟨inRound, passes⟩ := passes_in_rounds _ _ _ _ m [.act 0 .passPriority] started
  rw [round] at inRound passes
  exact ⟨m, next, started, inRound, called, passes 1 next [] called⟩

end Match

end CardGame
