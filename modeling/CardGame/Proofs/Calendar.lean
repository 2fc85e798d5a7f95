import CardGame.Proofs.Declarations
import CardGame.Proofs.Run
import CardGame.Proofs.Rounds

/-! # The calendar of a game

A turn goes through its moments in order, and after the last of them the next seat begins a turn. Only
ending a moment moves it on, and only the active player ends one, with nothing on the stack.
-/

namespace CardGame

namespace Moment

/-- How many moments the turn has from this one on. -/
def left (m : Moment) : Nat := sequence.length - m.position?.getD 0

theorem left_le (m : Moment) : m.left ≤ 12 := Nat.sub_le _ _

/-- A moment of a turn is followed by one that has one less to come, or it is the last. -/
theorem next?_cases {m : Moment} (ordered : m ∈ sequence) :
    (∃ next ∈ sequence, m.next? = some next ∧ next.left + 1 = m.left) ∨
      m.next? = none ∧ m.position?.isSome ∧ m.left = 1 := by
  revert m
  decide

theorem left_pos {m : Moment} (ordered : m ∈ sequence) : 0 < m.left := by
  obtain ⟨next, -, -, less⟩ | ⟨-, -, last⟩ := next?_cases ordered <;> omega

end Moment

/-- Whose turn it is, and where it stands. -/
structure Date where
  turn : Nat
  moment : Moment
  activePlayer : Seat

def Tempo.date (tempo : Tempo) : Date := ⟨tempo.turn, tempo.moment, tempo.activePlayer⟩

/-- In a game of `n` players the turn stands at one of its moments, and whoever it is about has a
    seat. -/
structure Tempo.Regular (n : Nat) (tempo : Tempo) : Prop where
  seats : tempo.seats = n
  active : tempo.activePlayer < n
  priority : tempo.priorityPlayer < n
  moment : tempo.moment ∈ Moment.sequence
  defending : ∀ combat, tempo.combat = some combat → combat.defendingPlayer < n

namespace State

variable {config : Config} {s t : State} {events : List Event} {n : Nat}

def date (s : State) : Date := s.tempo.date

theorem date_of_tempo {tempo : Tempo} (same : t.tempo = tempo) : t.date = tempo.date :=
  congrArg Tempo.date same

theorem seated_of_regular (h : s.tempo.Regular n) : s.Seated where
  active := Nat.lt_of_lt_of_eq h.active h.seats.symm
  priority := Nat.lt_of_lt_of_eq h.priority h.seats.symm

/-- From a moment of the turn the game goes on to the next one, and from the last to the next turn. -/
theorem advance_cases (ordered : s.moment ∈ Moment.sequence) :
    (∃ next ∈ Moment.sequence, s.advance = { s with moment := next } ∧
      next.left + 1 = s.moment.left) ∨
      s.advance = s.nextTurn ∧ s.moment.left = 1 := by
  obtain ⟨next, member, found, less⟩ | ⟨none, known, last⟩ := Moment.next?_cases ordered
  · exact .inl ⟨next, member, by rw [advance, found], less⟩
  · exact .inr ⟨by rw [advance, none, if_pos known], last⟩

theorem endMoment_eq_ok {player : Seat} :
    s.endMoment config player = .ok t ↔
      player = s.activePlayer ∧ s.stack = [] ∧
        ∃ begun, s.advance.beginMoment config = .ok begun ∧ t = begun.giveActivePriority := by
  simp only [endMoment, Outcome.bind_eq_ok, Outcome.require_eq_ok, decide_eq_true_eq, stackIsEmpty,
    List.isEmpty_iff, Except.ok.injEq, eq_comm (a := t), exists_and_left, exists_const]

theorem date_endMoment {player : Seat} (h : s.endMoment config player = .ok t) :
    t.date = s.advance.date :=
  (date_of_tempo (tempo_endMoment h)).trans rfl

theorem regular_advance (h : s.tempo.Regular n) : s.advance.tempo.Regular n := by
  have seated := seated_of_regular h
  have next := nextSeat_lt (Nat.zero_lt_of_lt seated.active) s.activePlayer
  obtain ⟨moment, member, same, -⟩ | ⟨same, -⟩ := advance_cases h.moment
  · rw [same]
    exact ⟨h.seats, h.active, h.priority, member, h.defending⟩
  · rw [same]
    exact ⟨h.seats, h.seats ▸ next, h.seats ▸ next, List.mem_cons_self, h.defending⟩

theorem regular_endMoment {player : Seat} (h : s.tempo.Regular n)
    (ended : s.endMoment config player = .ok t) : t.tempo.Regular n := by
  have advanced := regular_advance h
  rw [tempo_endMoment ended]
  refine ⟨advanced.seats, advanced.active, advanced.active, advanced.moment, fun combat declared => ?_⟩
  dsimp only at declared
  split at declared
  · cases declared
  · exact advanced.defending combat declared

theorem regular_pass {outcome : PassOutcome} (h : s.tempo.Regular n)
    (passed : s.pass = .ok (t, outcome)) : t.tempo.Regular n := by
  have seated := seated_of_regular h
  have next := nextSeat_lt (Nat.zero_lt_of_lt seated.active) s.priorityPlayer
  rw [(tempo_pass passed).2]
  split
  · exact ⟨h.seats, h.active, h.seats ▸ next, h.moment, h.defending⟩
  · exact ⟨h.seats, h.active, h.active, h.moment, h.defending⟩

theorem regular_declareAttackers {player : Seat} {attackers : List CardId} (h : s.tempo.Regular n)
    (declared : s.declareAttackers player attackers = .ok t) : t.tempo.Regular n := by
  rw [tempo_declareAttackers declared]
  refine ⟨h.seats, h.active, h.priority, h.moment, fun combat found => ?_⟩
  obtain ⟨-, -, -, -, -, rfl⟩ := declareAttackers_eq_ok.mp declared
  cases found
  rw [← h.seats]
  exact nextSeat_lt (Nat.zero_lt_of_lt (seated_of_regular h).active) player

theorem regular_declareBlockers {player : Seat} {blocks : List (CardId × CardId)}
    (h : s.tempo.Regular n) (declared : s.declareBlockers player blocks = .ok t) :
    t.tempo.Regular n := by
  rw [tempo_declareBlockers declared]
  refine ⟨h.seats, h.active, h.priority, h.moment, fun combat found => ?_⟩
  obtain ⟨-, before, after, opened, -, added, rfl⟩ := declareBlockers_eq_ok.mp declared
  cases found
  rw [addBlockers_eq added]
  exact h.defending before opened

end State

/-- Acting again does not move the turn. -/
theorem Tempo.Regular.act {n : Nat} {tempo : Tempo} (h : tempo.Regular n) :
    { tempo with passes := 0 }.Regular n :=
  ⟨h.seats, h.active, h.priority, h.moment, h.defending⟩

open State

namespace Transform

variable {config : Config} {transform : Transform} {s t : State} {n : Nat}

theorem regular (h : s.tempo.Regular n) (run : transform.run config s = .ok t) :
    t.tempo.Regular n := by
  cases transform with
  | playLand player card => exact tempo_playLand run ▸ h.act
  | cast player card targets => exact tempo_cast run ▸ h.act
  | activate player card ability targets => exact tempo_activate run ▸ h.act
  | pass =>
      obtain ⟨⟨next, outcome⟩, passed, run⟩ := Outcome.bind_eq_ok.mp run
      cases run
      exact regular_pass h passed
  | endMoment player => exact regular_endMoment h run
  | declareAttackers player attackers =>
      obtain ⟨next, declared, run⟩ := Outcome.bind_eq_ok.mp run
      cases run
      exact (regular_declareAttackers h declared).act
  | declareBlockers player blocks =>
      obtain ⟨next, declared, run⟩ := Outcome.bind_eq_ok.mp run
      cases run
      exact (regular_declareBlockers h declared).act
  | stay =>
      cases run
      exact h

/-- Only the end of a moment changes the date. -/
theorem date_cases (run : transform.run config s = .ok t) :
    t.date = s.date ∨ ∃ player, transform = .endMoment player := by
  cases transform with
  | playLand player card => exact .inl ((date_of_tempo (tempo_playLand run)).trans rfl)
  | cast player card targets => exact .inl ((date_of_tempo (tempo_cast run)).trans rfl)
  | activate player card ability targets => exact .inl ((date_of_tempo (tempo_activate run)).trans rfl)
  | pass =>
      obtain ⟨⟨next, outcome⟩, passed, run⟩ := Outcome.bind_eq_ok.mp run
      cases run
      refine .inl ((date_of_tempo (tempo_pass passed).2).trans ?_)
      split <;> rfl
  | endMoment player => exact .inr ⟨player, rfl⟩
  | declareAttackers player attackers =>
      obtain ⟨next, declared, run⟩ := Outcome.bind_eq_ok.mp run
      cases run
      exact .inl ((date_of_tempo (tempo_declareAttackers declared)).trans rfl)
  | declareBlockers player blocks =>
      obtain ⟨next, declared, run⟩ := Outcome.bind_eq_ok.mp run
      cases run
      exact .inl ((date_of_tempo (tempo_declareBlockers declared)).trans rfl)
  | stay =>
      cases run
      exact .inl rfl

end Transform

namespace State

variable {config : Config} {s t : State} {events : List Event}

theorem advance_strip (s : State) : s.strip.advance = s.advance.strip := by
  have moment : s.strip.moment = s.moment := rfl
  unfold advance
  rw [moment]
  cases s.moment.next? with
  | some next => rfl
  | none => cases s.moment.position?.isSome <;> rfl

/-- The end of a moment is up to the active player, with nothing on the stack. It moves the turn on,
    and the active player may act. -/
theorem perform_endMoment {player : Seat}
    (h : s.perform config (fun s => s.endMoment config player) = .ok (t, events)) :
    player = s.activePlayer ∧ s.stack = [] ∧ t.date = s.advance.date ∧
      t.priorityPlayer = t.activePlayer := by
  obtain ⟨after, run, settled⟩ := Outcome.bind_eq_ok.mp h
  obtain ⟨active, empty, begun, -, rfl⟩ := endMoment_eq_ok.mp run
  have tempo := tempo_settle settled
  refine ⟨active, (stack_congr (layout_strip s)).symm.trans empty, ?_, ?_⟩
  · calc
      t.date = begun.giveActivePriority.date := date_of_tempo tempo
      _ = s.strip.advance.date := date_endMoment run
      _ = s.advance.date := by rw [advance_strip]; rfl
  · rw [priorityPlayer_of_tempo tempo, activePlayer_of_tempo tempo]
    rfl

/-- While something is on the stack, no stage changes the date. -/
theorem date_perform {transform : Transform} (busy : s.stack ≠ [])
    (h : s.perform config (transform.run config) = .ok (t, events)) : t.date = s.date := by
  obtain ⟨after, run, settled⟩ := Outcome.bind_eq_ok.mp h
  obtain same | ⟨player, rfl⟩ := transform.date_cases run
  · exact (date_of_tempo (tempo_settle settled)).trans same
  · exact absurd (perform_endMoment h).2.1 busy

/-- The later state is of the same turn, or of the first moment of the next one. -/
def Proceeds (s t : State) : Prop :=
  t.turn = s.turn ∧ t.activePlayer = s.activePlayer ∨ t.turn = s.turn + 1 ∧ t.moment = .first

theorem proceeds_perform {transform : Transform} (regular : s.tempo.Regular n)
    (h : s.perform config (transform.run config) = .ok (t, events)) : s.Proceeds t := by
  obtain ⟨after, run, settled⟩ := Outcome.bind_eq_ok.mp h
  obtain same | ⟨player, rfl⟩ := transform.date_cases run
  · have date := (date_of_tempo (tempo_settle settled)).trans same
    exact .inl ⟨congrArg Date.turn date, congrArg Date.activePlayer date⟩
  · have date := (perform_endMoment h).2.2.1
    have turn : t.turn = s.advance.turn := congrArg Date.turn date
    have moment : t.moment = s.advance.moment := congrArg Date.moment date
    have active : t.activePlayer = s.advance.activePlayer := congrArg Date.activePlayer date
    obtain ⟨next, -, same, -⟩ | ⟨same, -⟩ := advance_cases regular.moment
    · rw [same] at turn active
      exact .inl ⟨turn, active⟩
    · rw [same] at turn moment
      exact .inr ⟨turn, moment⟩

theorem regular_perform {transform : Transform} (regular : s.tempo.Regular n)
    (h : s.perform config (transform.run config) = .ok (t, events)) : t.tempo.Regular n := by
  obtain ⟨after, run, settled⟩ := Outcome.bind_eq_ok.mp h
  rw [tempo_settle settled]
  exact transform.regular (s := s.strip) regular run

theorem Stages.regular (stages : Stages config s events t) (regular : s.tempo.Regular n) :
    t.tempo.Regular n := by
  induction stages with
  | last transform stage => exact regular_perform regular stage
  | next transform stage _ ih => exact ih (regular_perform regular stage)

end State

namespace Match

variable {config : Config} {generator : Generator} {catalog : Catalog} {registry : Registry}
  {decks : List (List DefinitionId)} {m : Match}

section Call

variable {next : Match} {operation : Operation} {events : List Event} {n : Nat}
  (regular : m.state.tempo.Regular n) (called : m.call operation = .ok (next, events))
include regular called

theorem regular_call : next.state.tempo.Regular n := (call_eq_ok called).1.regular regular

/-- An operation stays in the turn, or stops where the next one begins. -/
theorem proceeds_call : m.state.Proceeds next.state := by
  obtain ⟨⟨transform, -, performed⟩ | ⟨player, -, ended⟩, -⟩ := call_cases called
  · exact State.proceeds_perform regular performed
  · refine State.endTurn_relates (P := fun s => s.tempo.Regular n) (fun same first rest => ?_)
      (fun regular stage => ⟨State.regular_perform regular stage, State.proceeds_perform regular stage⟩)
      regular ended
    obtain ⟨turn, active⟩ | ⟨other, -⟩ := first
    · rwa [State.Proceeds, turn, active] at rest
    · omega

end Call

theorem lasting_regular (n : Nat) : Lasting fun s => s.tempo.Regular n := by
  intro config s t events transform _ _ h stage
  exact State.regular_perform h stage

theorem regular_start (started : start config catalog registry decks generator = .ok m) :
    m.state.tempo.Regular config.playerCount := by
  obtain ⟨several, -, inRound⟩ := inRound_start started
  refine ⟨inRound.players, inRound.active, inRound.players ▸ inRound.seated.priority, ?_, ?_⟩ <;>
    rw [tempo_start started]
  · exact List.mem_cons_self
  · exact nofun

theorem regular_run (started : start config catalog registry decks generator = .ok m)
    (commands : List Command) : (m.run commands).state.tempo.Regular config.playerCount :=
  Lasting.run (lasting_regular _) started (regular_start started) commands

end Match

end CardGame
