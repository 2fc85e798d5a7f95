import CardGame.Proofs.Totality

/-! # States in which play can go on

All along a run with the built-in abilities the state is orderly and derived, the turn stands where a
turn can stand, and every spell on the stack had its effects read when it was cast. In such a state
whatever an operation has done can be settled.
-/

namespace CardGame

namespace State

variable {config : Config} {s t after : State} {events : List Event} {n : Nat}
  {transform : Transform}

/-- Nothing is put on the stack but the card of a cast. -/
theorem mem_stackAfter {id : CardId} (member : id ∈ s.stackAfter transform) :
    id ∈ s.stack ∨ ∃ player targets, transform = .cast player id targets := by
  cases transform with
  | cast player card targets =>
      obtain before | same := List.mem_append.mp member
      · exact .inl before
      · obtain rfl := List.mem_singleton.mp same
        exact .inr ⟨player, targets, rfl⟩
  | pass =>
      simp only [stackAfter] at member
      split at member
      · exact .inl (List.dropLast_subset _ member)
      · exact .inl member
  | _ => exact .inl member

/-- The check of a cast reads every effect of the card. -/
theorem legible_of_cast {player : Seat} {id : CardId} {targets : List CardId}
    (cast : s.strip.cast player id targets = .ok t) :
    ∃ c, s.card? id = some c ∧ c.definition.Legible := by
  obtain ⟨_, checked, -⟩ := Outcome.bind_eq_ok.mp cast
  obtain ⟨-, c, p, cost, found, -, -, -, -, -, -, targeted⟩ := checkCast_eq_ok.mp checked
  rw [card?_strip, Option.map_eq_some_iff] at found
  obtain ⟨c, found, rfl⟩ := found
  refine ⟨c, found, fun e written => ?_⟩
  obtain ⟨effect, read, -⟩ := Outcome.bind_eq_ok.mp (Outcome.forM_eq_ok.mp targeted e written)
  exact ⟨effect, read⟩

theorem Legible.perform (h : s.Legible) (orderly : s.Orderly) (derived : s.derive = s)
    (performed : s.perform config (transform.run config) = .ok (t, events)) : t.Legible := by
  obtain ⟨trace, course, -⟩ := course_of_perform orderly derived performed
  intro id member
  rw [stack_perform orderly derived performed] at member
  obtain ⟨c, found, legible⟩ : ∃ c, s.card? id = some c ∧ c.definition.Legible := by
    obtain before | ⟨player, targets, rfl⟩ := mem_stackAfter member
    · exact h id before
    · obtain ⟨after, run, -⟩ := Outcome.bind_eq_ok.mp performed
      exact legible_of_cast run
  obtain ⟨d, known, definition, -⟩ := card?_of_course course orderly found
  exact ⟨d, known, definition ▸ legible⟩

/-- The states of a game of `n` players with the built-in abilities. -/
structure Playable (n : Nat) (s : State) : Prop where
  orderly : s.Orderly
  derived : s.derive = s
  regular : s.tempo.Regular n
  equipped : s.Equipped .builtin
  legible : s.Legible

namespace Playable

variable (h : s.Playable n)
include h

theorem playerCount : s.playerCount = n := h.regular.seats

theorem orderly_strip : s.strip.Orderly := h.orderly.congr (layout_strip s)

theorem equipped_strip : s.strip.Equipped .builtin :=
  h.equipped.of_kit (kit_congr (layout_strip s))

theorem legible_strip : s.strip.Legible := h.legible.congr (layout_strip s)

theorem perform (performed : s.perform config (transform.run config) = .ok (t, events)) :
    t.Playable n where
  orderly := h.orderly.perform h.derived performed
  derived := (perform_settled performed).1.derived
  regular := Match.lasting_regular n transform h.orderly h.derived h.regular performed
  equipped := Match.lasting_equipped .builtin transform h.orderly h.derived h.equipped performed
  legible := h.legible.perform h.orderly h.derived performed

theorem stages (stages : Stages config s events t) : t.Playable n := by
  induction stages with
  | last _ stage => exact h.perform stage
  | next _ stage _ ih => exact ih (h.perform stage)

/-- What a stage has done can be settled in three rounds. -/
theorem settles (enough : 3 ≤ config.maxEventRounds)
    (run : transform.run config s.strip = .ok after) :
    ∃ t events, settle config.maxEventRounds s after = .ok (t, events) := by
  obtain ⟨trace, course, -⟩ := transform.leads h.derived h.orderly run
  have orderly := course.orderly h.orderly
  have seats : s.playerCount = after.playerCount :=
    h.regular.seats.trans (transform.regular (s := s.strip) h.regular run).seats.symm
  obtain ⟨t, events, -, -, settles⟩ := settle_total orderly.housed
    (orderly.answers (h.equipped.of_kit course.kit)) fun _ _ found => seats ▸ h.orderly.seated found
  exact ⟨t, events, settles config.maxEventRounds enough⟩

theorem perform_total (enough : 3 ≤ config.maxEventRounds) (transform : Transform)
    (runs : ∃ after, transform.run config s.strip = .ok after) :
    ∃ t events, s.perform config (transform.run config) = .ok (t, events) := by
  obtain ⟨after, run⟩ := runs
  obtain ⟨t, events, settled⟩ := h.settles enough run
  exact ⟨t, events, Outcome.bind_eq_ok.mpr ⟨after, run, settled⟩⟩

end Playable

end State

namespace Match

variable {config : Config} {generator : Generator} {catalog : Catalog}
  {decks : List (List DefinitionId)} {m next : Match} {operation : Operation} {events : List Event}
  {n : Nat}

theorem playable_call (h : m.state.Playable n) (called : m.call operation = .ok (next, events)) :
    next.state.Playable n :=
  h.stages (call_eq_ok called).1

theorem playable_run (started : start config catalog .builtin decks generator = .ok m)
    (commands : List Command) : (m.run commands).state.Playable config.playerCount := by
  have lasting : Lasting (State.Playable config.playerCount) :=
    fun _ _ _ h performed => h.perform performed
  obtain ⟨orderly, derived, -⟩ := start_eq_ok started
  refine lasting.run started ?_ commands
  exact ⟨orderly, derived, regular_start started, equipped_start started,
    fun id member => by simp [stack_start started] at member⟩

/-- An action of one stage succeeds if it is let through and its transformation succeeds. -/
theorem call_iff_run (h : m.state.Playable n) (enough : 3 ≤ m.config.maxEventRounds)
    {player : Seat} {action : Action} (transform : Transform)
    (one : Operation.transform? (.act player action) = some transform) :
    (∃ next events, m.call (.act player action) = .ok (next, events)) ↔
      m.Allows player ∧ ∃ after, transform.run m.config m.state.strip = .ok after := by
  have stage : m.state.act m.config player action =
      m.state.perform m.config (transform.run m.config) := by
    cases action <;> cases one <;> rfl
  constructor
  · rintro ⟨next, events, called⟩
    obtain ⟨allows, t, acted, -⟩ := call_act_eq_ok.mp called
    rw [stage] at acted
    obtain ⟨after, run, -⟩ := Outcome.bind_eq_ok.mp acted
    exact ⟨allows, after, run⟩
  · rintro ⟨allows, runs⟩
    obtain ⟨t, events, performed⟩ := h.perform_total enough transform runs
    exact ⟨_, events, call_act_eq_ok.mpr ⟨allows, t, stage.trans performed, rfl⟩⟩

end Match

end CardGame
