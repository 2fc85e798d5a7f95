import CardGame.Proofs.Deaths
import CardGame.Proofs.Setup

/-! # Runs of a match

A run is any sequence of operations and undos. A call that fails leaves the match as it is. What holds
of the present state at the deal and after every operation holds of the checkpoints as well, and so
along every run.
-/

namespace CardGame

/-- What a host can ask of a match. -/
inductive Command where
  | call (operation : Operation)
  | undo

namespace Match

def step (m : Match) : Command → Match
  | .call operation =>
    match m.call operation with
    | .ok (next, _) => next
    | .error _ => m
  | .undo => m.undo?.getD m

def run (m : Match) (commands : List Command) : Match := commands.foldl step m

theorem step_of_ok {m next : Match} {operation : Operation} {events : List Event}
    (called : m.call operation = .ok (next, events)) : m.step (.call operation) = next := by
  simp only [step, called]

theorem step_of_error {m : Match} {operation : Operation} {reason : RuleError}
    (refused : m.call operation = .error reason) : m.step (.call operation) = m := by
  simp only [step, refused]

theorem run_cons (m : Match) (command : Command) (rest : List Command) :
    m.run (command :: rest) = (m.step command).run rest := rfl

/-- The property holds of the present state and of every state that undoing leads back to. -/
structure Always (P : State → Prop) (m : Match) : Prop where
  present : P m.state
  past : ∀ checkpoint ∈ m.history, P checkpoint.state

namespace Always

variable {P : State → Prop} {m next : Match} {operation : Operation} {events : List Event}

theorem call (h : Always P m) (called : m.call operation = .ok (next, events))
    (after : P next.state) : Always P next := by
  refine ⟨after, fun checkpoint member => ?_⟩
  obtain ⟨-, eq | ⟨rfl, -⟩⟩ := call_eq_ok called
  · rw [eq] at member
    rcases List.mem_cons.mp (List.mem_of_mem_take member) with rfl | member
    · exact h.present
    · exact h.past checkpoint member
  · exact h.past checkpoint member

theorem undo (h : Always P m) (undone : m.undo? = some next) : Always P next := by
  unfold undo? at undone
  split at undone
  · cases undone
  · rename_i checkpoint rest history
    cases undone
    have past := h.past
    rw [history] at past
    exact ⟨past checkpoint List.mem_cons_self,
      fun other member => past other (List.mem_cons_of_mem _ member)⟩

/-- What a command that succeeds does not break holds after it. -/
theorem step {command : Command} (h : Always P m)
    (keeps : ∀ {operation : Operation} {next : Match} {events : List Event},
      command = .call operation → m.call operation = .ok (next, events) → P next.state) :
    Always P (m.step command) := by
  cases command with
  | call operation =>
      cases called : m.call operation with
      | ok result =>
          rw [step_of_ok called]
          exact h.call called (keeps rfl called)
      | error reason =>
          rw [step_of_error called]
          exact h
  | undo =>
      cases undone : m.undo? with
      | none =>
          simp only [Match.step, undone, Option.getD_none]
          exact h
      | some next =>
          simp only [Match.step, undone, Option.getD_some]
          exact h.undo undone

/-- What no operation breaks holds along every run on which it held at first. -/
theorem run
    (keeps : ∀ {m next : Match} {operation : Operation} {events : List Event}, P m.state →
      m.call operation = .ok (next, events) → P next.state)
    (h : Always P m) (commands : List Command) : Always P (m.run commands) := by
  induction commands generalizing m with
  | nil => exact h
  | cons command rest ih => exact ih (h.step fun _ called => keeps h.present called)

end Always

/-- What is never lost of the state that a match started from. -/
structure Sound (origin s : State) : Prop where
  orderly : s.Orderly
  derived : s.derive = s
  identity : s.identity = origin.identity

/-- The present state and all checkpoints are sound. -/
structure Kept (origin : State) (m : Match) : Prop where
  present : Sound origin m.state
  past : ∀ checkpoint ∈ m.history, Sound origin checkpoint.state

variable {origin : State} {m next : Match} {operation : Operation} {events : List Event}

theorem Sound.call (h : Sound origin m.state) (called : m.call operation = .ok (next, events)) :
    Sound origin next.state ∧ ∃ trace, State.Course m.state trace next.state ∧
      events.Perm (deathsIn trace) := by
  obtain ⟨stages, -⟩ := call_eq_ok called
  obtain ⟨trace, course, perm⟩ := stages.course h.orderly h.derived
  refine ⟨⟨course.orderly h.orderly, stages.settled.1.derived, ?_⟩, trace, course, perm⟩
  rw [course.identity h.orderly, h.identity]

theorem kept_iff : Kept origin m ↔ Always (Sound origin) m :=
  ⟨fun h => ⟨h.present, h.past⟩, fun h => ⟨h.present, h.past⟩⟩

theorem Kept.call (h : Kept origin m) (called : m.call operation = .ok (next, events)) :
    Kept origin next ∧ ∃ trace, State.Course m.state trace next.state ∧
      events.Perm (deathsIn trace) := by
  obtain ⟨sound, course⟩ := h.present.call called
  exact ⟨kept_iff.mpr ((kept_iff.mp h).call called sound), course⟩

theorem Kept.run (h : Kept origin m) (commands : List Command) : Kept origin (m.run commands) :=
  kept_iff.mpr (.run (fun sound called => (sound.call called).1) (kept_iff.mp h) commands)

theorem kept_start {config : Config} {generator : Generator} {catalog : Catalog}
    {registry : Registry} {decks : List (List DefinitionId)}
    (h : start config catalog registry decks generator = .ok m) :
    Kept m.state m := by
  obtain ⟨orderly, derived, -, history⟩ := start_eq_ok h
  exact ⟨⟨orderly, derived, rfl⟩, by simp [history]⟩

/-- No stage breaks the property. -/
def Lasting (P : State → Prop) : Prop :=
  ∀ {config : Config} {s t : State} {events : List Event} (transform : Transform), s.Orderly →
    s.derive = s → P s → s.perform config (transform.run config) = .ok (t, events) → P t

theorem Lasting.stages {P : State → Prop} (lasting : Lasting P) {config : Config} {s t : State}
    (stages : State.Stages config s events t) (orderly : s.Orderly) (derived : s.derive = s)
    (h : P s) : P t := by
  induction stages with
  | last transform stage => exact lasting transform orderly derived h stage
  | next transform stage _ ih =>
      exact ih (orderly.perform derived stage) (State.perform_settled stage).1.derived
        (lasting transform orderly derived h stage)

/-- What no stage breaks holds along every run from a deal for which it held. -/
theorem Lasting.run {P : State → Prop} (lasting : Lasting P) {config : Config}
    {generator : Generator} {catalog : Catalog} {registry : Registry}
    {decks : List (List DefinitionId)}
    (started : start config catalog registry decks generator = .ok m) (dealt : P m.state)
    (commands : List Command) : P (m.run commands).state := by
  have first : Always (fun s => Sound m.state s ∧ P s) m := by
    obtain ⟨-, -, -, history⟩ := start_eq_ok started
    exact ⟨⟨(kept_start started).present, dealt⟩, by simp [history]⟩
  refine (first.run (fun {m next operation events} h called => ?_) commands).present.2
  obtain ⟨sound, h⟩ := h
  exact ⟨(sound.call called).1,
    lasting.stages (call_eq_ok called).1 sound.orderly sound.derived h⟩

theorem config_call (called : m.call operation = .ok (next, events)) : next.config = m.config := by
  obtain ⟨-, eq | ⟨same, -⟩⟩ := call_eq_ok called
  · rw [eq]
    rfl
  · rw [same]

theorem config_step (m : Match) (command : Command) : (m.step command).config = m.config := by
  cases command with
  | call operation =>
      cases called : m.call operation with
      | ok result => rw [step_of_ok called, config_call called]
      | error reason => rw [step_of_error called]
  | undo =>
      unfold step undo?
      cases m.history <;> rfl

theorem config_run (m : Match) (commands : List Command) : (m.run commands).config = m.config := by
  induction commands generalizing m with
  | nil => rfl
  | cons command rest ih => exact (ih _).trans (config_step m command)

theorem config_start {config : Config} {generator : Generator} {catalog : Catalog}
    {registry : Registry} {decks : List (List DefinitionId)}
    (h : start config catalog registry decks generator = .ok m) :
    m.config = config := by
  simp only [start, Outcome.bind_eq_ok] at h
  obtain ⟨-, -, filled, -, dealt, -, h⟩ := h
  cases h
  rfl

/-- A match that begins with a deal, or with a snapshot in which every card is at the number that it
    carries. -/
inductive Begun : Match → Prop where
  | dealt {config : Config} {generator : Generator} {catalog : Catalog} {registry : Registry}
      {decks : List (List DefinitionId)} {m : Match}
      (started : start config catalog registry decks generator = .ok m) : Begun m
  | restored (config : Config) (catalog : Catalog) (registry : Registry) {s : State}
      (keyed : s.Keyed) : Begun (.ofState config catalog registry s)

theorem Begun.keyed (begun : m.Begun) : Always State.Keyed m := by
  cases begun with
  | dealt started =>
      obtain ⟨orderly, -, -, history⟩ := start_eq_ok started
      exact ⟨orderly.keyed, by simp [history]⟩
  | restored config catalog registry keyed => exact ⟨keyed, nofun⟩

theorem keyed_call (keyed : m.state.Keyed) (called : m.call operation = .ok (next, events)) :
    next.state.Keyed :=
  call_keeps (fun _ _ keyed stage => keyed.perform stage) keyed called

/-- Along every run, an operation leaves the present state settled, and checking it finds nothing to do.
    Every player without life has lost, unless there are more players than seats. -/
theorem call_settles (m : Match) (commands : List Command) (operation : Operation) (next : Match)
    (events : List Event) (begun : m.Begun)
    (called : (m.run commands).call operation = .ok (next, events)) :
    next.state.Settled ∧ next.checkState = .ok (next, []) ∧
      (next.state.playerCount < Seat.limit →
        ∀ p ∈ next.state.players, p.life ≤ 0 → p.hasLost = true) := by
  have keyed := (begun.keyed.run keyed_call commands).present
  generalize m.run commands = present at *
  have after := keyed_call keyed called
  obtain ⟨stages, -⟩ := call_eq_ok called
  obtain ⟨settled, rounds⟩ := stages.settled
  refine ⟨settled, ?_, fun few p member => settled.lost few member⟩
  unfold checkState
  rw [Outcome.bind_eq_ok]
  exact ⟨(next.state, []), settled.settle after (config_call called ▸ rounds), by simp⟩

/-- A match in which a lord is about to die. -/
def lordDying : Match := ofState {} ⟨.empty⟩ .empty State.lordDying

theorem call_settles_lordDying :
    ∃ next events, lordDying.Begun ∧ (lordDying.run []).call .checkState = .ok (next, events) ∧
      next.state.Settled ∧ next.checkState = .ok (next, []) ∧
      (next.state.playerCount < Seat.limit →
        ∀ p ∈ next.state.players, p.life ≤ 0 → p.hasLost = true) := by
  have begun : lordDying.Begun := .restored {} ⟨.empty⟩ .empty (by decide)
  exact ⟨_, _, begun, rfl, call_settles lordDying [] .checkState _ _ begun rfl⟩

/-- A match at the full table. -/
def fullTable : Match := ofState {} ⟨.empty⟩ .empty State.fullTable

/-- Checking the state finds nothing to do although nobody has any life. -/
theorem checkState_fullTable :
    fullTable.Begun ∧ fullTable.call .checkState = .ok (fullTable, []) ∧
      ∃ p ∈ fullTable.state.players, p.life ≤ 0 ∧ p.hasLost = false := by
  have begun : fullTable.Begun := .restored {} ⟨.empty⟩ .empty (by decide)
  refine ⟨begun, ?_, _, State.mem_fullTable, by decide, rfl⟩
  refine Outcome.bind_eq_ok.mpr ⟨(State.fullTable, []), ?_, if_pos ⟨rfl, rfl⟩⟩
  exact State.settled_fullTable.settle (by decide) (by decide)

/-- Along every run from a deal, all cards are accounted for, and none comes or goes. -/
theorem cards_accounted (config : Config) {generator : Generator} (catalog : Catalog)
    (registry : Registry) (decks : List (List DefinitionId)) (m : Match) (commands : List Command)
    (started : start config catalog registry decks generator = .ok m) :
    (m.run commands).state.Accounted ∧
      ∀ id, ((m.run commands).state.card? id).isSome = (m.state.card? id).isSome := by
  obtain ⟨orderly, -, identity⟩ := ((kept_start started).run commands).present
  refine ⟨orderly.accounted, fun id => ?_⟩
  have same := congrArg Option.isSome (congrFun identity id)
  simpa only [State.identity, Option.isSome_map] using same

/-- A match of two players with one card each: a creature without toughness that is also a land. -/
def mayflies : Outcome Match :=
  let mayfly := { Definition.creature 0 "Mayfly" 0 0 with types := [.land, .creature] }
  start { openingHandSize := 1, shuffleLibraries := false } ⟨Table.ofList [(0, mayfly)]⟩ .builtin
    [[0], [0]]

/-- On to the main phase of the first turn. -/
def toMain : List Operation := List.replicate 3 (.act 0 .advanceStep)

theorem cards_accounted_mayflies :
    ∃ m, mayflies = .ok m ∧
      (m.run (toMain.map .call ++ [.call (.act 0 (.playLand 1)), .undo])).state.Accounted ∧
      ∀ id, ((m.run (toMain.map .call ++ [.call (.act 0 (.playLand 1)), .undo])).state.card?
        id).isSome = (m.state.card? id).isSome := by
  have dealt : mayflies.isOk := by decide +kernel
  cases started : mayflies with
  | error reason => simp [started, Except.isOk, Except.toBool] at dealt
  | ok m => exact ⟨m, rfl, cards_accounted _ _ _ _ _ _ started⟩

/-- What an operation publishes: once each, the cards that died in the course of it, whichever course
    led from the state before it to the state after it. The log grows by these events. -/
structure Published (m next : Match) (events : List Event) : Prop where
  course : ∃ trace, State.Course m.state trace next.state
  deaths : ∀ trace, State.Course m.state trace next.state → events.Perm (deathsIn trace)
  once : (events.map Event.subject).Nodup
  logged : next.log = m.log ++ events

theorem Kept.published (h : Kept origin m) (called : m.call operation = .ok (next, events)) :
    Published m next events := by
  have orderly := h.present.orderly
  obtain ⟨-, trace, course, perm⟩ := h.call called
  refine ⟨⟨trace, course⟩, fun other course' => ?_, ?_, ?_⟩
  · exact perm.trans (course.deathsIn_perm course' orderly)
  · exact (perm.map Event.subject).nodup_iff.mpr (course.nodup_deathsIn orderly)
  · obtain ⟨-, eq | ⟨rfl, rfl⟩⟩ := call_eq_ok called
    · rw [eq]
      rfl
    · rw [List.append_nil]

/-- Without undoing, the log grows by the deaths of a run. -/
theorem Kept.course_of_calls (h : Kept origin m) (operations : List Operation) :
    ∃ trace published, State.Course m.state trace (m.run (operations.map .call)).state ∧
      (m.run (operations.map .call)).log = m.log ++ published ∧
      published.Perm (deathsIn trace) := by
  induction operations generalizing m with
  | nil => exact ⟨[], [], .done _, (List.append_nil _).symm, .nil⟩
  | cons operation rest ih =>
      cases called : m.call operation with
      | error reason =>
          rw [List.map_cons, run_cons, step_of_error called]
          exact ih h
      | ok result =>
          obtain ⟨next, events⟩ := result
          obtain ⟨kept, trace, course, perm⟩ := h.call called
          obtain ⟨later, published, more, log, perm'⟩ := ih kept
          rw [List.map_cons, run_cons, step_of_ok called]
          refine ⟨trace ++ later, events ++ published, course.trans more, ?_, ?_⟩
          · rw [log, (h.published called).logged, List.append_assoc]
          · rw [deathsIn_append]
            exact perm.append perm'

/-- Along every run from a deal, operations publish exactly the deaths that happen in the course of
    them. Without undoing, no card is logged twice. -/
theorem deaths_published (config : Config) {generator : Generator} (catalog : Catalog)
    (registry : Registry) (decks : List (List DefinitionId)) (m : Match) (commands : List Command)
    (operation : Operation) (next : Match) (events : List Event) (operations : List Operation)
    (started : start config catalog registry decks generator = .ok m)
    (called : (m.run commands).call operation = .ok (next, events)) :
    Published (m.run commands) next events ∧
      ((m.run (operations.map .call)).log.map Event.subject).Nodup := by
  have kept := kept_start started
  refine ⟨(kept.run commands).published called, ?_⟩
  obtain ⟨_, published, course, log, perm⟩ := kept.course_of_calls operations
  obtain ⟨orderly, -, empty, -⟩ := start_eq_ok started
  rw [log, empty, List.nil_append]
  exact (perm.map Event.subject).nodup_iff.mpr (course.nodup_deathsIn orderly)

/-- A card that enters a battlefield and dies there in the same operation is published. -/
theorem deaths_published_mayflies :
    ∃ m next, mayflies = .ok m ∧
      (m.run (toMain.map .call)).call (.act 0 (.playLand 1)) =
        .ok (next, [.creatureDied 1 0 0]) ∧
      Published (m.run (toMain.map .call)) next [.creatureDied 1 0 0] ∧
      ((m.run (toMain.map .call)).log.map Event.subject).Nodup := by
  have played : (do
      let m ← mayflies
      let (_, events) ← (m.run (toMain.map .call)).call (.act 0 (.playLand 1))
      .ok events : Outcome (List Event)) = .ok [.creatureDied 1 0 0] := by decide +kernel
  obtain ⟨m, started, played⟩ := Outcome.bind_eq_ok.mp played
  obtain ⟨⟨next, events⟩, called, same⟩ := Outcome.bind_eq_ok.mp played
  cases same
  exact ⟨m, next, started, called, deaths_published _ _ _ _ _ _ _ _ _ toMain started called⟩

end Match

end CardGame
