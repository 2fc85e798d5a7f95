import CardGame.Proofs.Run

/-! # Undoing

What operations come to does not depend on the checkpoints of a match. The checkpoints are the
presents from before the latest committed operations, latest first, as many as the settings allow;
undoing makes the latest one the present again.
-/

namespace CardGame.Match

variable {m n : Match}

/-- What a host is told about an operation: the events, or why it is refused. -/
def answer (m : Match) (operation : Operation) : Outcome (List Event) := do
  let (_, events) ← m.call operation
  .ok events

/-- No operations tell the two matches apart. -/
structure Indistinct (m n : Match) : Prop where
  state : ∀ operations : List Operation,
    (m.run (operations.map .call)).state = (n.run (operations.map .call)).state
  log : ∀ operations : List Operation,
    (m.run (operations.map .call)).log = (n.run (operations.map .call)).log
  answer : ∀ (operations : List Operation) (operation : Operation),
    (m.run (operations.map .call)).answer operation = (n.run (operations.map .call)).answer operation

def withoutHistory (m : Match) : Match := { m with history := [] }

/-- Whether the operation is committed: it succeeds, and unless it is a check of the state that changes
    nothing, a checkpoint is due. -/
def commits (m : Match) (operation : Operation) : Bool :=
  match m.operate operation with
  | .ok (next, events) => m.keeps operation next events
  | .error _ => false

theorem step_eq_commit {operation : Operation} (h : m.commits operation = true) :
    ∃ next events, m.operate operation = .ok (next, events) ∧
      m.step (.call operation) = m.commit next events := by
  unfold commits at h
  split at h
  · rename_i next events operated
    exact ⟨next, events, operated, by simp [step, call_eq, operated, Bind.bind, Except.bind, h]⟩
  · cases h

theorem step_eq_self {operation : Operation} (h : m.commits operation = false) :
    m.step (.call operation) = m := by
  unfold commits at h
  split at h
  · rename_i operated
    simp [step, call_eq, operated, Bind.bind, Except.bind, h]
  · rename_i operated
    simp [step, call_eq, operated, Bind.bind, Except.bind]

theorem commits_withoutHistory (m : Match) (operation : Operation) :
    m.withoutHistory.commits operation = m.commits operation := by
  cases operation <;> rfl

theorem answer_withoutHistory (m : Match) (operation : Operation) :
    m.withoutHistory.answer operation = m.answer operation := by
  simp only [answer, call_eq, bind_assoc]
  cases operation <;> rfl

theorem step_withoutHistory (m : Match) (operation : Operation) :
    (m.withoutHistory.step (.call operation)).withoutHistory =
      (m.step (.call operation)).withoutHistory := by
  cases h : m.commits operation with
  | true =>
      obtain ⟨next, events, operated, eq⟩ := step_eq_commit h
      obtain ⟨next', events', operated', eq'⟩ :=
        step_eq_commit ((commits_withoutHistory m operation).trans h)
      have same : m.withoutHistory.operate operation = m.operate operation := by
        cases operation <;> rfl
      rw [same, operated] at operated'
      cases operated'
      rw [eq, eq']
      rfl
  | false =>
      rw [step_eq_self h, step_eq_self ((commits_withoutHistory m operation).trans h)]
      rfl

theorem run_withoutHistory (m : Match) (operations : List Operation) :
    (m.withoutHistory.run (operations.map .call)).withoutHistory =
      (m.run (operations.map .call)).withoutHistory := by
  induction operations generalizing m with
  | nil => rfl
  | cons operation rest ih =>
      simp only [List.map_cons, run_cons]
      rw [← ih (m.step _), ← step_withoutHistory, ih]

/-- Matches that differ in checkpoints only cannot be told apart. -/
theorem indistinct_of_withoutHistory (h : m.withoutHistory = n.withoutHistory) : Indistinct m n := by
  have later (operations : List Operation) : (m.run (operations.map .call)).withoutHistory =
      (n.run (operations.map .call)).withoutHistory := by
    rw [← run_withoutHistory, h, run_withoutHistory]
  refine ⟨fun operations => ?_, fun operations => ?_, fun operations operation => ?_⟩
  · simpa only [withoutHistory] using congrArg Match.state (later operations)
  · simpa only [withoutHistory] using congrArg Match.log (later operations)
  · rw [← answer_withoutHistory, later, answer_withoutHistory]

/-- The present, as a checkpoint would keep it. -/
def present (m : Match) : Checkpoint := ⟨m.state, m.log⟩

/-- The present and the past that undoing leads back to, latest first. -/
def timeline (m : Match) : List Checkpoint := m.present :: m.history

theorem length_timeline (m : Match) : m.timeline.length = m.undoDepth + 1 := rfl

theorem timeline_commit (m : Match) (next : State) (events : List Event) :
    (m.commit next events).timeline =
      ((m.commit next events).present :: m.timeline).take (m.config.maxUndoDepth + 1) := rfl

theorem step_undo_nil (h : m.history = []) : m.step .undo = m := by simp [step, undo?, h]

theorem step_undo_cons {checkpoint : Checkpoint} {rest : List Checkpoint}
    (h : m.history = checkpoint :: rest) :
    m.step .undo =
      { m with state := checkpoint.state, log := checkpoint.log, history := rest } := by
  simp [step, undo?, h]

theorem undoDepth_step (h : m.undoDepth ≤ m.config.maxUndoDepth) (command : Command) :
    (m.step command).undoDepth ≤ m.config.maxUndoDepth := by
  cases command with
  | call operation =>
      cases committed : m.commits operation with
      | true =>
          obtain ⟨next, events, -, eq⟩ := step_eq_commit committed
          rw [eq]
          exact List.length_take_le _ _
      | false =>
          rw [step_eq_self committed]
          exact h
  | undo =>
      cases history : m.history with
      | nil =>
          rw [step_undo_nil history]
          exact h
      | cons checkpoint rest =>
          rw [step_undo_cons history]
          simp only [undoDepth, history, List.length_cons] at h ⊢
          omega

theorem undoDepth_run (h : m.undoDepth ≤ m.config.maxUndoDepth) (commands : List Command) :
    (m.run commands).undoDepth ≤ m.config.maxUndoDepth := by
  induction commands generalizing m with
  | nil => exact h
  | cons command rest ih =>
      have after := undoDepth_step h command
      rw [← config_step m command] at after
      rw [run_cons, ← config_step m command]
      exact ih after

/-- What no command ever changes. -/
def setting (m : Match) : Config × Catalog × Registry := (m.config, m.catalog, m.registry)

theorem setting_step (m : Match) (command : Command) : (m.step command).setting = m.setting := by
  cases command with
  | call operation =>
      cases committed : m.commits operation with
      | true =>
          obtain ⟨next, events, -, eq⟩ := step_eq_commit committed
          rw [eq]
          rfl
      | false => rw [step_eq_self committed]
  | undo =>
      unfold step undo?
      cases m.history <;> rfl

theorem setting_run (m : Match) (commands : List Command) :
    (m.run commands).setting = m.setting := by
  induction commands generalizing m with
  | nil => rfl
  | cons command rest ih => exact (ih _).trans (setting_step m command)

theorem withoutHistory_eq (setting : m.setting = n.setting) (present : m.present = n.present) :
    m.withoutHistory = n.withoutHistory := by
  simp only [Match.setting, Match.present, Prod.mk.injEq, Checkpoint.mk.injEq] at setting present
  obtain ⟨config, catalog, registry⟩ := setting
  obtain ⟨state, log⟩ := present
  simp only [withoutHistory, config, catalog, registry, state, log]

theorem present_eq (h : m.withoutHistory = n.withoutHistory) : m.present = n.present := by
  show m.withoutHistory.present = n.withoutHistory.present
  rw [h]

/-- How many of the operations are committed, one after the other. -/
def committed (m : Match) : List Operation → Nat
  | [] => 0
  | operation :: rest =>
    (m.commits operation).toNat + (m.step (.call operation)).committed rest

theorem run_append (m : Match) (first last : List Command) :
    m.run (first ++ last) = (m.run first).run last := List.foldl_append

theorem committed_append (m : Match) (first last : List Operation) :
    m.committed (first ++ last) =
      m.committed first + (m.run (first.map .call)).committed last := by
  induction first generalizing m with
  | nil => simp [committed, run]
  | cons operation rest ih =>
      simp only [List.cons_append, List.map_cons, run_cons, committed, ih]
      omega

/-- Up to the count, any number of committed operations can be split off at the end. -/
theorem exists_split (m : Match) (operations : List Operation) (last : Nat)
    (h : last ≤ m.committed operations) :
    ∃ first rest, operations = first ++ rest ∧
      m.committed first + last = m.committed operations := by
  induction operations generalizing m with
  | nil => exact ⟨[], [], rfl, by simpa [committed] using h⟩
  | cons operation rest ih =>
      by_cases all : last = m.committed (operation :: rest)
      · exact ⟨[], operation :: rest, rfl, by simp [committed, all]⟩
      · have fewer : last ≤ (m.step (.call operation)).committed rest := by
          have := (m.commits operation).toNat_le
          unfold committed at h all
          omega
        obtain ⟨first, others, rfl, count⟩ := ih _ fewer
        refine ⟨operation :: first, others, rfl, ?_⟩
        simp only [committed]
        omega

/-- Every committed operation puts a new present before the old ones, and the oldest ones go. -/
theorem timeline_calls (h : m.undoDepth ≤ m.config.maxUndoDepth) (operations : List Operation) :
    ∃ newer : List Checkpoint, newer.length = m.committed operations ∧
      (m.run (operations.map .call)).timeline =
        (newer ++ m.timeline).take (m.config.maxUndoDepth + 1) := by
  induction operations generalizing m with
  | nil =>
      refine ⟨[], rfl, (List.take_of_length_le ?_).symm⟩
      exact Nat.succ_le_succ h
  | cons operation rest ih =>
      simp only [List.map_cons, run_cons, committed]
      cases committed : m.commits operation with
      | true =>
          obtain ⟨next, events, -, eq⟩ := step_eq_commit committed
          have depth := undoDepth_step h (.call operation)
          rw [eq] at depth ⊢
          obtain ⟨newer, length, timeline⟩ := ih depth
          refine ⟨newer ++ [(m.commit next events).present], ?_, ?_⟩
          · simp [length, Nat.add_comm]
          · rw [timeline, timeline_commit, List.append_assoc, List.singleton_append,
              List.take_append, List.take_append, List.take_take]
            exact congrArg _ (congrArg (List.take · _) (Nat.min_eq_left (Nat.sub_le _ _)))
      | false =>
          rw [step_eq_self committed]
          obtain ⟨newer, length, timeline⟩ := ih h
          exact ⟨newer, by simpa using length, timeline⟩

/-- The match after a number of undos in a row. -/
def rewind (m : Match) (times : Nat) : Match := m.run (.replicate times .undo)

/-- Undoing drops the present, as often as there is a checkpoint. -/
theorem timeline_rewind (m : Match) (times : Nat) :
    (m.rewind times).timeline = m.timeline.drop (min times m.undoDepth) := by
  induction times generalizing m with
  | zero => simp [rewind, run]
  | succ times ih =>
      have first : m.rewind (times + 1) = (m.step .undo).rewind times := rfl
      rw [first, ih]
      cases history : m.history with
      | nil => simp [step_undo_nil history, undoDepth, history]
      | cons checkpoint rest =>
          rw [step_undo_cons history]
          simp [undoDepth, timeline, present, history, Nat.succ_min_succ]

theorem undoDepth_rewind (m : Match) (times : Nat) :
    (m.rewind times).undoDepth = m.undoDepth - times := by
  have length := congrArg List.length (timeline_rewind m times)
  rw [List.length_drop, length_timeline, length_timeline] at length
  omega

theorem undo?_isSome : m.undo?.isSome = true ↔ 0 < m.undoDepth := by
  cases history : m.history <;> simp [undo?, undoDepth, history]

theorem undoDepth_calls (fresh : m.history = []) (operations : List Operation) :
    (m.run (operations.map .call)).undoDepth =
      min (m.committed operations) m.config.maxUndoDepth := by
  have depth : m.undoDepth = 0 := by rw [undoDepth, fresh, List.length_nil]
  obtain ⟨newer, length, timeline⟩ := timeline_calls (m := m) (by omega) operations
  replace timeline := congrArg List.length timeline
  rw [List.length_take, List.length_append, length_timeline, length_timeline, length] at timeline
  omega

/-- Undoing all that was committed leads back, if it goes back no further than checkpoints are kept. -/
theorem rewind_calls (h : m.undoDepth ≤ m.config.maxUndoDepth) (operations : List Operation)
    (within : m.committed operations ≤ m.config.maxUndoDepth) :
    ((m.run (operations.map .call)).rewind (m.committed operations)).withoutHistory =
      m.withoutHistory := by
  obtain ⟨newer, length, timeline⟩ := timeline_calls h operations
  have depth := congrArg List.length timeline
  rw [List.length_take, List.length_append, length_timeline, length_timeline, length] at depth
  rw [← length] at within depth ⊢
  have back := timeline_rewind (m.run (operations.map .call)) newer.length
  rw [Nat.min_eq_left (by omega), timeline, List.drop_take, List.drop_left,
    Nat.sub_add_comm within, Match.timeline, Match.timeline, List.take_succ_cons] at back
  refine withoutHistory_eq ?_ (List.cons.inj back).1
  rw [rewind, setting_run, setting_run]

/-- What undoing comes to after operations, `D` checkpoints being kept and `k` of the operations being
    committed. -/
structure Rewinds (m : Match) (operations : List Operation) : Prop where
  /-- Of undos in a row, the first `min k D` have something to undo. -/
  undone : ∀ times, ((m.run (operations.map .call)).rewind times).undo?.isSome = true ↔
    times < min (m.committed operations) m.config.maxUndoDepth
  /-- They lead back to before the last committed operations, wherever between these and the earlier
      ones the refused operations are counted. -/
  restored : ∀ times ≤ min (m.committed operations) m.config.maxUndoDepth,
    (∃ first last, operations = first ++ last ∧
      m.committed first + times = m.committed operations) ∧
    ∀ first last, operations = first ++ last →
      m.committed first + times = m.committed operations →
      Indistinct ((m.run (operations.map .call)).rewind times) (m.run (first.map .call))

/-- On a match without checkpoints, undoing rewinds any operations; and no sequence of commands
    leaves more checkpoints than the settings allow. -/
theorem undo_rewinds (m : Match) (fresh : m.history = []) (operations : List Operation)
    (commands : List Command) :
    Rewinds m operations ∧ (m.run commands).undoDepth ≤ m.config.maxUndoDepth := by
  have shallow : m.undoDepth ≤ m.config.maxUndoDepth := by
    rw [undoDepth, fresh]
    exact Nat.zero_le _
  refine ⟨⟨fun times => ?_, fun times within => ⟨?_, ?_⟩⟩, undoDepth_run shallow commands⟩
  · rw [undo?_isSome, undoDepth_rewind, undoDepth_calls fresh]
    omega
  · exact exists_split m operations times (by omega)
  · rintro first last rfl count
    refine indistinct_of_withoutHistory ?_
    have since : times = (m.run (first.map .call)).committed last := by
      rw [committed_append] at count
      omega
    have depth := undoDepth_run shallow (first.map .call)
    rw [← config_run m (first.map .call)] at depth within
    rw [List.map_append, run_append, since]
    exact rewind_calls depth last (by omega)

/-- Of three commits, between a quiet check and a refused pass, two are undone. -/
theorem undo_rewinds_lordDying :
    let m := { lordDying with config := { maxUndoDepth := 2 } }
    let operations : List Operation := [.checkState, .checkState, .act 0 .passPriority,
      .act 0 .passPriority, .act 1 .passPriority]
    m.history = [] ∧ m.committed operations = 3 ∧ Rewinds m operations ∧
      (m.run [.undo, .call .checkState]).undoDepth ≤ m.config.maxUndoDepth :=
  ⟨rfl, by decide +kernel, undo_rewinds _ rfl _ _⟩

/-- The operations that stand after a run, latest first: those committed and not undone since. Before
    the run, some stand already. -/
def standing (m : Match) (stands : List Operation) : List Command → List Operation
  | [] => stands
  | .call operation :: rest =>
    (m.step (.call operation)).standing
      (if m.commits operation then operation :: stands else stands) rest
  | .undo :: rest =>
    (m.step .undo).standing (if m.history.isEmpty then stands else stands.tail) rest

/-- What the operations that stand come to alone, and what their earlier ones do, is the timeline of
    the match, as far back as that goes. -/
structure Retraced (origin m : Match) (stands : List Operation) : Prop where
  setting : m.setting = origin.setting
  timeline : m.timeline <+:
    stands.tails.map fun earlier => (origin.run (earlier.reverse.map .call)).present

namespace Retraced

variable {origin : Match} {stands : List Operation}

theorem withoutHistory (h : Retraced origin m stands) :
    (origin.run (stands.reverse.map .call)).withoutHistory = m.withoutHistory := by
  refine withoutHistory_eq ((setting_run _ _).trans h.setting.symm) ?_
  have timeline := h.timeline
  cases stands <;> exact (List.cons_prefix_cons.mp timeline).1.symm

theorem call (h : Retraced origin m stands) {operation : Operation}
    (committed : m.commits operation = true) :
    Retraced origin (m.step (.call operation)) (operation :: stands) := by
  have last : (m.step (.call operation)).present =
      (origin.run ((operation :: stands).reverse.map .call)).present := by
    have same := step_withoutHistory (origin.run (stands.reverse.map .call)) operation
    rw [h.withoutHistory, step_withoutHistory] at same
    rw [List.reverse_cons, List.map_append, run_append]
    exact present_eq same
  refine ⟨(setting_step _ _).trans h.setting, ?_⟩
  obtain ⟨next, events, -, eq⟩ := step_eq_commit committed
  rw [eq] at last ⊢
  rw [timeline_commit, List.take_succ_cons]
  exact List.cons_prefix_cons.mpr ⟨last, (List.take_prefix _ _).trans h.timeline⟩

theorem undo (h : Retraced origin m stands) {checkpoint : Checkpoint} {rest : List Checkpoint}
    (history : m.history = checkpoint :: rest) : Retraced origin (m.step .undo) stands.tail := by
  refine ⟨(setting_step _ _).trans h.setting, ?_⟩
  have timeline := h.timeline
  rw [step_undo_cons history]
  rw [Match.timeline, history] at timeline
  cases stands with
  | nil => simpa using timeline.length_le
  | cons operation earlier => exact (List.cons_prefix_cons.mp timeline).2

theorem run (h : Retraced origin m stands) (commands : List Command) :
    Retraced origin (m.run commands) (m.standing stands commands) := by
  induction commands generalizing m stands with
  | nil => exact h
  | cons command rest ih =>
      rw [run_cons]
      cases command with
      | call operation =>
          unfold standing
          cases committed : m.commits operation with
          | true => exact ih (h.call committed)
          | false =>
              rw [step_eq_self committed]
              exact ih h
      | undo =>
          unfold standing
          cases history : m.history with
          | nil =>
              rw [step_undo_nil history]
              exact ih h
          | cons checkpoint others => exact ih (h.undo history)

end Retraced

/-- Every run comes to what the operations that stand after it come to alone. -/
theorem run_standing (fresh : m.history = []) (commands : List Command) :
    (m.run ((m.standing [] commands).reverse.map .call)).withoutHistory =
      (m.run commands).withoutHistory := by
  have start : Retraced m m [] := ⟨rfl, by simp [timeline, fresh, Match.run]⟩
  exact (start.run commands).withoutHistory

end CardGame.Match
