import CardGame.Proofs.Transforms

/-! # Settled states

The last thing that settling does is to come to rest, so whatever an operation did and triggered, it
leaves the state settled. Settling such a state again publishes nothing and changes nothing.
-/

namespace CardGame

namespace State

variable {s t current : State}

theorem settleRounds_settled {limit left : Nat} {baseline current : State}
    {earlier events : List Event}
    (h : settleRounds limit baseline current earlier left = .ok (t, events)) :
    t.Settled ∧ 0 < left := by
  induction left generalizing baseline current earlier with
  | zero => cases h
  | succ left ih =>
      simp only [settleRounds, Outcome.bind_eq_ok] at h
      obtain ⟨resolved, -, r, rest, h⟩ := h
      refine ⟨?_, Nat.succ_pos left⟩
      split at h
      · cases h
        exact toRest_settled rest
      · exact (ih h).1

theorem perform_settled {config : Config} {operation : State → Outcome State} {events : List Event}
    (h : s.perform config operation = .ok (t, events)) : t.Settled ∧ 0 < config.maxEventRounds := by
  obtain ⟨after, -, h⟩ := Outcome.bind_eq_ok.mp h
  exact settleRounds_settled h

theorem Stages.settled {config : Config} {events : List Event} (h : Stages config s events t) :
    t.Settled ∧ 0 < config.maxEventRounds := by
  induction h with
  | last _ stage => exact perform_settled stage
  | next _ _ _ ih => exact ih

theorem Keyed.settleRounds (keyed : current.Keyed) {limit left : Nat} {baseline : State}
    {earlier events : List Event}
    (h : State.settleRounds limit baseline current earlier left = .ok (t, events)) : t.Keyed := by
  induction left generalizing baseline current earlier with
  | zero => cases h
  | succ left ih =>
      simp only [State.settleRounds, Outcome.bind_eq_ok] at h
      obtain ⟨resolved, dispatched, r, rest, h⟩ := h
      have wanes : Wanes current.derive current r.state :=
        (wanes_dispatch (derive_derive current) dispatched).trans
          (wanes_toRest (derive_derive current) rest)
      split at h
      · cases h
        exact wanes.keyed keyed
      · exact ih (wanes.keyed keyed) h

/-- A stage leaves the cards their numbers. -/
theorem Keyed.perform (keyed : s.Keyed) {config : Config} {transform : Transform}
    {events : List Event} (h : s.perform config (transform.run config) = .ok (t, events)) :
    t.Keyed := by
  obtain ⟨after, run, h⟩ := Outcome.bind_eq_ok.mp h
  have ran : after.Keyed := transform.keyed (keyed.congr (layout_strip s)) run
  exact (ran.congr (layout_derive after)).settleRounds h

/-- Nothing dies while everything in play stays in play. -/
theorem Keyed.deaths_eq_nil (keyed : s.Keyed)
    (stays : ∀ id, s.isOnBattlefield id = true → t.isOnBattlefield id = true) : s.deaths t = [] := by
  unfold deaths
  rw [List.map_eq_nil_iff, List.filter_eq_nil_iff]
  rintro ⟨id, c⟩ creature
  have inPlay : t.zoneKind? id = some .battlefield :=
    of_decide_eq_true (stays id (decide_eq_true (keyed.zoneKind?_of_creature creature)))
  simp [inPlay]

theorem Keyed.deaths_of_layout (keyed : s.Keyed) (same : t.layout = s.layout) : s.deaths t = [] :=
  keyed.deaths_eq_nil fun id inPlay => by rwa [isOnBattlefield, zoneKind?_congr same]

/-- Where nothing is left to do and everything in play stays in play, settling only derives
    characteristics. -/
theorem Keyed.settle_of_settled (keyed : s.Keyed) {after : State} (settled : after.derive.Settled)
    (stays : ∀ id, s.isOnBattlefield id = true → after.isOnBattlefield id = true) {rounds : Nat}
    (some : 0 < rounds) : State.settle rounds s after = .ok (after.derive, []) := by
  obtain ⟨left, rfl⟩ := Nat.exists_eq_add_one.mpr some
  have still : s.deaths after.derive = [] := by
    refine keyed.deaths_eq_nil fun id inPlay => ?_
    rw [isOnBattlefield, zoneKind?_congr (layout_derive after)]
    exact stays id inPlay
  rw [State.settle, State.settleRounds, still]
  simp only [Outcome.bind_eq_ok]
  exact ⟨after.derive, rfl, ⟨after.derive, 0⟩, settled.toRest, rfl⟩

theorem Settled.settle (h : s.Settled) (keyed : s.Keyed) {rounds : Nat} (some : 0 < rounds) :
    State.settle rounds s s = .ok (s, []) := by
  have settled : s.derive.Settled := by rwa [h.derived]
  rw [keyed.settle_of_settled settled (fun _ inPlay => inPlay) some, h.derived]

end State

end CardGame
