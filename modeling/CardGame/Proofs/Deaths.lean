import CardGame.Proofs.Settling
import CardGame.Proofs.Transforms

/-! # Published deaths

Deaths are not noted where they happen. Settling finds them by comparing states, and each round
compares with the state that the round before compared. So every death is published, in the round
after it happened, and none is published twice.
-/

namespace CardGame

namespace State

variable {s t : State} {events : List Event}

theorem dispatch_nil (s : State) : s.dispatch [] = .ok s := rfl

/-- Rounds of settling publish what died on the way to their first state, and what dies from there
    until they end. -/
theorem course_of_settleRounds {limit left : Nat} {baseline current : State}
    {earlier : List Event} {trace : List Happening} (orderly : baseline.Orderly)
    (derived : current.derive = current) (course : Course baseline trace current)
    (only : ∀ event ∈ deathsIn trace, baseline.isCreatureInPlay event.subject = true)
    (h : settleRounds limit baseline current earlier left = .ok (t, events)) :
    ∃ later published, Course current later t ∧ events = earlier ++ published ∧
      published.Perm (deathsIn trace ++ deathsIn later) := by
  induction left generalizing baseline current earlier trace with
  | zero => cases h
  | succ left ih =>
      have found := course.perm_deaths orderly only
      simp only [settleRounds, Outcome.bind_eq_ok] at h
      obtain ⟨resolved, dispatched, r, rest, h⟩ := h
      split at h
      · rename_i quiet
        cases h
        obtain ⟨none, unchanged⟩ : baseline.deaths current = [] ∧ r.passes = 0 := by
          simpa [AtRest.changed] using quiet
        rw [none, dispatch_nil] at dispatched
        cases dispatched
        rw [toRest_unchanged derived rest unchanged]
        exact ⟨[], _, .done _, rfl, by simpa [deathsIn] using found⟩
      · have wanes : Wanes current current r.state :=
          (wanes_dispatch derived dispatched).trans (wanes_toRest derived rest)
        have orderly := course.orderly orderly
        obtain ⟨round, course, only⟩ := wanes.leads orderly orderly.keyed (Within.refl current)
        obtain ⟨later, published, more, rfl, perm⟩ :=
          ih orderly (toRest_settled rest).derived course only h
        refine ⟨round ++ later, _, course.trans more, List.append_assoc .., ?_⟩
        rw [deathsIn_append]
        exact found.append perm

/-- The course of a stage, up to where it settles and from there on. -/
theorem course_of_settle {config : Config} {transform : Transform} {after : State} {rounds : Nat}
    (orderly : s.Orderly) (derived : s.derive = s)
    (run : transform.run config s.strip = .ok after)
    (h : settle rounds s after = .ok (t, events)) :
    ∃ trace later, Course s trace after ∧ Course after later t ∧
      events.Perm (deathsIn (trace ++ later)) := by
  obtain ⟨trace, course, only⟩ := transform.leads derived orderly run
  have same : Course after [] after.derive := .of_layout (layout_derive after)
  obtain ⟨later, published, more, rfl, perm⟩ := course_of_settleRounds orderly
    (derive_derive after) (by simpa using course.trans same) only h
  exact ⟨trace, later, course, same.trans more, by rwa [deathsIn_append]⟩

theorem course_of_perform {config : Config} {transform : Transform} (orderly : s.Orderly)
    (derived : s.derive = s) (h : s.perform config (transform.run config) = .ok (t, events)) :
    ∃ trace, Course s trace t ∧ events.Perm (deathsIn trace) := by
  obtain ⟨after, run, h⟩ := Outcome.bind_eq_ok.mp h
  obtain ⟨trace, later, course, more, perm⟩ := course_of_settle orderly derived run h
  exact ⟨trace ++ later, course.trans more, perm⟩

theorem Orderly.perform {config : Config} {transform : Transform} (orderly : s.Orderly)
    (derived : s.derive = s) (h : s.perform config (transform.run config) = .ok (t, events)) :
    t.Orderly := by
  obtain ⟨trace, course, -⟩ := course_of_perform orderly derived h
  exact course.orderly orderly

theorem Stages.course {config : Config} (h : Stages config s events t) (orderly : s.Orderly)
    (derived : s.derive = s) : ∃ trace, Course s trace t ∧ events.Perm (deathsIn trace) := by
  induction h with
  | last _ stage => exact course_of_perform orderly derived stage
  | next _ stage _ ih =>
      obtain ⟨trace, course, perm⟩ := course_of_perform orderly derived stage
      obtain ⟨later, more, perm'⟩ := ih (course.orderly orderly) (perform_settled stage).1.derived
      exact ⟨trace ++ later, course.trans more, by rw [deathsIn_append]; exact perm.append perm'⟩

end State

end CardGame
