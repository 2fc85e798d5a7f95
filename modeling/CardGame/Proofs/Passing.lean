import CardGame.Proofs.Deaths
import CardGame.Proofs.Tempo

/-! # Passing priority

A pass hands priority on or, where it is the last that was missing, lets the top of the stack resolve.
That spell leaves the stack, and settling afterwards does not touch the stack.
-/

namespace CardGame

namespace State

variable {base s t : State}

theorem stack_eq_contents (s : State) : s.stack = s.contents s.stackZone := rfl

theorem stack_congr (same : t.layout = s.layout) : t.stack = s.stack := by
  rw [stack_eq_contents, contents_congr same, stackZone_congr same, stack_eq_contents]

/-- Of the places where a card of a player can be, only the stack is a stack. -/
theorem Orderly.eq_stackZone (h : s.Orderly) {seat : Seat} {p : Player}
    (hp : s.player? seat = some p) {zone : ZoneId} (member : zone ∈ s.homes p) :
    zone = s.stackZone ↔ s.kindOfZone? zone = some .stack := by
  refine ⟨fun same => same ▸ h.stack, fun kind => ?_⟩
  simp only [homes, List.mem_cons, List.not_mem_nil, or_false] at member
  rcases member with rfl | rfl | rfl | rfl | rfl
  · simp [h.hand hp] at kind
  · simp [h.library hp] at kind
  · simp [h.graveyard hp] at kind
  · simp [h.battlefield hp] at kind
  · rfl

theorem Happens.stack (h : s.Orderly) {happening : Happening} (happens : s.Happens happening t) :
    t.stack = (if happening.source = .stack then s.stack.erase happening.card else s.stack) ++
      if happening.target = .stack then [happening.card] else [] := by
  obtain ⟨c, c', passage, rfl, source, target⟩ := happens.passage h
  obtain ⟨p, hp⟩ := h.owned passage.found
  have left := h.eq_stackZone hp (h.home passage.found hp)
  have entered := h.eq_stackZone hp (passage.home hp)
  rw [source, Option.some.injEq] at left
  rw [target, Option.some.injEq] at entered
  show (s.relocate happening.card c.zone c').contents s.stackZone = _
  rw [contents_relocate s _ _ _ (Option.isSome_iff_exists.mpr ⟨_, target⟩)]
  simp only [eq_comm (a := s.stackZone), left, entered]
  rfl

/-- While play wanes, nothing happens to the stack. -/
theorem Course.stack {trace : List Happening} (course : Course s trace t) (h : s.Orderly)
    (takes : ∀ happening ∈ trace, base.Takes happening) : t.stack = s.stack := by
  induction course with
  | done => rfl
  | still same _ ih => rw [ih (h.congr same) takes, stack_congr same]
  | @next s t u happening trace happens _ ih =>
      have shifts := happens.shifts h
      rw [ih shifts.orderly fun later member => takes later (List.mem_cons_of_mem _ member),
        happens.stack h]
      have taken := takes happening List.mem_cons_self
      cases happening <;> simp [Takes, Happening.source, Happening.target] at taken ⊢

theorem Wanes.stack (wanes : Wanes base s t) (h : s.Orderly) (keyed : base.Keyed)
    (within : s.Within base) : t.stack = s.stack := by
  obtain ⟨-, trace, course, takes⟩ := wanes.play h keyed within
  exact course.stack h takes

theorem stack_resolveCard (h : s.Orderly) {id : CardId} (onStack : s.zoneKind? id = some .stack)
    (resolved : s.resolveCard id = .ok t) : t.stack = s.stack.erase id := by
  obtain ⟨c, -, ⟨-, -, entered⟩ | ⟨context, next, effects, spent⟩⟩ :=
    resolveCard_cases h onStack resolved
  · simpa [Happening.source, Happening.target, Happening.card] using entered.stack h
  · have wanes : Wanes s s next := wanes_resolveEffects effects
    simpa [Happening.source, Happening.target, Happening.card, wanes.stack h h.keyed (.refl s)] using
      spent.stack (wanes.orderly h)

theorem Orderly.erase_top (h : s.Orderly) {top : CardId} (isTop : s.stack.getLast? = some top) :
    s.zoneKind? top = some .stack ∧ s.stack.erase top = s.stack.dropLast := by
  obtain ⟨c, found, zone⟩ := h.known (List.mem_of_getLast? isTop)
  exact ⟨by rw [zoneKind?_of_card? found, zone, h.stack], h.erase_last isTop⟩

theorem stack_settleRounds {limit left : Nat} {baseline current : State}
    {earlier events : List Event} (h : current.Orderly) (derived : current.derive = current)
    (settled : settleRounds limit baseline current earlier left = .ok (t, events)) :
    t.stack = current.stack := by
  induction left generalizing baseline current earlier with
  | zero => cases settled
  | succ left ih =>
      simp only [settleRounds, Outcome.bind_eq_ok] at settled
      obtain ⟨resolved, dispatched, r, rest, settled⟩ := settled
      have wanes : Wanes current current r.state :=
        (wanes_dispatch derived dispatched).trans (wanes_toRest derived rest)
      have round := wanes.stack h h.keyed (Within.refl current)
      split at settled
      · cases settled
        exact round
      · exact (ih (wanes.orderly h) (toRest_settled rest).derived settled).trans round

theorem stack_settle {before after : State} {rounds : Nat} {events : List Event}
    (h : after.Orderly) (settled : settle rounds before after = .ok (t, events)) :
    t.stack = after.stack := by
  have same := layout_derive after
  rw [stack_settleRounds (h.congr same) (derive_derive after) settled, stack_congr same]

/-- A pass that completes a round takes the top off the stack, and any other leaves it alone. -/
theorem stack_pass {outcome : PassOutcome} (h : s.Orderly) (passed : s.pass = .ok (t, outcome)) :
    t.stack = if outcome = .passed then s.stack else s.stack.dropLast := by
  obtain ⟨rfl, -, rfl⟩ | ⟨rfl, -, empty, rfl⟩ | ⟨top, next, rfl, -, isTop, resolved, rfl⟩ :=
    pass_cases passed
  · rfl
  · show s.stack = _
    simp [empty]
  · obtain ⟨onStack, rest⟩ := h.erase_top isTop
    have counted : { s with passes := s.passes + 1 }.Orderly := h.congr rfl
    exact (stack_resolveCard counted onStack resolved).trans rest

theorem tempo_pass {outcome : PassOutcome} (passed : s.pass = .ok (t, outcome)) :
    (outcome = .passed ↔ s.passes + 1 < s.playerCount) ∧
      t.tempo =
        if outcome = .passed then
          { s.tempo with passes := s.passes + 1, priorityPlayer := s.nextSeat s.priorityPlayer }
        else { s.tempo with passes := 0, priorityPlayer := s.activePlayer } := by
  obtain ⟨rfl, early, rfl⟩ | ⟨rfl, last, -, rfl⟩ | ⟨top, next, rfl, last, -, resolved, rfl⟩ :=
    pass_cases passed
  · exact ⟨iff_of_true rfl early, rfl⟩
  · exact ⟨iff_of_false nofun (Nat.not_lt.mpr last), rfl⟩
  · refine ⟨iff_of_false nofun (Nat.not_lt.mpr last), ?_⟩
    change { next.tempo with passes := 0, priorityPlayer := next.tempo.activePlayer } = _
    rw [tempo_resolveCard resolved]
    rfl

/-- The same state, but somebody else may act, after so many passes. -/
def withPriority (s : State) (player : Seat) (passes : Nat) : State :=
  { s with priorityPlayer := player, passes := passes }

theorem derive_withPriority (s : State) (player : Seat) (passes : Nat) :
    (s.withPriority player passes).derive = s.derive.withPriority player passes := by
  have derived := derive_withBoard (s.withPriority player passes) s
  rw [derive_eq s] at derived ⊢
  exact derived

theorem Settled.withPriority (h : s.Settled) (player : Seat) (passes : Nat) :
    (s.withPriority player passes).Settled where
  derived := by rw [derive_withPriority, h.derived]
  alive := h.alive
  healthy := h.healthy

/-- Where nothing was left to do, a pass on which nothing resolves does no more than to say who may act
    next. -/
theorem Settled.settle_withPriority (h : s.Settled) (keyed : s.Keyed) (player : Seat)
    (passes : Nat) {rounds : Nat} (some : 0 < rounds) :
    State.settle rounds s (s.strip.withPriority player passes) =
      .ok (s.withPriority player passes, []) := by
  have derived : (s.strip.withPriority player passes).derive = s.withPriority player passes := by
    rw [derive_withPriority, derive_strip, h.derived]
  have settled := h.withPriority player passes
  have stays (id : CardId) (inPlay : s.isOnBattlefield id = true) :
      (s.strip.withPriority player passes).isOnBattlefield id = true := by
    have same : (s.strip.withPriority player passes).layout = s.layout := layout_strip s
    rwa [isOnBattlefield, zoneKind?_congr same]
  rw [← derived] at settled ⊢
  exact keyed.settle_of_settled settled stays some

end State

/-- What passing comes to for a match: a pass of the player with priority, and settling after it. -/
theorem Match.pass_eq_ok {m next : Match} {player : Seat} {events : List Event}
    (h : m.call (.act player .passPriority) = .ok (next, events)) :
    m.state.priorityPlayer = player ∧ (m.state.player? player).isSome ∧
      ∃ after outcome, m.state.strip.pass = .ok (after, outcome) ∧
        State.settle m.config.maxEventRounds m.state after = .ok (next.state, events) := by
  simp only [call, apply, Outcome.bind_eq_ok] at h
  obtain ⟨_, -, p, seated, _, holds, ⟨state, more⟩, acted, h⟩ := h
  cases h
  obtain ⟨after, passed, settled⟩ := Outcome.bind_eq_ok.mp acted
  obtain ⟨⟨after, outcome⟩, passed, same⟩ := Outcome.bind_eq_ok.mp passed
  cases same
  refine ⟨?_, ?_, after, outcome, passed, settled⟩
  · simpa [State.requirePriority, Outcome.require_eq_ok] using holds
  · exact Option.isSome_iff_exists.mpr ⟨p, State.player_eq_ok.mp seated⟩

end CardGame
