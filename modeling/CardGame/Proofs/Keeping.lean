import CardGame.Proofs.Calendar

/-! # What players keep

Whatever is kept of the players that neither life nor mana touches, a stage keeps it, but for a land that
is played and for the untapping at the beginning of a turn. While a moment begins, it is enough that life
does not touch it.
-/

namespace CardGame

/-- The number of lands played does not matter to what is kept of a player. -/
def IgnoresLands {α : Type} (keep : Player → α) : Prop :=
  ∀ (p : Player) (lands : Nat), keep { p with landsPlayed := lands } = keep p

namespace State

variable {α : Type} {keep : Player → α} {config : Config} {s t : State}

theorem kept_tapAttackers (s view : State) (attackers : List CardId) :
    (s.tapAttackers view attackers).kept keep = s.kept keep := by
  unfold tapAttackers
  induction attackers generalizing s with
  | nil => rfl
  | cons first rest ih =>
      rw [List.foldl_cons, ih]
      split <;> rfl

theorem kept_enter {id : CardId} {seat : Seat} (h : s.enter id seat = .ok t) :
    t.kept keep = s.kept keep := by
  obtain ⟨c, p, source, kind, -, -, -, -, rfl⟩ := enter_eq_ok h
  rfl

theorem kept_changeCards {ids : List CardId} {f : Card → Card} (h : s.changeCards ids f = .ok t) :
    t.kept keep = s.kept keep := by
  obtain ⟨-, rfl⟩ := changeCards_eq_ok.mp h
  exact updateCards_congr s (fun _ _ => rfl) ids

section Life

variable (life : IgnoresLife keep)
include life

theorem kept_toRest {r : AtRest} (h : s.toRest = .ok r) : r.state.kept keep = s.kept keep :=
  toRest_invariant (P := fun t => t.kept keep = s.kept keep)
    (fun t same => (Ripples.derive t).kept.trans same)
    (fun t same => (ripples_markLosers life t).kept.trans same)
    (fun buried same => (congrArg (List.map keep) (players_bury buried)).trans same) rfl h

theorem kept_dealDamage {defending : Seat} {plan : DamagePlan}
    (h : s.dealDamage defending plan = .ok t) : t.kept keep = s.kept keep :=
  dealDamage_relates (R := fun s t => t.kept keep = s.kept keep) (fun _ => rfl)
    (fun first rest => rest.trans first) (fun _ _ _ => rfl)
    (fun s seat _ => kept_updatePlayer s seat fun p => life p _ p.hasLost) h

theorem kept_combatDamage (h : s.combatDamage = .ok t) : t.kept keep = s.kept keep :=
  combatDamage_relates (R := fun s t => t.kept keep = s.kept keep) (fun _ => rfl)
    (fun first rest => rest.trans first) (fun s => (Ripples.derive s).kept)
    (fun _ _ _ dealt => kept_dealDamage life dealt) (kept_toRest life) h

/-- Once the pools are empty, nothing more happens to players at the beginning of a moment but to their
    lives and, where a turn begins, to their allotment of lands. -/
theorem kept_beginMoment (lands : s.moment.step = some .untap → IgnoresLands keep)
    (h : s.beginMoment config = .ok t) : t.kept keep = s.emptyPools.kept keep := by
  unfold beginMoment at h
  dsimp only at h
  split at h
  · rename_i step
    obtain ⟨ready, changed, h⟩ := Outcome.bind_eq_ok.mp h
    cases h
    exact (kept_updateSeats ready fun p => lands step p 0).trans (kept_changeCards changed)
  · exact (ripples_drawStep h).kept
  · exact kept_combatDamage life h
  · cases h
    rfl
  · exact kept_changeCards h
  · cases h
    rfl

section Mana

variable (mana : IgnoresMana keep)
include mana

theorem kept_settle {rounds : Nat} {before after : State} {events : List Event}
    (h : settle rounds before after = .ok (t, events)) : t.kept keep = after.kept keep := by
  have settling {limit left : Nat} {baseline current : State} {earlier : List Event}
      (h : settleRounds limit baseline current earlier left = .ok (t, events)) :
      t.kept keep = current.kept keep := by
    induction left generalizing baseline current earlier with
    | zero => cases h
    | succ left ih =>
        simp only [settleRounds, Outcome.bind_eq_ok] at h
        obtain ⟨resolved, dispatched, r, rest, h⟩ := h
        have round : r.state.kept keep = current.kept keep := (kept_toRest life rest).trans
          (ripples_dispatch life (.of_ignoresMana mana current) dispatched).kept
        split at h
        · cases h
          exact round
        · exact (ih h).trans round
  exact (settling h).trans (Ripples.derive after).kept

theorem kept_pay {cost : ActivationCost} {source : CardId} {player : Seat}
    (h : cost.pay s source player = .ok t) : t.kept keep = s.kept keep := by
  obtain ⟨_, -, h⟩ := Outcome.bind_eq_ok.mp h
  cases cost with
  | tap =>
      cases h
      rfl
  | mana cost =>
      cases h
      exact kept_updatePlayer s player fun p => mana p _
  | payLife amount =>
      cases h
      exact kept_updatePlayer s player fun p => life p _ p.hasLost

theorem kept_activate {player : Seat} {id : CardId} {ability : AbilityId} {targets : List CardId}
    (h : s.activate player id ability targets = .ok t) : t.kept keep = s.kept keep := by
  simp only [activate, ActivatedAbility.activate, Outcome.bind_eq_ok] at h
  obtain ⟨-, -, a, -, next, ⟨-, -, -, -, paid, payment, resolved⟩, h⟩ := h
  cases h
  have paying : paid.kept keep = s.derive.kept keep :=
    Outcome.foldlM_preserves (P := fun t => t.kept keep = s.derive.kept keep)
      (fun _ _ _ _ step same => (kept_pay life mana step).trans same) payment rfl
  have acted : next.kept keep = paid.kept keep := (ripples_resolve life (mana.spares _) resolved).kept
  exact acted.trans (paying.trans (Ripples.derive s).kept)

theorem kept_pass {outcome : PassOutcome} (h : s.pass = .ok (t, outcome)) :
    t.kept keep = s.kept keep := by
  obtain ⟨-, -, rfl⟩ | ⟨-, -, -, rfl⟩ | ⟨top, next, -, -, -, resolved, rfl⟩ := pass_cases h
  · rfl
  · rfl
  · obtain ⟨c, -, resolved⟩ := Outcome.bind_eq_ok.mp resolved
    split at resolved
    · exact (kept_enter resolved :)
    · obtain ⟨mid, effects, buried⟩ := Outcome.bind_eq_ok.mp resolved
      have same : next.kept keep = mid.kept keep := congrArg (List.map keep) (players_bury buried)
      exact same.trans (ripples_resolveEffects life mana effects).kept

end Mana

end Life

theorem kept_cast (mana : IgnoresMana keep) {player : Seat} {id : CardId} {targets : List CardId}
    (h : s.cast player id targets = .ok t) : t.kept keep = s.kept keep := by
  simp only [cast, Outcome.bind_eq_ok] at h
  obtain ⟨-, -, c, -, cost, -, next, pushed, h⟩ := h
  cases h
  obtain ⟨c, source, kind, -, -, -, rfl⟩ := putOnStack_eq_ok pushed
  exact kept_updatePlayer s player fun p => mana p _

end State

open State

/-- A stage keeps what neither life nor mana touches, unless a land is played or a moment ends. -/
theorem Transform.kept {α : Type} {keep : Player → α} (life : IgnoresLife keep)
    (mana : IgnoresMana keep) {config : Config} {transform : Transform} {s t : State}
    (noLand : ∀ player card, transform ≠ .playLand player card)
    (noEnd : ∀ player, transform ≠ .endMoment player) (run : transform.run config s = .ok t) :
    t.kept keep = s.kept keep := by
  cases transform with
  | playLand player card => exact absurd rfl (noLand player card)
  | cast player card targets => exact kept_cast mana run
  | activate player card ability targets => exact kept_activate life mana run
  | pass =>
      obtain ⟨⟨next, outcome⟩, passed, run⟩ := Outcome.bind_eq_ok.mp run
      cases run
      exact kept_pass life mana passed
  | endMoment player => exact absurd rfl (noEnd player)
  | declareAttackers player attackers =>
      obtain ⟨next, declared, run⟩ := Outcome.bind_eq_ok.mp run
      cases run
      obtain ⟨-, -, -, -, -, rfl⟩ := declareAttackers_eq_ok.mp declared
      exact kept_tapAttackers s s.derive attackers
  | declareBlockers player blocks =>
      obtain ⟨next, declared, run⟩ := Outcome.bind_eq_ok.mp run
      cases run
      obtain ⟨-, combat, after, -, -, -, rfl⟩ := declareBlockers_eq_ok.mp declared
      rfl
  | stay =>
      cases run
      rfl

/-- A deal leaves the players as they are at the empty table. -/
theorem Match.players_start {config : Config} {generator : Generator} {catalog : Catalog}
    {registry : Registry} {decks : List (List DefinitionId)} {m : Match}
    (started : start config catalog registry decks generator = .ok m) :
    m.state.players = (State.initial config.playerCount config.startingLife).players := by
  let first := State.initial config.playerCount config.startingLife
  refine (start_induction started (P := fun s => s.players = first.players) rfl
    (fun _ _ created same => ?_) (fun {s t seat size} _ drawn same => ?_)
    fun {s} _ same => (players_derive s).trans same).2
  · obtain ⟨abilities, n, rfl, -⟩ := create_eq_ok created
    exact same
  · have kept : t.kept id = s.kept id := (ripples_drawMany drawn).kept
    rw [State.kept, State.kept, List.map_id, List.map_id] at kept
    exact kept.trans same

end CardGame
