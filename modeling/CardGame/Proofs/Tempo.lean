import CardGame.Proofs.Rest
import CardGame.Proofs.Stages

/-! # The tempo of a game

Whose turn it is, where the turn stands, who may act and how many have passed: apart from the ends of
moments, passes and declarations nothing changes that but to note that somebody acted. Effects and
state-based actions leave it as it is.
-/

namespace CardGame

/-- All of a state but its players, zones and cards. -/
structure Tempo where
  /-- The number of players. -/
  seats : Nat
  activePlayer : Seat
  priorityPlayer : Seat
  turn : Nat
  moment : Moment
  passes : Nat
  combat : Option Combat

namespace State

def tempo (s : State) : Tempo where
  seats := s.playerCount
  activePlayer := s.activePlayer
  priorityPlayer := s.priorityPlayer
  turn := s.turn
  moment := s.moment
  passes := s.passes
  combat := s.combat

variable {s t u : State}

section SameTempo

variable (same : t.tempo = s.tempo)
include same

theorem playerCount_of_tempo : t.playerCount = s.playerCount := congrArg Tempo.seats same

theorem activePlayer_of_tempo : t.activePlayer = s.activePlayer := congrArg Tempo.activePlayer same

theorem priorityPlayer_of_tempo : t.priorityPlayer = s.priorityPlayer :=
  congrArg Tempo.priorityPlayer same

theorem passes_of_tempo : t.passes = s.passes := congrArg Tempo.passes same

end SameTempo

theorem tempo_mapPlayers (s : State) (f : Player → Player) :
    { s with players := s.players.map f }.tempo = s.tempo := by
  simp [tempo, playerCount]

theorem tempo_updateSeats (s : State) (f : Player → Player) :
    (s.updateSeats f).tempo = s.tempo := by
  simp [tempo, playerCount, updateSeats]

theorem tempo_updatePlayer (s : State) (seat : Seat) (f : Player → Player) :
    (s.updatePlayer seat f).tempo = s.tempo := by
  simp [tempo, playerCount, updatePlayer]

theorem tempo_changeCards {ids : List CardId} {f : Card → Card} (h : s.changeCards ids f = .ok t) :
    t.tempo = s.tempo := by
  obtain ⟨-, rfl⟩ := changeCards_eq_ok.mp h
  exact updateCards_congr s (fun _ _ => rfl) ids

theorem tempo_derive (s : State) : s.derive.tempo = s.tempo := by
  rw [derive_eq]
  rfl

theorem tempo_foldl {α : Type} {f : State → α → State} {items : List α}
    (step : ∀ s a, (f s a).tempo = s.tempo) : (items.foldl f s).tempo = s.tempo := by
  induction items generalizing s with
  | nil => rfl
  | cons a rest ih => exact ih.trans (step s a)

/-- No step of a fold that succeeds changes the tempo. -/
theorem tempo_foldlM {α : Type} {f : State → α → Outcome State} {items : List α}
    (step : ∀ s, ∀ a ∈ items, ∀ t, f s a = .ok t → t.tempo = s.tempo)
    (h : items.foldlM f s = .ok t) : t.tempo = s.tempo :=
  Outcome.foldlM_preserves (P := fun t => t.tempo = s.tempo)
    (fun s a member t first same => (step s a member t first).trans same) h rfl

/-- The tempo is the same and so are the types of all cards, wherever they are. -/
structure Alike (s t : State) : Prop where
  tempo : t.tempo = s.tempo
  types : t.types = s.types

namespace Alike

theorem refl (s : State) : s.Alike s := ⟨rfl, rfl⟩

theorem trans (first : s.Alike t) (rest : t.Alike u) : s.Alike u :=
  ⟨rest.tempo.trans first.tempo, rest.types.trans first.types⟩

theorem updatePlayer (s : State) (seat : Seat) (f : Player → Player) :
    s.Alike (s.updatePlayer seat f) :=
  ⟨tempo_updatePlayer s seat f, rfl⟩

end Alike

theorem alike_move {id : CardId} {target : ZoneId} (h : s.move id target = .ok t) : s.Alike t := by
  obtain ⟨c, source, kind, found, -, -, rfl⟩ := move_eq_ok.mp h
  refine ⟨rfl, ?_⟩
  funext other
  rw [types, types, card?_relocate]
  split
  · rename_i same
    simp [same, found, Card.characteristics_movedTo]
  · rfl

theorem alike_bury {id : CardId} (h : s.bury id = .ok t) : s.Alike t := by
  simp only [bury, Outcome.bind_eq_ok] at h
  obtain ⟨_, -, _, -, moved⟩ := h
  exact alike_move moved

theorem alike_draw {seat : Seat} {drawn : Option CardId} (h : s.draw seat = .ok (t, drawn)) :
    s.Alike t := by
  cases drawn with
  | none =>
      rw [draw_eq_none h]
      exact .refl s
  | some id =>
      obtain ⟨_, -, -, moved⟩ := draw_eq_some h
      exact alike_move moved

theorem alike_drawMany {seat : Seat} {n : Nat} (h : s.drawMany seat n = .ok t) : s.Alike t := by
  induction n generalizing s with
  | zero =>
      cases h
      exact .refl _
  | succ n ih =>
      rw [drawMany, Outcome.bind_eq_ok] at h
      obtain ⟨⟨next, drawn⟩, drew, h⟩ := h
      cases drawn with
      | none =>
          cases h
          exact alike_draw drew
      | some id => exact (alike_draw drew).trans (ih h)

theorem alike_destroy {ids : List CardId} (h : s.destroy ids = .ok t) : s.Alike t := by
  induction ids generalizing s with
  | nil =>
      cases h
      exact .refl _
  | cons id rest ih =>
      rw [destroy] at h
      split at h
      · obtain ⟨next, buried, h⟩ := Outcome.bind_eq_ok.mp h
        exact (alike_bury buried).trans (ih h)
      · exact ih h

end State

open State

variable {s t : State}

theorem Effect.alike {effect : Effect} {context : EffectContext}
    (h : effect.resolve s context = .ok t) : s.Alike t := by
  cases effect with
  | addMana color amount =>
      obtain ⟨p, -, h⟩ := Outcome.bind_eq_ok.mp h
      cases h
      exact .updatePlayer s _ _
  | gainLife amount =>
      obtain ⟨p, -, h⟩ := Outcome.bind_eq_ok.mp h
      cases h
      exact .updatePlayer s _ _
  | destroy target =>
      cases target with
      | source => exact alike_destroy h
      | chosen => exact alike_destroy h
  | drawCards count => exact alike_drawMany h

theorem ActivationCost.tempo_pay {cost : ActivationCost} {source : CardId} {player : Seat}
    (h : cost.pay s source player = .ok t) : t.tempo = s.tempo := by
  obtain ⟨_, -, h⟩ := Outcome.bind_eq_ok.mp h
  cases cost with
  | tap =>
      cases h
      rfl
  | mana cost =>
      cases h
      exact tempo_updatePlayer s player _
  | payLife amount =>
      cases h
      exact tempo_updatePlayer s player _

namespace State

theorem tempo_resolveEffects {context : EffectContext} {effects : List Descriptor}
    (h : s.resolveEffects context effects = .ok t) : t.tempo = s.tempo := by
  refine tempo_foldlM (fun s d _ t step => ?_) h
  obtain ⟨effect, -, step⟩ := Outcome.bind_eq_ok.mp step
  exact (Effect.alike step).tempo

theorem tempo_enter {id : CardId} {seat : Seat} (h : s.enter id seat = .ok t) :
    t.tempo = s.tempo := by
  obtain ⟨c, p, source, kind, -, -, -, -, rfl⟩ := enter_eq_ok h
  rfl

theorem tempo_resolveCard {id : CardId} (h : s.resolveCard id = .ok t) : t.tempo = s.tempo := by
  obtain ⟨c, -, h⟩ := Outcome.bind_eq_ok.mp h
  split at h
  · exact tempo_enter h
  · obtain ⟨next, effects, buried⟩ := Outcome.bind_eq_ok.mp h
    exact (alike_bury buried).tempo.trans (tempo_resolveEffects effects)

theorem tempo_toRest {r : AtRest} (h : s.toRest = .ok r) : r.state.tempo = s.tempo :=
  toRest_invariant (P := fun t => t.tempo = s.tempo) (fun t same => (tempo_derive t).trans same)
    (fun t same => (tempo_updateSeats t _).trans same)
    (fun buried same => (alike_bury buried).tempo.trans same) rfl h

theorem tempo_dispatch {events : List Event} (h : s.dispatch events = .ok t) :
    t.tempo = s.tempo := by
  refine tempo_foldlM (fun s event _ t h => tempo_foldlM (fun s ability _ t step => ?_) h) h
  obtain ⟨next, resolved, step⟩ := Outcome.bind_eq_ok.mp step
  cases step
  obtain ⟨controller, -, resolved⟩ := Outcome.bind_eq_ok.mp resolved
  rw [tempo_derive, (Effect.alike resolved).tempo]

theorem tempo_settleRounds {limit left : Nat} {baseline current : State} {earlier events : List Event}
    (h : settleRounds limit baseline current earlier left = .ok (t, events)) :
    t.tempo = current.tempo := by
  induction left generalizing baseline current earlier with
  | zero => cases h
  | succ left ih =>
      simp only [settleRounds, Outcome.bind_eq_ok] at h
      obtain ⟨resolved, dispatched, r, rest, h⟩ := h
      have round : r.state.tempo = current.tempo :=
        (tempo_toRest rest).trans (tempo_dispatch dispatched)
      split at h
      · cases h
        exact round
      · exact (ih h).trans round

theorem tempo_settle {rounds : Nat} {before after : State} {events : List Event}
    (h : settle rounds before after = .ok (t, events)) : t.tempo = after.tempo :=
  (tempo_settleRounds h).trans (tempo_derive after)

theorem tempo_playLand {player : Seat} {id : CardId} (h : s.playLand player id = .ok t) :
    t.tempo = { s.tempo with passes := 0 } := by
  simp only [playLand, Outcome.bind_eq_ok] at h
  obtain ⟨-, -, next, entered, h⟩ := h
  cases h
  rw [← tempo_enter entered, ← tempo_updatePlayer next player]
  rfl

theorem tempo_cast {player : Seat} {id : CardId} {targets : List CardId}
    (h : s.cast player id targets = .ok t) : t.tempo = { s.tempo with passes := 0 } := by
  simp only [cast, Outcome.bind_eq_ok] at h
  obtain ⟨-, -, c, -, cost, -, next, pushed, h⟩ := h
  cases h
  obtain ⟨c, source, kind, -, -, -, rfl⟩ := putOnStack_eq_ok pushed
  rw [← tempo_updatePlayer s player]
  rfl

theorem tempo_activate {player : Seat} {id : CardId} {ability : AbilityId} {targets : List CardId}
    (h : s.activate player id ability targets = .ok t) :
    t.tempo = { s.tempo with passes := 0 } := by
  simp only [activate, ActivatedAbility.activate, Outcome.bind_eq_ok] at h
  obtain ⟨-, -, a, -, next, ⟨-, -, -, -, paid, payment, resolved⟩, h⟩ := h
  cases h
  rw [← tempo_derive s, ← tempo_foldlM (fun _ _ _ _ => ActivationCost.tempo_pay) payment,
    ← (Effect.alike resolved).tempo]
  rfl

theorem tempo_tapAttackers (s view : State) (attackers : List CardId) :
    (s.tapAttackers view attackers).tempo = s.tempo := by
  refine tempo_foldl fun s attacker => ?_
  split <;> rfl

theorem tempo_declareAttackers {player : Seat} {attackers : List CardId}
    (h : s.declareAttackers player attackers = .ok t) :
    t.tempo = { s.tempo with combat := t.combat } := by
  simp only [declareAttackers, Outcome.bind_eq_ok] at h
  obtain ⟨-, -, -, -, -, -, combat, -, h⟩ := h
  cases h
  rw [← tempo_tapAttackers s s.derive attackers]
  rfl

theorem tempo_declareBlockers {player : Seat} {blocks : List (CardId × CardId)}
    (h : s.declareBlockers player blocks = .ok t) :
    t.tempo = { s.tempo with combat := t.combat } := by
  obtain ⟨-, -, h⟩ := Outcome.bind_eq_ok.mp h
  split at h
  · cases h
  · simp only [Outcome.bind_eq_ok] at h
    obtain ⟨-, -, declared, -, h⟩ := h
    cases h
    rfl

theorem tempo_dealDamage {defending : Seat} {plan : DamagePlan}
    (h : s.dealDamage defending plan = .ok t) : t.tempo = s.tempo :=
  dealDamage_relates (R := fun s t => t.tempo = s.tempo) (fun _ => rfl)
    (fun first rest => rest.trans first) (fun _ _ _ => rfl) (fun s seat _ => tempo_updatePlayer s seat _) h

theorem tempo_combatDamage (h : s.combatDamage = .ok t) : t.tempo = s.tempo :=
  combatDamage_relates (R := fun s t => t.tempo = s.tempo) (fun _ => rfl)
    (fun first rest => rest.trans first) tempo_derive (fun _ _ _ dealt => tempo_dealDamage dealt)
    tempo_toRest h

theorem tempo_drawStep {config : Config} (h : s.drawStep config = .ok t) : t.tempo = s.tempo := by
  unfold drawStep at h
  split at h
  · cases h
    rfl
  · obtain ⟨⟨next, drawn⟩, drew, h⟩ := Outcome.bind_eq_ok.mp h
    cases h
    exact (alike_draw drew).tempo

/-- What happens at the beginning of a moment leaves the tempo alone, but for the end of combat. -/
theorem tempo_beginMoment {config : Config} (h : s.beginMoment config = .ok t) :
    t.tempo = { s.tempo with
      combat := if s.moment.step = some .endCombat then none else s.combat } := by
  have emptied : s.emptyPools.tempo = s.tempo := tempo_mapPlayers s _
  have unchanged (other : s.moment.step ≠ some .endCombat) (same : t.tempo = s.emptyPools.tempo) :
      t.tempo = { s.tempo with
        combat := if s.moment.step = some .endCombat then none else s.combat } := by
    rw [same, emptied, if_neg other]
    rfl
  unfold beginMoment at h
  dsimp only at h
  split at h
  · rename_i step
    obtain ⟨ready, changed, h⟩ := Outcome.bind_eq_ok.mp h
    cases h
    exact unchanged (fun ends => nomatch ends.symm.trans step)
      ((tempo_updateSeats ready _).trans (tempo_changeCards changed))
  · rename_i step
    exact unchanged (fun ends => nomatch ends.symm.trans step) (tempo_drawStep h)
  · rename_i step
    exact unchanged (fun ends => nomatch ends.symm.trans step) (tempo_combatDamage h)
  · rename_i step
    cases h
    have ends : s.moment.step = some .endCombat := step
    rw [if_pos ends, ← emptied]
    rfl
  · rename_i step
    exact unchanged (fun ends => nomatch ends.symm.trans step) (tempo_changeCards h)
  · rename_i other _
    cases h
    exact unchanged other rfl

theorem tempo_endMoment {config : Config} {player : Seat} (h : s.endMoment config player = .ok t) :
    t.tempo = { s.advance.tempo with
      priorityPlayer := s.advance.activePlayer
      passes := 0
      combat := if s.advance.moment.step = some .endCombat then none else s.advance.combat } := by
  simp only [endMoment, Outcome.bind_eq_ok] at h
  obtain ⟨-, -, -, -, next, begun, h⟩ := h
  cases h
  change { next.tempo with priorityPlayer := next.tempo.activePlayer, passes := 0 } = _
  rw [tempo_beginMoment begun]
  rfl

end State

end CardGame
