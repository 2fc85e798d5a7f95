import CardGame.Match.Run
import CardGame.Proofs.Course
import CardGame.Proofs.Rest

/-! # Play that wanes

Most of what the rules do puts nothing onto a battlefield, and most of that moves no card at all. All
that it brings about is draws and deaths of creatures. What dies was already a creature in the last
state that was derived for all to see, whatever types are derived on the way.
-/

namespace CardGame

namespace State

variable {base s t u : State}

/-- Every card stays at its place and keeps its types. -/
structure Still (s t : State) : Prop where
  layout : t.layout = s.layout
  types : t.types = s.types

namespace Still

theorem refl (s : State) : s.Still s := ⟨rfl, rfl⟩

theorem trans (first : s.Still t) (rest : t.Still u) : s.Still u :=
  ⟨rest.layout.trans first.layout, rest.types.trans first.types⟩

theorem updatePlayer (s : State) (seat : Seat) {f : Player → Player}
    (h : ∀ p, (f p).zones = p.zones) : s.Still (s.updatePlayer seat f) :=
  ⟨layout_updatePlayer s seat h, rfl⟩

theorem mapPlayers (s : State) {f : Player → Player} (h : ∀ p, (f p).zones = p.zones) :
    s.Still { s with players := s.players.map f } :=
  ⟨layout_mapPlayers s h, rfl⟩

theorem updateSeats (s : State) {f : Player → Player} (h : ∀ p, (f p).zones = p.zones) :
    s.Still (s.updateSeats f) :=
  ⟨layout_updateSeats s h, rfl⟩

theorem updateCard (s : State) (id : CardId) {f : Card → Card}
    (place : ∀ c, (f c).placement = c.placement)
    (types : ∀ c, (f c).characteristics.types = c.characteristics.types) :
    s.Still (s.updateCard id f) :=
  ⟨layout_updateCard s id place, types_updateCard s id types⟩

theorem updateCards (s : State) (ids : List CardId) {f : Card → Card}
    (place : ∀ c, (f c).placement = c.placement)
    (types : ∀ c, (f c).characteristics.types = c.characteristics.types) :
    s.Still (s.updateCards ids f) :=
  ⟨layout_updateCards s ids place, types_updateCards s ids types⟩

theorem changeCards {ids : List CardId} {f : Card → Card} (h : s.changeCards ids f = .ok t)
    (place : ∀ c, (f c).placement = c.placement)
    (types : ∀ c, (f c).characteristics.types = c.characteristics.types) : s.Still t := by
  obtain ⟨-, rfl⟩ := changeCards_eq_ok.mp h
  exact .updateCards s ids place types

theorem foldl {α : Type} {f : State → α → State} {items : List α}
    (step : ∀ s a, Still s (f s a)) : s.Still (items.foldl f s) := by
  induction items generalizing s with
  | nil => exact .refl s
  | cons a rest ih => exact (step s a).trans ih

end Still

/-- A draw, or the death of a creature of `base`. -/
def Takes (base : State) : Happening → Prop
  | .drawn _ => True
  | .died id .. => base.isCreatureInPlay id = true
  | _ => False

/-- Cards kept their numbers; and from an orderly state with nothing more in play than `base` the game
    came to another such state, and nothing happened on the way but draws and deaths of creatures of
    `base`. -/
structure Wanes (base s t : State) : Prop where
  keyed : s.Keyed → t.Keyed
  play : s.Orderly → base.Keyed → s.Within base →
    t.Within base ∧ ∃ trace, Course s trace t ∧ ∀ happening ∈ trace, base.Takes happening

theorem isCreatureInPlay_of_takes {trace : List Happening}
    (takes : ∀ happening ∈ trace, base.Takes happening) {event : Event}
    (member : event ∈ deathsIn trace) : base.isCreatureInPlay event.subject = true := by
  obtain ⟨happening, occurs, dies⟩ := List.mem_filterMap.mp member
  have taken := takes happening occurs
  cases happening <;> cases dies
  exact taken

namespace Wanes

theorem refl (s : State) : Wanes base s s where
  keyed := id
  play _ _ within := ⟨within, [], .done s, nofun⟩

theorem trans (first : Wanes base s t) (rest : Wanes base t u) : Wanes base s u := by
  refine ⟨rest.keyed ∘ first.keyed, fun orderly keyed within => ?_⟩
  obtain ⟨within, trace, course, takes⟩ := first.play orderly keyed within
  obtain ⟨within, later, more, moreTakes⟩ := rest.play (course.orderly orderly) keyed within
  refine ⟨within, trace ++ later, course.trans more, fun happening member => ?_⟩
  exact (List.mem_append.mp member).elim (takes happening) (moreTakes happening)

theorem course (wanes : Wanes s s t) (h : s.Orderly) :
    ∃ trace, Course s trace t ∧ ∀ happening ∈ trace, s.Takes happening :=
  (wanes.play h h.keyed (Within.refl s)).2

theorem orderly (wanes : Wanes s s t) (h : s.Orderly) : t.Orderly := by
  obtain ⟨trace, course, -⟩ := wanes.course h
  exact course.orderly h

theorem still (h : s.Still t) : Wanes base s t where
  keyed := Keyed.congr h.layout
  play _ _ within := ⟨within.congr h.layout h.types rfl rfl, [], .of_layout h.layout, nofun⟩

/-- Deriving characteristics makes a creature only of what is one in `base`. -/
theorem derive (derived : base.derive = base) (s : State) : Wanes base s s.derive where
  keyed := Keyed.congr (layout_derive s)
  play orderly keyed within :=
    ⟨derived ▸ within.derive orderly.keyed keyed, [], .of_layout (layout_derive s), nofun⟩

theorem foldlM {α : Type} {f : State → α → Outcome State} {items : List α}
    (step : ∀ s, ∀ a ∈ items, ∀ t, f s a = .ok t → Wanes base s t)
    (h : items.foldlM f s = .ok t) : Wanes base s t :=
  Outcome.foldlM_relates refl trans step h

theorem of_happens {happening : Happening} (happens : s.Happens happening t)
    (takes : s.Takes happening) : Wanes base s t := by
  refine ⟨happens.keyed, fun orderly keyed within =>
    ⟨?_, [happening], .of_happens happens, ?_⟩⟩
  · obtain ⟨c, c', passage, rfl, -, target⟩ := happens.passage orderly
    have off : happening.target ≠ .battlefield := by
      cases happening <;> simp [Takes, Happening.target] at takes ⊢
    intro id d hd hz
    rw [isBattlefield_relocate] at hz
    obtain ⟨-, rfl⟩ | ⟨-, hd⟩ := (card?_relocate_eq_some _ _ passage.found).mp hd
    · simp [isBattlefield, target, off] at hz
    · exact within id d hd hz
  · rintro happening member
    obtain rfl := List.mem_singleton.mp member
    cases happening with
    | died id controller owner =>
        obtain ⟨c, creature⟩ := orderly.keyed.isCreatureInPlay_iff.mp takes
        obtain ⟨d, creature, -⟩ := within.creature orderly.keyed keyed creature
        exact keyed.isCreatureInPlay_iff.mpr ⟨d, creature⟩
    | _ => exact takes

end Wanes

theorem wanes_draw {seat : Seat} {drawn : Option CardId} (h : s.draw seat = .ok (t, drawn)) :
    Wanes base s t := by
  cases drawn with
  | none =>
      rw [draw_eq_none h]
      exact .refl s
  | some id => exact .of_happens (.draw h) trivial

theorem wanes_drawMany {seat : Seat} {n : Nat} (h : s.drawMany seat n = .ok t) :
    Wanes base s t := by
  induction n generalizing s with
  | zero =>
      cases h
      exact .refl _
  | succ n ih =>
      rw [drawMany, Outcome.bind_eq_ok] at h
      obtain ⟨⟨next, drawn⟩, drew, h⟩ := h
      cases drawn with
      | none =>
          cases h
          exact wanes_draw drew
      | some id => exact (wanes_draw drew).trans (ih h)

theorem wanes_bury {id : CardId} (creature : s.isCreatureInPlay id = true)
    (h : s.bury id = .ok t) : Wanes base s t := by
  obtain ⟨c, found, inPlay, -⟩ := isCreatureInPlay_eq_true.mp creature
  exact .of_happens (.die found inPlay h) creature

theorem wanes_destroy {ids : List CardId} (h : s.destroy ids = .ok t) : Wanes base s t := by
  induction ids generalizing s with
  | nil =>
      cases h
      exact .refl _
  | cons id rest ih =>
      rw [destroy] at h
      split at h
      · rename_i creature
        obtain ⟨next, buried, h⟩ := Outcome.bind_eq_ok.mp h
        exact (wanes_bury creature buried).trans (ih h)
      · exact ih h

/-- What dies in passes of state-based actions was a creature in play. -/
theorem wanes_toRest (derived : base.derive = base) {r : AtRest} (h : s.toRest = .ok r) :
    Wanes base s r.state := by
  have marked (t : State) : t.Still t.markLosers :=
    .updateSeats t fun p => by unfold Player.checkLife; split <;> rfl
  have wanes (keyed : s.Keyed) : Wanes base s r.state := by
    refine keyed.toRest_invariant (P := Wanes base s) (fun t before => before.trans (.derive derived t))
      (fun t before => before.trans (.still (marked t))) (fun keyed dies buried before => ?_)
      (.refl s) h
    exact before.trans (wanes_bury (keyed.isCreatureInPlay_of_dying dies) buried)
  exact ⟨fun keyed => (wanes keyed).keyed keyed, fun orderly => (wanes orderly.keyed).play orderly⟩

end State

open State

variable {base s t : State}

theorem Effect.wanes {effect : Effect} {context : EffectContext}
    (h : effect.resolve s context = .ok t) : Wanes base s t := by
  cases effect with
  | addMana color amount =>
      obtain ⟨p, -, h⟩ := Outcome.bind_eq_ok.mp h
      cases h
      exact .still (.updatePlayer s _ fun _ => rfl)
  | gainLife amount =>
      obtain ⟨p, -, h⟩ := Outcome.bind_eq_ok.mp h
      cases h
      exact .still (.updatePlayer s _ fun _ => rfl)
  | destroy target =>
      cases target with
      | source => exact wanes_destroy h
      | chosen => exact wanes_destroy h
  | drawCards count => exact wanes_drawMany h

theorem ActivationCost.still_pay {cost : ActivationCost} {source : CardId} {player : Seat}
    (h : cost.pay s source player = .ok t) : s.Still t := by
  obtain ⟨_, -, h⟩ := Outcome.bind_eq_ok.mp h
  cases cost with
  | tap =>
      cases h
      exact .updateCard s source (fun _ => rfl) fun _ => rfl
  | mana cost =>
      cases h
      exact .updatePlayer s player fun _ => rfl
  | payLife amount =>
      cases h
      exact .updatePlayer s player fun _ => rfl

theorem ActivationCost.still_payAll {costs : List ActivationCost} {source : CardId} {player : Seat}
    (h : ActivationCost.payAll costs s source player = .ok t) : s.Still t :=
  Outcome.foldlM_relates Still.refl Still.trans (fun _ _ _ _ => ActivationCost.still_pay) h

theorem ActivatedAbility.wanes {ability : ActivatedAbility} {player : Seat} {targets : List CardId}
    (h : ability.activate s player targets = .ok t) : Wanes base s t := by
  simp only [ActivatedAbility.activate, Outcome.bind_eq_ok] at h
  obtain ⟨-, -, -, -, paid, payment, h⟩ := h
  exact (Wanes.still (ActivationCost.still_payAll payment)).trans (Effect.wanes h)

theorem TriggeredAbility.wanes {ability : TriggeredAbility} {event : Event}
    (h : ability.resolve s event = .ok t) : Wanes base s t := by
  obtain ⟨controller, -, h⟩ := Outcome.bind_eq_ok.mp h
  exact Effect.wanes h

namespace State

theorem wanes_resolveEffects {context : EffectContext} {effects : List Descriptor}
    (h : s.resolveEffects context effects = .ok t) : Wanes base s t := by
  refine .foldlM (fun s d _ t step => ?_) h
  obtain ⟨effect, -, step⟩ := Outcome.bind_eq_ok.mp step
  exact Effect.wanes step

section Derived

variable (derived : base.derive = base)
include derived

theorem wanes_resolveTriggers {event : Event} {abilities : List TriggeredAbility}
    (h : s.resolveTriggers event abilities = .ok t) : Wanes base s t := by
  refine .foldlM (fun s ability _ t step => ?_) h
  obtain ⟨next, resolved, step⟩ := Outcome.bind_eq_ok.mp step
  cases step
  exact (TriggeredAbility.wanes resolved).trans (.derive derived next)

theorem wanes_dispatch {events : List Event} (h : s.dispatch events = .ok t) : Wanes base s t :=
  .foldlM (fun _ _ _ _ => wanes_resolveTriggers derived) h

theorem wanes_activate {player : Seat} {id : CardId} {ability : AbilityId} {targets : List CardId}
    (h : s.activate player id ability targets = .ok t) : Wanes base s t := by
  simp only [activate, Outcome.bind_eq_ok] at h
  obtain ⟨-, -, a, -, next, activated, h⟩ := h
  cases h
  exact ((Wanes.derive derived s).trans (ActivatedAbility.wanes activated)).trans (.still ⟨rfl, rfl⟩)

end Derived

theorem still_tapAttackers (s view : State) (attackers : List CardId) :
    s.Still (s.tapAttackers view attackers) := by
  refine .foldl fun s attacker => ?_
  split
  · exact .refl s
  · exact .updateCard s attacker (fun _ => rfl) fun _ => rfl

theorem still_declareAttackers {player : Seat} {attackers : List CardId}
    (h : s.declareAttackers player attackers = .ok t) : s.Still t := by
  simp only [declareAttackers, Outcome.bind_eq_ok] at h
  obtain ⟨-, -, -, -, -, -, combat, -, h⟩ := h
  cases h
  exact (still_tapAttackers s s.derive attackers).trans ⟨rfl, rfl⟩

theorem still_declareBlockers {player : Seat} {blocks : List (CardId × CardId)}
    (h : s.declareBlockers player blocks = .ok t) : s.Still t := by
  obtain ⟨-, -, h⟩ := Outcome.bind_eq_ok.mp h
  split at h
  · cases h
  · simp only [Outcome.bind_eq_ok] at h
    obtain ⟨-, -, declared, -, h⟩ := h
    cases h
    exact ⟨rfl, rfl⟩

theorem still_dealDamage {defending : Seat} {plan : DamagePlan}
    (h : s.dealDamage defending plan = .ok t) : s.Still t :=
  dealDamage_relates Still.refl Still.trans (fun s id _ => .updateCard s id (fun _ => rfl) fun _ => rfl)
    (fun s seat _ => .updatePlayer s seat fun _ => rfl) h

theorem still_advance (s : State) : s.Still s.advance := by
  unfold advance
  split
  · exact ⟨rfl, rfl⟩
  · split
    · exact ⟨rfl, rfl⟩
    · exact .refl s

theorem still_untapStep (h : s.untapStep = .ok t) : s.Still t := by
  obtain ⟨ready, changed, h⟩ := Outcome.bind_eq_ok.mp h
  cases h
  exact (Still.changeCards changed (fun _ => rfl) fun _ => rfl).trans (.updateSeats _ fun _ => rfl)

theorem still_cleanupStep (h : s.cleanupStep = .ok t) : s.Still t :=
  .changeCards h (fun _ => rfl) fun _ => rfl

theorem wanes_drawStep {config : Config} (h : s.drawStep config = .ok t) : Wanes base s t := by
  unfold drawStep at h
  split at h
  · cases h
    exact .refl _
  · obtain ⟨⟨next, drawn⟩, drew, h⟩ := Outcome.bind_eq_ok.mp h
    cases h
    exact wanes_draw drew

section Derived

variable (derived : base.derive = base)
include derived

theorem wanes_combatDamage (h : s.combatDamage = .ok t) : Wanes base s t :=
  combatDamage_relates Wanes.refl Wanes.trans (Wanes.derive derived)
    (fun _ _ _ dealt => .still (still_dealDamage dealt)) (wanes_toRest derived) h

theorem wanes_beginMoment {config : Config} (h : s.beginMoment config = .ok t) :
    Wanes base s t := by
  have emptied : Wanes base s s.emptyPools := .still (.mapPlayers s fun _ => rfl)
  refine emptied.trans ?_
  unfold beginMoment at h
  dsimp only at h
  split at h
  · exact .still (still_untapStep h)
  · exact wanes_drawStep h
  · exact wanes_combatDamage derived h
  · cases h
    exact .still ⟨rfl, rfl⟩
  · exact .still (still_cleanupStep h)
  · cases h
    exact .refl _

theorem wanes_endMoment {config : Config} {player : Seat}
    (h : s.endMoment config player = .ok t) : Wanes base s t := by
  simp only [endMoment, Outcome.bind_eq_ok] at h
  obtain ⟨-, -, -, -, next, begun, h⟩ := h
  cases h
  exact ((Wanes.still (still_advance s)).trans (wanes_beginMoment derived begun)).trans
    (.still ⟨rfl, rfl⟩)

end Derived

end State

end CardGame
