import CardGame.Proofs.Playable
import CardGame.Proofs.Reach

/-! # Telling beforehand what will succeed

A host asks of the present state, which is derived, whether a player may act, while the operation asks
of the state with printed characteristics. Both checks come to the same: cards in a hand look as they are
printed, and the rest of the checks is made on derived characteristics anyway.
-/

namespace CardGame

namespace State

variable {s t : State} {id : CardId} {c : Card} {player : Seat} {targets : List CardId}

theorem card?_applyStatics_off (keyed : s.Keyed) (found : s.card? id = some c)
    (off : s.isBattlefield c.zone = false) (abilities : List StaticAbility) :
    (s.applyStatics abilities).card? id = some c := by
  induction abilities generalizing s with
  | nil => exact found
  | cons ability rest ih =>
      have untouched : ¬ ability.effect.touches s id c = true := fun touched => by
        rw [isBattlefield_of_touches found touched] at off
        cases off
      have layout : (ability.effect.apply s).layout = s.layout := layout_change ability.effect s _
      refine ih (s := ability.effect.apply s) (keyed.congr layout) ?_
        (by rwa [isBattlefield_congr layout])
      rw [ContinuousEffect.card?_apply _ keyed, found, Option.map_some, if_neg untouched]

/-- A card off the battlefields has its printed characteristics. -/
theorem strip_of_off (keyed : s.Keyed) (derived : s.derive = s) (found : s.card? id = some c)
    (off : s.isBattlefield c.zone = false) : c.strip = c := by
  have printed : s.strip.card? id = some c.strip := by rw [card?_strip, found, Option.map_some]
  have plain := card?_applyStatics_off (keyed.congr (layout_strip s)) printed
    (off : s.strip.isBattlefield c.strip.zone = false) s.activeStatics
  have same : s.derive.card? id = some c.strip := by
    have layout := (layout_applyStatics s.strip s.activeStatics).trans (layout_strip s)
    have off' : (s.strip.applyStatics s.activeStatics).isBattlefield c.strip.zone = false := by
      rwa [isBattlefield_congr layout]
    rw [derive, countCounters, (keyed.congr layout).card?_updatePermanents, plain, Option.map_some,
      off', Bool.false_and, if_neg Bool.false_ne_true]
  rw [derived, found] at same
  exact (Option.some.inj same).symm

theorem cardInHand_strip (h : s.Orderly) (derived : s.derive = s) :
    s.strip.cardInHand player id = s.cardInHand player id := by
  simp only [cardInHand, card, card?_strip]
  cases found : s.card? id with
  | none => rfl
  | some c =>
      show (do
          let p ← s.player player
          Outcome.require (c.zone = p.zones.hand) (.notInHand id)
          .ok c.strip) = do
        let p ← s.player player
        Outcome.require (c.zone = p.zones.hand) (.notInHand id)
        .ok c
      unfold State.player
      cases hp : s.player? player with
      | none => rfl
      | some p =>
          by_cases zone : c.zone = p.zones.hand
          · rw [strip_of_off h.keyed derived found (by simp [isBattlefield, zone, h.hand hp])]
          · simp [Outcome.find, Outcome.require, zone, bind, Except.bind]

theorem checkCast_strip (h : s.Orderly) (derived : s.derive = s) :
    s.strip.checkCast player id targets = s.checkCast player id targets := by
  simp only [checkCast, cardInHand_strip h derived, derive_strip]
  rfl

theorem checkLand_strip (h : s.Orderly) (derived : s.derive = s) :
    s.strip.checkLand player id = s.checkLand player id := by
  simp only [checkLand, cardInHand_strip h derived]
  rfl

theorem checkActivate_strip (s : State) {ability : AbilityId} :
    s.strip.checkActivate player id ability targets = s.checkActivate player id ability targets := by
  simp only [checkActivate, derive_strip]
  rfl

theorem priority_of_check {rest : Unit → Outcome Unit} {u : Unit}
    (checked : s.requirePriority player >>= rest = .ok u) : s.priorityPlayer = player := by
  obtain ⟨_, priority, -⟩ := Outcome.bind_eq_ok.mp checked
  exact of_decide_eq_true (Outcome.require_eq_ok.mp priority)

end State

namespace Match

open Outcome State

variable {m : Match} {player : Seat} {n : Nat}

/-- An action that begins with its check, and cannot fail after it, succeeds exactly if the check passes
    on the present state, as long as the game goes on. -/
theorem call_iff_check (h : m.state.Playable n) (enough : 3 ≤ m.config.maxEventRounds)
    (running : m.isOver = false) {action : Action} (transform : Transform)
    (one : Operation.transform? (.act player action) = some transform)
    {printed check : Outcome Unit} {rest : Unit → Outcome State}
    (run : transform.run m.config m.state.strip = printed >>= rest) (same : printed = check)
    (total : player < m.state.playerCount → ∀ {u}, printed = .ok u →
      ∃ after, transform.run m.config m.state.strip = .ok after)
    (priority : ∀ {u}, check = .ok u → m.state.priorityPlayer = player) :
    (∃ next events, m.call (.act player action) = .ok (next, events)) ↔ check.isOk = true := by
  subst same
  rw [call_iff_run h enough transform one, isOk_iff]
  constructor
  · rintro ⟨-, after, succeeds⟩
    rw [run] at succeeds
    obtain ⟨u, checked, -⟩ := bind_eq_ok.mp succeeds
    exact ⟨u, checked⟩
  · rintro ⟨u, checked⟩
    have priority := priority checked
    have seated := priority ▸ (seated_of_regular h.regular).priority
    exact ⟨⟨running, seated, priority⟩, total seated checked⟩

/-- Along every run from a deal with the built-in abilities, while the game goes on and settling is given
    three rounds, an action succeeds exactly if the predicate said so of the state before it. -/
theorem previews_agree (config : Config) {generator : Generator} (catalog : Catalog)
    (decks : List (List DefinitionId)) (m : Match) (commands : List Command) (player : Seat)
    (card : CardId) (ability : AbilityId) (targets : List CardId)
    (started : start config catalog .builtin decks generator = .ok m)
    (enough : 3 ≤ config.maxEventRounds) (running : (m.run commands).isOver = false) :
    ((∃ next events,
        (m.run commands).call (.act player (.castSpell card targets)) = .ok (next, events)) ↔
      (m.run commands).state.canCast player card targets = true) ∧
    ((∃ next events,
        (m.run commands).call (.act player (.playLand card)) = .ok (next, events)) ↔
      (m.run commands).state.canPlayLand player card = true) ∧
    ((∃ next events, (m.run commands).call (.act player (.activateAbility card ability targets)) =
        .ok (next, events)) ↔
      (m.run commands).state.canActivate player card ability targets = true) := by
  have h := playable_run started commands
  have enough : 3 ≤ (m.run commands).config.maxEventRounds := by
    rwa [config_run, config_start started]
  generalize m.run commands = present at h enough running
  have orderly := h.orderly_strip
  refine ⟨?cast, ?playLand, ?activate⟩
  case cast =>
    exact call_iff_check h enough running (.cast player card targets) rfl rfl
      (checkCast_strip h.orderly h.derived) (fun _ _ => orderly.cast_total) priority_of_check
  case playLand =>
    exact call_iff_check h enough running (.playLand player card) rfl rfl
      (checkLand_strip h.orderly h.derived) (fun _ _ => orderly.playLand_total) priority_of_check
  case activate =>
    exact call_iff_check h enough running (.activate player card ability targets) rfl
      rfl (checkActivate_strip present.state)
      (fun seated _ => orderly.activate_total h.equipped_strip seated) priority_of_check

/-- A land and a spell, to which its own player can respond. -/
def untilSpell : List Operation := toMain ++ [.act 0 (.playLand 1), .act 0 (.castSpell 2 [])]

/-- The instant can be cast in response, and another land cannot be played. -/
theorem previews_agree_spell :
    ∃ m, ambush = .ok m ∧
      (m.run (untilSpell.map .call)).state.canCast 0 3 [1] = true ∧
      (∃ next events, (m.run (untilSpell.map .call)).call (.act 0 (.castSpell 3 [1])) =
        .ok (next, events)) ∧
      (m.run (untilSpell.map .call)).state.canPlayLand 0 3 = false ∧
      ¬ ∃ next events, (m.run (untilSpell.map .call)).call (.act 0 (.playLand 3)) =
        .ok (next, events) := by
  have told : (do
      let m ← ambush
      .ok ((m.run (untilSpell.map .call)).isOver,
        (m.run (untilSpell.map .call)).state.canCast 0 3 [1],
        (m.run (untilSpell.map .call)).state.canPlayLand 0 3) : Outcome (Bool × Bool × Bool)) =
      .ok (false, true, false) := by decide +kernel
  obtain ⟨m, started, told⟩ := Outcome.bind_eq_ok.mp told
  obtain ⟨running, told⟩ := Prod.mk.inj (Except.ok.inj told)
  obtain ⟨castable, unplayable⟩ := Prod.mk.inj told
  obtain ⟨cast, -⟩ := previews_agree _ _ _ m (untilSpell.map .call) 0 3 0 [1] started (by decide)
    running
  obtain ⟨-, land, -⟩ := previews_agree _ _ _ m (untilSpell.map .call) 0 3 0 [] started (by decide)
    running
  refine ⟨m, started, castable, cast.mpr castable, unplayable, fun played => ?_⟩
  rw [land.mp played] at unplayable
  cases unplayable

end Match

end CardGame
