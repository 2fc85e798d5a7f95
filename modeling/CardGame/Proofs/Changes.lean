import CardGame.Proofs.Ripples

/-! # Small changes

A few small changes make up all that the rules do, apart from untapping the permanents of the active
player and from putting cards onto battlefields. What each of them keeps is kept for as long as neither
of these two happens: a permanent stays under the same control, as sick as it entered, and tapped once
it is tapped.
-/

namespace CardGame

namespace State

/-- The smallest changes to a state. -/
inductive Change : State → State → Prop where
  /-- Of players and of the course of the turn, which leaves every card as it is. -/
  | aside {s t : State} (same : s.SameBoard t) : Change s t
  /-- Of characteristics, derived or printed. -/
  | derived {s t : State} (same : s.strip = t.strip) : Change s t
  | tap (s : State) (id : CardId) : Change s (s.updateCard id fun c => { c with tapped := true })
  | hurt (s : State) (id : CardId) (amount : Int) :
      Change s (s.updateCard id fun c => { c with damage := word (c.damage + amount) })
  | heal {s t : State} (healed : s.cleanupStep = .ok t) : Change s t
  | move {s t : State} {happening : Happening} (happens : s.Happens happening t)
      (off : happening.target ≠ .battlefield) : Change s t

/-- Any number of small changes, one after the other. -/
def Changes : State → State → Prop := Relation.ReflTransGen Change

variable {s t u : State}

theorem Ripple.change {α : Type} {keep : Player → α} (ripple : Ripple keep s t) : Change s t := by
  cases ripple with
  | aside same => exact .aside same
  | derived same => exact .derived same
  | move happens off => exact .move happens off

theorem Change.keyed (change : Change s t) (keyed : s.Keyed) : t.Keyed := by
  cases change with
  | aside same => exact keyed.congr same.layout
  | derived same => exact keyed.congr (layout_of_strip same)
  | tap id => exact keyed.congr (layout_updateCard s id fun _ => rfl)
  | hurt id => exact keyed.congr (layout_updateCard s id fun _ => rfl)
  | heal healed => exact keyed.congr (still_cleanupStep healed).layout
  | move happens => exact happens.keyed keyed

namespace Changes

theorem refl (s : State) : Changes s s := Relation.ReflTransGen.refl

theorem trans (first : Changes s t) (rest : Changes t u) : Changes s u :=
  Relation.ReflTransGen.trans first rest

theorem of_change (change : Change s t) : Changes s t := Relation.ReflTransGen.single change

theorem aside (same : s.SameBoard t) : Changes s t := .of_change (.aside same)

theorem updatePlayer (s : State) (seat : Seat) {f : Player → Player}
    (h : ∀ p, (f p).zones = p.zones) : Changes s (s.updatePlayer seat f) :=
  .aside (.updatePlayer s seat h)

theorem mapPlayers (s : State) {f : Player → Player} (h : ∀ p, (f p).zones = p.zones) :
    Changes s { s with players := s.players.map f } :=
  .aside ⟨rfl, layout_mapPlayers s h⟩

theorem derive (s : State) : Changes s s.derive := .of_change (.derived (strip_derive s).symm)

theorem strip (s : State) : Changes s s.strip := .of_change (.derived (strip_strip s).symm)

theorem of_happens {happening : Happening} (happens : s.Happens happening t)
    (off : happening.target ≠ .battlefield) : Changes s t :=
  .of_change (.move happens off)

theorem of_ripples (ripples : Ripples (fun _ : Player => ()) s t) : Changes s t :=
  Relation.ReflTransGen.mono (fun _ _ => Ripple.change) s t ripples

theorem keyed (changes : Changes s t) (keyed : s.Keyed) : t.Keyed := by
  induction changes with
  | refl => exact keyed
  | tail _ change ih => exact change.keyed ih

theorem foldl {α : Type} {f : State → α → State} {items : List α}
    (step : ∀ s a, Changes s (f s a)) : Changes s (items.foldl f s) := by
  induction items generalizing s with
  | nil => exact .refl _
  | cons a rest ih => exact (step s a).trans ih

theorem foldlM {α : Type} {f : State → α → Outcome State} {items : List α}
    (step : ∀ s, ∀ a ∈ items, ∀ t, f s a = .ok t → Changes s t) (h : items.foldlM f s = .ok t) :
    Changes s t :=
  Outcome.foldlM_relates refl trans step h

end Changes

end State

open State

variable {s t : State}

theorem ActivationCost.changes_pay {cost : ActivationCost} {source : CardId} {player : Seat}
    (h : cost.pay s source player = .ok t) : Changes s t := by
  obtain ⟨_, -, h⟩ := Outcome.bind_eq_ok.mp h
  cases cost with
  | tap =>
      cases h
      exact .of_change (.tap s source)
  | mana cost =>
      cases h
      exact .updatePlayer s player fun _ => rfl
  | payLife amount =>
      cases h
      exact .updatePlayer s player fun _ => rfl

namespace State

theorem changes_resolveEffects {context : EffectContext} {effects : List Descriptor}
    (h : s.resolveEffects context effects = .ok t) : Changes s t :=
  .of_ripples (ripples_resolveEffects (fun _ _ _ => rfl) (fun _ _ => rfl) h)

theorem changes_settle {rounds : Nat} {before after : State} {events : List Event} (keyed : after.Keyed)
    (h : settle rounds before after = .ok (t, events)) : Changes after t :=
  .of_ripples (ripples_settle (fun _ _ _ => rfl) keyed (.of_ignoresMana (fun _ _ => rfl) after) h)

theorem changes_activate {player : Seat} {id : CardId} {ability : AbilityId} {targets : List CardId}
    (h : s.activate player id ability targets = .ok t) : Changes s t := by
  simp only [activate, ActivatedAbility.activate, Outcome.bind_eq_ok] at h
  obtain ⟨-, -, a, -, next, ⟨-, -, -, -, paid, payment, resolved⟩, h⟩ := h
  cases h
  have paying : Changes s.derive paid := .foldlM (fun _ _ _ _ => ActivationCost.changes_pay) payment
  have acting : Changes next next.noteAction := .aside ⟨rfl, rfl⟩
  have acted : Changes paid next :=
    .of_ripples (ripples_resolve (fun _ _ _ => rfl) (IgnoresMana.spares (fun _ _ => rfl) _) resolved)
  exact (((Changes.derive s).trans paying).trans acted).trans acting

theorem changes_cast {player : Seat} {id : CardId} {targets : List CardId}
    (h : s.strip.cast player id targets = .ok t) : Changes s.strip t := by
  obtain ⟨paid, next, payment, put, same⟩ := happens_cast h
  exact ((Changes.aside payment).trans (.of_happens put nofun)).trans (.aside same)

theorem changes_tapAttackers (s view : State) (attackers : List CardId) :
    Changes s (s.tapAttackers view attackers) := by
  refine .foldl fun s attacker => ?_
  split
  · exact .refl _
  · exact .of_change (.tap s attacker)

theorem changes_declareAttackers {player : Seat} {attackers : List CardId}
    (h : s.declareAttackers player attackers = .ok t) : Changes s t := by
  simp only [declareAttackers, Outcome.bind_eq_ok] at h
  obtain ⟨-, -, -, -, -, -, combat, -, h⟩ := h
  cases h
  exact (changes_tapAttackers s s.derive attackers).trans (.aside ⟨rfl, rfl⟩)

theorem changes_declareBlockers {player : Seat} {blocks : List (CardId × CardId)}
    (h : s.declareBlockers player blocks = .ok t) : Changes s t := by
  obtain ⟨-, -, h⟩ := Outcome.bind_eq_ok.mp h
  split at h
  · cases h
  · simp only [Outcome.bind_eq_ok] at h
    obtain ⟨-, -, declared, -, h⟩ := h
    cases h
    exact .aside ⟨rfl, rfl⟩

theorem changes_dealDamage {defending : Seat} {plan : DamagePlan}
    (h : s.dealDamage defending plan = .ok t) : Changes s t :=
  dealDamage_relates Changes.refl Changes.trans (fun s id n => .of_change (.hurt s id n))
    (fun s seat _ => .updatePlayer s seat fun _ => rfl) h

theorem changes_combatDamage (keyed : s.Keyed) (h : s.combatDamage = .ok t) : Changes s t :=
  combatDamage_relates (R := fun s t => s.Keyed → Changes s t) (fun s _ => .refl s)
    (fun first rest keyed => (first keyed).trans (rest ((first keyed).keyed keyed)))
    (fun s _ => .derive s) (fun _ _ _ dealt _ => changes_dealDamage dealt)
    (fun rest keyed => .of_ripples (ripples_toRest (fun _ _ _ => rfl) keyed rest)) h keyed

/-- Only at the beginning of a turn something untaps. -/
theorem changes_beginMoment {config : Config} (keyed : s.Keyed)
    (notUntap : s.moment.step ≠ some .untap) (h : s.beginMoment config = .ok t) : Changes s t := by
  have emptied : Changes s s.emptyPools := .mapPlayers s fun _ => rfl
  refine emptied.trans ?_
  unfold beginMoment at h
  dsimp only at h
  split at h
  · rename_i untap
    exact absurd untap notUntap
  · exact .of_ripples (ripples_drawStep h)
  · exact changes_combatDamage (emptied.keyed keyed) h
  · cases h
    exact .aside ⟨rfl, rfl⟩
  · exact .of_change (.heal h)
  · cases h
    exact .refl _

end State

/-- A permanent under the same control since the same turn, as sick as it was, and still tapped if it
    was tapped. -/
structure Card.Stays (b c : Card) : Prop where
  controller : c.controller = b.controller
  entered : c.enteredTurn = b.enteredTurn
  sick : c.summoningSick = b.summoningSick
  tapped : b.tapped = true → c.tapped = true

namespace Card.Stays

theorem refl (c : Card) : c.Stays c := ⟨rfl, rfl, rfl, fun tapped => tapped⟩

theorem trans {b c d : Card} (first : b.Stays c) (rest : c.Stays d) : b.Stays d where
  controller := rest.controller.trans first.controller
  entered := rest.entered.trans first.entered
  sick := rest.sick.trans first.sick
  tapped := rest.tapped ∘ first.tapped

theorem of_strip {b c : Card} (same : b.strip = c.strip) : b.Stays c where
  controller := (congrArg Card.controller same).symm
  entered := (congrArg Card.enteredTurn same).symm
  sick := (congrArg Card.summoningSick same).symm
  tapped tapped := (congrArg Card.tapped same).symm.trans tapped

end Card.Stays

namespace State

variable {s t u : State}

/-- The card is this permanent. -/
structure InPlay (s : State) (id : CardId) (c : Card) : Prop where
  found : s.card? id = some c
  inPlay : s.isBattlefield c.zone = true

/-- Every permanent of the later state was one before, and has stayed. -/
def Stays (s t : State) : Prop :=
  ∀ id c, t.InPlay id c → ∃ b, s.InPlay id b ∧ b.Stays c

namespace Stays

theorem refl (s : State) : s.Stays s := fun _ c inPlay => ⟨c, inPlay, .refl c⟩

theorem trans (first : s.Stays t) (rest : t.Stays u) : s.Stays u := by
  intro id d inPlay
  obtain ⟨c, inPlay, later⟩ := rest id d inPlay
  obtain ⟨b, inPlay, earlier⟩ := first id c inPlay
  exact ⟨b, inPlay, earlier.trans later⟩

/-- Where no zone changes, it is enough that every card stays in its zone. -/
theorem of_cards (zones : t.zones = s.zones)
    (cards : ∀ id c, t.card? id = some c →
      ∃ b, s.card? id = some b ∧ b.zone = c.zone ∧ b.Stays c) : s.Stays t := by
  intro id c permanent
  obtain ⟨b, found, zone, stays⟩ := cards id c permanent.found
  have kind : t.kindOfZone? c.zone = s.kindOfZone? c.zone := by
    rw [kindOfZone?, kindOfZone?, zone?, zone?, zones]
  have inPlay := permanent.inPlay
  rw [isBattlefield, kind, ← zone] at inPlay
  exact ⟨b, ⟨found, inPlay⟩, stays⟩

theorem updateCard (s : State) (id : CardId) {f : Card → Card} (zone : ∀ c : Card, (f c).zone = c.zone)
    (stays : ∀ c : Card, c.Stays (f c)) : s.Stays (s.updateCard id f) := by
  refine of_cards rfl fun other c found => ?_
  rw [card?_updateCard] at found
  split at found
  · obtain ⟨b, known, rfl⟩ := Option.map_eq_some_iff.mp found
    exact ⟨b, known, (zone b).symm, stays b⟩
  · exact ⟨c, found, rfl, .refl c⟩

theorem updateCards (s : State) (ids : List CardId) {f : Card → Card}
    (zone : ∀ c : Card, (f c).zone = c.zone) (stays : ∀ c : Card, c.Stays (f c)) :
    s.Stays (s.updateCards ids f) := by
  induction ids generalizing s with
  | nil => exact .refl s
  | cons id rest ih => exact (updateCard s id zone stays).trans (ih _)

end Stays

/-- A card that moves, and not onto a battlefield, is no permanent any more. -/
theorem stays_of_happens (h : s.Orderly) {happening : Happening} (happens : s.Happens happening t)
    (off : happening.target ≠ .battlefield) : s.Stays t := by
  obtain ⟨c, c', passage, rfl, -, target⟩ := happens.passage h
  intro id d permanent
  obtain ⟨found, inPlay⟩ := permanent
  rw [isBattlefield_relocate] at inPlay
  obtain ⟨-, rfl⟩ | ⟨-, found⟩ := (card?_relocate_eq_some _ _ passage.found).mp found
  · simp [isBattlefield, target, off] at inPlay
  · exact ⟨d, ⟨found, inPlay⟩, .refl d⟩

theorem Change.stays (h : s.Orderly) (change : Change s t) : t.Orderly ∧ s.Stays t := by
  cases change with
  | aside same =>
      refine ⟨h.congr same.layout, .of_cards (congrArg Layout.zones same.layout) ?_⟩
      intro id c found
      exact ⟨c, by rwa [card?, ← same.cards], rfl, .refl c⟩
  | derived same =>
      have layout := layout_of_strip same
      refine ⟨h.congr layout, .of_cards (congrArg Layout.zones layout) ?_⟩
      intro id c found
      have printed : (s.card? id).map Card.strip = some c.strip := by
        rw [← card?_strip, same, card?_strip, found, Option.map_some]
      obtain ⟨b, known, strip⟩ := Option.map_eq_some_iff.mp printed
      exact ⟨b, known, (congrArg Card.zone strip : b.strip.zone = c.strip.zone), .of_strip strip⟩
  | tap id =>
      exact ⟨h.congr (layout_updateCard s id fun _ => rfl),
        .updateCard s id (fun _ => rfl) fun _ => ⟨rfl, rfl, rfl, fun _ => rfl⟩⟩
  | hurt id amount =>
      exact ⟨h.congr (layout_updateCard s id fun _ => rfl),
        .updateCard s id (fun _ => rfl) fun _ => ⟨rfl, rfl, rfl, fun tapped => tapped⟩⟩
  | heal healed =>
      refine ⟨h.congr (still_cleanupStep healed).layout, ?_⟩
      obtain ⟨-, rfl⟩ := changeCards_eq_ok.mp healed
      exact .updateCards s _ (fun _ => rfl) fun _ => ⟨rfl, rfl, rfl, fun tapped => tapped⟩
  | move happens off => exact ⟨(happens.shifts h).orderly, stays_of_happens h happens off⟩

theorem Changes.stays (changes : Changes s t) (h : s.Orderly) : t.Orderly ∧ s.Stays t := by
  induction changes with
  | refl => exact ⟨h, .refl s⟩
  | tail _ change ih =>
      obtain ⟨orderly, earlier⟩ := ih
      obtain ⟨orderly, later⟩ := change.stays orderly
      exact ⟨orderly, earlier.trans later⟩

end State

end CardGame
