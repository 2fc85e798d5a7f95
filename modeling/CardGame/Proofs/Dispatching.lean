import CardGame.Proofs.Convergence
import CardGame.Proofs.Rederiving
import CardGame.Proofs.Words
import Mathlib.Algebra.BigOperators.Group.List.Basic
import Mathlib.Algebra.Ring.Int.Defs

/-! # What triggers come to

Where triggered abilities gain life and do nothing else, resolving one does not change which others fire
or who gains by them. So all that deaths trigger comes to one sum for each player, told of the state
before any of it resolves, and neither the order of the deaths nor the numbers of the abilities count.
A life total wraps around, and is the exact sum where that is a word.
-/

namespace CardGame

namespace TriggerPredicate

variable {s t : State} {source : CardId}

mutual

/-- Of a state, a predicate reads who controls its source, and whether that is in play. -/
theorem holds_congr (event : Event)
    (control : (t.card? source).map (·.controller) = (s.card? source).map (·.controller))
    (inPlay : t.isOnBattlefield source = s.isOnBattlefield source) (predicate : TriggerPredicate) :
    predicate.holds event t source = predicate.holds event s source := by
  cases predicate with
  | always | subjectIsSource | subjectIsNotSource => rfl
  | subjectControlledBySourceController =>
      have any (r : State) : (r.card? source).any (fun c => c.controller = event.controller) =
          ((r.card? source).map (·.controller)).any (· = event.controller) := by
        rw [Option.any_map]
      simp only [holds, any, control]
  | sourceOnBattlefield => exact inPlay
  | all predicates => exact allHold_congr event control inPlay predicates
  | not predicate => simp only [holds, holds_congr event control inPlay predicate]

theorem allHold_congr (event : Event)
    (control : (t.card? source).map (·.controller) = (s.card? source).map (·.controller))
    (inPlay : t.isOnBattlefield source = s.isOnBattlefield source)
    (predicates : List TriggerPredicate) :
    allHold event t source predicates = allHold event s source predicates := by
  cases predicates with
  | nil => rfl
  | cons predicate rest =>
      simp only [allHold, holds_congr event control inPlay predicate,
        allHold_congr event control inPlay rest]

end

end TriggerPredicate

namespace TriggeredAbility

/-- Who gains by the ability on an event: for the death of its own card the controller in the event,
    otherwise the present controller of its card. -/
def recipient? (a : TriggeredAbility) (s : State) (event : Event) : Option Seat :=
  if event.subject = a.source then some event.controller
  else (s.card? a.source).map (·.controller)

/-- The life that the ability gains. -/
def amount (a : TriggeredAbility) : Int :=
  match a.effect with
  | .gainLife amount => amount
  | _ => 0

/-- What the ability brings a seat on an event on which it fires. -/
def share (a : TriggeredAbility) (s : State) (event : Event) (seat : Seat) : Int :=
  if a.recipient? s event = some seat then a.amount else 0

end TriggeredAbility

namespace State

variable {s t : State} {event : Event} {events : List Event} {gains : Seat → Int}

/-- What an event brings a seat: the shares of all abilities that fire on it. -/
def gainsOn (s : State) (event : Event) (seat : Seat) : Int :=
  ((s.triggers.filter fun a => a.fires event s).map fun a => a.share s event seat).sum

/-- What events bring a seat, all judged by one state. -/
def gainsFrom (s : State) (events : List Event) (seat : Seat) : Int :=
  (events.map fun event => s.gainsOn event seat).sum

/-- Every player gains so much life, and nothing else changes. -/
def credit (s : State) (gains : Seat → Int) : State :=
  { s with players := s.players.mapIdx fun seat p => { p with life := word (p.life + gains seat) } }

theorem samePlay_credit (s : State) (gains : Seat → Int) : s.SamePlay (s.credit gains) := by
  refine ⟨_, rfl, List.ext_getElem? fun seat => ?_⟩
  simp [Function.comp_def]

theorem player?_credit {seat : Seat} {p : Player} (seated : s.player? seat = some p) :
    (s.credit gains).player? seat = some { p with life := word (p.life + gains seat) } := by
  have found : s.players[seat]? = some p := seated
  rw [player?, credit, List.getElem?_mapIdx, found, Option.map_some]

theorem credit_zero (lives : ∀ p ∈ s.players, IsWord p.life) : s.credit (fun _ => 0) = s := by
  have players : (s.players.mapIdx fun _ p => { p with life := word (p.life + 0) }) = s.players := by
    refine List.ext_getElem? fun seat => ?_
    rw [List.getElem?_mapIdx]
    refine (Option.map_congr fun p seated => ?_).trans Option.map_id_apply
    rw [Int.add_zero, word_of_isWord (lives p (List.mem_of_getElem? seated)), id]
  rw [credit, players]

theorem updatePlayer_credit (s : State) (gains : Seat → Int) (seat : Seat) (amount : Int) :
    ((s.credit gains).updatePlayer seat fun p => { p with life := word (p.life + amount) }) =
      s.credit fun other => gains other + if seat = other then amount else 0 := by
  have players :
      ((s.credit gains).players.modify seat fun p => { p with life := word (p.life + amount) }) =
      (s.credit fun other => gains other + if seat = other then amount else 0).players := by
    refine List.ext_getElem? fun other => ?_
    simp only [credit, List.getElem?_modify, List.getElem?_mapIdx]
    cases s.players[other]? with
    | none => split <;> rfl
    | some p => split <;> simp [Int.add_assoc]
  rw [updatePlayer, players]
  rfl

/-- Resolving credits an ability's share, as it was before others resolved. -/
theorem Answers.resolve_credit (h : s.Answers) {a : TriggeredAbility} (carried : a ∈ s.triggers)
    (seated : event.controller < s.playerCount) :
    a.resolve (s.credit gains) event =
      .ok (s.credit fun seat => gains seat + a.share s event seat) := by
  obtain ⟨id, c, known, carried⟩ := mem_triggers.mp carried
  obtain ⟨⟨source, found⟩, amount, gainLife⟩ := h.triggered known carried
  obtain ⟨seat, controls, recipient, sits⟩ : ∃ seat,
      a.controllerOn (s.credit gains) event = .ok seat ∧ a.recipient? s event = some seat ∧
        seat < s.playerCount := by
    unfold TriggeredAbility.controllerOn TriggeredAbility.recipient?
    split
    · exact ⟨_, rfl, rfl, seated⟩
    · refine ⟨source.controller, ?_, by rw [found]; rfl, h.controlled found⟩
      exact Outcome.bind_eq_ok.mpr ⟨source, card_eq_ok.mpr found, rfl⟩
  have player : seat < (s.credit gains).players.length := by
    rwa [credit, List.length_mapIdx]
  rw [TriggeredAbility.resolve, gainLife]
  refine Outcome.bind_eq_ok.mpr ⟨seat, controls, ?_⟩
  refine Outcome.bind_eq_ok.mpr ⟨_, player_eq_ok.mpr (List.getElem?_eq_getElem player), ?_⟩
  have shared : (fun other => if seat = other then amount else 0) = a.share s event := by
    funext other
    simp only [TriggeredAbility.share, recipient, Option.some.injEq, TriggeredAbility.amount, gainLife]
  rw [updatePlayer_credit, ← shared]

theorem fires_congr {a : TriggeredAbility} (event : Event)
    (control : (t.card? a.source).map (·.controller) = (s.card? a.source).map (·.controller))
    (inPlay : t.isOnBattlefield a.source = s.isOnBattlefield a.source) :
    a.fires event t = a.fires event s := by
  rw [TriggeredAbility.fires, TriggerCondition.holds, TriggerPredicate.holds_congr event control inPlay]
  rfl

theorem fired_credit (s : State) (gains : Seat → Int) (event : Event) :
    (s.credit gains).fired event = s.fired event := by
  have fires (a : TriggeredAbility) : a.fires event (s.credit gains) = a.fires event s :=
    fires_congr event rfl rfl
  unfold fired
  simp only [fires]
  rfl

theorem Answers.resolveTriggers_credit (h : s.Answers) (derived : s.derive = s)
    (seated : event.controller < s.playerCount) {abilities : List TriggeredAbility}
    (carried : ∀ a ∈ abilities, a ∈ s.triggers) :
    (s.credit gains).resolveTriggers event abilities =
      .ok (s.credit fun seat => gains seat + (abilities.map fun a => a.share s event seat).sum) := by
  induction abilities generalizing gains with
  | nil => simp [resolveTriggers, pure, Except.pure]
  | cons a rest ih =>
      obtain ⟨first, others⟩ := List.forall_mem_cons.mp carried
      have credited (g : Seat → Int) : (s.credit g).derive = s.credit g :=
        (samePlay_credit s g).derived derived
      rw [resolveTriggers, List.foldlM_cons]
      refine Outcome.bind_eq_ok.mpr ⟨s.credit fun seat => gains seat + a.share s event seat, ?_, ?_⟩
      · exact Outcome.bind_eq_ok.mpr
          ⟨_, h.resolve_credit first seated, congrArg Except.ok (credited _)⟩
      · rw [← resolveTriggers, ih others]
        simp only [List.map_cons, List.sum_cons, Int.add_assoc]

theorem Answers.dispatch_credit (h : s.Answers) (derived : s.derive = s)
    (seated : ∀ event ∈ events, event.controller < s.playerCount) (gains : Seat → Int) :
    (s.credit gains).dispatch events =
      .ok (s.credit fun seat => gains seat + s.gainsFrom events seat) := by
  induction events generalizing gains with
  | nil => simp [State.dispatch, gainsFrom, pure, Except.pure]
  | cons event rest ih =>
      obtain ⟨first, others⟩ := List.forall_mem_cons.mp seated
      have carried : ∀ a ∈ s.fired event, a ∈ s.triggers := fun a fires =>
        List.mem_of_mem_filter ((s.fired_perm event).mem_iff.mp fires)
      have sums (seat : Seat) : ((s.fired event).map fun a => a.share s event seat).sum =
          s.gainsOn event seat :=
        ((s.fired_perm event).map _).sum_eq
      rw [State.dispatch, List.foldlM_cons, fired_credit]
      refine Outcome.bind_eq_ok.mpr ⟨_, h.resolveTriggers_credit derived first carried, ?_⟩
      rw [← State.dispatch, ih others]
      simp only [sums, gainsFrom, List.map_cons, List.sum_cons, Int.add_assoc]

end State

/-- The ability without its number. -/
def TriggeredAbility.unnumbered (a : TriggeredAbility) : TriggeredAbility := { a with id := 0 }

/-- The card without the numbers of its triggered abilities. -/
def Card.unnumbered (c : Card) : Card :=
  { c with triggered := c.triggered.map TriggeredAbility.unnumbered }

theorem Card.unnumbered_withCounters (c : Card) :
    c.unnumbered.withCounters = c.withCounters.unnumbered := by
  unfold withCounters unnumbered
  dsimp only
  split <;> rfl

namespace State

variable {s t : State} {event : Event} {events : List Event}

/-- The state without the numbers of triggered abilities. -/
def unnumbered (s : State) : State := { s with cards := s.cards.map Card.unnumbered }

theorem card?_unnumbered (s : State) (id : CardId) :
    s.unnumbered.card? id = (s.card? id).map Card.unnumbered :=
  Table.get?_map ..

theorem triggers_unnumbered (s : State) :
    s.unnumbered.triggers = s.triggers.map TriggeredAbility.unnumbered := by
  simp [triggers, unnumbered, Table.values, Table.map, Table.mapWithKey, List.flatMap_map,
    List.map_flatMap, Card.unnumbered]

theorem control_unnumbered (s : State) (id : CardId) :
    (s.unnumbered.card? id).map (·.controller) = (s.card? id).map (·.controller) := by
  rw [card?_unnumbered, Option.map_map]
  rfl

theorem isOnBattlefield_unnumbered (s : State) (id : CardId) :
    s.unnumbered.isOnBattlefield id = s.isOnBattlefield id := by
  unfold isOnBattlefield zoneKind?
  rw [card?_unnumbered, Option.bind_map]
  rfl

/-- What events bring does not depend on the numbers. -/
theorem gainsFrom_unnumbered (s : State) (events : List Event) :
    s.unnumbered.gainsFrom events = s.gainsFrom events := by
  have fires (a : TriggeredAbility) (event : Event) :
      a.unnumbered.fires event s.unnumbered = a.fires event s :=
    fires_congr (a := a) event (s.control_unnumbered a.source) (s.isOnBattlefield_unnumbered a.source)
  have share (a : TriggeredAbility) (event : Event) :
      a.unnumbered.share s.unnumbered event = a.share s event := by
    have recipient : a.unnumbered.recipient? s.unnumbered event = a.recipient? s event := by
      simp only [TriggeredAbility.recipient?, control_unnumbered]
      rfl
    funext seat
    rw [TriggeredAbility.share, recipient]
    rfl
  funext seat
  simp only [gainsFrom, gainsOn, triggers_unnumbered, List.filter_map, List.map_map,
    Function.comp_def, fires, share]

theorem answers_unnumbered : s.unnumbered.Answers ↔ s.Answers := by
  constructor
  · intro h
    constructor
    · intro id c found
      exact h.controlled (c := c.unnumbered) (by rw [card?_unnumbered, found]; rfl)
    · intro id c a found carried
      obtain ⟨⟨source, known⟩, gains⟩ := h.triggered (c := c.unnumbered) (a := a.unnumbered)
        (by rw [card?_unnumbered, found]; rfl) (List.mem_map_of_mem carried)
      rw [card?_unnumbered, Option.map_eq_some_iff] at known
      obtain ⟨source, known, -⟩ := known
      exact ⟨⟨source, known⟩, gains⟩
  · intro h
    constructor
    · intro id c found
      rw [card?_unnumbered, Option.map_eq_some_iff] at found
      obtain ⟨c, found, rfl⟩ := found
      exact h.controlled (c := c) found
    · intro id c a found carried
      rw [card?_unnumbered, Option.map_eq_some_iff] at found
      obtain ⟨c, found, rfl⟩ := found
      obtain ⟨b, listed, rfl⟩ := List.mem_map.mp carried
      obtain ⟨⟨source, known⟩, gains⟩ := h.triggered found listed
      refine ⟨⟨source.unnumbered, ?_⟩, gains⟩
      show s.unnumbered.card? b.source = _
      rw [card?_unnumbered, known, Option.map_some]

theorem battlefield_unnumbered (s : State) :
    s.unnumbered.battlefield = s.battlefield.map fun e => (e.1, e.2.unnumbered) := by
  simp only [battlefield, unnumbered, Table.values, Table.map, Table.mapWithKey, List.map_map,
    List.filter_map, Function.comp_def]
  rfl

theorem permanents_unnumbered (s : State) {p : Card → Bool} (blind : ∀ c, p c.unnumbered = p c) :
    s.unnumbered.permanents p = s.permanents p := by
  simp only [permanents, battlefield_unnumbered, List.filter_map, List.map_map, Function.comp_def,
    blind]

/-- Changes that have nothing to do with triggered abilities are the same without the numbers. -/
theorem updateCards_unnumbered (s : State) (ids : List CardId) {f : Card → Card}
    (blind : ∀ c, f c.unnumbered = (f c).unnumbered) :
    s.unnumbered.updateCards ids f = (s.updateCards ids f).unnumbered := by
  induction ids generalizing s with
  | nil => rfl
  | cons id rest ih =>
      have first : s.unnumbered.updateCard id f = (s.updateCard id f).unnumbered := by
        have cards : (s.cards.map Card.unnumbered).update id f =
            (s.cards.update id f).map Card.unnumbered := by
          refine Table.ext_get? fun other => ?_
          simp only [Table.get?_update, Table.get?_map]
          split <;> simp [Function.comp_def, blind]
        rw [updateCard, unnumbered, cards]
        rfl
      show (s.unnumbered.updateCard id f).updateCards rest f = _
      rw [first, ih]
      rfl

theorem apply_unnumbered (effect : ContinuousEffect) (s : State) :
    effect.apply s.unnumbered = (effect.apply s).unnumbered := by
  have creatures : s.unnumbered.creatures = s.creatures.map fun e => (e.1, e.2.unnumbered) := by
    rw [creatures, battlefield_unnumbered, List.filter_map]
    rfl
  have source : effect.activeSource? s.unnumbered =
      (effect.activeSource? s).map Card.unnumbered := by
    unfold ContinuousEffect.activeSource?
    rw [isOnBattlefield_unnumbered, card?_unnumbered]
    split <;> rfl
  have reached : effect.reached s.unnumbered = effect.reached s := by
    unfold ContinuousEffect.reached
    rw [source, creatures]
    cases effect.activeSource? s with
    | none => rfl
    | some p =>
        rw [Option.map_some]
        cases effect.affected with
        | source => rfl
        | allCreatures => exact List.map_map
        | creaturesYouControl includeSource =>
            dsimp only
            rw [List.filter_map, List.map_map]
            rfl
  rw [ContinuousEffect.apply, ContinuousEffect.change, reached]
  exact s.updateCards_unnumbered _ fun _ => rfl

theorem derive_unnumbered (s : State) : s.unnumbered.derive = s.derive.unnumbered := by
  have stripped : s.unnumbered.strip = s.strip.unnumbered := by
    have cards : (s.cards.map Card.unnumbered).map Card.strip =
        (s.cards.map Card.strip).map Card.unnumbered := by
      refine Table.ext_get? fun other => ?_
      simp only [Table.get?_map, Option.map_map]
      rfl
    rw [strip, unnumbered, cards]
    rfl
  have statics : s.unnumbered.activeStatics = s.activeStatics := by
    rw [activeStatics, battlefield_unnumbered, List.flatMap_map]
    rfl
  have applied (abilities : List StaticAbility) (s : State) :
      s.unnumbered.applyStatics abilities = (s.applyStatics abilities).unnumbered := by
    induction abilities generalizing s with
    | nil => rfl
    | cons ability rest ih =>
        show (ability.effect.apply s.unnumbered).applyStatics rest = _
        rw [apply_unnumbered, ih]
        rfl
  rw [derive, stripped, statics, applied, countCounters, permanents_unnumbered _ fun _ => rfl]
  exact updateCards_unnumbered _ _ Card.unnumbered_withCounters

/-- Characteristics are derived in a state if they are without the numbers. -/
theorem derived_unnumbered : s.unnumbered.derive = s.unnumbered ↔ s.derive = s := by
  rw [derive_unnumbered]
  refine ⟨fun same => ?_, congrArg unnumbered⟩
  have card? (id : CardId) : s.derive.card? id = s.card? id := by
    have related := s.sameButDerived_derive.cards id
    have looks := congrArg (fun r : State => (r.card? id).map (·.characteristics)) same
    simp only [card?_unnumbered, Option.map_map] at looks
    cases left : s.card? id <;> cases right : s.derive.card? id <;>
      rw [left, right] at related looks <;> cases related
    rename_i c d differ
    have same : d.characteristics = c.characteristics := Option.some.inj looks
    rw [differ, same]
  rw [derive_eq s, Table.ext_get? card?]

theorem gainsFrom_perm (s : State) {other : List Event} (perm : other.Perm events) :
    s.gainsFrom other = s.gainsFrom events := by
  funext seat
  exact (perm.map _).sum_eq

/-- A creature that died, and whose controller gains life by that. -/
def mourned : Card :=
  .create 1 (.creature 1 "Martyr" 1 1) 0 (PlayerZones.ofSeat 0).graveyard
    [.triggered ⟨1, 1, Builtin.ownDeath, .gainLife 3⟩]

/-- A creature in play whose controller gains life by the deaths of others. -/
def mourner : Card :=
  .create 2 (.creature 2 "Mourner" 1 1) 1 (PlayerZones.ofSeat 1).battlefield
    [.triggered ⟨1, 2, Builtin.otherDeath, .gainLife 1⟩]

/-- Their abilities have the same number. -/
def wake : State := { initial 2 20 with cards := .ofList [(1, mourned), (2, mourner)] }

theorem wake_answers : wake.Answers := by
  have only {id : CardId} {c : Card} (found : wake.card? id = some c) : c = mourned ∨ c = mourner := by
    have listed : (id, c) ∈ [(1, mourned), (2, mourner)] := Table.mem_entries.mpr found
    simp only [List.mem_cons, List.not_mem_nil, or_false, Prod.mk.injEq] at listed
    exact listed.imp And.right And.right
  constructor
  · intro id c found
    obtain rfl | rfl := only found <;> decide
  · intro id c a found carried
    obtain rfl | rfl := only found
    · obtain rfl := List.mem_singleton.mp carried
      exact ⟨⟨mourned, rfl⟩, 3, rfl⟩
    · obtain rfl := List.mem_singleton.mp carried
      exact ⟨⟨mourner, rfl⟩, 1, rfl⟩

/-- The first creature died under the control of the other player, and one more creature died. -/
def wakeDeaths : List Event := [.creatureDied 1 1 0, .creatureDied 3 0 0]

/-- A creature that died, by whose death its controller gains as much life as there is. -/
def bounty : State :=
  let martyr := Card.create 1 (.creature 1 "Martyr" 1 1) 0 (PlayerZones.ofSeat 0).graveyard
    [.triggered ⟨1, 1, Builtin.ownDeath, .gainLife 9223372036854775807⟩]
  { (initial 2 20).updateZone martyr.zone (·.push 1) with
    cards := .ofList [(1, martyr)]
    nextCard := 2
    nextAbility := 2 }

theorem bounty_answers : bounty.Answers := by
  have only {id : CardId} {c : Card} (found : bounty.card? id = some c) :
      (id, c) ∈ bounty.cards.entries := Table.mem_entries.mpr found
  have listed : ∀ e ∈ bounty.cards.entries, e.2.controller < bounty.playerCount ∧
      ∀ a ∈ e.2.triggered, (bounty.card? a.source).isSome ∧ a.effect = .gainLife 9223372036854775807 := by
    decide
  constructor
  · intro id c found
    exact (listed _ (only found)).1
  · intro id c a found carried
    obtain ⟨known, gains⟩ := (listed _ (only found)).2 a carried
    exact ⟨Option.isSome_iff_exists.mp known, _, gains⟩

end State

end CardGame
