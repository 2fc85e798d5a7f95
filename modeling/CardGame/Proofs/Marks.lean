import CardGame.Proofs.Changes
import CardGame.Proofs.Declarations

/-! # Marks on cards

Being tapped or damaged, counters and the turn of its arrival are about a card on a battlefield. When
the card goes elsewhere, nothing of that is left on it, and its targets are forgotten when it leaves the
stack.
-/

namespace CardGame

/-- What a record says about a card besides its placement and its characteristics. -/
structure Marks where
  tapped : Bool
  damage : Int
  counters : Table String Nat
  summoningSick : Bool
  enteredTurn : Option Nat
  targets : List CardId

def Card.marks (c : Card) : Marks where
  tapped := c.tapped
  damage := c.damage
  counters := c.counters
  summoningSick := c.summoningSick
  enteredTurn := c.enteredTurn
  targets := c.targets

namespace Marks

/-- The marks of a card to which nothing has happened on a battlefield. -/
def plain (targets : List CardId) : Marks := ⟨false, 0, .empty, false, none, targets⟩

/-- The marks of a card that goes from a zone of one kind to a zone of another. -/
def moved (m : Marks) (source target : ZoneKind) : Marks :=
  let m := if source.isBattlefield && !target.isBattlefield then plain m.targets else m
  if target = .stack then m else { m with targets := [] }

/-- What can be marked on a card in a zone of this kind, whether it can be damage, and whether damage is
    known to be whole, that is, not to have wrapped around. -/
structure Clean (damaged whole : Prop) (kind : ZoneKind) (m : Marks) : Prop where
  plain : kind ≠ .battlefield → m = .plain m.targets
  untargeted : kind ≠ .stack → m.targets = []
  nonneg : whole → 0 ≤ m.damage
  unhurt : ¬damaged → m.damage = 0

namespace Clean

variable {damaged damaged' whole : Prop} {kind source target : ZoneKind} {m : Marks}

theorem of_plain {targets : List CardId} (untargeted : kind ≠ .stack → targets = []) :
    (Marks.plain targets).Clean damaged whole kind :=
  ⟨fun _ => rfl, untargeted, fun _ => le_rfl, fun _ => rfl⟩

theorem mono (h : m.Clean damaged whole kind) (still : damaged → damaged') :
    m.Clean damaged' whole kind :=
  ⟨h.plain, h.untargeted, h.nonneg, fun not => h.unhurt fun some => not (still some)⟩

/-- A card that goes to a zone that is no battlefield has no marks but its targets. -/
theorem moved_eq (h : m.Clean damaged whole source) (off : target ≠ .battlefield) :
    m.moved source target = Marks.plain (if target = .stack then m.targets else []) := by
  have bare : (if source.isBattlefield && !target.isBattlefield then Marks.plain m.targets else m) =
      Marks.plain m.targets := by
    by_cases fromPlay : source = .battlefield
    · subst fromPlay
      cases target <;> first | rfl | exact absurd rfl off
    · rw [← h.plain fromPlay, ite_self]
  unfold moved
  rw [bare]
  split <;> rfl

theorem moved (h : m.Clean damaged whole source) (off : target ≠ .battlefield) :
    (m.moved source target).Clean damaged whole target := by
  rw [h.moved_eq off]
  exact of_plain fun notStack => if_neg notStack

theorem aimed (h : m.Clean damaged whole source) (targets : List CardId) :
    { m.moved source .stack with targets := targets }.Clean damaged whole .stack := by
  have bare : m.moved source .stack = Marks.plain m.targets := h.moved_eq nofun
  rw [bare]
  exact of_plain (absurd rfl)

theorem entered (h : m.Clean damaged whole source) (turn : Nat) :
    { m.moved source .battlefield with enteredTurn := some turn, summoningSick := true }.Clean
      damaged whole .battlefield := by
  have same : m.moved source .battlefield = { m with targets := [] } := by cases source <;> rfl
  rw [same]
  exact ⟨absurd rfl, fun _ => rfl, h.nonneg, h.unhurt⟩

theorem off (h : m.Clean damaged whole kind) (off : kind ≠ .battlefield) :
    m.Clean damaged' whole kind := by
  rw [h.plain off]
  exact of_plain h.untargeted

theorem tap (h : m.Clean damaged whole .battlefield) (tapped sick : Bool) :
    { m with tapped := tapped, summoningSick := sick }.Clean damaged whole .battlefield :=
  ⟨absurd rfl, h.untargeted, h.nonneg, h.unhurt⟩

theorem hurt (h : m.Clean damaged whole .battlefield) {damage : Int} (nonneg : whole → 0 ≤ damage) :
    { m with damage := damage }.Clean True whole .battlefield :=
  ⟨absurd rfl, h.untargeted, nonneg, absurd trivial⟩

theorem heal (h : m.Clean damaged whole .battlefield) :
    { m with damage := 0 }.Clean damaged' whole .battlefield :=
  ⟨absurd rfl, h.untargeted, fun _ => le_rfl, fun _ => rfl⟩

end Clean

end Marks

theorem Card.marks_movedTo (c : Card) (source target : ZoneKind) (zone : ZoneId) :
    (c.movedTo source target zone).marks = c.marks.moved source target := by
  unfold Card.movedTo Marks.moved
  split <;> split <;> split <;> rfl

namespace State

/-- Whatever is marked on a card may be marked on a card in that zone. -/
def Clean (damaged whole : Prop) (s : State) : Prop :=
  ∀ id c kind, s.card? id = some c → s.kindOfZone? c.zone = some kind →
    c.marks.Clean damaged whole kind

variable {config : Config} {damaged damaged' whole : Prop} {s t : State} {id : CardId} {c c' : Card}

namespace Clean

theorem mono (h : s.Clean damaged whole) (still : damaged → damaged') : s.Clean damaged' whole :=
  fun id c kind found inZone => (h id c kind found inZone).mono still

/-- If no zone changes, it is enough that every card stays in its zone with the same marks. -/
theorem of_cards (h : s.Clean damaged whole) (zones : t.zones = s.zones)
    (cards : ∀ id c, t.card? id = some c →
      ∃ b, s.card? id = some b ∧ b.zone = c.zone ∧ b.marks = c.marks) : t.Clean damaged whole := by
  intro id c kind found inZone
  obtain ⟨b, known, zone, marks⟩ := cards id c found
  rw [kindOfZone?, zone?, zones, ← zone] at inZone
  exact marks ▸ h id b kind known inZone

theorem aside (h : s.Clean damaged whole) (same : s.SameBoard t) : t.Clean damaged whole :=
  h.of_cards (congrArg Layout.zones same.layout) fun _ c found =>
    ⟨c, by rwa [card?, ← same.cards], rfl, rfl⟩

theorem of_strip (h : s.Clean damaged whole) (same : s.strip = t.strip) : t.Clean damaged whole := by
  refine h.of_cards (congrArg Layout.zones (layout_of_strip same)) fun id c found => ?_
  have printed : (s.card? id).map Card.strip = some c.strip := by
    rw [← card?_strip, same, card?_strip, found, Option.map_some]
  obtain ⟨b, known, strip⟩ := Option.map_eq_some_iff.mp printed
  exact ⟨b, known, (congrArg Card.zone strip :), (congrArg Card.marks strip :)⟩

theorem updateCard (h : s.Clean damaged whole) (inPlay : s.isOnBattlefield id = true) {f : Card → Card}
    (zone : ∀ c, (f c).zone = c.zone)
    (marks : ∀ c : Card, c.marks.Clean damaged whole .battlefield →
      (f c).marks.Clean damaged whole .battlefield) :
    (s.updateCard id f).Clean damaged whole := by
  intro other c kind found inZone
  replace inZone : s.kindOfZone? c.zone = some kind := inZone
  rw [card?_updateCard] at found
  split at found
  · rename_i same
    subst same
    obtain ⟨b, known, rfl⟩ := Option.map_eq_some_iff.mp found
    obtain ⟨_, known', play⟩ := isOnBattlefield_iff.mp inPlay
    cases known.symm.trans known'
    rw [zone] at inZone
    cases (of_decide_eq_true play).symm.trans inZone
    exact marks b (h other b _ known inZone)
  · exact h other c kind found inZone

theorem updatePermanents (h : s.Clean damaged whole) (keyed : s.Keyed) {p : Card → Bool}
    {f : Card → Card} (zone : ∀ c, (f c).zone = c.zone)
    (marks : ∀ c : Card, c.marks.Clean damaged whole .battlefield →
      (if p c then f c else c).marks.Clean damaged' whole .battlefield) :
    (s.updateCards (s.permanents p) f).Clean damaged' whole := by
  intro id c kind found inZone
  replace inZone : s.kindOfZone? c.zone = some kind := by rwa [updateCards_eq] at inZone
  rw [keyed.card?_updatePermanents, Option.map_eq_some_iff] at found
  obtain ⟨b, known, rfl⟩ := found
  have there : (if s.isBattlefield b.zone && p b then f b else b).zone = b.zone := by
    split
    · exact zone b
    · rfl
  rw [there] at inZone
  cases inPlay : s.isBattlefield b.zone with
  | true =>
      cases (of_decide_eq_true inPlay).symm.trans inZone
      exact marks b (h id b _ known inZone)
  | false =>
      refine (h id b kind known inZone).off fun same => ?_
      rw [isBattlefield, inZone, same] at inPlay
      cases inPlay

theorem relocate (h : s.Clean damaged whole) (source : ZoneId) (found : s.card? id = some c)
    {kind : ZoneKind} (inZone : s.kindOfZone? c'.zone = some kind)
    (marks : c'.marks.Clean damaged whole kind) : (s.relocate id source c').Clean damaged whole := by
  intro other d other' known there
  rw [kindOfZone?_relocate] at there
  obtain ⟨-, rfl⟩ | ⟨-, known⟩ := (card?_relocate_eq_some source c' found).mp known
  · cases inZone.symm.trans there
    exact marks
  · exact h other d other' known there

theorem move (h : s.Clean damaged whole) {zone : ZoneId} {source kind : ZoneKind}
    (found : s.card? id = some c) (inZone : s.kindOfZone? c.zone = some source)
    (target : s.kindOfZone? zone = some kind) (off : kind ≠ .battlefield) :
    (s.relocate id c.zone (c.movedTo source kind zone)).Clean damaged whole := by
  refine h.relocate c.zone found (by rwa [Card.zone_movedTo]) ?_
  rw [Card.marks_movedTo]
  exact (h id c source found inZone).moved off

theorem bury (h : s.Clean damaged whole) (orderly : s.Orderly) (buried : s.bury id = .ok t) :
    t.Clean damaged whole := by
  obtain ⟨c, p, source, kind, found, owner, inZone, target, rfl⟩ := bury_eq_ok.mp buried
  cases target.symm.trans (orderly.graveyard owner)
  exact h.move found inZone target nofun

theorem enter (h : s.Clean damaged whole) (orderly : s.Orderly) {seat : Seat}
    (entered : s.enter id seat = .ok t) : t.Clean damaged whole := by
  obtain ⟨c, p, source, kind, found, player, inZone, target, rfl⟩ := enter_eq_ok entered
  cases target.symm.trans (orderly.battlefield player)
  refine h.relocate c.zone found (by rwa [Card.zone_movedTo]) ?_
  have marks := (h id c source found inZone).entered s.turn
  rw [← c.marks_movedTo source .battlefield p.zones.battlefield] at marks
  exact marks

theorem happens (h : s.Clean damaged whole) (orderly : s.Orderly) {happening : Happening}
    (happens : s.Happens happening t) : t.Clean damaged whole := by
  cases happens with
  | draw drawn =>
      obtain ⟨p, player, -, moved⟩ := draw_eq_some drawn
      obtain ⟨c, source, kind, found, inZone, target, rfl⟩ := move_eq_ok.mp moved
      cases target.symm.trans (orderly.hand player)
      exact h.move found inZone target nofun
  | play _ _ _ _ entered => exact h.enter orderly entered
  | @cast seat p id c targets t _ _ _ _ pushed =>
      obtain ⟨c, source, kind, found, inZone, target, rfl⟩ := putOnStack_eq_ok pushed
      cases target.symm.trans orderly.stack
      refine h.relocate c.zone found (by rwa [Card.zone_movedTo]) ?_
      have marks := (h id c source found inZone).aimed targets
      rw [← c.marks_movedTo source .stack s.stackZone] at marks
      exact marks
  | resolve _ _ _ entered => exact h.enter orderly entered
  | spend _ _ _ buried => exact h.bury orderly buried
  | die _ _ buried => exact h.bury orderly buried

theorem ripples {α : Type} {keep : Player → α} (h : s.Clean damaged whole) (orderly : s.Orderly)
    (ripples : Ripples keep s t) : t.Orderly ∧ t.Clean damaged whole := by
  induction ripples with
  | refl => exact ⟨orderly, h⟩
  | tail _ ripple ih =>
      obtain ⟨orderly, h⟩ := ih
      cases ripple with
      | aside same => exact ⟨orderly.congr same.layout, h.aside same⟩
      | derived same =>
          exact ⟨orderly.congr (layout_of_strip same), h.of_strip same⟩
      | move happens => exact ⟨(happens.shifts orderly).orderly, h.happens orderly happens⟩

end Clean

theorem clean_payAll {costs : List ActivationCost} {source : CardId} {player : Seat}
    (h : s.Clean damaged whole) (inPlay : s.isOnBattlefield source = true)
    (paid : ActivationCost.payAll costs s source player = .ok t) : t.Clean damaged whole := by
  induction costs generalizing s with
  | nil =>
      cases paid
      exact h
  | cons cost rest ih =>
      rw [ActivationCost.payAll, List.foldlM_cons, Outcome.bind_eq_ok] at paid
      obtain ⟨next, first, paid⟩ := paid
      have layout := (ActivationCost.still_pay first).layout
      refine ih ?_ (by rwa [isOnBattlefield, zoneKind?_congr layout]) paid
      obtain ⟨_, -, first⟩ := Outcome.bind_eq_ok.mp first
      cases cost with
      | tap =>
          cases first
          exact h.updateCard inPlay (fun _ => rfl) fun c clean => clean.tap true c.summoningSick
      | mana cost =>
          cases first
          exact h.aside (.updatePlayer s player fun _ => rfl)
      | payLife amount =>
          cases first
          exact h.aside (.updatePlayer s player fun _ => rfl)

theorem clean_activate {player : Seat} {ability : AbilityId} {targets : List CardId}
    (h : s.Clean damaged whole) (orderly : s.Orderly)
    (activated : s.activate player id ability targets = .ok t) : t.Clean damaged whole := by
  simp only [activate, ActivatedAbility.activate, ActivatedAbility.check, Outcome.bind_eq_ok,
    Outcome.require_eq_ok] at activated
  obtain ⟨-, -, a, -, next, ⟨-, ⟨-, -, -, inPlay, -⟩, -, -, paid, payment, resolved⟩, activated⟩ :=
    activated
  cases activated
  have derived : Ripples (fun _ => ()) s s.derive := .derive s
  obtain ⟨orderly, h⟩ := h.ripples orderly derived
  have layout := (ActivationCost.still_payAll payment).layout
  have settled : Ripples (fun _ => ()) paid next :=
    ripples_resolve (fun _ _ _ => rfl) (IgnoresMana.spares (fun _ _ => rfl) _) resolved
  exact ((clean_payAll h inPlay payment).ripples (orderly.congr layout) settled).2.aside ⟨rfl, rfl⟩

theorem clean_pass {outcome : PassOutcome} (h : s.Clean damaged whole) (orderly : s.Orderly)
    (passed : s.pass = .ok (t, outcome)) : t.Clean damaged whole := by
  obtain ⟨-, -, rfl⟩ | ⟨-, -, -, rfl⟩ | ⟨top, next, -, -, isTop, resolved, rfl⟩ := pass_cases passed
  · exact h.aside ⟨rfl, rfl⟩
  · exact h.aside ⟨rfl, rfl⟩
  · have count : s.SameBoard { s with passes := s.passes + 1 } := ⟨rfl, rfl⟩
    have counted := h.aside count
    have orderly' := orderly.congr count.layout
    refine Clean.aside (s := next) ?_ ⟨rfl, rfl⟩
    obtain ⟨c, -, ⟨-, -, entered⟩ | ⟨context, mid, effects, spent⟩⟩ :=
      resolveCard_cases orderly' (orderly.erase_top isTop).1 resolved
    · exact counted.happens orderly' entered
    · have rippled : Ripples (fun _ => ()) _ mid :=
        ripples_resolveEffects (fun _ _ _ => rfl) (fun _ _ => rfl) effects
      obtain ⟨orderly, h⟩ := counted.ripples orderly' rippled
      exact h.happens orderly spent

theorem clean_tapAttackers {view : State} {attackers : List CardId} (h : s.Clean damaged whole)
    (inPlay : ∀ attacker ∈ attackers, s.isOnBattlefield attacker = true) :
    (s.tapAttackers view attackers).Clean damaged whole := by
  induction attackers generalizing s with
  | nil => exact h
  | cons first rest ih =>
      rw [tapAttackers, List.foldl_cons, ← tapAttackers]
      obtain ⟨here, others⟩ := List.forall_mem_cons.mp inPlay
      split
      · exact ih h others
      · have layout := layout_updateCard s first (f := fun c => { c with tapped := true }) fun _ => rfl
        refine ih (h.updateCard here (fun _ => rfl) fun c clean => clean.tap true c.summoningSick) ?_
        intro attacker attacks
        rw [isOnBattlefield, zoneKind?_congr layout]
        exact others attacker attacks

theorem clean_declareAttackers {player : Seat} {attackers : List CardId} (h : s.Clean damaged whole)
    (declared : s.declareAttackers player attackers = .ok t) : t.Clean damaged whole := by
  obtain ⟨-, -, -, -, ready, rfl⟩ := declareAttackers_eq_ok.mp declared
  refine Clean.aside (s := s.tapAttackers s.derive attackers) ?_ ⟨rfl, rfl⟩
  refine clean_tapAttackers h fun attacker attacks => ?_
  obtain ⟨c, ready, -⟩ := ready attacker attacks
  rw [isOnBattlefield, ← zoneKind?_congr (layout_derive s)]
  exact isOnBattlefield_iff.mpr ⟨c, ready.found, ready.inPlay⟩

theorem clean_declareBlockers {player : Seat} {blocks : List (CardId × CardId)}
    (h : s.Clean damaged whole) (declared : s.declareBlockers player blocks = .ok t) :
    t.Clean damaged whole := by
  obtain ⟨-, combat, after, -, -, -, rfl⟩ := declareBlockers_eq_ok.mp declared
  exact h.aside ⟨rfl, rfl⟩

end State

end CardGame
