import CardGame.Proofs.Previews
import CardGame.Proofs.SideBySide

/-! # What casting and passing leave alone

Every operation begins with printed characteristics and ends with settling. A settled state comes
through this as it was, and so does all of it that an operation does not mean to change: a spell goes
from a hand to the stack, where nothing that is derived depends on it, and a pass moves nothing at all.
-/

namespace CardGame

namespace State

variable {s t : State} {id : CardId} {c card : Card} {player : Seat} {targets : List CardId}

/-- One card is off the battlefields and has a new record; every other card has the one that it had. -/
def Elsewhere (s : State) (id : CardId) (card : Card) (other : CardId) (c d : Card) : Prop :=
  other = id ∧ s.isBattlefield c.zone = false ∧ d = card ∨ other ≠ id ∧ d = c

theorem Elsewhere.eq_of_inPlay {other : CardId} {d : Card} (related : s.Elsewhere id card other c d)
    (inPlay : s.isBattlefield c.zone = true) : other ≠ id ∧ d = c := by
  obtain ⟨-, off, -⟩ | same := related
  · rw [off] at inPlay
    cases inPlay
  · exact same

theorem matching_elsewhere (off : s.isBattlefield card.zone = false) (printed : card.strip = card)
    (source : ZoneId) : s.Matching (s.relocate id source card) (s.Elsewhere id card) where
  inPlay related := by
    rw [isBattlefield_relocate]
    obtain ⟨-, before, rfl⟩ | ⟨-, rfl⟩ := related
    · rw [before, off]
    · rfl
  controller related inPlay := by rw [(related.eq_of_inPlay inPlay).2]
  statics related inPlay := by rw [(related.eq_of_inPlay inPlay).2]
  types related inPlay := by rw [(related.eq_of_inPlay inPlay).2]
  strip related := by
    obtain ⟨moved, before, rfl⟩ | ⟨stays, rfl⟩ := related
    · exact .inl ⟨moved, before, printed⟩
    · exact .inr ⟨stays, rfl⟩
  apply related inPlay m := by
    obtain ⟨stays, rfl⟩ := related.eq_of_inPlay inPlay
    exact .inr ⟨stays, rfl⟩
  countered related inPlay := by rw [(related.eq_of_inPlay inPlay).2]
  counters related inPlay := by
    obtain ⟨stays, rfl⟩ := related.eq_of_inPlay inPlay
    exact .inr ⟨stays, rfl⟩

/-- The record that a card has when one of them is replaced. -/
def replaced (id : CardId) (card : Card) (other : CardId) (c : Card) : Card :=
  if other = id then card else c

theorem card?_relocate_replaced (s : State) (id : CardId) (source : ZoneId) (card : Card)
    (other : CardId) :
    (s.relocate id source card).card? other = (s.card? other).map (replaced id card other) := by
  rw [card?_relocate]
  unfold replaced
  split
  · rfl
  · exact Option.map_id'.symm

/-- A card that goes from one zone off the battlefields to another, and looks as it is printed, makes no
    difference to what is derived. -/
theorem derive_relocate (keyed : s.Keyed) (found : s.card? id = some c)
    (before : s.isBattlefield c.zone = false) (off : s.isBattlefield card.zone = false)
    (number : card.id = c.id) (printed : card.strip = card) (source : ZoneId) :
    (s.relocate id source card).derive = s.derive.relocate id source card := by
  have beside : s.Beside (s.Elsewhere id card) (s.relocate id source card) := by
    refine .of_map (s.card?_relocate_replaced id source card) fun {other d} known => ?_
    by_cases same : other = id
    · subst same
      obtain rfl : c = d := Option.some.inj (found.symm.trans known)
      exact .inl ⟨rfl, before, if_pos rfl⟩
    · exact .inr ⟨same, if_neg same⟩
  have derived := (matching_elsewhere off printed source).beside_derive beside keyed
    (keyed.relocate source found number)
  have card? (other : CardId) : (s.relocate id source card).derive.card? other =
      (s.derive.relocate id source card).card? other := by
    rw [card?_relocate_replaced]
    refine Option.map_id'.symm.trans (derived.map_eq (g := fun _ d => d) (fun related => ?_) other)
    obtain ⟨same, -, rfl⟩ | ⟨different, rfl⟩ := related
    · exact (if_pos same).symm
    · exact (if_neg different).symm
  rw [derive_eq (s.relocate id source card), Table.ext_get? card?, derive_eq s]
  rfl

/-- A card of the player is cast from the hand with these targets: it is on the stack, and the player is
    left with this mana. -/
def afterCast (s : State) (player : Seat) (p : Player) (left : Mana.Pool) (id : CardId)
    (targets : List CardId) : State :=
  { s with
    players := s.players.modify player fun p => { p with mana := left }
    zones := (s.zones.update p.zones.hand (·.remove id)).update s.stackZone (·.push id)
    cards := s.cards.update id fun c => { c with zone := s.stackZone, targets := targets }
    passes := 0 }

theorem modify_eq_of_player? {p : Player} (hp : s.player? player = some p) {f g : Player → Player}
    (same : f p = g p) : s.players.modify player f = s.players.modify player g := by
  refine List.ext_getElem? fun other => ?_
  simp only [List.getElem?_modify]
  split
  · rename_i here
    subst here
    have found : s.players[player]? = some p := hp
    simp [found, same]
  · rfl

/-- A card and its caster, and the mana that is left after paying for the card. -/
structure Pays (s : State) (player : Seat) (id : CardId) (c : Card) (p : Player) (left : Mana.Pool) :
    Prop where
  found : s.card? id = some c
  seated : s.player? player = some p
  inHand : c.zone = p.zones.hand
  paid : ∃ cost, c.definition.manaCost = .ok cost ∧ p.mana.pay? cost = some left

namespace Orderly

variable {p : Player} {left : Mana.Pool}

theorem off_of_hand (h : s.Orderly) (hp : s.player? player = some p) (inHand : c.zone = p.zones.hand) :
    s.isBattlefield c.zone = false := by
  simp [isBattlefield, inHand, h.hand hp]

/-- What a cast does before characteristics are derived again. -/
theorem cast_eq_ok (h : s.Orderly) (derived : s.derive = s)
    (cast : s.strip.cast player id targets = .ok t) :
    ∃ c p left, s.Pays player id c p left ∧
      t = { s with
          players := s.players.modify player fun p => { p with mana := left }
          passes := 0 }.withBoard
        (s.strip.relocate id p.zones.hand { c with zone := s.stackZone, targets := targets }) := by
  simp only [State.cast, Outcome.bind_eq_ok, card_eq_ok] at cast
  obtain ⟨_, checked, printed, found', cost, priced, next, pushed, same⟩ := cast
  cases same
  rw [checkCast_strip h derived, checkCast_eq_ok] at checked
  obtain ⟨-, c, p, cost', found, hp, inHand, -, -, priced', pays, -⟩ := checked
  obtain ⟨left, pays⟩ := Option.isSome_iff_exists.mp pays
  obtain ⟨d, source, kind, foundPaid, hsource, hkind, rfl⟩ := putOnStack_eq_ok pushed
  have foundPrinted : s.strip.card? id = some c := by
    rw [card?_strip, found, Option.map_some, strip_of_off h.keyed derived found (h.off_of_hand hp inHand)]
  obtain rfl : c = printed := Option.some.inj (foundPrinted.symm.trans found')
  obtain rfl : c = d := Option.some.inj (foundPrinted.symm.trans foundPaid)
  obtain rfl : cost' = cost := Except.ok.inj (priced'.symm.trans priced)
  obtain rfl : .hand = source := Option.some.inj ((inHand ▸ h.hand hp).symm.trans hsource)
  obtain rfl : .stack = kind := Option.some.inj (h.stack.symm.trans hkind)
  obtain rfl : c.controller = player := by
    rw [h.controlled found]
    exact h.owner_of_zone hp found (by simp [PlayerZones.all, inHand])
  refine ⟨c, p, left, ⟨found, hp, inHand, cost', priced', pays⟩, ?_⟩
  have players := modify_eq_of_player? hp (f := fun p => { p with mana := (p.mana.pay? cost').getD p.mana })
    (g := fun p => { p with mana := left }) (by rw [pays, Option.getD_some])
  rw [← players, ← inHand]
  rfl

/-- What is derived after a cast is as it was, and only the cast itself shows. -/
theorem derive_cast (h : s.Orderly) (derived : s.derive = s)
    (cast : s.strip.cast player id targets = .ok t) :
    ∃ c p left, s.Pays player id c p left ∧ t.derive = s.afterCast player p left id targets := by
  obtain ⟨c, p, left, pays, rfl⟩ := h.cast_eq_ok derived cast
  refine ⟨c, p, left, pays, ?_⟩
  have off := h.off_of_hand pays.seated pays.inHand
  have printed : c.strip = c := strip_of_off h.keyed derived pays.found off
  have found : s.strip.card? id = some c := by
    rw [card?_strip, pays.found, Option.map_some, printed]
  let spell : Card := { c with zone := s.stackZone, targets := targets }
  have offStack : s.strip.isBattlefield spell.zone = false := by
    have stack : s.strip.kindOfZone? s.stackZone = some .stack := h.stack
    simp [isBattlefield, spell, stack]
  have looks : c.characteristics = .printed c.definition := (congrArg Card.characteristics printed).symm
  have record := Table.update_eq_of_get? pays.found fun c =>
    { c with zone := s.stackZone, targets := targets }
  have number : spell.id = c.id := rfl
  have plain : spell.strip = spell := by simp only [spell, Card.strip, looks]
  have moved := derive_relocate (h.keyed.congr (layout_strip s)) found off offStack number plain
    p.zones.hand
  rw [derive_withBoard, moved, derive_strip, derived, afterCast, record]
  rfl

end Orderly

section AfterCast

variable {p : Player} {left : Mana.Pool}

theorem card?_afterCast (other : CardId) :
    (s.afterCast player p left id targets).card? other =
      if other = id then (s.card? other).map fun c => { c with zone := s.stackZone, targets := targets }
      else s.card? other :=
  Table.get?_update ..

theorem kindOfZone?_afterCast (zone : ZoneId) :
    (s.afterCast player p left id targets).kindOfZone? zone = s.kindOfZone? zone := by
  simp only [kindOfZone?, zone?, afterCast, Table.get?_update]
  cases s.zones.get? zone <;> split <;> split <;> rfl

theorem isBattlefield_afterCast (zone : ZoneId) :
    (s.afterCast player p left id targets).isBattlefield zone = s.isBattlefield zone := by
  rw [isBattlefield, kindOfZone?_afterCast, isBattlefield]

/-- What is in play stays in play, and as it was. -/
theorem inPlay_afterCast (h : s.Orderly) (pays : s.Pays player id c p left) {other : CardId} {d : Card} :
    ((s.afterCast player p left id targets).card? other = some d ∧
        (s.afterCast player p left id targets).isBattlefield d.zone = true) ↔
      s.card? other = some d ∧ s.isBattlefield d.zone = true := by
  have off := h.off_of_hand pays.seated pays.inHand
  rw [card?_afterCast, isBattlefield_afterCast]
  split
  · rename_i same
    subst same
    rw [pays.found, Option.map_some, Option.some.injEq, Option.some.injEq]
    constructor
    · rintro ⟨rfl, inPlay⟩
      simp [isBattlefield, h.stack] at inPlay
    · rintro ⟨rfl, inPlay⟩
      rw [off] at inPlay
      cases inPlay
  · rfl

theorem Settled.afterCast (settled : s.Settled) (h : s.Orderly) (pays : s.Pays player id c p left)
    (derived : (s.afterCast player p left id targets).derive = s.afterCast player p left id targets) :
    (s.afterCast player p left id targets).Settled where
  derived := derived
  alive {seat q} present seated lifeless := by
    have seats : (s.afterCast player p left id targets).playerCount = s.playerCount :=
      List.length_modify ..
    rw [State.player?, State.afterCast, List.getElem?_modify, Option.map_eq_map,
      Option.map_eq_some_iff] at seated
    obtain ⟨before, seated, rfl⟩ := seated
    have alive := settled.alive (seats ▸ present) seated
    split at lifeless <;> rename_i payer <;> simp only [payer, if_true, if_false] <;>
      exact alive lifeless
  healthy found inPlay creature := by
    obtain ⟨found, inPlay⟩ := (inPlay_afterCast h pays).mp ⟨found, inPlay⟩
    exact settled.healthy found inPlay creature

end AfterCast

/-- A spell that is cast in a settled state is on the stack, paid for, and nothing else is different. -/
theorem Settled.perform_cast {config : Config} {events : List Event} (settled : s.Settled)
    (h : s.Orderly)
    (performed : s.perform config (fun s => s.cast player id targets) = .ok (t, events)) :
    events = [] ∧ ∃ c p left, s.Pays player id c p left ∧ t = s.afterCast player p left id targets := by
  have rounds := (perform_settled performed).2
  obtain ⟨after, cast, settling⟩ := Outcome.bind_eq_ok.mp performed
  obtain ⟨c, p, left, pays, same⟩ := h.derive_cast settled.derived cast
  have calm : after.derive.Settled := by
    rw [same]
    exact settled.afterCast h pays (by rw [← same, derive_derive])
  have stays (other : CardId) (inPlay : s.isOnBattlefield other = true) :
      after.isOnBattlefield other = true := by
    obtain ⟨d, found⟩ := isOnBattlefield_iff.mp inPlay
    rw [isOnBattlefield, ← zoneKind?_congr (layout_derive after), same, ← isOnBattlefield]
    exact isOnBattlefield_iff.mpr ⟨d, (inPlay_afterCast h pays).mpr found⟩
  rw [h.keyed.settle_of_settled calm stays rounds] at settling
  cases settling
  exact ⟨rfl, c, p, left, pays, same⟩

/-- A pass that does not complete a round, in a settled state, does no more than to say who may act next. -/
theorem Settled.perform_pass {config : Config} {events : List Event} (settled : s.Settled)
    (keyed : s.Keyed) (early : s.passes + 1 < s.playerCount)
    (performed : s.perform config (Transform.pass.run config) = .ok (t, events)) :
    events = [] ∧ t = s.withPriority (s.nextSeat s.priorityPlayer) (s.passes + 1) := by
  have rounds := (perform_settled performed).2
  obtain ⟨after, run, settling⟩ := Outcome.bind_eq_ok.mp performed
  obtain ⟨⟨next, outcome⟩, passed, run⟩ := Outcome.bind_eq_ok.mp run
  cases run
  obtain ⟨-, -, rfl⟩ | ⟨-, last, -⟩ | ⟨-, -, -, last, -⟩ := pass_cases passed
  · cases (settled.settle_withPriority keyed _ _ rounds).symm.trans settling
    exact ⟨rfl, rfl⟩
  · exact absurd early (Nat.not_lt.mpr last)
  · exact absurd early (Nat.not_lt.mpr last)

end State

namespace Match

/-- Along every run from a deal, in a settled state, a spell that is cast publishes nothing and changes
    its caster's mana, the hand and the stack, its own record and the number of passes, and a pass that
    does not complete a round hands priority on. Nothing else changes. -/
theorem cast_and_pass_framed (config : Config) {generator : Generator} (catalog : Catalog)
    (registry : Registry) (decks : List (List DefinitionId)) (m : Match) (commands : List Command)
    (player : Seat) (started : start config catalog registry decks generator = .ok m)
    (settled : (m.run commands).state.Settled) :
    (∀ (id : CardId) (targets : List CardId) (next : Match) (events : List Event),
      (m.run commands).call (.act player (.castSpell id targets)) = .ok (next, events) →
        events = [] ∧ ∃ c p left, (m.run commands).state.Pays player id c p left ∧
          next = (m.run commands).commit
            ((m.run commands).state.afterCast player p left id targets) []) ∧
    ((m.run commands).state.passes + 1 < (m.run commands).state.playerCount →
      ∀ (next : Match) (events : List Event),
        (m.run commands).call (.act player .passPriority) = .ok (next, events) →
          events = [] ∧ next = (m.run commands).commit
            { (m.run commands).state with
              priorityPlayer :=
                (m.run commands).state.nextSeat (m.run commands).state.priorityPlayer
              passes := (m.run commands).state.passes + 1 } []) := by
  obtain ⟨orderly, -⟩ := ((kept_start started).run commands).present
  generalize m.run commands = present at settled orderly
  refine ⟨fun id targets next events called => ?cast, fun early next events called => ?pass⟩
  case cast =>
    obtain ⟨-, t, acted, rfl⟩ := call_act_eq_ok.mp called
    obtain ⟨rfl, c, p, left, pays, rfl⟩ := settled.perform_cast orderly acted
    exact ⟨rfl, c, p, left, pays, rfl⟩
  case pass =>
    obtain ⟨-, t, acted, rfl⟩ := call_act_eq_ok.mp called
    obtain ⟨rfl, rfl⟩ := settled.perform_pass orderly.keyed early acted
    exact ⟨rfl, rfl⟩

/-- A player has a land in play, and two more cards in the hand. -/
def untilLand : List Operation := toMain ++ [.act 0 (.playLand 1)]

/-- The player can cast a creature now, and can pass. -/
theorem cast_and_pass_framed_land :
    ∃ m, ambush = .ok m ∧ (m.run (untilLand.map .call)).state.Settled ∧
      (∃ next c p left,
        (m.run (untilLand.map .call)).call (.act 0 (.castSpell 2 [])) = .ok (next, []) ∧
          (m.run (untilLand.map .call)).state.Pays 0 2 c p left ∧
          next.state = (m.run (untilLand.map .call)).state.afterCast 0 p left 2 []) ∧
      ∃ next, (m.run (untilLand.map .call)).call (.act 0 .passPriority) = .ok (next, []) ∧
        next.state.priorityPlayer = 1 ∧
        next.state.cards = (m.run (untilLand.map .call)).state.cards := by
  have told : (do
      let m ← ambush
      let present := m.run (untilLand.map .call)
      let _ ← present.call (.act 0 (.castSpell 2 []))
      let _ ← present.call (.act 0 .passPriority)
      .ok (decide (present.state.derive = present.state), present.state.hasLoser,
        present.state.dying, decide (present.state.passes + 1 < present.state.playerCount),
        present.state.nextSeat present.state.priorityPlayer) :
        Outcome (Bool × Bool × List CardId × Bool × Seat)) = .ok (true, false, [], true, 1) := by
    decide +kernel
  obtain ⟨m, started, told⟩ := Outcome.bind_eq_ok.mp told
  obtain ⟨⟨afterCast, deaths⟩, cast, told⟩ := Outcome.bind_eq_ok.mp told
  obtain ⟨⟨afterPass, deaths'⟩, passed, told⟩ := Outcome.bind_eq_ok.mp told
  simp only [Except.ok.injEq, Prod.mk.injEq, decide_eq_true_eq] at told
  obtain ⟨derived, alive, healthy, early, nextSeat⟩ := told
  have settled := State.settled_iff.mpr ⟨derived, alive, healthy⟩
  obtain ⟨framed, handed⟩ := cast_and_pass_framed _ _ _ _ m (untilLand.map .call) 0 started settled
  obtain ⟨rfl, c, p, left, pays, rfl⟩ := framed 2 [] afterCast deaths cast
  obtain ⟨rfl, rfl⟩ := handed early afterPass deaths' passed
  exact ⟨m, started, settled, ⟨_, c, p, left, cast, pays, rfl⟩, _, passed, nextSeat,
    by simp only [commit]⟩

end Match

end CardGame
