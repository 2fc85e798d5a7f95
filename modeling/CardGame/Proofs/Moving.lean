import CardGame.Proofs.Layout
import CardGame.Proofs.Outcome
import CardGame.Stack

/-! # What a move does

Every operation that moves a card takes it out of the zone that it is in, puts it on top of another,
and gives the card a new record. Apart from that record, which may differ in what was marked on the
card, nothing changes.
-/

namespace CardGame

theorem Card.placement_movedTo (c : Card) (source target : ZoneKind) (zone : ZoneId) :
    (c.movedTo source target zone).placement =
      { c.placement with
        zone := zone
        controller :=
          if target = .stack ∨ target = .battlefield then c.controller else c.owner } := by
  unfold Card.movedTo
  split <;> split <;> split <;> rfl

theorem Card.characteristics_movedTo (c : Card) (source target : ZoneKind) (zone : ZoneId) :
    (c.movedTo source target zone).characteristics = c.characteristics := by
  unfold Card.movedTo
  split <;> split <;> split <;> rfl

section MovedTo

variable (c : Card) (source target : ZoneKind) (zone : ZoneId)

@[simp]
theorem Card.id_movedTo : (c.movedTo source target zone).id = c.id :=
  congrArg Placement.id (c.placement_movedTo source target zone)

@[simp]
theorem Card.definition_movedTo : (c.movedTo source target zone).definition = c.definition :=
  congrArg Placement.definition (c.placement_movedTo source target zone)

@[simp]
theorem Card.owner_movedTo : (c.movedTo source target zone).owner = c.owner :=
  congrArg Placement.owner (c.placement_movedTo source target zone)

@[simp]
theorem Card.zone_movedTo : (c.movedTo source target zone).zone = zone :=
  congrArg Placement.zone (c.placement_movedTo source target zone)

theorem Card.controller_movedTo :
    (c.movedTo source target zone).controller =
      if target = .stack ∨ target = .battlefield then c.controller else c.owner :=
  congrArg Placement.controller (c.placement_movedTo source target zone)

end MovedTo

namespace State

variable {s t : State} {id : CardId} {c : Card}

theorem card_eq_ok : s.card id = .ok c ↔ s.card? id = some c := Outcome.find_eq_ok

theorem player_eq_ok {seat : Seat} {p : Player} :
    s.player seat = .ok p ↔ s.player? seat = some p :=
  Outcome.find_eq_ok

theorem zone_eq_ok {zone : ZoneId} {z : Zone} : s.zone zone = .ok z ↔ s.zone? zone = some z :=
  Outcome.find_eq_ok

theorem kindOfZone?_eq_some {zone : ZoneId} {kind : ZoneKind} :
    s.kindOfZone? zone = some kind ↔ ∃ z, s.zone? zone = some z ∧ z.kind = kind :=
  Option.map_eq_some_iff

/-- Only what a change makes of the card as it is counts. -/
theorem updateCard_eq_of_card? (found : s.card? id = some c) (f : Card → Card) :
    s.updateCard id f = s.updateCard id fun _ => f c := by
  unfold updateCard
  rw [Table.update_eq_of_get? found]

/-- The cards in a zone, bottom first. -/
def contents (s : State) (zone : ZoneId) : List CardId := ((s.zone? zone).map (·.cards)).getD []

theorem contents_of_zone? {zone : ZoneId} {z : Zone} (h : s.zone? zone = some z) :
    s.contents zone = z.cards := by
  rw [contents, h, Option.map_some, Option.getD_some]

theorem contents_congr (h : t.layout = s.layout) (zone : ZoneId) :
    t.contents zone = s.contents zone := by
  rw [contents, contents, zone?_congr h]

/-- Take a card out of a zone, put it on top of the one that a record of it names, and give it that
    record. -/
def relocate (s : State) (id : CardId) (source : ZoneId) (c : Card) : State :=
  ((s.updateZone source (·.remove id)).updateZone c.zone (·.push id)).updateCard id fun _ => c

section Relocate

variable (s : State) (id : CardId) (source : ZoneId) (c : Card)

@[simp]
theorem card?_relocate (other : CardId) :
    (s.relocate id source c).card? other =
      if other = id then (s.card? other).map fun _ => c else s.card? other := by
  simp [relocate]

variable {s id} in
/-- The moved card has its new record, every other card the one it had. -/
theorem card?_relocate_eq_some {old : Card} (found : s.card? id = some old) {other : CardId}
    {d : Card} :
    (s.relocate id source c).card? other = some d ↔
      other = id ∧ d = c ∨ other ≠ id ∧ s.card? other = some d := by
  rw [card?_relocate]
  split
  · rename_i same
    subst same
    simp [found, eq_comm]
  · rename_i different
    simp [different]

@[simp]
theorem player?_relocate (seat : Seat) : (s.relocate id source c).player? seat = s.player? seat :=
  rfl

@[simp]
theorem stackZone_relocate : (s.relocate id source c).stackZone = s.stackZone := rfl

theorem zone?_relocate (zone : ZoneId) :
    (s.relocate id source c).zone? zone = (s.zone? zone).map fun z =>
      { z with
        cards := (if zone = source then z.cards.erase id else z.cards) ++
          if zone = c.zone then [id] else [] } := by
  simp only [relocate, zone?_updateCard, zone?_updateZone]
  cases s.zone? zone <;> split <;> split <;> simp [Zone.push, Zone.remove]

@[simp]
theorem kindOfZone?_relocate (zone : ZoneId) :
    (s.relocate id source c).kindOfZone? zone = s.kindOfZone? zone := by
  simp [kindOfZone?, zone?_relocate, Function.comp_def]

@[simp]
theorem isBattlefield_relocate (zone : ZoneId) :
    (s.relocate id source c).isBattlefield zone = s.isBattlefield zone := by
  simp only [isBattlefield, kindOfZone?_relocate]

variable {s id} in
theorem zoneKind?_relocate {old : Card} (found : s.card? id = some old) (other : CardId) :
    (s.relocate id source c).zoneKind? other =
      if other = id then s.kindOfZone? c.zone else s.zoneKind? other := by
  unfold zoneKind?
  rw [card?_relocate, funext (kindOfZone?_relocate s id source c)]
  split
  · rename_i same
    simp [same, found]
  · rfl

theorem contents_relocate (known : (s.kindOfZone? c.zone).isSome) (zone : ZoneId) :
    (s.relocate id source c).contents zone =
      (if zone = source then (s.contents zone).erase id else s.contents zone) ++
        if zone = c.zone then [id] else [] := by
  rw [contents, contents, zone?_relocate]
  cases found : s.zone? zone with
  | none =>
      have elsewhere : zone ≠ c.zone := fun same => by simp [kindOfZone?, ← same, found] at known
      simp [elsewhere]
  | some z => simp

end Relocate

/-- A change of the record that leaves the card where it is comes to the same as another record. -/
theorem updateCard_relocate (s : State) (id : CardId) (source : ZoneId) (c : Card) {f : Card → Card}
    (zone : (f c).zone = c.zone) :
    (s.relocate id source c).updateCard id f = s.relocate id source (f c) := by
  unfold relocate updateCard
  rw [Table.update_update, zone]

theorem move_eq_ok {target : ZoneId} :
    s.move id target = .ok t ↔
      ∃ c source kind, s.card? id = some c ∧ s.kindOfZone? c.zone = some source ∧
        s.kindOfZone? target = some kind ∧
        t = s.relocate id c.zone (c.movedTo source kind target) := by
  have record {c : Card} {source kind : ZoneKind} (found : s.card? id = some c) :
      ((s.updateZone c.zone (·.remove id)).updateZone target (·.push id)).updateCard id
          (·.movedTo source kind target) =
        s.relocate id c.zone (c.movedTo source kind target) := by
    rw [relocate, Card.zone_movedTo]
    exact updateCard_eq_of_card? (by simpa using found) _
  unfold move
  simp only [Outcome.bind_eq_ok, card_eq_ok, zone_eq_ok, kindOfZone?_eq_some]
  constructor
  · rintro ⟨c, found, z, hz, z', hz', result⟩
    refine ⟨c, z.kind, z'.kind, found, ⟨z, hz, rfl⟩, ⟨z', hz', rfl⟩, ?_⟩
    rw [← record found]
    exact (Except.ok.inj result).symm
  · rintro ⟨c, source, kind, found, ⟨z, hz, rfl⟩, ⟨z', hz', rfl⟩, rfl⟩
    exact ⟨c, found, z, hz, z', hz', congrArg Except.ok (record found)⟩

theorem bury_eq_ok :
    s.bury id = .ok t ↔
      ∃ c p source kind, s.card? id = some c ∧ s.player? c.owner = some p ∧
        s.kindOfZone? c.zone = some source ∧ s.kindOfZone? p.zones.graveyard = some kind ∧
        t = s.relocate id c.zone (c.movedTo source kind p.zones.graveyard) := by
  unfold bury
  simp only [Outcome.bind_eq_ok, card_eq_ok, player_eq_ok, move_eq_ok]
  constructor
  · rintro ⟨c, found, p, owner, c', source, kind, found', hsource, hkind, rfl⟩
    obtain rfl : c = c' := Option.some.inj (found.symm.trans found')
    exact ⟨c, p, source, kind, found, owner, hsource, hkind, rfl⟩
  · rintro ⟨c, p, source, kind, found, owner, hsource, hkind, rfl⟩
    exact ⟨c, found, p, owner, c, source, kind, found, hsource, hkind, rfl⟩

theorem enter_eq_ok {seat : Seat} (h : s.enter id seat = .ok t) :
    ∃ c p source kind, s.card? id = some c ∧ s.player? seat = some p ∧
      s.kindOfZone? c.zone = some source ∧ s.kindOfZone? p.zones.battlefield = some kind ∧
      t = s.relocate id c.zone
        { c.movedTo source kind p.zones.battlefield with
          controller := seat, enteredTurn := some s.turn, summoningSick := true } := by
  unfold enter at h
  simp only [Outcome.bind_eq_ok, player_eq_ok, move_eq_ok, Except.ok.injEq] at h
  obtain ⟨p, hp, -, ⟨c, source, kind, found, hsource, hkind, rfl⟩, rfl⟩ := h
  exact ⟨c, p, source, kind, found, hp, hsource, hkind, updateCard_relocate _ _ _ _ rfl⟩

theorem putOnStack_eq_ok {seat : Seat} {targets : List CardId}
    (h : s.putOnStack id seat targets = .ok t) :
    ∃ c source kind, s.card? id = some c ∧ s.kindOfZone? c.zone = some source ∧
      s.kindOfZone? s.stackZone = some kind ∧
      t = s.relocate id c.zone
        { c.movedTo source kind s.stackZone with controller := seat, targets := targets } := by
  unfold putOnStack at h
  simp only [Outcome.bind_eq_ok, move_eq_ok, Except.ok.injEq] at h
  obtain ⟨-, ⟨c, source, kind, found, hsource, hkind, rfl⟩, rfl⟩ := h
  exact ⟨c, source, kind, found, hsource, hkind, updateCard_relocate _ _ _ _ rfl⟩

/-- A draw from an empty library changes nothing. -/
theorem draw_eq_none {seat : Seat} (h : s.draw seat = .ok (t, none)) : t = s := by
  unfold draw at h
  simp only [Outcome.bind_eq_ok] at h
  obtain ⟨p, -, library, -, h⟩ := h
  split at h
  · cases h
    rfl
  · obtain ⟨next, -, h⟩ := Outcome.bind_eq_ok.mp h
    cases h

/-- Any other moves the top card of the library to the hand. -/
theorem draw_eq_some {seat : Seat} (h : s.draw seat = .ok (t, some id)) :
    ∃ p, s.player? seat = some p ∧ (s.contents p.zones.library).getLast? = some id ∧
      s.move id p.zones.hand = .ok t := by
  unfold draw at h
  simp only [Outcome.bind_eq_ok, player_eq_ok, zone_eq_ok] at h
  obtain ⟨p, hp, library, hlibrary, h⟩ := h
  split at h
  · cases h
  · rename_i top
    obtain ⟨next, moved, h⟩ := Outcome.bind_eq_ok.mp h
    cases h
    exact ⟨p, hp, by rwa [contents_of_zone? hlibrary], moved⟩

end State

end CardGame
