import CardGame.Proofs.Outcome
import CardGame.Proofs.Table
import CardGame.StateBased

/-! # Where the cards are

The layout of a state says which zones there are, what lies in them, and what each card keeps for
as long as it stays where it is. Most of what happens in a game leaves the layout alone: it changes
players, the course of the turn, or how a card looks and what is marked on it.
-/

namespace CardGame

/-- What a card keeps for as long as it stays in one zone. -/
structure Placement where
  id : CardId
  definition : Definition
  owner : Seat
  controller : Seat
  zone : ZoneId
  statics : List StaticAbility
  triggered : List TriggeredAbility
  activated : List ActivatedAbility

def Card.placement (card : Card) : Placement where
  id := card.id
  definition := card.definition
  owner := card.owner
  controller := card.controller
  zone := card.zone
  statics := card.statics
  triggered := card.triggered
  activated := card.activated

section SamePlace

variable {c d : Card} (h : d.placement = c.placement)
include h

theorem Card.id_eq_of_placement : d.id = c.id := congrArg Placement.id h

theorem Card.definition_eq_of_placement : d.definition = c.definition :=
  congrArg Placement.definition h

theorem Card.owner_eq_of_placement : d.owner = c.owner := congrArg Placement.owner h

theorem Card.controller_eq_of_placement : d.controller = c.controller :=
  congrArg Placement.controller h

theorem Card.zone_eq_of_placement : d.zone = c.zone := congrArg Placement.zone h

theorem Card.statics_eq_of_placement : d.statics = c.statics := congrArg Placement.statics h

end SamePlace

structure Layout where
  /-- The zones of every seat, in seat order. -/
  seats : List PlayerZones
  zones : Table ZoneId Zone
  stackZone : ZoneId
  places : CardId → Option Placement

namespace State

def layout (s : State) : Layout where
  seats := s.players.map (·.zones)
  zones := s.zones
  stackZone := s.stackZone
  places := fun id => (s.card? id).map Card.placement

/-- The types that every card has at the moment. -/
def types (s : State) : CardId → Option (List CardType) :=
  fun id => (s.card? id).map (·.characteristics.types)

variable (s : State)

@[simp]
theorem card?_updateZone (zone : ZoneId) (f : Zone → Zone) (id : CardId) :
    (s.updateZone zone f).card? id = s.card? id := rfl

@[simp]
theorem card?_updateCard (id : CardId) (f : Card → Card) (other : CardId) :
    (s.updateCard id f).card? other =
      if other = id then (s.card? other).map f else s.card? other :=
  Table.get?_update s.cards id f other

@[simp]
theorem card?_strip (id : CardId) : s.strip.card? id = (s.card? id).map Card.strip :=
  Table.get?_map s.cards _ id

/-- What no change of one card makes different, changes of several do not either. -/
theorem updateCards_congr {α : Type} {g : State → α} {f : Card → Card}
    (same : ∀ s id, g (s.updateCard id f) = g s) (ids : List CardId) :
    g (s.updateCards ids f) = g s := by
  induction ids generalizing s with
  | nil => rfl
  | cons id rest ih => exact (ih _).trans (same s id)

theorem updateCards_eq (ids : List CardId) (f : Card → Card) :
    s.updateCards ids f = { s with cards := (s.updateCards ids f).cards } := by
  induction ids generalizing s with
  | nil => rfl
  | cons id rest ih => exact ih _

/-- A change of cards that succeeds finds all of them. -/
theorem changeCards_eq_ok {s t : State} {ids : List CardId} {f : Card → Card} :
    s.changeCards ids f = .ok t ↔
      (∀ id ∈ ids, (s.card? id).isSome = true) ∧ t = s.updateCards ids f := by
  unfold changeCards
  induction ids generalizing s with
  | nil => simpa [updateCards, pure, Except.pure] using eq_comm
  | cons first rest ih =>
      have known (id : CardId) :
          ((s.updateCard first f).card? id).isSome = (s.card? id).isSome := by
        rw [card?_updateCard]
        split <;> simp
      simp only [List.foldlM_cons, Outcome.bind_eq_ok, Except.ok.injEq, card, Outcome.find_eq_ok,
        List.forall_mem_cons, Option.isSome_iff_exists (x := s.card? first)]
      constructor
      · rintro ⟨mid, ⟨c, found, rfl⟩, h⟩
        obtain ⟨all, rfl⟩ := ih.mp h
        exact ⟨⟨⟨c, found⟩, fun id member => known id ▸ all id member⟩, rfl⟩
      · rintro ⟨⟨⟨c, found⟩, all⟩, rfl⟩
        refine ⟨_, ⟨c, found, rfl⟩, ?_⟩
        exact ih.mpr ⟨fun id member => (known id).trans (all id member), rfl⟩

theorem card?_updateCards {ids : List CardId} (distinct : ids.Nodup) (f : Card → Card) (id : CardId) :
    (s.updateCards ids f).card? id = (s.card? id).map fun c => if id ∈ ids then f c else c := by
  induction ids generalizing s with
  | nil => simp [updateCards]
  | cons first rest ih =>
      obtain ⟨fresh, distinct⟩ := List.nodup_cons.mp distinct
      refine (ih (s.updateCard first f) distinct).trans ?_
      by_cases same : id = first
      · subst same
        simp [fresh, Function.comp_def]
      · simp [same]

@[simp]
theorem zone?_updateZone (zone : ZoneId) (f : Zone → Zone) (other : ZoneId) :
    (s.updateZone zone f).zone? other =
      if other = zone then (s.zone? other).map f else s.zone? other :=
  Table.get?_update s.zones zone f other

@[simp]
theorem zone?_updateCard (id : CardId) (f : Card → Card) (zone : ZoneId) :
    (s.updateCard id f).zone? zone = s.zone? zone := rfl

variable {s} {t : State}

theorem mem_cards {c : Card} : c ∈ s.cards.values ↔ ∃ id, s.card? id = some c := by
  simp [Table.values, Table.mem_entries, card?]

theorem mem_battlefield {id : CardId} {c : Card} :
    (id, c) ∈ s.battlefield ↔
      c.id = id ∧ s.isBattlefield c.zone = true ∧ ∃ key, s.card? key = some c := by
  simp only [battlefield, List.mem_map, List.mem_filter, mem_cards, Prod.mk.injEq]
  constructor
  · rintro ⟨c, ⟨listed, inPlay⟩, same, rfl⟩
    exact ⟨same, inPlay, listed⟩
  · rintro ⟨same, inPlay, listed⟩
    exact ⟨c, ⟨listed, inPlay⟩, same, rfl⟩

theorem mem_creatures {id : CardId} {c : Card} :
    (id, c) ∈ s.creatures ↔
      c.id = id ∧ s.isBattlefield c.zone = true ∧ c.isCreature = true ∧
        ∃ key, s.card? key = some c := by
  rw [creatures, List.mem_filter, mem_battlefield]
  exact ⟨fun ⟨⟨same, inPlay, listed⟩, creature⟩ => ⟨same, inPlay, creature, listed⟩,
    fun ⟨same, inPlay, creature, listed⟩ => ⟨⟨same, inPlay, listed⟩, creature⟩⟩

theorem isOnBattlefield_iff {id : CardId} :
    s.isOnBattlefield id = true ↔ ∃ c, s.card? id = some c ∧ s.isBattlefield c.zone = true := by
  cases found : s.card? id <;> simp [isOnBattlefield, zoneKind?, isBattlefield, found]

theorem isCreatureInPlay_eq_true {id : CardId} :
    s.isCreatureInPlay id = true ↔
      ∃ c, s.card? id = some c ∧ s.isBattlefield c.zone = true ∧ c.isCreature = true := by
  simp only [isCreatureInPlay, Bool.and_eq_true, isOnBattlefield_iff]
  cases found : s.card? id <;> simp

/-- Every card is at the number that it carries. -/
def Keyed (s : State) : Prop := ∀ id c, s.card? id = some c → c.id = id

theorem keyed_iff : s.Keyed ↔ ∀ e ∈ s.cards.entries, e.2.id = e.1 :=
  ⟨fun keyed e listed => keyed e.1 e.2 (Table.mem_entries.mp listed),
    fun all id c found => all (id, c) (Table.mem_entries.mpr found)⟩

instance (s : State) : Decidable s.Keyed := decidable_of_iff _ keyed_iff.symm

section Keyed

variable (keyed : s.Keyed)
include keyed

theorem Keyed.battlefield_eq :
    s.battlefield = s.cards.entries.filter fun e => s.isBattlefield e.2.zone := by
  have carried : ∀ e ∈ s.cards.entries.filter fun e => s.isBattlefield e.2.zone,
      (e.2.id, e.2) = e := fun e listed =>
    Prod.ext (keyed_iff.mp keyed e (List.mem_of_mem_filter listed)) rfl
  rw [battlefield, Table.values, List.filter_map, List.map_map]
  exact (List.map_congr_left carried).trans (List.map_id' _)

theorem Keyed.mem_battlefield {id : CardId} {c : Card} :
    (id, c) ∈ s.battlefield ↔ s.card? id = some c ∧ s.isBattlefield c.zone = true := by
  rw [keyed.battlefield_eq, List.mem_filter, Table.mem_entries, card?]

theorem Keyed.mem_creatures {id : CardId} {c : Card} :
    (id, c) ∈ s.creatures ↔
      s.card? id = some c ∧ s.isBattlefield c.zone = true ∧ c.isCreature = true := by
  rw [creatures, List.mem_filter, keyed.mem_battlefield, and_assoc]

theorem Keyed.isCreatureInPlay_iff {id : CardId} :
    s.isCreatureInPlay id = true ↔ ∃ c, (id, c) ∈ s.creatures := by
  simp only [isCreatureInPlay_eq_true, keyed.mem_creatures]

theorem Keyed.battlefield_ordered : Key.Ordered s.battlefield := by
  rw [keyed.battlefield_eq]
  exact List.Pairwise.filter _ s.cards.sorted

/-- A card is listed once among the creatures in play. -/
theorem Keyed.nodup_creatures : (s.creatures.map (·.1)).Nodup := by
  have ordered : Key.Ordered s.creatures := List.Pairwise.filter _ keyed.battlefield_ordered
  exact ordered.nodup_keys

theorem Keyed.mem_permanents {p : Card → Bool} {id : CardId} {c : Card} (found : s.card? id = some c) :
    id ∈ s.permanents p ↔ s.isBattlefield c.zone = true ∧ p c = true := by
  simp [permanents, keyed.mem_battlefield, found]

theorem Keyed.nodup_permanents (p : Card → Bool) : (s.permanents p).Nodup :=
  keyed.battlefield_ordered.nodup_keys.sublist (List.filter_sublist.map _)

theorem Keyed.card?_updatePermanents (p : Card → Bool) (f : Card → Card) (id : CardId) :
    (s.updateCards (s.permanents p) f).card? id =
      (s.card? id).map fun c => if s.isBattlefield c.zone && p c then f c else c := by
  rw [card?_updateCards s (keyed.nodup_permanents p)]
  refine Option.map_congr fun c found => if_congr ?_ rfl rfl
  rw [keyed.mem_permanents found, Bool.and_eq_true]

/-- Permanents can always be changed. -/
theorem Keyed.changePermanents (p : Card → Bool) (f : Card → Card) :
    s.changeCards (s.permanents p) f = .ok (s.updateCards (s.permanents p) f) := by
  refine changeCards_eq_ok.mpr ⟨fun id member => ?_, rfl⟩
  obtain ⟨⟨id, c⟩, listed, rfl⟩ := List.mem_map.mp member
  obtain ⟨found, -⟩ := keyed.mem_battlefield.mp (List.mem_of_mem_filter listed)
  rw [found, Option.isSome_some]

end Keyed

theorem zoneKind?_of_card? {id : CardId} {c : Card} (found : s.card? id = some c) :
    s.zoneKind? id = s.kindOfZone? c.zone := by
  rw [zoneKind?, found, Option.bind_some]

theorem Keyed.zoneKind?_of_creature (keyed : s.Keyed) {id : CardId} {c : Card}
    (creature : (id, c) ∈ s.creatures) : s.zoneKind? id = some .battlefield := by
  obtain ⟨found, inPlay, -⟩ := keyed.mem_creatures.mp creature
  rw [zoneKind?_of_card? found]
  exact of_decide_eq_true inPlay

theorem layout_ext (seats : t.players.map (·.zones) = s.players.map (·.zones))
    (zones : t.zones = s.zones) (stack : t.stackZone = s.stackZone)
    (places : ∀ id, (t.card? id).map Card.placement = (s.card? id).map Card.placement) :
    t.layout = s.layout := by
  simp only [layout, Layout.mk.injEq]
  exact ⟨seats, zones, stack, funext places⟩

section Congruence

variable (h : t.layout = s.layout)
include h

/-- The player of a seat has the same zones in both states. -/
theorem player?_congr {seat : Seat} {p : Player} (hp : t.player? seat = some p) :
    ∃ q, s.player? seat = some q ∧ q.zones = p.zones := by
  have zones : (t.player? seat).map (·.zones) = (s.player? seat).map (·.zones) := by
    simpa [layout, player?] using congrArg (fun l : Layout => l.seats[seat]?) h
  rw [hp, Option.map_some, eq_comm, Option.map_eq_some_iff] at zones
  exact zones

theorem stackZone_congr : t.stackZone = s.stackZone := congrArg Layout.stackZone h

theorem zone?_congr (zone : ZoneId) : t.zone? zone = s.zone? zone :=
  congrArg (fun l : Layout => l.zones.get? zone) h

theorem kindOfZone?_congr (zone : ZoneId) : t.kindOfZone? zone = s.kindOfZone? zone :=
  congrArg (Option.map Zone.kind) (zone?_congr h zone)

theorem isBattlefield_congr (zone : ZoneId) : t.isBattlefield zone = s.isBattlefield zone := by
  simp only [isBattlefield, kindOfZone?_congr h]

theorem zoneKind?_congr (id : CardId) : t.zoneKind? id = s.zoneKind? id := by
  have kinds : t.kindOfZone? = s.kindOfZone? := funext (kindOfZone?_congr h)
  have zones : (t.card? id).map (·.zone) = (s.card? id).map (·.zone) := by
    simpa [layout, Function.comp_def, Card.placement] using
      congrArg (fun l : Layout => (l.places id).map Placement.zone) h
  have lookUp (r : State) : r.zoneKind? id = ((r.card? id).map (·.zone)).bind r.kindOfZone? := by
    cases found : r.card? id <;> simp [zoneKind?, found]
  rw [lookUp, lookUp, zones, kinds]

theorem placement_congr (id : CardId) :
    (t.card? id).map Card.placement = (s.card? id).map Card.placement :=
  congrArg (fun l : Layout => l.places id) h

/-- A card of one of the states stands at the same place in the other. -/
theorem card?_congr {id : CardId} {c : Card} (hc : t.card? id = some c) :
    ∃ d, s.card? id = some d ∧ d.placement = c.placement := by
  have place := placement_congr h id
  rw [hc, Option.map_some, eq_comm, Option.map_eq_some_iff] at place
  exact place

/-- Whether cards are at the numbers that they carry depends on the layout only. -/
theorem Keyed.congr (keyed : s.Keyed) : t.Keyed := by
  intro id c found
  obtain ⟨d, known, place⟩ := card?_congr h found
  rw [← Card.id_eq_of_placement place, keyed id d known]

end Congruence

theorem layout_mapPlayers (s : State) {f : Player → Player} (h : ∀ p, (f p).zones = p.zones) :
    { s with players := s.players.map f }.layout = s.layout :=
  layout_ext (by simp [Function.comp_def, h]) rfl rfl fun _ => rfl

theorem player?_updateSeats (s : State) (f : Player → Player) (seat : Seat) :
    (s.updateSeats f).player? seat =
      (s.player? seat).map fun p => if seat ∈ Seat.all s.playerCount then f p else p :=
  List.getElem?_mapIdx

theorem map_updateSeats {α : Type} (s : State) {f : Player → Player} {keep : Player → α}
    (same : ∀ p, keep (f p) = keep p) :
    (s.updateSeats f).players.map keep = s.players.map keep := by
  apply List.ext_getElem?
  intro seat
  rw [List.getElem?_map, List.getElem?_map]
  refine (congrArg (Option.map keep) (player?_updateSeats s f seat)).trans ?_
  rw [Option.map_map]
  refine Option.map_congr fun p _ => ?_
  dsimp only [Function.comp_apply]
  split
  · exact same p
  · rfl

theorem layout_updateSeats (s : State) {f : Player → Player} (h : ∀ p, (f p).zones = p.zones) :
    (s.updateSeats f).layout = s.layout :=
  layout_ext (map_updateSeats s h) rfl rfl fun _ => rfl

theorem layout_updatePlayer (s : State) (seat : Seat) {f : Player → Player}
    (h : ∀ p, (f p).zones = p.zones) : (s.updatePlayer seat f).layout = s.layout := by
  refine layout_ext ?_ rfl rfl fun _ => rfl
  apply List.ext_getElem?
  intro other
  simp only [updatePlayer, List.getElem?_map, List.getElem?_modify]
  split <;> simp [Function.comp_def, h]

theorem layout_mapCards (s : State) {f : CardId → Card → Card}
    (h : ∀ id c, (f id c).placement = c.placement) :
    { s with cards := s.cards.mapWithKey f }.layout = s.layout := by
  refine layout_ext rfl rfl rfl fun id => ?_
  simp [card?, Function.comp_def, h]

theorem types_mapCards (s : State) {f : CardId → Card → Card}
    (h : ∀ id c, (f id c).characteristics.types = c.characteristics.types) :
    { s with cards := s.cards.mapWithKey f }.types = s.types := by
  funext id
  simp [types, card?, Function.comp_def, h]

theorem layout_updateCard (s : State) (id : CardId) {f : Card → Card}
    (h : ∀ c, (f c).placement = c.placement) : (s.updateCard id f).layout = s.layout :=
  layout_mapCards s fun other c => by split <;> simp [h]

theorem types_updateCard (s : State) (id : CardId) {f : Card → Card}
    (h : ∀ c, (f c).characteristics.types = c.characteristics.types) :
    (s.updateCard id f).types = s.types :=
  types_mapCards s fun other c => by split <;> simp [h]

theorem layout_updateCards (s : State) (ids : List CardId) {f : Card → Card}
    (h : ∀ c, (f c).placement = c.placement) : (s.updateCards ids f).layout = s.layout :=
  updateCards_congr s (fun s id => layout_updateCard s id h) ids

theorem types_updateCards (s : State) (ids : List CardId) {f : Card → Card}
    (h : ∀ c, (f c).characteristics.types = c.characteristics.types) :
    (s.updateCards ids f).types = s.types :=
  updateCards_congr s (fun s id => types_updateCard s id h) ids

theorem layout_strip (s : State) : s.strip.layout = s.layout :=
  layout_mapCards s fun _ _ => rfl

theorem layout_of_strip (same : s.strip = t.strip) : t.layout = s.layout := by
  rw [← layout_strip t, ← same, layout_strip]

theorem layout_change (effect : ContinuousEffect) (s : State)
    (f : Definition → Characteristics → Characteristics) :
    (effect.change s f).layout = s.layout :=
  layout_updateCards s (effect.reached s) fun _ => rfl

theorem layout_applyStatics (s : State) (abilities : List StaticAbility) :
    (s.applyStatics abilities).layout = s.layout := by
  unfold applyStatics
  induction abilities generalizing s with
  | nil => rfl
  | cons ability rest ih => exact (ih _).trans (layout_change ability.effect s _)

theorem placement_withCounters (c : Card) : c.withCounters.placement = c.placement := by
  unfold Card.withCounters
  split <;> rfl

theorem layout_countCounters (s : State) : s.countCounters.layout = s.layout :=
  layout_updateCards s _ placement_withCounters

theorem layout_derive (s : State) : s.derive.layout = s.layout := by
  rw [derive, layout_countCounters, layout_applyStatics, layout_strip]

theorem layout_markLosers (s : State) : s.markLosers.layout = s.layout :=
  layout_updateSeats s fun p => by unfold Player.checkLife; split <;> rfl

end State

end CardGame
