import CardGame.Proofs.WellFormed

/-! # Orderly states

In a game that began with a deal, more holds than in any well-formed state: no zone holds anything
but the cards that name it, cards never leave their owners, and what a card is decides whether it can
be on a battlefield or on the stack. Every move that the rules make keeps this.
-/

namespace CardGame

/-- Does a card with this definition end up on a battlefield? Lands get there past the stack,
    whatever else they are. -/
def Definition.lasts (d : Definition) : Bool := d.isPermanent || d.hasType .land

namespace State

/-- The zones where a card of a player can be. Nothing ever goes into exile. -/
def homes (s : State) (p : Player) : List ZoneId :=
  [p.zones.hand, p.zones.library, p.zones.graveyard, p.zones.battlefield, s.stackZone]

structure Orderly (s : State) : Prop extends WellFormed s where
  stack : s.kindOfZone? s.stackZone = some .stack
  /-- Players share no zones. -/
  apart : ∀ {i j p q zone}, s.player? i = some p → s.player? j = some q →
    zone ∈ p.zones.all → zone ∈ q.zones.all → i = j
  known : ∀ {zone id}, id ∈ s.contents zone → ∃ c, s.card? id = some c ∧ c.zone = zone
  home : ∀ {id c p}, s.card? id = some c → s.player? c.owner = some p → c.zone ∈ s.homes p
  controlled : ∀ {id c}, s.card? id = some c → c.controller = c.owner
  lasting : ∀ {id c}, s.card? id = some c → s.isBattlefield c.zone = true →
    c.definition.lasts = true
  spell : ∀ {id c}, s.card? id = some c → s.kindOfZone? c.zone = some .stack →
    c.definition.hasType .land = false

/-- A new record for a card that keeps a state orderly: the card stays with its owner, and goes to a
    battlefield or onto the stack only if it belongs there. -/
structure Passage (s : State) (id : CardId) (c c' : Card) : Prop where
  found : s.card? id = some c
  id : c'.id = c.id
  definition : c'.definition = c.definition
  owner : c'.owner = c.owner
  controller : c'.controller = c.owner
  home : ∀ {p}, s.player? c.owner = some p → c'.zone ∈ s.homes p
  lasting : s.isBattlefield c'.zone = true → c.definition.lasts = true
  spell : s.kindOfZone? c'.zone = some .stack → c.definition.hasType .land = false

theorem Passage.of_kind {s : State} {id : CardId} {c c' : Card} {p : Player} {kind : ZoneKind}
    (found : s.card? id = some c) (hp : s.player? c.owner = some p) (same : c'.id = c.id)
    (definition : c'.definition = c.definition) (owner : c'.owner = c.owner)
    (controller : c'.controller = c.owner) (home : c'.zone ∈ s.homes p)
    (hkind : s.kindOfZone? c'.zone = some kind)
    (lasting : kind = .battlefield → c.definition.lasts = true)
    (spell : kind = .stack → c.definition.hasType .land = false) : s.Passage id c c' where
  found := found
  id := same
  definition := definition
  owner := owner
  controller := controller
  home hq := by rwa [Option.some.inj (hq.symm.trans hp)]
  lasting inPlay := lasting (by simpa [isBattlefield, hkind] using inPlay)
  spell onStack := spell (Option.some.inj (hkind.symm.trans onStack))

namespace Orderly

variable {s t : State}

theorem kind_of_homes (h : s.Orderly) {seat : Seat} {p : Player} (hp : s.player? seat = some p)
    {zone : ZoneId} (member : zone ∈ s.homes p) : (s.kindOfZone? zone).isSome := by
  simp only [homes, List.mem_cons, List.not_mem_nil, or_false] at member
  rcases member with rfl | rfl | rfl | rfl | rfl
  · simp [h.hand hp]
  · simp [h.library hp]
  · simp [h.graveyard hp]
  · simp [h.battlefield hp]
  · simp [h.stack]

/-- A card in one of a player's own zones belongs to that player. -/
theorem owner_of_zone (h : s.Orderly) {seat : Seat} {p : Player} {id : CardId} {c : Card}
    (hp : s.player? seat = some p) (hc : s.card? id = some c) (inZone : c.zone ∈ p.zones.all) :
    c.owner = seat := by
  obtain ⟨q, hq⟩ := h.owned hc
  have notStack : c.zone ≠ s.stackZone := by
    intro same
    have kind : some ZoneKind.stack ∈ PlayerZones.kinds.map some := by
      rw [← h.zones hp, ← h.stack, ← same]
      exact List.mem_map_of_mem inZone
    simp [PlayerZones.kinds] at kind
  have home := h.home hc hq
  simp only [homes, List.mem_cons, List.not_mem_nil, or_false, notStack] at home
  refine h.apart hq hp ?_ inZone
  simp only [PlayerZones.all, List.mem_cons, List.not_mem_nil, or_false]
  tauto

/-- Order depends on the layout only. -/
theorem congr (h : s.Orderly) (layout : t.layout = s.layout) : t.Orderly where
  toWellFormed := h.toWellFormed.congr layout
  stack := by rw [stackZone_congr layout, kindOfZone?_congr layout, h.stack]
  apart hp hq mine yours := by
    obtain ⟨p', hp', zones⟩ := player?_congr layout hp
    obtain ⟨q', hq', zones'⟩ := player?_congr layout hq
    exact h.apart hp' hq' (zones ▸ mine) (zones' ▸ yours)
  known member := by
    rw [contents_congr layout] at member
    obtain ⟨c, hc, rfl⟩ := h.known member
    obtain ⟨d, hd, place⟩ := card?_congr layout.symm hc
    exact ⟨d, hd, Card.zone_eq_of_placement place⟩
  home hc hp := by
    obtain ⟨d, hd, place⟩ := card?_congr layout hc
    obtain ⟨q, hq, zones⟩ := player?_congr layout hp
    have member := h.home hd (Card.owner_eq_of_placement place ▸ hq)
    rwa [homes, zones, ← stackZone_congr layout, Card.zone_eq_of_placement place] at member
  controlled hc := by
    obtain ⟨d, hd, place⟩ := card?_congr layout hc
    rw [← Card.controller_eq_of_placement place, ← Card.owner_eq_of_placement place,
      h.controlled hd]
  lasting hc hz := by
    obtain ⟨d, hd, place⟩ := card?_congr layout hc
    rw [isBattlefield_congr layout, ← Card.zone_eq_of_placement place] at hz
    rw [← Card.definition_eq_of_placement place, h.lasting hd hz]
  spell hc hz := by
    obtain ⟨d, hd, place⟩ := card?_congr layout hc
    rw [kindOfZone?_congr layout, ← Card.zone_eq_of_placement place] at hz
    rw [← Card.definition_eq_of_placement place, h.spell hd hz]

theorem count_contents (h : s.Orderly) {id : CardId} {c : Card} (hc : s.card? id = some c)
    (zone : ZoneId) : (s.contents zone).count id = if zone = c.zone then 1 else 0 := by
  split
  · rename_i same
    rw [same, h.placed hc]
  · rename_i elsewhere
    refine List.count_eq_zero.mpr fun member => elsewhere ?_
    obtain ⟨d, hd, rfl⟩ := h.known member
    rw [Option.some.inj (hd.symm.trans hc)]

/-- The card on top of a zone is there only once, so without it the zone holds what lay below. -/
theorem erase_last (h : s.Orderly) {zone : ZoneId} {top : CardId}
    (isTop : (s.contents zone).getLast? = some top) :
    (s.contents zone).erase top = (s.contents zone).dropLast := by
  obtain ⟨below, contents⟩ := List.getLast?_eq_some_iff.mp isTop
  obtain ⟨c, found, rfl⟩ := h.known (List.mem_of_getLast? isTop)
  have once := h.placed found
  have fresh : top ∉ below := by
    rw [contents, List.count_append] at once
    exact List.count_eq_zero.mp (by simpa using once)
  simp [contents, List.erase_append_right _ fresh]

section Relocate

variable {id : CardId} {c c' : Card} (h : s.Orderly) (passage : s.Passage id c c')
include h passage

/-- After a move the card lies once in the zone of its new record, and all others lie as before. -/
theorem count_relocate (zone : ZoneId) (other : CardId) :
    ((s.relocate id c.zone c').contents zone).count other =
      if other = id then (if zone = c'.zone then 1 else 0) else (s.contents zone).count other := by
  obtain ⟨p, hp⟩ := h.owned passage.found
  have known := h.kind_of_homes hp (passage.home hp)
  have left : (if zone = c.zone then (s.contents zone).erase id else s.contents zone).count other =
      if other = id then 0 else (s.contents zone).count other := by
    by_cases same : other = id
    · subst same
      have before := h.count_contents passage.found zone
      split <;> simp_all [List.count_erase_self]
    · split <;> simp [List.count_erase_of_ne same]
  have pushed : (if zone = c'.zone then [id] else []).count other =
      if other = id then (if zone = c'.zone then 1 else 0) else 0 := by
    by_cases same : other = id
    · split <;> simp [same]
    · split <;> simp [Ne.symm same]
  rw [contents_relocate s id c.zone c' known, List.count_append, left, pushed]
  split <;> simp

theorem relocate : (s.relocate id c.zone c').Orderly := by
  obtain ⟨p, hp⟩ := h.owned passage.found
  have target := h.kind_of_homes hp (passage.home hp)
  have housed := h.housed.relocate c.zone passage.found passage.id passage.owner
    (Option.isSome_iff_exists.mp target)
  have moved {other : CardId} {d : Card} :
      (s.relocate id c.zone c').card? other = some d →
        other = id ∧ d = c' ∨ other ≠ id ∧ s.card? other = some d :=
    (card?_relocate_eq_some c.zone c' passage.found).mp
  refine {
    keyed := housed.keyed
    zones := fun hq => by rw [funext (kindOfZone?_relocate s id c.zone c')]; exact h.zones hq
    placed := fun {other d} hd => ?placed
    owned := housed.owned
    stack := by simpa using h.stack
    apart := fun hp hq => h.apart hp hq
    known := fun {zone other} member => ?known
    home := fun {other d q} hd hq => ?home
    controlled := fun {other d} hd => ?controlled
    lasting := fun {other d} hd hz => ?lasting
    spell := fun {other d} hd hz => ?spell }
  case placed =>
    rw [h.count_relocate passage]
    obtain ⟨rfl, rfl⟩ | ⟨different, hd⟩ := moved hd
    · simp
    · rw [if_neg different, h.placed hd]
  case known =>
    have positive := List.count_pos_iff.mpr member
    rw [h.count_relocate passage] at positive
    split at positive
    · rename_i same
      have zone : zone = c'.zone := by by_contra elsewhere; simp [elsewhere] at positive
      exact ⟨c', (card?_relocate_eq_some _ _ passage.found).mpr (.inl ⟨same, rfl⟩), zone.symm⟩
    · rename_i different
      obtain ⟨d, hd, zone⟩ := h.known (List.count_pos_iff.mp positive)
      exact ⟨d, (card?_relocate_eq_some _ _ passage.found).mpr (.inr ⟨different, hd⟩), zone⟩
  case home =>
    obtain ⟨rfl, rfl⟩ | ⟨-, hd⟩ := moved hd
    · exact passage.home (passage.owner ▸ hq)
    · exact h.home hd hq
  case controlled =>
    obtain ⟨rfl, rfl⟩ | ⟨-, hd⟩ := moved hd
    · rw [passage.controller, passage.owner]
    · exact h.controlled hd
  case lasting =>
    rw [isBattlefield_relocate] at hz
    obtain ⟨rfl, rfl⟩ | ⟨-, hd⟩ := moved hd
    · rw [passage.definition, passage.lasting hz]
    · exact h.lasting hd hz
  case spell =>
    rw [kindOfZone?_relocate] at hz
    obtain ⟨rfl, rfl⟩ | ⟨-, hd⟩ := moved hd
    · rw [passage.definition, passage.spell hz]
    · exact h.spell hd hz

end Relocate

end Orderly

/-- Every card is found once, under its own number and in the zone that it names, and nothing else is
    found anywhere. A card in a hand, a library or a graveyard is in its owner's, and a card on a
    battlefield is on its controller's. -/
structure Accounted (s : State) : Prop where
  keyed : s.Keyed
  placed : ∀ {id c}, s.card? id = some c →
    ∀ zone, (s.contents zone).count id = if zone = c.zone then 1 else 0
  known : ∀ {zone id}, id ∈ s.contents zone → (s.card? id).isSome
  home : ∀ {id c}, s.card? id = some c →
    ∃ owner controller, s.player? c.owner = some owner ∧ s.player? c.controller = some controller ∧
      (s.kindOfZone? c.zone = some .hand → c.zone = owner.zones.hand) ∧
      (s.kindOfZone? c.zone = some .library → c.zone = owner.zones.library) ∧
      (s.kindOfZone? c.zone = some .graveyard → c.zone = owner.zones.graveyard) ∧
      (s.kindOfZone? c.zone = some .battlefield → c.zone = controller.zones.battlefield)

theorem Orderly.accounted {s : State} (h : s.Orderly) : s.Accounted where
  keyed := h.keyed
  placed hc := h.count_contents hc
  known member := by
    obtain ⟨c, hc, -⟩ := h.known member
    exact Option.isSome_iff_exists.mpr ⟨c, hc⟩
  home {id c} hc := by
    obtain ⟨p, hp⟩ := h.owned hc
    refine ⟨p, p, hp, h.controlled hc ▸ hp, ?_⟩
    -- the homes of a card are all of different kinds
    have home := h.home hc hp
    simp only [homes, List.mem_cons, List.not_mem_nil, or_false] at home
    rcases home with zone | zone | zone | zone | zone
    · simp [zone, h.hand hp]
    · simp [zone, h.library hp]
    · simp [zone, h.graveyard hp]
    · simp [zone, h.battlefield hp]
    · simp [zone, h.stack]

end State

end CardGame
