import CardGame.Proofs.Moving

/-! # Well-formed states

In a well-formed state every player has zones of the right kinds, every card is at its own number,
has an owner who is seated, and lies once in the zone that it names. Burying cards needs less than
that, and what it needs it leaves as it is.
-/

namespace CardGame

namespace State

/-- The snapshots that the rules are meant for. Zones list cards by number, so a card must be found
    under the one that it carries. -/
structure WellFormed (s : State) : Prop where
  keyed : s.Keyed
  zones : ∀ {seat p}, s.player? seat = some p →
    p.zones.all.map s.kindOfZone? = PlayerZones.kinds.map some
  placed : ∀ {id c}, s.card? id = some c → (s.contents c.zone).count id = 1
  owned : ∀ {id c}, s.card? id = some c → ∃ p, s.player? c.owner = some p

/-- Every card is in some zone, and can be put into a graveyard of its owner. -/
structure Housed (s : State) : Prop where
  keyed : s.Keyed
  graveyard : ∀ {seat p}, s.player? seat = some p →
    s.kindOfZone? p.zones.graveyard = some .graveyard
  zoned : ∀ {id c}, s.card? id = some c → ∃ kind, s.kindOfZone? c.zone = some kind
  owned : ∀ {id c}, s.card? id = some c → ∃ p, s.player? c.owner = some p

variable {s t : State}

theorem wellFormed_iff :
    s.WellFormed ↔
      (∀ p ∈ s.players, p.zones.all.map s.kindOfZone? = PlayerZones.kinds.map some) ∧
        ∀ e ∈ s.cards.entries,
          e.2.id = e.1 ∧ (s.contents e.2.zone).count e.1 = 1 ∧ (s.player? e.2.owner).isSome := by
  constructor
  · refine fun h => ⟨fun p hp => ?_, fun (id, c) he => ?_⟩
    · obtain ⟨seat, hseat⟩ := List.mem_iff_getElem?.mp hp
      exact h.zones hseat
    · have hc := Table.mem_entries.mp he
      exact ⟨h.keyed id c hc, h.placed hc, Option.isSome_iff_exists.mpr (h.owned hc)⟩
  · rintro ⟨zones, cards⟩
    exact ⟨keyed_iff.mpr fun e he => (cards e he).1,
      fun hp => zones _ (List.mem_of_getElem? hp),
      fun hc => (cards _ (Table.mem_entries.mpr hc)).2.1,
      fun hc => Option.isSome_iff_exists.mp (cards _ (Table.mem_entries.mpr hc)).2.2⟩

instance (s : State) : Decidable s.WellFormed := decidable_of_iff _ wellFormed_iff.symm

namespace WellFormed

variable (h : s.WellFormed) {seat : Seat} {p : Player} (hp : s.player? seat = some p)
include h hp

theorem kindOfZone?_player :
    s.kindOfZone? p.zones.hand = some .hand ∧ s.kindOfZone? p.zones.library = some .library ∧
      s.kindOfZone? p.zones.graveyard = some .graveyard ∧
      s.kindOfZone? p.zones.exile = some .exile ∧
      s.kindOfZone? p.zones.battlefield = some .battlefield := by
  simpa [PlayerZones.all, PlayerZones.kinds] using h.zones hp

theorem hand : s.kindOfZone? p.zones.hand = some .hand := (h.kindOfZone?_player hp).1

theorem library : s.kindOfZone? p.zones.library = some .library := (h.kindOfZone?_player hp).2.1

theorem graveyard : s.kindOfZone? p.zones.graveyard = some .graveyard :=
  (h.kindOfZone?_player hp).2.2.1

theorem battlefield : s.kindOfZone? p.zones.battlefield = some .battlefield :=
  (h.kindOfZone?_player hp).2.2.2.2

end WellFormed

theorem WellFormed.housed (h : s.WellFormed) : s.Housed where
  keyed := h.keyed
  graveyard := h.graveyard
  zoned := fun {id c} hc => by
    have placed := h.placed hc
    cases found : s.zone? c.zone with
    | none => simp [contents, found] at placed
    | some z => exact ⟨z.kind, kindOfZone?_eq_some.mpr ⟨z, found, rfl⟩⟩
  owned := h.owned

/-- Housing depends on the layout only. -/
theorem Housed.congr (h : s.Housed) (layout : t.layout = s.layout) : t.Housed where
  keyed := h.keyed.congr layout
  graveyard hp := by
    obtain ⟨q, hq, zones⟩ := player?_congr layout hp
    rw [kindOfZone?_congr layout, ← zones, h.graveyard hq]
  zoned hc := by
    obtain ⟨d, hd, place⟩ := card?_congr layout hc
    obtain ⟨kind, hkind⟩ := h.zoned hd
    rw [Card.zone_eq_of_placement place] at hkind
    exact ⟨kind, by rw [kindOfZone?_congr layout, hkind]⟩
  owned hc := by
    obtain ⟨d, hd, place⟩ := card?_congr layout hc
    obtain ⟨p, hp⟩ := h.owned hd
    obtain ⟨q, hq, -⟩ := player?_congr layout.symm hp
    exact ⟨q, by rwa [← Card.owner_eq_of_placement place]⟩

/-- Being well-formed depends on the layout only. -/
theorem WellFormed.congr (h : s.WellFormed) (layout : t.layout = s.layout) : t.WellFormed where
  keyed := h.keyed.congr layout
  zones hp := by
    obtain ⟨q, hq, zones⟩ := player?_congr layout hp
    rw [← zones, funext (kindOfZone?_congr layout), h.zones hq]
  placed hc := by
    obtain ⟨d, hd, place⟩ := card?_congr layout hc
    rw [contents_congr layout, ← Card.zone_eq_of_placement place, h.placed hd]
  owned := (h.housed.congr layout).owned

theorem players_bury {id : CardId} (h : s.bury id = .ok t) : t.players = s.players := by
  obtain ⟨c, p, source, kind, -, -, -, -, rfl⟩ := bury_eq_ok.mp h
  rfl

theorem players_buryAll {ids : List CardId} (h : ids.foldlM State.bury s = .ok t) :
    t.players = s.players := by
  refine Outcome.foldlM_relates (R := fun s t => t.players = s.players) (fun _ => rfl) ?_
    (fun _ _ _ _ => players_bury) h
  intro s t u first rest
  exact rest.trans first

/-- What burying some cards leaves: in play is only what was in play and is none of these cards. -/
structure Buried (s : State) (ids : List CardId) (t : State) : Prop where
  known : ∀ {id}, (s.card? id).isSome → (t.card? id).isSome
  inPlay : ∀ {id c}, t.card? id = some c → t.isBattlefield c.zone = true →
    id ∉ ids ∧ s.card? id = some c ∧ s.isBattlefield c.zone = true

theorem Buried.none (s : State) : s.Buried [] s where
  known := id
  inPlay hc hz := ⟨List.not_mem_nil, hc, hz⟩

theorem Buried.cons {mid : State} {id : CardId} {rest : List CardId} (first : s.Buried [id] mid)
    (others : mid.Buried rest t) : s.Buried (id :: rest) t where
  known h := others.known (first.known h)
  inPlay hc hz := by
    obtain ⟨notRest, hc, hz⟩ := others.inPlay hc hz
    obtain ⟨notFirst, hc, hz⟩ := first.inPlay hc hz
    exact ⟨by simpa using ⟨by simpa using notFirst, notRest⟩, hc, hz⟩

theorem Keyed.relocate (keyed : s.Keyed) {id : CardId} (source : ZoneId) {c c' : Card}
    (hc : s.card? id = some c) (same : c'.id = c.id) : (s.relocate id source c').Keyed := by
  intro other d hd
  obtain ⟨rfl, rfl⟩ | ⟨-, hd⟩ := (card?_relocate_eq_some source c' hc).mp hd
  · rw [same, keyed other c hc]
  · exact keyed other d hd

theorem Keyed.move (keyed : s.Keyed) {id : CardId} {target : ZoneId} (h : s.move id target = .ok t) :
    t.Keyed := by
  obtain ⟨c, source, kind, found, -, -, rfl⟩ := move_eq_ok.mp h
  exact keyed.relocate c.zone found (c.id_movedTo source kind target)

theorem Keyed.enter (keyed : s.Keyed) {id : CardId} {seat : Seat} (h : s.enter id seat = .ok t) :
    t.Keyed := by
  obtain ⟨c, p, source, kind, found, -, -, -, rfl⟩ := enter_eq_ok h
  exact keyed.relocate c.zone found (c.id_movedTo source kind p.zones.battlefield)

theorem Keyed.putOnStack (keyed : s.Keyed) {id : CardId} {seat : Seat} {targets : List CardId}
    (h : s.putOnStack id seat targets = .ok t) : t.Keyed := by
  obtain ⟨c, source, kind, found, -, -, rfl⟩ := putOnStack_eq_ok h
  exact keyed.relocate c.zone found (c.id_movedTo source kind s.stackZone)

theorem Keyed.bury (keyed : s.Keyed) {id : CardId} (h : s.bury id = .ok t) : t.Keyed := by
  obtain ⟨c, p, source, kind, found, -, -, -, rfl⟩ := bury_eq_ok.mp h
  exact keyed.relocate c.zone found (c.id_movedTo source kind p.zones.graveyard)

theorem Housed.relocate (h : s.Housed) {id : CardId} (source : ZoneId) {c c' : Card}
    (hc : s.card? id = some c) (same : c'.id = c.id) (owner : c'.owner = c.owner)
    (zoned : ∃ kind, s.kindOfZone? c'.zone = some kind) : (s.relocate id source c').Housed where
  keyed := h.keyed.relocate source hc same
  graveyard hp := by simpa using h.graveyard hp
  zoned hd := by
    obtain ⟨-, rfl⟩ | ⟨-, hd⟩ := (card?_relocate_eq_some source c' hc).mp hd
    · simpa using zoned
    · simpa using h.zoned hd
  owned hd := by
    obtain ⟨-, rfl⟩ | ⟨-, hd⟩ := (card?_relocate_eq_some source c' hc).mp hd
    · simpa [owner] using h.owned hc
    · exact h.owned hd

theorem Buried.relocate {id : CardId} {source : ZoneId} {c c' : Card} (hc : s.card? id = some c)
    (off : s.isBattlefield c'.zone = false) : s.Buried [id] (s.relocate id source c') where
  known := fun {other} hother => by
    rw [card?_relocate]
    split <;> simp [hother]
  inPlay hd hz := by
    rw [isBattlefield_relocate] at hz
    obtain ⟨-, rfl⟩ | ⟨different, hd⟩ := (card?_relocate_eq_some source c' hc).mp hd
    · rw [off] at hz
      cases hz
    · exact ⟨by simpa using different, hd, hz⟩

/-- Every card of a housed state can be buried. -/
theorem Housed.bury (h : s.Housed) {id : CardId} (known : (s.card? id).isSome) :
    ∃ t, s.bury id = .ok t ∧ t.Housed ∧ s.Buried [id] t := by
  obtain ⟨c, hc⟩ := Option.isSome_iff_exists.mp known
  obtain ⟨p, hp⟩ := h.owned hc
  obtain ⟨source, hsource⟩ := h.zoned hc
  have target := h.graveyard hp
  refine ⟨_, bury_eq_ok.mpr ⟨c, p, source, .graveyard, hc, hp, hsource, target, rfl⟩, ?_, ?_⟩
  · exact h.relocate c.zone hc (by simp) (by simp) ⟨.graveyard, by simpa using target⟩
  · exact .relocate hc (by simp [isBattlefield, target])

theorem Housed.buryAll (h : s.Housed) {ids : List CardId}
    (known : ∀ id ∈ ids, (s.card? id).isSome) :
    ∃ t, ids.foldlM State.bury s = .ok t ∧ t.Housed ∧ s.Buried ids t := by
  induction ids generalizing s with
  | nil => exact ⟨s, rfl, h, .none s⟩
  | cons id rest ih =>
      obtain ⟨mid, first, housed, buried⟩ := h.bury (known id List.mem_cons_self)
      obtain ⟨t, others, housed, buriedRest⟩ :=
        ih housed fun other hother => buried.known (known other (List.mem_cons_of_mem _ hother))
      refine ⟨t, ?_, housed, buried.cons buriedRest⟩
      rw [List.foldlM_cons, Outcome.bind_eq_ok]
      exact ⟨mid, first, others⟩

end State

end CardGame
