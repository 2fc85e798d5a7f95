import CardGame.Proofs.Orderly
import CardGame.Trigger.Evaluate

/-! # The course of a game

Cards change places in six ways. A course tells which of them happened, one after the other, between
two states; in between only things change that leave every card in its place. Which cards died on
the way can be told from the two states alone, whatever course led from the one to the other.
-/

namespace CardGame

/-- A card changes its place. -/
inductive Happening where
  | drawn (card : CardId)
  | played (card : CardId)
  | cast (card : CardId)
  /-- A spell becomes a permanent. -/
  | entered (card : CardId)
  /-- A spell has had its effects. -/
  | spent (card : CardId)
  /-- A card on a battlefield goes to a graveyard; controller and owner as they were there. -/
  | died (card : CardId) (controller owner : Seat)

namespace Happening

def card : Happening → CardId
  | drawn card | played card | cast card | entered card | spent card | died card .. => card

/-- The kind of zone that the card leaves. -/
def source : Happening → ZoneKind
  | drawn _ => .library
  | played _ | cast _ => .hand
  | entered _ | spent _ => .stack
  | died .. => .battlefield

/-- The kind of zone that the card goes to. -/
def target : Happening → ZoneKind
  | drawn _ => .hand
  | cast _ => .stack
  | played _ | entered _ => .battlefield
  | spent _ | died .. => .graveyard

def death? : Happening → Option Event
  | died card controller owner => some (.creatureDied card controller owner)
  | _ => none

end Happening

/-- The deaths among what happened, in order. -/
def deathsIn (trace : List Happening) : List Event := trace.filterMap Happening.death?

theorem deathsIn_cons (happening : Happening) (trace : List Happening) :
    deathsIn (happening :: trace) = happening.death?.toList ++ deathsIn trace := by
  cases dies : happening.death? <;> simp [deathsIn, dies]

theorem deathsIn_append (trace later : List Happening) :
    deathsIn (trace ++ later) = deathsIn trace ++ deathsIn later :=
  List.filterMap_append

/-- Nothing leaves a graveyard. -/
theorem Happening.source_ne_graveyard (happening : Happening) : happening.source ≠ .graveyard := by
  cases happening <;> simp [source]

/-- A death is that of the card to which it happens, and the card ends in a graveyard. -/
theorem Happening.eq_of_death? {happening : Happening} {event : Event}
    (dies : happening.death? = some event) :
    event.subject = happening.card ∧ happening.target = .graveyard := by
  cases happening <;> cases dies
  exact ⟨rfl, rfl⟩

namespace State

/-- What makes each of the happenings, and when. -/
inductive Happens (s : State) : Happening → State → Prop where
  | draw {seat : Seat} {id : CardId} {t : State} (drawn : s.draw seat = .ok (t, some id)) :
      Happens s (.drawn id) t
  | play {seat : Seat} {p : Player} {id : CardId} {c : Card} {t : State}
      (player : s.player? seat = some p) (found : s.card? id = some c)
      (inHand : c.zone = p.zones.hand) (land : c.definition.hasType .land = true)
      (entered : s.enter id seat = .ok t) : Happens s (.played id) t
  | cast {seat : Seat} {p : Player} {id : CardId} {c : Card} {targets : List CardId} {t : State}
      (player : s.player? seat = some p) (found : s.card? id = some c)
      (inHand : c.zone = p.zones.hand) (notLand : c.definition.hasType .land = false)
      (pushed : s.putOnStack id seat targets = .ok t) : Happens s (.cast id) t
  | resolve {id : CardId} {c : Card} {t : State} (found : s.card? id = some c)
      (onStack : s.kindOfZone? c.zone = some .stack) (permanent : c.definition.isPermanent = true)
      (entered : s.enter id c.controller = .ok t) : Happens s (.entered id) t
  | spend {id : CardId} {c : Card} {t : State} (found : s.card? id = some c)
      (onStack : s.kindOfZone? c.zone = some .stack) (notPermanent : c.definition.isPermanent = false)
      (buried : s.bury id = .ok t) : Happens s (.spent id) t
  | die {id : CardId} {c : Card} {t : State} (found : s.card? id = some c)
      (inPlay : s.isBattlefield c.zone = true) (buried : s.bury id = .ok t) :
      Happens s (.died id c.controller c.owner) t

/-- What happened on the way from one state to another. -/
inductive Course : State → List Happening → State → Prop where
  | done (s : State) : Course s [] s
  | still {s t u : State} {trace : List Happening} (same : t.layout = s.layout)
      (rest : Course t trace u) : Course s trace u
  | next {s t u : State} {happening : Happening} {trace : List Happening}
      (happens : s.Happens happening t) (rest : Course t trace u) : Course s (happening :: trace) u

variable {s t : State}

theorem Orderly.passage_of_enter (h : s.Orderly) {id : CardId} {c : Card}
    (found : s.card? id = some c) (lasts : c.definition.lasts = true)
    (entered : s.enter id c.owner = .ok t) :
    ∃ c', s.Passage id c c' ∧ t = s.relocate id c.zone c' ∧
      s.kindOfZone? c'.zone = some .battlefield := by
  obtain ⟨c, p, source, kind, hc, hp, -, hkind, rfl⟩ := enter_eq_ok entered
  obtain rfl := Option.some.inj (found.symm.trans hc)
  obtain rfl : kind = .battlefield := Option.some.inj (hkind.symm.trans (h.battlefield hp))
  refine ⟨_, ?_, rfl, by rwa [Card.zone_movedTo]⟩
  refine .of_kind hc hp ?_ ?_ ?_ ?_ ?_ (by rwa [Card.zone_movedTo]) ?_ ?_ <;> simp [homes, lasts]

theorem Orderly.passage_of_bury (h : s.Orderly) {id : CardId} {c : Card}
    (found : s.card? id = some c) (buried : s.bury id = .ok t) :
    ∃ c', s.Passage id c c' ∧ t = s.relocate id c.zone c' ∧
      s.kindOfZone? c'.zone = some .graveyard := by
  obtain ⟨c, p, source, kind, hc, hp, -, hkind, rfl⟩ := bury_eq_ok.mp buried
  obtain rfl := Option.some.inj (found.symm.trans hc)
  obtain rfl : kind = .graveyard := Option.some.inj (hkind.symm.trans (h.graveyard hp))
  refine ⟨_, ?_, rfl, by rwa [Card.zone_movedTo]⟩
  refine .of_kind hc hp ?_ ?_ ?_ ?_ ?_ (by rwa [Card.zone_movedTo]) ?_ ?_ <;>
    simp [homes, Card.controller_movedTo]

/-- Whatever happens is a passage of one card from a zone of one kind to a zone of another. -/
theorem Happens.passage (h : s.Orderly) {happening : Happening} (happens : s.Happens happening t) :
    ∃ c c', s.Passage happening.card c c' ∧ t = s.relocate happening.card c.zone c' ∧
      s.kindOfZone? c.zone = some happening.source ∧
      s.kindOfZone? c'.zone = some happening.target := by
  cases happens with
  | draw drawn =>
      obtain ⟨p, hp, top, moved⟩ := draw_eq_some drawn
      obtain ⟨c, source, kind, hc, -, hkind, rfl⟩ := move_eq_ok.mp moved
      obtain ⟨d, hd, zone⟩ := h.known (List.mem_of_getLast? top)
      obtain rfl : c = d := Option.some.inj (hc.symm.trans hd)
      obtain rfl : kind = .hand := Option.some.inj (hkind.symm.trans (h.hand hp))
      obtain rfl := h.owner_of_zone hp hc (by simp [zone, PlayerZones.all])
      refine ⟨c, _, ?_, rfl, zone ▸ h.library hp, by rwa [Card.zone_movedTo]⟩
      refine .of_kind hc hp ?_ ?_ ?_ ?_ ?_ (by rwa [Card.zone_movedTo]) ?_ ?_ <;>
        simp [homes, Card.controller_movedTo]
  | play player found inHand land entered =>
      obtain rfl := h.owner_of_zone player found (by simp [inHand, PlayerZones.all])
      obtain ⟨c', passage, rfl, target⟩ :=
        h.passage_of_enter found (by rw [Definition.lasts, land, Bool.or_true]) entered
      exact ⟨_, c', passage, rfl, inHand ▸ h.hand player, target⟩
  | cast player found inHand notLand pushed =>
      obtain ⟨c, source, kind, hc, -, hkind, rfl⟩ := putOnStack_eq_ok pushed
      obtain rfl := Option.some.inj (found.symm.trans hc)
      obtain rfl : kind = .stack := Option.some.inj (hkind.symm.trans h.stack)
      obtain rfl := h.owner_of_zone player hc (by simp [inHand, PlayerZones.all])
      refine ⟨_, _, ?_, rfl, inHand ▸ h.hand player, by rwa [Card.zone_movedTo]⟩
      refine .of_kind hc player ?_ ?_ ?_ ?_ ?_ (by rwa [Card.zone_movedTo]) ?_ ?_ <;>
        simp [homes, notLand]
  | resolve found onStack permanent entered =>
      rw [h.controlled found] at entered
      obtain ⟨c', passage, rfl, target⟩ :=
        h.passage_of_enter found (by rw [Definition.lasts, permanent, Bool.true_or]) entered
      exact ⟨_, c', passage, rfl, onStack, target⟩
  | spend found onStack notPermanent buried =>
      obtain ⟨c', passage, rfl, target⟩ := h.passage_of_bury found buried
      exact ⟨_, c', passage, rfl, onStack, target⟩
  | die found inPlay buried =>
      obtain ⟨c', passage, rfl, target⟩ := h.passage_of_bury found buried
      exact ⟨_, c', passage, rfl, of_decide_eq_true inPlay, target⟩

theorem Happens.keyed {happening : Happening} (happens : s.Happens happening t) (keyed : s.Keyed) :
    t.Keyed := by
  cases happens with
  | draw drawn =>
      obtain ⟨p, -, -, moved⟩ := draw_eq_some drawn
      exact keyed.move moved
  | play _ _ _ _ entered => exact keyed.enter entered
  | cast _ _ _ _ pushed => exact keyed.putOnStack pushed
  | resolve _ _ _ entered => exact keyed.enter entered
  | spend _ _ _ buried => exact keyed.bury buried
  | die _ _ buried => exact keyed.bury buried

/-- Players keep what they have when a card changes its place. -/
theorem Happens.players {happening : Happening} (happens : s.Happens happening t) :
    t.players = s.players := by
  cases happens with
  | draw drawn =>
      obtain ⟨p, -, -, moved⟩ := draw_eq_some drawn
      obtain ⟨c, source, kind, -, -, -, rfl⟩ := move_eq_ok.mp moved
      rfl
  | play _ _ _ _ entered =>
      obtain ⟨c, p, source, kind, -, -, -, -, rfl⟩ := enter_eq_ok entered
      rfl
  | cast _ _ _ _ pushed =>
      obtain ⟨c, source, kind, -, -, -, rfl⟩ := putOnStack_eq_ok pushed
      rfl
  | resolve _ _ _ entered =>
      obtain ⟨c, p, source, kind, -, -, -, -, rfl⟩ := enter_eq_ok entered
      rfl
  | spend _ _ _ buried => exact players_bury buried
  | die _ _ buried => exact players_bury buried

/-- What a card is and whose it is, which never changes. -/
def identity (s : State) (id : CardId) : Option (Definition × Seat) :=
  (s.card? id).map fun c => (c.definition, c.owner)

theorem identity_of_card? {id : CardId} {c : Card} (found : s.card? id = some c) :
    s.identity id = some (c.definition, c.owner) := by
  rw [identity, found, Option.map_some]

theorem card?_of_identity (same : t.identity = s.identity) {id : CardId} {c : Card}
    (found : s.card? id = some c) :
    ∃ d, t.card? id = some d ∧ d.definition = c.definition ∧ d.owner = c.owner := by
  have identity := congrFun same id
  rw [identity_of_card? found, State.identity, Option.map_eq_some_iff] at identity
  obtain ⟨d, hd, eq⟩ := identity
  exact ⟨d, hd, congrArg Prod.fst eq, congrArg Prod.snd eq⟩

theorem identity_congr (layout : t.layout = s.layout) : t.identity = s.identity := by
  funext id
  have place := congrArg (Option.map fun p => (p.definition, p.owner)) (placement_congr layout id)
  rwa [Option.map_map, Option.map_map] at place

/-- What a happening does to the places of the cards. -/
structure Happens.Shifts (s : State) (happening : Happening) (t : State) : Prop where
  orderly : t.Orderly
  identity : t.identity = s.identity
  source : s.zoneKind? happening.card = some happening.source
  target : t.zoneKind? happening.card = some happening.target
  others : ∀ {id}, id ≠ happening.card → t.zoneKind? id = s.zoneKind? id

theorem Happens.shifts (h : s.Orderly) {happening : Happening} (happens : s.Happens happening t) :
    Happens.Shifts s happening t := by
  obtain ⟨c, c', passage, rfl, source, target⟩ := happens.passage h
  refine ⟨h.relocate passage, ?_, ?_, ?_, fun {id} different => ?_⟩
  · funext id
    simp only [State.identity, card?_relocate]
    split
    · rename_i same
      simp [same, passage.found, passage.definition, passage.owner]
    · rfl
  · rw [zoneKind?, passage.found]
    exact source
  · rw [zoneKind?_relocate c.zone c' passage.found, if_pos rfl, target]
  · rw [zoneKind?_relocate c.zone c' passage.found, if_neg different]

namespace Course

variable {u : State} {trace later : List Happening}

theorem trans (first : Course s trace t) (rest : Course t later u) :
    Course s (trace ++ later) u := by
  induction first with
  | done => exact rest
  | still same _ ih => exact .still same (ih rest)
  | next happens _ ih => exact .next happens (ih rest)

theorem of_layout (same : t.layout = s.layout) : Course s [] t := .still same (.done t)

theorem of_happens {happening : Happening} (happens : s.Happens happening t) :
    Course s [happening] t :=
  .next happens (.done t)

theorem orderly (course : Course s trace t) (h : s.Orderly) : t.Orderly := by
  induction course with
  | done => exact h
  | still same _ ih => exact ih (h.congr same)
  | next happens _ ih => exact ih (happens.shifts h).orderly

theorem identity (course : Course s trace t) (h : s.Orderly) : t.identity = s.identity := by
  induction course with
  | done => rfl
  | still same _ ih => exact (ih (h.congr same)).trans (identity_congr same)
  | next happens _ ih =>
      have shifts := happens.shifts h
      exact (ih shifts.orderly).trans shifts.identity

/-- Cards never leave a graveyard. -/
theorem graveyard (course : Course s trace t) (h : s.Orderly) {id : CardId}
    (buried : s.zoneKind? id = some .graveyard) : t.zoneKind? id = some .graveyard := by
  induction course with
  | done => exact buried
  | still same _ ih => exact ih (h.congr same) (by rw [zoneKind?_congr same, buried])
  | @next s t u happening trace happens _ ih =>
      have shifts := happens.shifts h
      refine ih shifts.orderly ?_
      by_cases same : id = happening.card
      · rw [same, shifts.source] at buried
        exact absurd (Option.some.inj buried) happening.source_ne_graveyard
      · rw [shifts.others same, buried]

end Course

/-- The cards that go to a battlefield before they come to a graveyard are the lasting ones, so of
    those each one that is in a graveyard only at the end has died. -/
def Fell (s t : State) (event : Event) : Prop :=
  s.zoneKind? event.subject ≠ some .graveyard ∧ t.zoneKind? event.subject = some .graveyard ∧
    ∃ d owner, s.identity event.subject = some (d, owner) ∧ d.lasts = true ∧
      event = .creatureDied event.subject owner owner

theorem Fell.congr {s' u : State} {event : Event} (layout : s'.layout = s.layout) :
    Fell s' u event ↔ Fell s u event := by
  unfold Fell
  rw [zoneKind?_congr layout, identity_congr layout]

/-- What ends up in a graveyard has died exactly if it lasts. -/
theorem Happens.death?_eq (h : s.Orderly) {happening : Happening} (happens : s.Happens happening t)
    (buried : happening.target = .graveyard) {event : Event}
    (about : event.subject = happening.card) :
    happening.death? = some event ↔
      ∃ d owner, s.identity happening.card = some (d, owner) ∧ d.lasts = true ∧
        event = .creatureDied happening.card owner owner := by
  cases happens with
  | draw | play | cast | resolve => cases buried
  | @spend id c t found onStack notPermanent _ =>
      have perishes : c.definition.lasts = false := by
        simp [Definition.lasts, notPermanent, h.spell found onStack]
      refine ⟨nofun, ?_⟩
      rintro ⟨d, owner, same, lasts, -⟩
      rw [Happening.card, identity_of_card? found, Option.some.injEq, Prod.mk.injEq] at same
      rw [← same.1, perishes] at lasts
      cases lasts
  | @die id c t found inPlay _ =>
      simp only [Happening.death?, Happening.card, identity_of_card? found, h.controlled found,
        Option.some.injEq, Prod.mk.injEq]
      constructor
      · rintro rfl
        exact ⟨_, _, ⟨rfl, rfl⟩, h.lasting found inPlay, rfl⟩
      · rintro ⟨d, owner, ⟨rfl, rfl⟩, -, rfl⟩
        rfl

theorem Happens.fell_iff (h : s.Orderly) {happening : Happening} (happens : s.Happens happening t)
    {u : State} {trace : List Happening} (rest : Course t trace u) {event : Event} :
    Fell s u event ↔ happening.death? = some event ∨ Fell t u event := by
  have shifts := happens.shifts h
  have source : s.zoneKind? happening.card ≠ some .graveyard := by
    simpa [shifts.source] using happening.source_ne_graveyard
  by_cases same : event.subject = happening.card
  · by_cases buried : happening.target = .graveyard
    · have target : t.zoneKind? happening.card = some .graveyard := buried ▸ shifts.target
      rw [happens.death?_eq h buried same]
      simp [Fell, same, target, source, rest.graveyard shifts.orderly target]
    · have alive : happening.death? ≠ some event :=
        fun dies => buried (Happening.eq_of_death? dies).2
      have target : t.zoneKind? happening.card ≠ some .graveyard := by
        simpa [shifts.target] using buried
      simp [Fell, same, source, target, alive, shifts.identity]
  · have other : happening.death? ≠ some event :=
      fun dies => same (Happening.eq_of_death? dies).1
    simp only [Fell, shifts.others same, shifts.identity, other, false_or]

theorem not_fell_self (event : Event) : ¬ Fell s s event := fun fell => fell.1 fell.2.1

namespace Course

variable {trace : List Happening}

/-- The deaths of a course are those that its first and its last state tell. -/
theorem mem_deathsIn (course : Course s trace t) (h : s.Orderly) {event : Event} :
    event ∈ deathsIn trace ↔ Fell s t event := by
  induction course with
  | done s => simpa [deathsIn] using not_fell_self event
  | still same _ ih => rw [ih (h.congr same), Fell.congr same]
  | next happens rest ih =>
      rw [happens.fell_iff h rest, ← ih (happens.shifts h).orderly, deathsIn_cons,
        List.mem_append, Option.mem_toList]

/-- No card dies twice. -/
theorem nodup_deathsIn (course : Course s trace t) (h : s.Orderly) :
    ((deathsIn trace).map Event.subject).Nodup := by
  induction course with
  | done => simp [deathsIn]
  | still same _ ih => exact ih (h.congr same)
  | @next s t u happening trace happens rest ih =>
      have shifts := happens.shifts h
      rw [deathsIn_cons]
      cases dies : happening.death? with
      | none => exact ih shifts.orderly
      | some event =>
          obtain ⟨subject, buried⟩ := Happening.eq_of_death? dies
          refine List.nodup_cons.mpr ⟨fun again => ?_, ih shifts.orderly⟩
          obtain ⟨second, member, same⟩ := List.mem_map.mp again
          have alive := ((rest.mem_deathsIn shifts.orderly).mp member).1
          rw [same, subject, shifts.target, buried] at alive
          exact alive rfl

/-- Courses between the same states have the same deaths. -/
theorem deathsIn_perm {other : List Happening} (course : Course s trace t)
    (course' : Course s other t) (h : s.Orderly) : (deathsIn trace).Perm (deathsIn other) := by
  refine (List.perm_ext_iff_of_nodup (course.nodup_deathsIn h).of_map
    (course'.nodup_deathsIn h).of_map).mpr fun event => ?_
  rw [course.mem_deathsIn h, course'.mem_deathsIn h]

end Course

theorem mem_deaths {event : Event} :
    event ∈ s.deaths t ↔ ∃ id c, (id, c) ∈ s.creatures ∧ t.zoneKind? id = some .graveyard ∧
      event = .creatureDied id c.controller c.owner := by
  simp [deaths, and_assoc, eq_comm]

theorem Keyed.nodup_deaths (keyed : s.Keyed) : (s.deaths t).Nodup := by
  refine List.Nodup.of_map Event.subject ?_
  rw [deaths, List.map_map]
  exact keyed.nodup_creatures.sublist (List.filter_sublist.map _)

/-- The deaths that the states tell are those of the course, if only creatures died that were in
    play at its start. -/
theorem Course.perm_deaths {trace : List Happening} (course : Course s trace t) (h : s.Orderly)
    (only : ∀ event ∈ deathsIn trace, s.isCreatureInPlay event.subject = true) :
    (s.deaths t).Perm (deathsIn trace) := by
  refine (List.perm_ext_iff_of_nodup h.keyed.nodup_deaths (course.nodup_deathsIn h).of_map).mpr
    fun event => ?_
  constructor
  · intro member
    obtain ⟨id, c, creature, buried, rfl⟩ := mem_deaths.mp member
    obtain ⟨found, inPlay, -⟩ := h.keyed.mem_creatures.mp creature
    refine (course.mem_deathsIn h).mpr ⟨?_, buried, c.definition, c.owner, ?_, ?_, ?_⟩
    · simp [Event.subject, h.keyed.zoneKind?_of_creature creature]
    · exact identity_of_card? found
    · exact h.lasting found inPlay
    · rw [h.controlled found, Event.subject]
  · intro member
    obtain ⟨c, creature⟩ := h.keyed.isCreatureInPlay_iff.mp (only event member)
    obtain ⟨-, buried, d, owner, identity, -, eq⟩ := (course.mem_deathsIn h).mp member
    obtain ⟨found, -, -⟩ := h.keyed.mem_creatures.mp creature
    obtain rfl : c.owner = owner := by
      rw [identity_of_card? found, Option.some.injEq, Prod.mk.injEq] at identity
      exact identity.2
    exact mem_deaths.mpr ⟨event.subject, c, creature, buried, by rw [h.controlled found, ← eq]⟩

end State

end CardGame
