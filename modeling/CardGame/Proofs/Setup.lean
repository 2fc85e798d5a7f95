import CardGame.Match.Setup
import CardGame.Proofs.EmptyTable
import CardGame.Proofs.Waning

/-! # What a deal leaves

The empty table stays in order while cards are created on libraries and drawn. The numbers of new cards
are larger than all that are taken.
-/

namespace CardGame

/-- The registry builds the ability for the card from some printed words. -/
def Registry.Builds (registry : Registry) (card : CardId) (ability : Ability) : Prop :=
  ∃ d n s, registry.build d ⟨n, card⟩ s = .ok ability

namespace State

/-- An orderly state in which the next card gets a number of its own. -/
structure Dealt (s : State) : Prop extends Orderly s where
  fresh : ∀ {id c}, s.card? id = some c → id < s.nextCard

variable {s t : State}

/-- The abilities were built in order, the number of each taken right before. -/
def Built (registry : Registry) (source : CardId) (s : State) (descriptors : List Descriptor)
    (abilities : List Ability) : Prop :=
  List.Forall₂
    (fun numbered ability => registry.build numbered.1 ⟨numbered.2, source⟩
      { s with nextAbility := numbered.2 + 1 } = .ok ability)
    (descriptors.zipIdx s.nextAbility) abilities

theorem buildAll_eq_ok {registry : Registry} {source : CardId} {descriptors : List Descriptor}
    {abilities : List Ability} (h : registry.buildAll source s descriptors = .ok (t, abilities)) :
    t = { s with nextAbility := s.nextAbility + descriptors.length } ∧
      s.Built registry source descriptors abilities := by
  induction descriptors generalizing s abilities with
  | nil =>
      cases h
      exact ⟨rfl, .nil⟩
  | cons d rest ih =>
      simp only [Registry.buildAll, takeAbilityId, Outcome.bind_eq_ok] at h
      obtain ⟨ability, first, ⟨next, others⟩, built, h⟩ := h
      cases h
      obtain ⟨rfl, all⟩ := ih built
      refine ⟨?_, .cons first all⟩
      rw [List.length_cons, Nat.add_assoc, Nat.add_comm 1]

theorem Built.builds {registry : Registry} {source : CardId} {descriptors : List Descriptor}
    {abilities : List Ability} (built : s.Built registry source descriptors abilities) :
    ∀ a ∈ abilities, registry.Builds source a := by
  unfold Built at built
  generalize descriptors.zipIdx s.nextAbility = numbered at built
  induction built with
  | nil => nofun
  | cons made _ ih => exact List.forall_mem_cons.mpr ⟨⟨_, _, _, made⟩, ih⟩

/-- A state with one more card, on top of a zone. -/
def withCard (s : State) (c : Card) (nextAbility : AbilityId) : State :=
  { s with
    cards := s.cards.insert s.nextCard c
    nextCard := s.nextCard + 1
    nextAbility := nextAbility }.updateZone c.zone (·.push s.nextCard)

theorem create_eq_withCard {registry : Registry} {d : Definition} {owner : Seat} {zone : ZoneId}
    {id : CardId} (h : s.create registry d owner zone = .ok (t, id)) :
    id = s.nextCard ∧ (∃ z, s.zone? zone = some z) ∧ ∃ abilities,
      s.Built registry id d.abilities abilities ∧
        t = s.withCard (Card.create id d owner zone abilities)
          (s.nextAbility + d.abilities.length) := by
  simp only [create, Outcome.bind_eq_ok, zone_eq_ok] at h
  obtain ⟨-, -, z, known, ⟨next, abilities⟩, built, h⟩ := h
  obtain ⟨rfl, all⟩ := buildAll_eq_ok built
  cases h
  exact ⟨rfl, ⟨z, known⟩, abilities, all, rfl⟩

theorem create_eq_ok {registry : Registry} {d : Definition} {owner : Seat} {zone : ZoneId}
    {id : CardId} (h : s.create registry d owner zone = .ok (t, id)) :
    ∃ abilities n, t = s.withCard (Card.create s.nextCard d owner zone abilities) n ∧
      ∀ a ∈ abilities, registry.Builds s.nextCard a := by
  obtain ⟨rfl, -, abilities, built, rfl⟩ := create_eq_withCard h
  exact ⟨abilities, _, rfl, built.builds⟩

section WithCard

variable (c : Card) (n : AbilityId)

theorem card?_withCard_eq_some {id : CardId} {d : Card} :
    (s.withCard c n).card? id = some d ↔
      id = s.nextCard ∧ d = c ∨ id ≠ s.nextCard ∧ s.card? id = some d := by
  have lookUp : (s.withCard c n).card? id = if id = s.nextCard then some c else s.card? id :=
    Table.get?_insert s.cards s.nextCard c id
  rw [lookUp]
  split <;> simp [*, eq_comm]

theorem zone?_withCard (zone : ZoneId) :
    (s.withCard c n).zone? zone =
      if zone = c.zone then (s.zone? zone).map (·.push s.nextCard) else s.zone? zone :=
  zone?_updateZone _ c.zone _ zone

theorem kindOfZone?_withCard (zone : ZoneId) :
    (s.withCard c n).kindOfZone? zone = s.kindOfZone? zone := by
  rw [kindOfZone?, kindOfZone?, zone?_withCard]
  split <;> simp [Function.comp_def, Zone.push]

theorem contents_withCard (known : (s.kindOfZone? c.zone).isSome) (zone : ZoneId) :
    (s.withCard c n).contents zone =
      s.contents zone ++ if zone = c.zone then [s.nextCard] else [] := by
  rw [contents, contents, zone?_withCard]
  cases found : s.zone? zone with
  | none =>
      have elsewhere : zone ≠ c.zone := fun same => by simp [kindOfZone?, ← same, found] at known
      simp [elsewhere]
  | some z => split <;> simp [Zone.push]

end WithCard

/-- A new card on its owner's library keeps a state in order. -/
theorem Dealt.withCard (h : s.Dealt) {c : Card} {p : Player} (number : c.id = s.nextCard)
    (hp : s.player? c.owner = some p) (zone : c.zone = p.zones.library)
    (controller : c.controller = c.owner) (n : AbilityId) : (s.withCard c n).Dealt := by
  have library : s.kindOfZone? c.zone = some .library := zone ▸ h.library hp
  have contents := contents_withCard c n (Option.isSome_iff_exists.mpr ⟨_, library⟩)
  have unknown (zone : ZoneId) : s.nextCard ∉ s.contents zone := by
    intro member
    obtain ⟨d, hd, -⟩ := h.known member
    exact Nat.lt_irrefl _ (h.fresh hd)
  refine {
    keyed := fun id d hd => ?keyed
    zones := fun hq => by rw [funext (kindOfZone?_withCard c n)]; exact h.zones hq
    placed := fun {id d} hd => ?placed
    owned := fun {id d} hd => ?owned
    stack := by rw [kindOfZone?_withCard]; exact h.stack
    apart := fun hp hq => h.apart hp hq
    known := fun {zone id} member => ?known
    home := fun {id d q} hd hq => ?home
    controlled := fun {id d} hd => ?controlled
    lasting := fun {id d} hd hz => ?lasting
    spell := fun {id d} hd hz => ?spell
    fresh := fun {id d} hd => ?fresh }
  case keyed =>
    obtain ⟨rfl, rfl⟩ | ⟨-, hd⟩ := (card?_withCard_eq_some c n).mp hd
    · exact number
    · exact h.keyed id d hd
  case placed =>
    rw [contents, List.count_append]
    obtain ⟨rfl, rfl⟩ | ⟨old, hd⟩ := (card?_withCard_eq_some c n).mp hd
    · simp [List.count_eq_zero.mpr (unknown d.zone)]
    · rw [h.placed hd]
      split <;> simp [Ne.symm old]
  case owned =>
    obtain ⟨rfl, rfl⟩ | ⟨-, hd⟩ := (card?_withCard_eq_some c n).mp hd
    · exact ⟨p, hp⟩
    · exact h.owned hd
  case known =>
    rw [contents, List.mem_append] at member
    rcases member with old | new
    · obtain ⟨d, hd, rfl⟩ := h.known old
      have different : id ≠ s.nextCard := Nat.ne_of_lt (h.fresh hd)
      exact ⟨d, (card?_withCard_eq_some c n).mpr (.inr ⟨different, hd⟩), rfl⟩
    · split at new
      · rename_i same
        obtain rfl := List.mem_singleton.mp new
        exact ⟨c, (card?_withCard_eq_some c n).mpr (.inl ⟨rfl, rfl⟩), same.symm⟩
      · cases new
  case home =>
    obtain ⟨rfl, rfl⟩ | ⟨-, hd⟩ := (card?_withCard_eq_some c n).mp hd
    · obtain rfl := Option.some.inj (hp.symm.trans hq)
      simp [homes, zone]
    · exact h.home hd hq
  case controlled =>
    obtain ⟨rfl, rfl⟩ | ⟨-, hd⟩ := (card?_withCard_eq_some c n).mp hd
    · exact controller
    · exact h.controlled hd
  case lasting =>
    rw [isBattlefield, kindOfZone?_withCard] at hz
    obtain ⟨rfl, rfl⟩ | ⟨-, hd⟩ := (card?_withCard_eq_some c n).mp hd
    · simp [library] at hz
    · exact h.lasting hd hz
  case spell =>
    rw [kindOfZone?_withCard] at hz
    obtain ⟨rfl, rfl⟩ | ⟨-, hd⟩ := (card?_withCard_eq_some c n).mp hd
    · simp [library] at hz
    · exact h.spell hd hz
  case fresh =>
    show id < s.nextCard + 1
    obtain ⟨rfl, rfl⟩ | ⟨-, hd⟩ := (card?_withCard_eq_some c n).mp hd
    · exact Nat.lt_succ_self _
    · exact Nat.lt_succ_of_lt (h.fresh hd)

/-- A deal creates cards on their owners' libraries, then draws them, and derives at last. What none of
    this breaks holds after the deal if it holds of the empty table. -/
theorem Dealt.fillLibrary {P : State → Prop} {catalog : Catalog} {registry : Registry} {seat : Seat}
    {order : List DefinitionId}
    (created : ∀ {s t : State} {d : Definition} {p : Player} {id : CardId}, s.Dealt →
      s.player? seat = some p → s.create registry d seat p.zones.library = .ok (t, id) → P s → P t)
    (h : s.Dealt) (holds : P s) (filled : s.fillLibrary catalog registry seat order = .ok t) :
    t.Dealt ∧ P t := by
  obtain ⟨p, hp, filled⟩ := Outcome.bind_eq_ok.mp filled
  rw [player_eq_ok] at hp
  suffices all : t.Dealt ∧ P t ∧ t.player? seat = some p from ⟨all.1, all.2.1⟩
  refine Outcome.foldlM_preserves (P := fun s => s.Dealt ∧ P s ∧ s.player? seat = some p)
    (fun s id _ t step => ?_) filled ⟨h, holds, hp⟩
  rintro ⟨dealt, holds, hp⟩
  simp only [Outcome.bind_eq_ok] at step
  obtain ⟨d, -, ⟨next, id⟩, creation, step⟩ := step
  cases step
  have holds := created dealt hp creation holds
  obtain ⟨abilities, n, rfl, -⟩ := create_eq_ok creation
  exact ⟨dealt.withCard (c := Card.create s.nextCard d seat p.zones.library abilities) rfl hp rfl rfl n,
    holds, hp⟩

theorem Orderly.drawMany (h : s.Orderly) {seat : Seat} {n : Nat}
    (drawn : s.drawMany seat n = .ok t) : t.Orderly :=
  (wanes_drawMany drawn).orderly h

end State

namespace Match

theorem checkSeats_eq_ok {config : Config} {decks : List (List DefinitionId)} {u : Unit} :
    checkSeats config decks = .ok u ↔
      (2 ≤ config.playerCount ∧ config.playerCount ≤ 8) ∧ decks.length = config.playerCount := by
  unfold checkSeats
  split
  · rename_i wrong
    simp only [Config.minPlayers, Config.maxPlayers] at wrong
    exact iff_of_false nofun (by omega)
  · rename_i right
    simp only [Config.minPlayers, Config.maxPlayers] at right
    split
    · exact iff_of_false nofun (by omega)
    · exact iff_of_true rfl (by omega)

section Start

variable {config : Config} {generator : Generator} {catalog : Catalog} {registry : Registry}
  {decks : List (List DefinitionId)} {m : Match}
  (started : start config catalog registry decks generator = .ok m)
include started

/-- What holds of the empty table holds after the deal, if no new card on a library breaks it, no draw,
    and no derivation. -/
theorem start_induction {P : State → Prop}
    (empty : P (.initial config.playerCount config.startingLife))
    (created : ∀ {s t : State} {d : Definition} {seat : Seat} {p : Player} {id : CardId}, s.Dealt →
      s.player? seat = some p → s.create registry d seat p.zones.library = .ok (t, id) → P s → P t)
    (drawn : ∀ {s t : State} {seat : Seat} {n : Nat}, s.Orderly → s.drawMany seat n = .ok t → P s →
      P t)
    (derived : ∀ {s : State}, s.Orderly → P s → P s.derive) : m.state.Orderly ∧ P m.state := by
  simp only [start, Outcome.bind_eq_ok] at started
  obtain ⟨-, -, filled, filling, dealt, dealing, started⟩ := started
  cases started
  have initial : (State.initial config.playerCount config.startingLife).Dealt :=
    ⟨State.initial_orderly _ _, nofun⟩
  obtain ⟨filled, holds⟩ : filled.Dealt ∧ P filled :=
    Outcome.foldlM_preserves (P := fun s : State => s.Dealt ∧ P s)
      (fun _ _ _ _ step h => h.1.fillLibrary created h.2 step) filling ⟨initial, empty⟩
  obtain ⟨orderly, holds⟩ : dealt.Orderly ∧ P dealt :=
    Outcome.foldlM_preserves (P := fun s : State => s.Orderly ∧ P s)
      (fun _ _ _ _ step h => ⟨h.1.drawMany step, drawn h.1 step h.2⟩) dealing
      ⟨filled.toOrderly, holds⟩
  exact ⟨orderly.congr (State.layout_derive dealt), derived orderly holds⟩

/-- A match starts in order, with characteristics derived and nothing to undo. -/
theorem start_eq_ok :
    m.state.Orderly ∧ m.state.derive = m.state ∧ m.log = [] ∧ m.history = [] := by
  obtain ⟨orderly, -⟩ := start_induction started (P := fun _ => True) trivial
    (fun _ _ _ _ => trivial) (fun _ _ _ => trivial) fun _ _ => trivial
  simp only [start, Outcome.bind_eq_ok] at started
  obtain ⟨-, -, filled, -, dealt, -, started⟩ := started
  cases started
  exact ⟨orderly, State.derive_derive dealt, rfl, rfl⟩

end Start

end Match

end CardGame
