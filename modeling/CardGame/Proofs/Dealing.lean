import CardGame.Proofs.Shuffling
import CardGame.Proofs.Totality

/-! # When a deal succeeds

A deal puts the cards of all decks on the libraries, seat by seat, and every card is built as it comes.
It fails if the seats are wrong, if a card is not in the catalog, or if an ability cannot be built, and
for no other reason.
-/

namespace CardGame

namespace Registry

/-- The registry builds every ability of a definition for the card that is created next, each with the
    next number. -/
def CanMake (registry : Registry) (s : State) (d : Definition) : Prop :=
  ∀ i descriptor, d.abilities[i]? = some descriptor →
    (registry.build descriptor ⟨s.nextAbility + i, s.nextCard⟩
      { s with nextAbility := s.nextAbility + i + 1 }).isOk = true

/-- The registry builds the ability for any card and at any time. -/
def Accepts (registry : Registry) (d : Descriptor) : Prop :=
  ∀ origin s, (registry.build d origin s).isOk = true

/-- Whether an ability can be built depends on its printed words alone. -/
def Steady (registry : Registry) : Prop :=
  ∀ d origin origin' s s', (registry.build d origin s).isOk = (registry.build d origin' s').isOk

variable {registry : Registry} {s : State} {d : Definition}

theorem buildAll_total_iff {source : CardId} {descriptors : List Descriptor} :
    (∃ built, registry.buildAll source s descriptors = .ok built) ↔
      ∀ i descriptor, descriptors[i]? = some descriptor →
        (registry.build descriptor ⟨s.nextAbility + i, source⟩
          { s with nextAbility := s.nextAbility + i + 1 }).isOk = true := by
  induction descriptors generalizing s with
  | nil => exact iff_of_true ⟨_, rfl⟩ nofun
  | cons first rest ih =>
      have later (i : Nat) : s.nextAbility + 1 + i = s.nextAbility + (i + 1) :=
        Nat.add_right_comm ..
      constructor
      · rintro ⟨built, h⟩ i descriptor found
        obtain ⟨ability, now, h⟩ := Outcome.bind_eq_ok.mp h
        obtain ⟨others, remaining, -⟩ := Outcome.bind_eq_ok.mp h
        cases i with
        | zero =>
            cases found
            exact Outcome.isOk_iff.mpr ⟨ability, now⟩
        | succ i =>
            have built := ih.mp ⟨others, remaining⟩ i descriptor found
            dsimp only [State.takeAbilityId] at built
            rwa [later] at built
      · intro all
        obtain ⟨ability, now⟩ := Outcome.isOk_iff.mp (all 0 first rfl)
        obtain ⟨⟨next, others⟩, remaining⟩ :=
          ih (s := s.takeAbilityId.1).mpr fun i descriptor found => by
            have built := all (i + 1) descriptor found
            dsimp only [State.takeAbilityId]
            rwa [later]
        exact ⟨_, Outcome.bind_eq_ok.mpr ⟨ability, now,
          Outcome.bind_eq_ok.mpr ⟨(next, others), remaining, rfl⟩⟩⟩

theorem CanMake.of_accepts (all : ∀ a ∈ d.abilities, registry.Accepts a) : registry.CanMake s d :=
  fun _ descriptor found => all descriptor (List.mem_of_getElem? found) _ _

theorem Steady.accepts (steady : registry.Steady) (made : registry.CanMake s d) :
    ∀ a ∈ d.abilities, registry.Accepts a := by
  intro a member origin t
  obtain ⟨i, found⟩ := List.mem_iff_getElem?.mp member
  exact (steady ..).trans (made i a found)

theorem steady_empty : Registry.empty.Steady := fun _ _ _ _ _ => rfl

/-- The built-in abilities are built from their printed words. -/
theorem steady_builtin : Registry.builtin.Steady := by
  intro d origin origin' s s'
  unfold Registry.build
  split
  · rename_i factory found
    have listed := Table.mem_of_get?_ofList found
    simp only [Builtin.factories, List.mem_cons, Prod.mk.injEq, List.not_mem_nil, or_false] at listed
    rcases listed with ⟨-, rfl⟩ | ⟨-, rfl⟩ | ⟨-, rfl⟩ | ⟨-, rfl⟩ | ⟨-, rfl⟩ | ⟨-, rfl⟩ | ⟨-, rfl⟩ |
      ⟨-, rfl⟩
    · refine Outcome.isOk_bind_congr fun text => ?_
      cases Keyword.read? text <;> rfl
    · exact Outcome.isOk_bind_congr fun _ => Outcome.isOk_bind_congr fun _ =>
        Outcome.isOk_bind_congr fun _ => rfl
    · exact Outcome.isOk_bind_congr fun _ => Outcome.isOk_bind_congr fun _ => rfl
    · refine Outcome.isOk_bind_congr fun text => ?_
      cases CardType.read? text <;> rfl
    · exact Outcome.isOk_bind_congr fun _ => rfl
    · unfold Builtin.tapToDestroy
      dsimp only
      split
      · rfl
      · split <;> rfl
    · exact Outcome.isOk_bind_congr fun _ => rfl
    · exact Outcome.isOk_bind_congr fun _ => Outcome.isOk_bind_congr fun _ => rfl
  · rfl

end Registry

namespace State

variable {catalog : Catalog} {registry : Registry} {s t : State} {seat : Seat} {p : Player}

theorem create_total_iff {d : Definition} {zone : ZoneId} (seated : s.player? seat = some p)
    (known : (s.kindOfZone? zone).isSome) :
    (∃ created, s.create registry d seat zone = .ok created) ↔ registry.CanMake s d := by
  obtain ⟨kind, known⟩ := Option.isSome_iff_exists.mp known
  obtain ⟨z, found, -⟩ := kindOfZone?_eq_some.mp known
  refine Iff.trans ?_ Registry.buildAll_total_iff
  simp only [create, Outcome.bind_eq_ok, player_eq_ok, zone_eq_ok]
  constructor
  · rintro ⟨_, -, -, -, -, built, made, -⟩
    exact ⟨built, made⟩
  · rintro ⟨⟨next, abilities⟩, made⟩
    exact ⟨_, p, seated, z, found, (next, abilities), made, rfl⟩

theorem player?_of_players (same : t.players = s.players) (seat : Seat) :
    t.player? seat = s.player? seat := by
  rw [player?, same, player?]

/-- What the filling of a library changes has nothing to do with who plays. -/
theorem Dealt.of_fillLibrary {order : List DefinitionId} (h : s.Dealt)
    (filled : s.fillLibrary catalog registry seat order = .ok t) :
    t.Dealt ∧ t.players = s.players := by
  refine h.fillLibrary (P := fun t => t.players = s.players) (fun _ _ created same => ?_) rfl filled
  obtain ⟨abilities, n, rfl, -⟩ := create_eq_ok created
  exact same

/-- A deck is put on the library of a seat card by card. -/
def putOn (catalog : Catalog) (registry : Registry) (seat : Seat) (library : ZoneId) (s : State)
    (id : DefinitionId) : Outcome State := do
  let d ← catalog.lookup id
  let (next, _) ← s.create registry d seat library
  .ok next

theorem fillLibrary_eq (seated : s.player? seat = some p) (order : List DefinitionId) :
    s.fillLibrary catalog registry seat order =
      order.foldlM (putOn catalog registry seat p.zones.library) s := by
  rw [fillLibrary, player_eq_ok.mpr seated]
  rfl

theorem Dealt.putOn_total_iff (h : s.Dealt) (seated : s.player? seat = some p) {id : DefinitionId} :
    (∃ t, putOn catalog registry seat p.zones.library s id = .ok t) ↔
      ∃ d, catalog.get? id = some d ∧ registry.CanMake s d := by
  have library := Option.isSome_iff_exists.mpr ⟨_, h.library seated⟩
  constructor
  · rintro ⟨t, put⟩
    obtain ⟨d, known, put⟩ := Outcome.bind_eq_ok.mp put
    obtain ⟨created, creation, -⟩ := Outcome.bind_eq_ok.mp put
    exact ⟨d, Outcome.find_eq_ok.mp known, (create_total_iff seated library).mp ⟨created, creation⟩⟩
  · rintro ⟨d, known, made⟩
    obtain ⟨created, creation⟩ := (create_total_iff seated library).mpr made
    exact ⟨created.1, Outcome.bind_eq_ok.mpr ⟨d, Outcome.find_eq_ok.mpr known,
      Outcome.bind_eq_ok.mpr ⟨created, creation, rfl⟩⟩⟩

/-- A library is filled if each card is known and can be made when its turn comes. -/
theorem Dealt.fillLibrary_total (h : s.Dealt) (seated : s.player? seat = some p)
    {order : List DefinitionId}
    (makes : ∀ place id mid, order[place]? = some id →
      s.fillLibrary catalog registry seat (order.take place) = .ok mid →
      ∃ d, catalog.get? id = some d ∧ registry.CanMake mid d) :
    ∃ t, s.fillLibrary catalog registry seat order = .ok t := by
  rw [fillLibrary_eq seated]
  refine Outcome.foldlM_of_steps fun place id mid found before => ?_
  rw [← fillLibrary_eq seated] at before
  obtain ⟨dealt, players⟩ := h.of_fillLibrary before
  have seated := (player?_of_players players seat).trans seated
  exact (dealt.putOn_total_iff seated).mpr (makes place id mid found before)

/-- In a library that is filled, each card is known and could be made when its turn came. -/
theorem Dealt.of_fillLibrary_total (h : s.Dealt) (seated : s.player? seat = some p)
    {order : List DefinitionId} (filled : s.fillLibrary catalog registry seat order = .ok t)
    {place : Nat} {id : DefinitionId} (found : order[place]? = some id) :
    ∃ mid d, s.fillLibrary catalog registry seat (order.take place) = .ok mid ∧
      catalog.get? id = some d ∧ registry.CanMake mid d := by
  rw [fillLibrary_eq seated] at filled
  obtain ⟨mid, next, before, now, -⟩ := Outcome.foldlM_step filled found
  rw [← fillLibrary_eq seated] at before
  obtain ⟨dealt, players⟩ := h.of_fillLibrary before
  have seated := (player?_of_players players seat).trans seated
  obtain ⟨d, known, made⟩ := (dealt.putOn_total_iff seated).mp ⟨next, now⟩
  exact ⟨mid, d, before, known, made⟩

/-- Fill the library of a seat with its deck. -/
def fill (config : Config) (generator : Generator) (catalog : Catalog) (registry : Registry)
    (s : State) (entry : List DefinitionId × Seat) : Outcome State :=
  s.fillLibrary catalog registry entry.2 (config.libraryOrder generator entry.2 entry.1)

variable {config : Config} {generator : Generator} {decks : List (List DefinitionId)}

theorem initial_dealt (players : Nat) (life : Int) : (initial players life).Dealt :=
  ⟨initial_orderly players life, nofun⟩

theorem player?_initial_of_lt {players : Nat} {life : Int} (seated : seat < players) :
    (initial players life).player? seat = some (.initial seat life) := by
  rw [player?, initial, List.getElem?_map, List.getElem?_range seated]
  rfl

/-- Filling libraries changes nothing about the players. -/
theorem Dealt.of_fills {entries : List (List DefinitionId × Seat)} (h : s.Dealt)
    (filled : entries.foldlM (fill config generator catalog registry) s = .ok t) :
    t.Dealt ∧ t.players = s.players := by
  refine Outcome.foldlM_preserves (P := fun t => t.Dealt ∧ t.players = s.players)
    (fun mid entry _ next step before => ?_) filled ⟨h, rfl⟩
  obtain ⟨dealt, players⟩ := before.1.of_fillLibrary step
  exact ⟨dealt, players.trans before.2⟩

theorem Orderly.drawHands_total (h : s.Orderly) (size : Nat) : ∃ t, s.drawHands size = .ok t := by
  have all : ∃ t, s.drawHands size = .ok t ∧ t.Orderly ∧ t.playerCount = s.playerCount := by
    refine Outcome.foldlM_total (P := fun t : State => t.Orderly ∧ t.playerCount = s.playerCount)
      (fun mid seat member ⟨orderly, seats⟩ => ?_) ⟨h, rfl⟩
    obtain ⟨t, drawn⟩ := orderly.drawMany_total (seats ▸ List.mem_range.mp member) size
    exact ⟨t, drawn, orderly.drawMany drawn,
      (playerCount_of_tempo (alike_drawMany drawn).tempo).trans seats⟩
  obtain ⟨t, drawn, -⟩ := all
  exact ⟨t, drawn⟩

end State

/-- The table when a card of the deal has its turn: the decks of the seats before are on their
    libraries, and so is what lies below the card in the deck of its own seat. -/
def Config.tableBefore (config : Config) (generator : Generator) (catalog : Catalog)
    (registry : Registry) (decks : List (List DefinitionId)) (seat : Seat)
    (deck : List DefinitionId) (place : Nat) : Outcome State := do
  let s ← (decks.zipIdx.take seat).foldlM (State.fill config generator catalog registry)
    (.initial config.playerCount config.startingLife)
  s.fillLibrary catalog registry seat ((config.libraryOrder generator seat deck).take place)

/-- The abilities of every card of the deal can be built when the card has its turn. -/
def Config.AllBuilt (config : Config) (generator : Generator) (catalog : Catalog)
    (registry : Registry) (decks : List (List DefinitionId)) : Prop :=
  ∀ seat deck place id d s, decks[seat]? = some deck →
    (config.libraryOrder generator seat deck)[place]? = some id → catalog.get? id = some d →
    config.tableBefore generator catalog registry decks seat deck place = .ok s →
    registry.CanMake s d

section Fill

variable {config : Config} {generator : Generator} {catalog : Catalog} {registry : Registry}
  {decks : List (List DefinitionId)} {t : State} {seat : Seat} {deck : List DefinitionId}

open State

theorem Config.mem_libraryOrder (config : Config) (permutes : generator.Permutes) (seat : Seat)
    {id : DefinitionId} : id ∈ config.libraryOrder generator seat deck ↔ id ∈ deck :=
  (config.libraryOrder_perm permutes seat deck).mem_iff

theorem lt_of_deck (found : decks[seat]? = some deck) : seat < decks.length :=
  (List.getElem?_eq_some_iff.mp found).choose

theorem zipIdx_of_deck (found : decks[seat]? = some deck) :
    decks.zipIdx[seat]? = some (deck, seat) := by
  rw [List.getElem?_zipIdx, found, Nat.zero_add]
  rfl

/-- The players have their seats while the libraries are filled. -/
theorem player?_of_fills {entries : List (List DefinitionId × Seat)}
    (filled : entries.foldlM (fill config generator catalog registry)
      (.initial config.playerCount config.startingLife) = .ok t) (seated : seat < config.playerCount) :
    t.Dealt ∧ t.player? seat = some (.initial seat config.startingLife) := by
  obtain ⟨dealt, players⟩ := (initial_dealt _ _).of_fills filled
  exact ⟨dealt, (player?_of_players players seat).trans (player?_initial_of_lt seated)⟩

variable (decked : decks.length = config.playerCount)
include decked

/-- The libraries are filled if all cards are known and can be built when they have their turns. -/
theorem fills_total (permutes : generator.Permutes)
    (listed : ∀ deck ∈ decks, ∀ id ∈ deck, catalog.contains id = true)
    (built : config.AllBuilt generator catalog registry decks) :
    ∃ t, decks.zipIdx.foldlM (fill config generator catalog registry)
      (.initial config.playerCount config.startingLife) = .ok t := by
  refine Outcome.foldlM_of_steps fun seat entry mid found before => ?_
  rw [List.getElem?_zipIdx, Option.map_eq_some_iff] at found
  obtain ⟨deck, found, rfl⟩ := found
  rw [Nat.zero_add]
  have seated : seat < config.playerCount := decked ▸ lt_of_deck found
  obtain ⟨dealt, player⟩ := player?_of_fills before seated
  refine dealt.fillLibrary_total player fun place id s drawn within => ?_
  have member := (config.mem_libraryOrder permutes seat).mp (List.mem_of_getElem? drawn)
  obtain ⟨d, known⟩ := Option.isSome_iff_exists.mp
    (listed deck (List.mem_of_getElem? found) id member)
  exact ⟨d, known, built seat deck place id d s found drawn known
    (Outcome.bind_eq_ok.mpr ⟨mid, before, within⟩)⟩

/-- Where the libraries are filled, every card is known and could be built when it had its turn. -/
theorem made_of_fills (filled : decks.zipIdx.foldlM (fill config generator catalog registry)
      (.initial config.playerCount config.startingLife) = .ok t)
    (found : decks[seat]? = some deck) {place : Nat} {id : DefinitionId}
    (drawn : (config.libraryOrder generator seat deck)[place]? = some id) :
    ∃ s d, config.tableBefore generator catalog registry decks seat deck place = .ok s ∧
      catalog.get? id = some d ∧ registry.CanMake s d := by
  obtain ⟨mid, next, before, now, -⟩ := Outcome.foldlM_step filled (zipIdx_of_deck found)
  have seated : seat < config.playerCount := decked ▸ lt_of_deck found
  obtain ⟨dealt, player⟩ := player?_of_fills before seated
  obtain ⟨s, d, within, known, made⟩ := dealt.of_fillLibrary_total player now drawn
  exact ⟨s, d, Outcome.bind_eq_ok.mpr ⟨mid, before, within⟩, known, made⟩

end Fill

namespace Match

variable {config : Config} {generator : Generator} {catalog : Catalog} {registry : Registry}
  {decks : List (List DefinitionId)}

open State

theorem start_eq_ok_iff {m : Match} :
    start config catalog registry decks generator = .ok m ↔
      ((2 ≤ config.playerCount ∧ config.playerCount ≤ 8) ∧ decks.length = config.playerCount) ∧
        ∃ filled, decks.zipIdx.foldlM (fill config generator catalog registry)
            (.initial config.playerCount config.startingLife) = .ok filled ∧
          ∃ dealt, filled.drawHands config.openingHandSize = .ok dealt ∧
            m = ofState config catalog registry dealt.derive := by
  simp only [start, Outcome.bind_eq_ok, checkSeats_eq_ok, exists_and_left, exists_const,
    Except.ok.injEq, eq_comm (a := m)]
  rfl

/-- A deal succeeds exactly if there is one deck for each of two to eight seats, every card is in the
    catalog, and its abilities are built when it has its turn. -/
theorem start_total_iff (permutes : generator.Permutes) :
    (∃ m, start config catalog registry decks generator = .ok m) ↔
      ((2 ≤ config.playerCount ∧ config.playerCount ≤ 8) ∧ decks.length = config.playerCount) ∧
        (∀ deck ∈ decks, ∀ id ∈ deck, catalog.contains id = true) ∧
        config.AllBuilt generator catalog registry decks := by
  constructor
  · rintro ⟨m, started⟩
    obtain ⟨seats, filled, filling, -⟩ := start_eq_ok_iff.mp started
    refine ⟨seats, fun deck member id listed => ?_, ?_⟩
    · obtain ⟨seat, found⟩ := List.mem_iff_getElem?.mp member
      obtain ⟨place, drawn⟩ := List.mem_iff_getElem?.mp ((config.mem_libraryOrder permutes seat).mpr listed)
      obtain ⟨-, d, -, known, -⟩ := made_of_fills seats.2 filling found drawn
      exact Option.isSome_iff_exists.mpr ⟨d, known⟩
    · intro seat deck place id d s found drawn known before
      obtain ⟨s', d', before', known', made⟩ := made_of_fills seats.2 filling found drawn
      cases before.symm.trans before'
      cases known.symm.trans known'
      exact made
  · rintro ⟨seats, listed, built⟩
    obtain ⟨filled, filling⟩ := fills_total seats.2 permutes listed built
    obtain ⟨dealt, -⟩ := (initial_dealt _ _).of_fills filling
    obtain ⟨drawn, draws⟩ := dealt.drawHands_total config.openingHandSize
    exact ⟨_, start_eq_ok_iff.mpr ⟨seats, filled, filling, drawn, draws, rfl⟩⟩

/-- Where abilities are built from their printed words alone, it does not matter when a card has its
    turn. -/
theorem start_total_iff_of_steady (permutes : generator.Permutes) (steady : registry.Steady) :
    (∃ m, start config catalog registry decks generator = .ok m) ↔
      ((2 ≤ config.playerCount ∧ config.playerCount ≤ 8) ∧ decks.length = config.playerCount) ∧
        ∀ deck ∈ decks, ∀ id ∈ deck,
          ∃ d, catalog.get? id = some d ∧ ∀ a ∈ d.abilities, registry.Accepts a := by
  constructor
  · rintro ⟨m, started⟩
    obtain ⟨seats, filled, filling, -⟩ := start_eq_ok_iff.mp started
    refine ⟨seats, fun deck member id listed => ?_⟩
    obtain ⟨seat, found⟩ := List.mem_iff_getElem?.mp member
    obtain ⟨place, drawn⟩ := List.mem_iff_getElem?.mp ((config.mem_libraryOrder permutes seat).mpr listed)
    obtain ⟨_, d, -, known, made⟩ := made_of_fills seats.2 filling found drawn
    exact ⟨d, known, steady.accepts made⟩
  · rintro ⟨seats, all⟩
    refine (start_total_iff permutes).mpr ⟨seats, fun deck member id listed => ?_, ?_⟩
    · obtain ⟨d, known, -⟩ := all deck member id listed
      exact Option.isSome_iff_exists.mpr ⟨d, known⟩
    · intro seat deck place id d s found drawn known before
      have listed := (config.mem_libraryOrder permutes seat).mp (List.mem_of_getElem? drawn)
      obtain ⟨d', known', accepted⟩ := all deck (List.mem_of_getElem? found) id listed
      cases known.symm.trans known'
      exact .of_accepts accepted

end Match

end CardGame
