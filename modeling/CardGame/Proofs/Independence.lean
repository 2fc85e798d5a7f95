import CardGame.Proofs.Opening

/-! # Seats are dealt to independently

The order in which a deck is shuffled depends on the seed and the seat alone. So what a player is dealt
depends on these, on the player's own deck and on the size of the opening hand, and on nothing that
anybody else brings to the table.
-/

namespace CardGame

/-- Settings with the same seed that shuffle both or both do not shuffle put a deck in the same order,
    whatever the generator makes of a seed. -/
theorem Config.libraryOrder_congr {config config' : Config} (seed : config'.seed = config.seed)
    (shuffles : config'.shuffleLibraries = config.shuffleLibraries) :
    config'.libraryOrder = config.libraryOrder := by
  funext generator seat deck
  simp only [Config.libraryOrder, seed, shuffles]

/-- The numbers of the definitions of the cards in a zone, bottom first. -/
def State.printedIn (s : State) (zone : ZoneId) : List (Option DefinitionId) :=
  (s.contents zone).map fun id => (s.identity id).map (·.1.id)

namespace Opening

variable {config : Config} {catalog : Catalog} {seat : Seat} {order : List DefinitionId}
  {first : CardId} {zones : PlayerZones} {s : State}

theorem length_library (h : Opening config catalog seat order first zones s) :
    (s.contents zones.library).length =
      order.length - min config.openingHandSize order.length := by
  have size := congrArg List.length h.numbers
  have hand := h.hand
  simp only [State.pile, List.length_append, List.length_reverse, List.length_range'] at size
  omega

/-- The library of a seat is the lower part of its deck as it was shuffled. -/
theorem printedIn_library (h : Opening config catalog seat order first zones s)
    (keyed : catalog.Keyed) :
    s.printedIn zones.library =
      (order.take (order.length - min config.openingHandSize order.length)).map some := by
  rw [← h.length_library, List.map_take, ← h.definitions keyed, State.pile, List.map_append,
    State.printedIn]
  simp

/-- The hand of a seat is the rest of it, the top card first. -/
theorem printedIn_hand (h : Opening config catalog seat order first zones s)
    (keyed : catalog.Keyed) :
    s.printedIn zones.hand =
      ((order.drop (order.length - min config.openingHandSize order.length)).map some).reverse := by
  rw [← h.length_library, List.map_drop, ← h.definitions keyed, State.pile, List.map_append,
    State.printedIn]
  simp

end Opening

namespace Match

/-- Two deals from one generator and one seed, both shuffled or both not, with opening hands of one size
    give a seat that has the same deck in both the same library and the same hand. The number of seats,
    the other decks, the catalogs, the registries and all other settings make no difference. -/
theorem deals_agree (generator : Generator) (config config' : Config) (catalog catalog' : Catalog)
    (registry registry' : Registry) (decks decks' : List (List DefinitionId)) (m m' : Match)
    (seat : Seat) (deck : List DefinitionId) (keyed : catalog.Keyed) (keyed' : catalog'.Keyed)
    (started : start config catalog registry decks generator = .ok m)
    (started' : start config' catalog' registry' decks' generator = .ok m')
    (seed : config'.seed = config.seed)
    (shuffles : config'.shuffleLibraries = config.shuffleLibraries)
    (size : config'.openingHandSize = config.openingHandSize)
    (found : decks[seat]? = some deck) (found' : decks'[seat]? = some deck) :
    ∃ p p', m.state.player? seat = some p ∧ m'.state.player? seat = some p' ∧
      m'.state.printedIn p'.zones.library = m.state.printedIn p.zones.library ∧
      m'.state.printedIn p'.zones.hand = m.state.printedIn p.zones.hand := by
  obtain ⟨p, seated, opening⟩ := opening_start started found
  obtain ⟨p', seated', opening'⟩ := opening_start started' found'
  have order := Config.libraryOrder_congr seed shuffles
  refine ⟨p, p', seated, seated', ?_, ?_⟩
  · rw [opening.printedIn_library keyed, opening'.printedIn_library keyed', order, size]
  · rw [opening.printedIn_hand keyed, opening'.printedIn_hand keyed', order, size]

/-- Other cards under the numbers of the arena. -/
def meadow : Catalog := ⟨Table.ofList [(0, .basicLand 0 "Meadow"), (1, .creature 1 "Ox" 2 4)]⟩

theorem keyed_meadow : meadow.Keyed := by
  intro id d found
  have listed := Table.mem_of_get?_ofList found
  simp only [List.mem_cons, Prod.mk.injEq, List.not_mem_nil, or_false] at listed
  obtain ⟨rfl, rfl⟩ | ⟨rfl, rfl⟩ := listed <;> rfl

/-- Every deck of these catalogs can be dealt, shuffled or not. -/
theorem accepted_arena {id : DefinitionId} (known : id < 2) :
    ∃ d, arena.get? id = some d ∧ ∀ a ∈ d.abilities, Registry.builtin.Accepts a := by
  have crusher : Registry.builtin.Accepts ⟨"activated_destroy", .empty⟩ := fun origin s =>
    (Registry.steady_builtin _ origin ⟨0, 0⟩ s (.initial 2 20)).trans (by decide +kernel)
  match id, known with
  | 0, _ => exact ⟨_, rfl, List.forall_mem_singleton.mpr crusher⟩
  | 1, _ => exact ⟨_, rfl, nofun⟩

theorem accepted_meadow {registry : Registry} {id : DefinitionId} (known : id < 2) :
    ∃ d, meadow.get? id = some d ∧ ∀ a ∈ d.abilities, registry.Accepts a := by
  match id, known with
  | 0, _ => exact ⟨_, rfl, nofun⟩
  | 1, _ => exact ⟨_, rfl, nofun⟩

/-- The second player is dealt the same in a game of two and in a game of three with other cards. -/
theorem deals_agree_meadow :
    ∃ m m' p p',
      start { seed := 7, openingHandSize := 2 } arena .builtin [[1], [0, 1, 1]] .chacha = .ok m ∧
      start { playerCount := 3, startingLife := 40, seed := 7, openingHandSize := 2 } meadow .empty
        [[1, 1], [0, 1, 1], [0]] .chacha = .ok m' ∧
      m.state.player? 1 = some p ∧ m'.state.player? 1 = some p' ∧
      m'.state.printedIn p'.zones.library = m.state.printedIn p.zones.library ∧
      m'.state.printedIn p'.zones.hand = m.state.printedIn p.zones.hand := by
  have listed : ∀ deck ∈ [[1], [0, 1, 1]], ∀ id ∈ deck, id < 2 := by decide
  have listed' : ∀ deck ∈ [[1, 1], [0, 1, 1], [0]], ∀ id ∈ deck, id < 2 := by decide
  have dealt : ∃ m, start { seed := 7, openingHandSize := 2 } arena .builtin [[1], [0, 1, 1]]
      .chacha = .ok m :=
    (start_total_iff_of_steady Generator.permutes_chacha Registry.steady_builtin).mpr
      ⟨by decide, fun deck member id inside => accepted_arena (listed deck member id inside)⟩
  have dealt' : ∃ m, start { playerCount := 3, startingLife := 40, seed := 7, openingHandSize := 2 }
      meadow .empty [[1, 1], [0, 1, 1], [0]] .chacha = .ok m :=
    (start_total_iff_of_steady Generator.permutes_chacha Registry.steady_empty).mpr
      ⟨by decide, fun deck member id inside => accepted_meadow (listed' deck member id inside)⟩
  obtain ⟨m, started⟩ := dealt
  obtain ⟨m', started'⟩ := dealt'
  obtain ⟨p, p', seated, seated', library, hand⟩ := deals_agree .chacha _ _ _ _ _ _ _ _ m m' 1
    [0, 1, 1] keyed_arena keyed_meadow started started' rfl rfl rfl rfl rfl
  exact ⟨m, m', p, p', started, started', seated, seated', library, hand⟩

end Match

end CardGame
