import CardGame.Proofs.Libraries

/-! # Opening hands

A draw takes the top card of a library, so a library with the hand of its player on top of it, the first
card drawn uppermost, stays the same pile of cards. After a deal this pile is the deck of the seat in
the order in which the generator has put it, and its top is the opening hand.
-/

namespace CardGame

namespace State

variable {s t u : State} {seat : Seat} {p : Player} {n : Nat}

/-- A library, and on top of it the hand in the reverse order of drawing. -/
def pile (s : State) (zones : PlayerZones) : List CardId :=
  s.contents zones.library ++ (s.contents zones.hand).reverse

/-- Up to `n` cards go from the top of a library to the hand. -/
structure Draws (zones : PlayerZones) (n : Nat) (s t : State) : Prop where
  furniture : t.furniture = s.furniture
  identity : t.identity = s.identity
  pile : t.pile zones = s.pile zones
  hand : (t.contents zones.hand).length =
    (s.contents zones.hand).length + min n (s.contents zones.library).length
  others : ∀ zone, zone ≠ zones.library → zone ≠ zones.hand → t.contents zone = s.contents zone

namespace Draws

variable {zones : PlayerZones} {first rest : Nat}

theorem refl (nothing : min n (s.contents zones.library).length = 0) : Draws zones n s s where
  furniture := rfl
  identity := rfl
  pile := rfl
  hand := by rw [nothing, Nat.add_zero]
  others _ _ _ := rfl

theorem trans (now : Draws zones first s t) (later : Draws zones rest t u) :
    Draws zones (first + rest) s u where
  furniture := later.furniture.trans now.furniture
  identity := later.identity.trans now.identity
  pile := later.pile.trans now.pile
  hand := by
    -- what the hand has got is missing from the library
    have left := congrArg List.length now.pile
    simp only [State.pile, List.length_append, List.length_reverse] at left
    have := now.hand
    have := later.hand
    omega
  others zone notLibrary notHand :=
    (later.others zone notLibrary notHand).trans (now.others zone notLibrary notHand)

end Draws

theorem draws_draw (h : s.Orderly) (seated : s.player? seat = some p) {id : CardId}
    (drawn : s.draw seat = .ok (t, some id)) : Draws p.zones 1 s t := by
  obtain ⟨trace, course, -⟩ := (wanes_draw drawn).course h
  have identity := course.identity h
  obtain ⟨q, same, top, moved⟩ := draw_eq_some drawn
  cases seated.symm.trans same
  obtain ⟨below, library⟩ := List.getLast?_eq_some_iff.mp top
  obtain ⟨c, found, zone⟩ := h.known (List.mem_of_getLast? top)
  obtain ⟨c', source, kind, found', -, known, rfl⟩ := move_eq_ok.mp moved
  cases found.symm.trans found'
  have apart : p.zones.library ≠ p.zones.hand := fun same => by
    have kinds := h.library seated
    rw [same, h.hand seated] at kinds
    cases kinds
  have contents := contents_relocate s id c.zone (c.movedTo source kind p.zones.hand)
    (by rw [Card.zone_movedTo, known]; rfl)
  simp only [Card.zone_movedTo, zone] at contents
  have left : (s.relocate id p.zones.library (c.movedTo source kind p.zones.hand)).contents
      p.zones.library = below := by
    rw [contents, if_pos rfl, if_neg apart, h.erase_last top, library, List.dropLast_concat,
      List.append_nil]
  have taken : (s.relocate id p.zones.library (c.movedTo source kind p.zones.hand)).contents
      p.zones.hand = s.contents p.zones.hand ++ [id] := by
    rw [contents, if_neg apart.symm, if_pos rfl]
  rw [zone] at identity ⊢
  refine ⟨furniture_relocate .., identity, ?_, ?_, fun other notLibrary notHand => ?_⟩
  · rw [pile, left, taken, List.reverse_concat, pile, library, List.append_assoc]
    rfl
  · rw [taken, library, List.length_append, List.length_append, List.length_singleton]
    omega
  · rw [contents, if_neg notLibrary, if_neg notHand, List.append_nil]

theorem empty_of_draw (seated : s.player? seat = some p) (drawn : s.draw seat = .ok (t, none)) :
    s.contents p.zones.library = [] := by
  simp only [draw, Outcome.bind_eq_ok, player_eq_ok, zone_eq_ok] at drawn
  obtain ⟨q, same, library, found, drawn⟩ := drawn
  cases seated.symm.trans same
  rw [contents_of_zone? found]
  split at drawn
  · rename_i none
    exact List.getLast?_eq_none_iff.mp none
  · obtain ⟨next, -, drawn⟩ := Outcome.bind_eq_ok.mp drawn
    cases drawn

theorem draws_drawMany (h : s.Orderly) (seated : s.player? seat = some p)
    (drawn : s.drawMany seat n = .ok t) : Draws p.zones n s t := by
  induction n generalizing s with
  | zero =>
      cases drawn
      exact .refl (Nat.zero_min _)
  | succ n ih =>
      rw [drawMany, Outcome.bind_eq_ok] at drawn
      obtain ⟨⟨next, card⟩, drew, drawn⟩ := drawn
      cases card with
      | none =>
          cases drawn
          cases draw_eq_none drew
          exact .refl (by rw [empty_of_draw seated drew, List.length_nil, Nat.min_zero])
      | some id =>
          have first := draws_draw h seated drew
          have seated := (player?_of_furniture first.furniture seat).trans seated
          rw [Nat.add_comm]
          exact first.trans (ih ((wanes_draw drew).orderly h) seated drawn)

end State

open State

/-- The first seats have drawn their opening hands. -/
structure Opened (config : Config) (catalog : Catalog) (orders : List (List DefinitionId))
    (done : Nat) (s : State) : Prop where
  orderly : s.Orderly
  furniture : s.furniture = (State.initial config.playerCount config.startingLife).furniture
  piles : ∀ seat order, orders[seat]? = some order →
    s.pile (.ofSeat seat) = List.range' (firstNumber orders seat) order.length
  hands : ∀ seat order, orders[seat]? = some order →
    (s.contents (PlayerZones.ofSeat seat).hand).length =
      if seat < done then min config.openingHandSize order.length else 0
  identities : ∀ seat order, orders[seat]? = some order →
    (List.range' (firstNumber orders seat) order.length).map s.identity =
      order.map fun id => (catalog.get? id).map (·, seat)
  others : ∀ zone, s.kindOfZone? zone ≠ some .library → s.kindOfZone? zone ≠ some .hand →
    s.contents zone = []
  numbers : ∀ id, (s.identity id).isSome ↔ 1 ≤ id ∧ id < firstNumber orders orders.length

namespace Opened

variable {config : Config} {catalog : Catalog} {registry : Registry}
  {orders : List (List DefinitionId)} {order : List DefinitionId} {done : Nat} {s t : State}

theorem of_laid (decked : orders.length = config.playerCount)
    (h : Laid config catalog orders orders.length s) : Opened config catalog orders 0 s := by
  have empty {seat : Seat} {order : List DefinitionId} (found : orders[seat]? = some order) :
      s.contents (PlayerZones.ofSeat seat).hand = [] := by
    have hand : s.kindOfZone? (PlayerZones.ofSeat seat).hand = some .hand :=
      h.dealt.hand (h.seated (decked ▸ lt_of_deck found))
    exact h.others _ (hand ▸ nofun)
  exact {
    orderly := h.dealt.toOrderly
    furniture := h.furniture
    piles := fun seat order found => by
      rw [pile, h.libraries seat order found, if_pos (lt_of_deck found), empty found, List.reverse_nil,
        List.append_nil]
    hands := fun seat order found => by
      rw [empty found, if_neg (Nat.not_lt_zero _), List.length_nil]
    identities := fun seat order found => h.identities seat order found (lt_of_deck found)
    others := fun zone notLibrary _ => h.others zone notLibrary
    numbers := fun id => h.next ▸ h.numbers id }

theorem seated (h : Opened config catalog orders done s) {seat : Seat}
    (below : seat < config.playerCount) :
    s.player? seat = some (.initial seat config.startingLife) :=
  (player?_of_furniture h.furniture seat).trans (player?_initial_of_lt below)

/-- The next seat draws its opening hand. -/
theorem draw (h : Opened config catalog orders done s) (found : orders[done]? = some order)
    (below : done < config.playerCount)
    (drawn : s.drawMany done config.openingHandSize = .ok t) :
    Opened config catalog orders (done + 1) t := by
  have seated := h.seated below
  have draws : Draws (.ofSeat done) config.openingHandSize s t :=
    draws_drawMany h.orderly seated drawn
  have elsewhere {seat : Seat} (other : seat ≠ done) :
      t.contents (PlayerZones.ofSeat seat).library = s.contents (PlayerZones.ofSeat seat).library ∧
        t.contents (PlayerZones.ofSeat seat).hand = s.contents (PlayerZones.ofSeat seat).hand :=
    ⟨draws.others _ (mt PlayerZones.library_inj.mp other) (PlayerZones.library_ne_hand seat done),
      draws.others _ (PlayerZones.library_ne_hand done seat).symm (mt PlayerZones.hand_inj.mp other)⟩
  refine {
    orderly := h.orderly.drawMany drawn
    furniture := draws.furniture.trans h.furniture
    piles := fun seat other listed => ?piles
    hands := fun seat other listed => ?hands
    identities := draws.identity ▸ h.identities
    others := fun zone notLibrary notHand => ?others
    numbers := draws.identity ▸ h.numbers }
  case piles =>
    rw [← h.piles seat other listed]
    by_cases same : seat = done
    · subst same
      exact draws.pile
    · rw [pile, pile, (elsewhere same).1, (elsewhere same).2]
  case hands =>
    by_cases same : seat = done
    · subst same
      cases found.symm.trans listed
      have empty := h.hands seat order found
      rw [if_neg (Nat.lt_irrefl _)] at empty
      have size := congrArg List.length (h.piles seat order found)
      rw [pile, List.length_eq_zero_iff.mp empty, List.reverse_nil, List.append_nil,
        List.length_range'] at size
      rw [draws.hand, empty, size, if_pos (Nat.lt_succ_self _), Nat.zero_add]
    · rw [(elsewhere same).2, h.hands seat other listed]
      exact if_congr (Nat.lt_succ_iff_lt_or_eq.trans (or_iff_left same)).symm rfl rfl
  case others =>
    rw [kindOfZone?_of_furniture draws.furniture] at notLibrary notHand
    rw [draws.others zone ?_ ?_, h.others zone notLibrary notHand]
    · rintro rfl
      exact notLibrary (h.orderly.library seated)
    · rintro rfl
      exact notHand (h.orderly.hand seated)

theorem derive (h : Opened config catalog orders done s) :
    Opened config catalog orders done s.derive := by
  have layout := layout_derive s
  have contents : s.derive.contents = s.contents := funext (contents_congr layout)
  have identity : s.derive.identity = s.identity := identity_congr layout
  have pile : s.derive.pile = s.pile := by
    funext zones
    rw [State.pile, State.pile, contents]
  exact {
    orderly := h.orderly.congr layout
    furniture := (furniture_derive s).trans h.furniture
    piles := by
      rw [pile]
      exact h.piles
    hands := by
      rw [contents]
      exact h.hands
    identities := by
      rw [identity]
      exact h.identities
    others := by
      rw [funext (kindOfZone?_congr layout), contents]
      exact h.others
    numbers := by
      rw [identity]
      exact h.numbers }

theorem empty_of_kind (h : Opened config catalog orders done s) {zone : ZoneId} {kind : ZoneKind}
    (known : s.kindOfZone? zone = some kind) (notLibrary : kind ≠ .library) (notHand : kind ≠ .hand) :
    s.contents zone = [] :=
  h.others zone (fun library => notLibrary (Option.some.inj (known.symm.trans library)))
    fun hand => notHand (Option.some.inj (known.symm.trans hand))

end Opened

/-- The numbers of the definitions are the ones under which the catalog lists them. -/
def Catalog.Keyed (catalog : Catalog) : Prop := ∀ id d, catalog.get? id = some d → d.id = id

theorem Catalog.keyed_empty : Catalog.empty.Keyed := nofun

theorem Catalog.Keyed.register {catalog larger : Catalog} {d : Definition} (h : catalog.Keyed)
    (registered : catalog.register d = .ok larger) : larger.Keyed := by
  unfold Catalog.register at registered
  split at registered
  · cases registered
  · cases registered
    intro id e found
    have lookUp : (catalog.definitions.insert d.id d).get? id =
        if id = d.id then some d else catalog.definitions.get? id :=
      Table.get?_insert catalog.definitions d.id d id
    rw [Catalog.get?, lookUp] at found
    split at found
    · rename_i same
      cases found
      exact same.symm
    · exact h id e found

/-- What a deal leaves of the deck of a seat that has been put in order: a pile of cards with
    consecutive numbers in this order, the opening hand being its top, and nothing else. -/
structure Opening (config : Config) (catalog : Catalog) (seat : Seat) (order : List DefinitionId)
    (first : CardId) (zones : PlayerZones) (s : State) : Prop where
  numbers : s.pile zones = List.range' first order.length
  cards : (s.pile zones).map s.identity = order.map fun id => (catalog.get? id).map (·, seat)
  definitions : catalog.Keyed →
    (s.pile zones).map (fun id => (s.identity id).map (·.1.id)) = order.map some
  hand : (s.contents zones.hand).length = min config.openingHandSize order.length
  others : ∀ zone ∈ zones.all, zone ≠ zones.library → zone ≠ zones.hand → s.contents zone = []

/-- The decks of a deal, each in the order in which it goes onto its library. -/
def Config.orders (config : Config) (generator : Generator) (decks : List (List DefinitionId)) :
    List (List DefinitionId) :=
  decks.mapIdx (config.libraryOrder generator)

section Orders

variable {generator : Generator} {decks : List (List DefinitionId)} {seat : Seat}
  {deck : List DefinitionId} (config : Config)

theorem Config.length_orders : (config.orders generator decks).length = decks.length :=
  List.length_mapIdx

theorem Config.order_of_deck (generator : Generator) (found : decks[seat]? = some deck) :
    (config.orders generator decks)[seat]? = some (config.libraryOrder generator seat deck) := by
  rw [orders, List.getElem?_mapIdx, found]
  rfl

/-- Shuffles that lose nothing do not change the numbers of the cards. -/
theorem Config.firstNumber_orders (permutes : generator.Permutes)
    (decks : List (List DefinitionId)) :
    firstNumber (config.orders generator decks) = firstNumber decks := by
  have sizes : (config.orders generator decks).map List.length = decks.map List.length := by
    refine List.ext_getElem? fun seat => ?_
    rw [orders, List.getElem?_map, List.getElem?_mapIdx, Option.map_map, List.getElem?_map]
    exact congrArg (decks[seat]?.map ·) <| funext fun deck =>
      (config.libraryOrder_perm permutes seat deck).length_eq
  funext seat
  rw [firstNumber, List.map_take, sizes, ← List.map_take, firstNumber]

end Orders

namespace Match

variable {config : Config} {generator : Generator} {catalog : Catalog} {registry : Registry}
  {decks : List (List DefinitionId)} {m : Match}

theorem opened_start (started : start config catalog registry decks generator = .ok m) :
    Opened config catalog (config.orders generator decks) decks.length m.state := by
  obtain ⟨⟨-, decked⟩, filled, filling, dealt, drawing, rfl⟩ := start_eq_ok_iff.mp started
  have laid : Laid config catalog (config.orders generator decks) decks.zipIdx.length filled := by
    refine Outcome.foldlM_counts (P := Laid config catalog (config.orders generator decks))
      (fun done entry s t found fill h => ?_) filling (.initial ..)
    rw [List.getElem?_zipIdx, Option.map_eq_some_iff] at found
    obtain ⟨deck, found, rfl⟩ := found
    rw [Nat.zero_add] at fill
    exact h.fill (config.order_of_deck generator found) (decked ▸ lt_of_deck found) fill
  rw [List.length_zipIdx, ← config.length_orders] at laid
  have seats : filled.seats.length = decks.length := by
    rw [seats, List.length_range, playerCount, players_of_furniture laid.furniture, decked]
    exact List.length_map _ |>.trans List.length_range
  have opened : Opened config catalog (config.orders generator decks) filled.seats.length dealt := by
    refine Outcome.foldlM_counts (P := Opened config catalog (config.orders generator decks))
      (fun done seat s t listed draw h => ?_) drawing
      (.of_laid (config.length_orders.trans decked) laid)
    obtain ⟨below, same⟩ := List.getElem?_eq_some_iff.mp listed
    obtain rfl : done = seat := (List.getElem_range _).symm.trans same
    rw [seats] at below
    exact h.draw (config.order_of_deck generator (List.getElem?_eq_getElem below)) (decked ▸ below) draw
  rw [seats] at opened
  exact opened.derive

/-- Whatever a generator makes of a deck is dealt to its seat. -/
theorem opening_start (started : start config catalog registry decks generator = .ok m)
    {seat : Seat} {deck : List DefinitionId} (found : decks[seat]? = some deck) :
    ∃ p, m.state.player? seat = some p ∧
      Opening config catalog seat (config.libraryOrder generator seat deck)
        (firstNumber (config.orders generator decks) seat) p.zones m.state := by
  have opened := opened_start started
  obtain ⟨⟨-, decked⟩, filled, filling, -⟩ := start_eq_ok_iff.mp started
  have below := lt_of_deck found
  have seated := opened.seated (decked ▸ below)
  have ordered := config.order_of_deck generator found
  have numbers := opened.piles seat _ ordered
  have cards := opened.identities seat _ ordered
  rw [← numbers] at cards
  refine ⟨_, seated, {
    numbers := numbers
    cards := cards
    definitions := fun keyed => ?definitions
    hand := (opened.hands seat _ ordered).trans (if_pos below)
    others := fun zone own notLibrary notHand => ?others }⟩
  case definitions =>
    calc
      _ = ((m.state.pile (.ofSeat seat)).map m.state.identity).map (Option.map (·.1.id)) := by
        rw [List.map_map]
        rfl
      _ = (config.libraryOrder generator seat deck).map fun id =>
          (catalog.get? id).map (·.id) := by
        rw [cards, List.map_map]
        exact List.map_congr_left fun id _ => Option.map_map ..
      _ = (config.libraryOrder generator seat deck).map some := by
        refine List.map_congr_left fun id member => ?_
        obtain ⟨place, drawn⟩ := List.mem_iff_getElem?.mp member
        obtain ⟨-, d, -, known, -⟩ := made_of_fills decked filling found drawn
        rw [known, Option.map_some, keyed id d known]
  case others =>
    obtain ⟨-, -, graveyard, exile, battlefield⟩ := opened.orderly.kindOfZone?_player seated
    simp only [PlayerZones.all, List.mem_cons, List.not_mem_nil, or_false] at own
    rcases own with rfl | rfl | rfl | rfl | rfl
    · exact absurd rfl notHand
    · exact absurd rfl notLibrary
    · exact opened.empty_of_kind graveyard (by decide) (by decide)
    · exact opened.empty_of_kind exile (by decide) (by decide)
    · exact opened.empty_of_kind battlefield (by decide) (by decide)

/-- With a generator that permutes, a deal succeeds exactly if there are two to eight seats, one deck
    for each, and all cards are known and can be built. Then the cards of a seat, numbered one after the
    other, are those of its deck, and the top ones are its hand. -/
theorem start_deals_decks (config : Config) (catalog : Catalog) (registry : Registry)
    (decks : List (List DefinitionId)) (generator : Generator) (permutes : generator.Permutes) :
    ((∃ m, start config catalog registry decks generator = .ok m) ↔
        ((2 ≤ config.playerCount ∧ config.playerCount ≤ 8) ∧ decks.length = config.playerCount) ∧
          (∀ deck ∈ decks, ∀ id ∈ deck, catalog.contains id = true) ∧
          config.AllBuilt generator catalog registry decks) ∧
      (registry.Steady →
        ((∃ m, start config catalog registry decks generator = .ok m) ↔
          ((2 ≤ config.playerCount ∧ config.playerCount ≤ 8) ∧ decks.length = config.playerCount) ∧
            ∀ deck ∈ decks, ∀ id ∈ deck,
              ∃ d, catalog.get? id = some d ∧ ∀ a ∈ d.abilities, registry.Accepts a)) ∧
      ∀ m, start config catalog registry decks generator = .ok m →
        (∀ seat deck, decks[seat]? = some deck →
          (config.libraryOrder generator seat deck).Perm deck ∧
          (config.shuffleLibraries = false → config.libraryOrder generator seat deck = deck) ∧
          ∃ p, m.state.player? seat = some p ∧
            (m.state.contents p.zones.hand).length = min config.openingHandSize deck.length ∧
            Opening config catalog seat (config.libraryOrder generator seat deck)
              (firstNumber decks seat) p.zones m.state) ∧
        m.state.stack = [] ∧
        ∀ id, (m.state.card? id).isSome ↔ 1 ≤ id ∧ id ≤ (decks.map List.length).sum := by
  refine ⟨start_total_iff permutes, start_total_iff_of_steady permutes, fun m started => ?_⟩
  have opened := opened_start started
  have first := config.firstNumber_orders permutes decks
  refine ⟨fun seat deck found => ?seats, ?_, fun id => ?_⟩
  case seats =>
    have shuffled := config.libraryOrder_perm permutes seat deck
    obtain ⟨p, seated, opening⟩ := opening_start started found
    refine ⟨shuffled, fun off => by rw [Config.libraryOrder, off]; rfl, p, seated, ?_, first ▸ opening⟩
    rw [opening.hand, shuffled.length_eq]
  · exact opened.empty_of_kind opened.orderly.stack (by decide) (by decide)
  · have numbers := opened.numbers id
    rw [first, config.length_orders, State.identity, Option.isSome_map, firstNumber,
      List.take_length, Nat.lt_one_add_iff] at numbers
    exact numbers

/-- A machine that destroys creatures, and a creature. -/
def arena : Catalog :=
  let crusher : Definition :=
    { id := 0, name := "Crusher", types := [.artifact],
      abilities := [⟨"activated_destroy", .empty⟩] }
  ⟨Table.ofList [(0, crusher), (1, .creature 1 "Bear" 2 2)]⟩

theorem keyed_arena : arena.Keyed := by
  intro id d found
  have listed := Table.mem_of_get?_ofList found
  simp only [List.mem_cons, Prod.mk.injEq, List.not_mem_nil, or_false] at listed
  obtain ⟨rfl, rfl⟩ | ⟨rfl, rfl⟩ := listed <;> rfl

/-- The first player draws two of three cards, the second one has only one. -/
theorem start_deals_decks_arena :
    Generator.chacha.Permutes ∧
    ∃ m p, start { openingHandSize := 2, shuffleLibraries := false } arena .builtin [[0, 1, 1], [1]]
        .chacha = .ok m ∧ m.state.player? 0 = some p ∧
      Registry.builtin.Accepts ⟨"activated_destroy", .empty⟩ ∧
      m.state.pile p.zones = [1, 2, 3] ∧
      (m.state.pile p.zones).map (fun id => (m.state.identity id).map (·.1.id)) =
        [some 0, some 1, some 1] ∧
      (m.state.contents p.zones.hand).length = 2 ∧
      m.state.stack = [] ∧ ∀ id, (m.state.card? id).isSome ↔ 1 ≤ id ∧ id ≤ 4 := by
  have dealt : (start { openingHandSize := 2, shuffleLibraries := false } arena .builtin
      [[0, 1, 1], [1]]).isOk = true := by decide +kernel
  obtain ⟨m, started⟩ := Outcome.isOk_iff.mp dealt
  obtain ⟨-, steady, opens⟩ := start_deals_decks
    { openingHandSize := 2, shuffleLibraries := false } arena .builtin [[0, 1, 1], [1]] .chacha
    Generator.permutes_chacha
  obtain ⟨-, accepted⟩ := (steady Registry.steady_builtin).mp ⟨m, started⟩
  obtain ⟨d, known, abilities⟩ := accepted [0, 1, 1] (by simp) 0 (by simp)
  have crusher : arena.get? 0 = some d := known
  obtain ⟨seats, stack, numbers⟩ := opens m started
  obtain ⟨-, order, p, seated, hand, opening⟩ := seats 0 [0, 1, 1] rfl
  have order := order rfl
  have pile := opening.numbers
  have definitions := opening.definitions keyed_arena
  rw [order] at pile definitions
  refine ⟨Generator.permutes_chacha, m, p, started, seated, ?_, pile, definitions, hand, stack,
    numbers⟩
  cases crusher
  exact abilities _ List.mem_cons_self

end Match

end CardGame
