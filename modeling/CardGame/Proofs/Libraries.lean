import CardGame.Proofs.Dealing

/-! # The libraries of a deal

The cards of a deal are numbered without gaps, seat by seat. Those of one seat lie on its library, in
the order in which its deck has been put, and nothing lies anywhere else.
-/

namespace CardGame

/-- The number of the first card of a seat. -/
def firstNumber (decks : List (List DefinitionId)) (seat : Seat) : CardId :=
  1 + ((decks.take seat).map List.length).sum

/-- Two runs of numbers, the one following the other, are one run. -/
theorem between_iff {low mid high id : Nat} (start : low ≤ mid) (stop : mid ≤ high) :
    low ≤ id ∧ id < mid ∨ mid ≤ id ∧ id < high ↔ low ≤ id ∧ id < high := by
  omega

namespace PlayerZones

/-- Seats share no libraries, and no hands. -/
theorem library_inj {seat other : Seat} :
    (ofSeat seat).library = (ofSeat other).library ↔ seat = other := by
  show count * seat + 1 = count * other + 1 ↔ seat = other
  rw [Nat.add_right_cancel_iff, Nat.mul_right_inj (by decide)]

theorem hand_inj {seat other : Seat} : (ofSeat seat).hand = (ofSeat other).hand ↔ seat = other := by
  show count * seat = count * other ↔ seat = other
  rw [Nat.mul_right_inj (by decide)]

theorem library_ne_hand (seat other : Nat) : (ofSeat seat).library ≠ (ofSeat other).hand := by
  have apart : count * seat + 1 ≠ count * other := by
    rw [count]
    omega
  exact apart

end PlayerZones

section FirstNumber

variable {decks : List (List DefinitionId)} {seat : Seat} {deck : List DefinitionId}

theorem firstNumber_succ (found : decks[seat]? = some deck) :
    firstNumber decks (seat + 1) = firstNumber decks seat + deck.length := by
  rw [firstNumber, List.take_add_one, found, Option.toList_some, List.map_append, List.sum_append,
    ← Nat.add_assoc]
  rfl

theorem firstNumber_pos : 1 ≤ firstNumber decks seat := Nat.le_add_right 1 _

theorem firstNumber_le {later : Seat} (before : seat ≤ later) :
    firstNumber decks seat ≤ firstNumber decks later := by
  obtain ⟨more, rfl⟩ := Nat.exists_eq_add_of_le before
  rw [firstNumber, firstNumber, List.take_add, List.map_append, List.sum_append]
  exact Nat.add_le_add_left (Nat.le_add_right _ _) 1

end FirstNumber

namespace State

variable {config : Config} {catalog : Catalog} {registry : Registry} {s t u : State} {seat : Seat}
  {p : Player} {n : Nat}

/-- What stays when cards are created and drawn: the players, the kinds of the zones, and which of them
    is the stack. -/
def furniture (s : State) : List Player × (ZoneId → Option ZoneKind) × ZoneId :=
  (s.players, s.kindOfZone?, s.stackZone)

section Furniture

variable (same : t.furniture = s.furniture)
include same

theorem players_of_furniture : t.players = s.players := congrArg Prod.fst same

theorem player?_of_furniture (seat : Seat) : t.player? seat = s.player? seat :=
  player?_of_players (players_of_furniture same) seat

theorem kindOfZone?_of_furniture : t.kindOfZone? = s.kindOfZone? := congrArg (·.2.1) same

end Furniture

theorem furniture_withCard (s : State) (c : Card) (n : AbilityId) :
    (s.withCard c n).furniture = s.furniture := by
  rw [furniture, funext (kindOfZone?_withCard c n)]
  rfl

theorem furniture_relocate (s : State) (id : CardId) (source : ZoneId) (c : Card) :
    (s.relocate id source c).furniture = s.furniture := by
  rw [furniture, funext (kindOfZone?_relocate s id source c)]
  rfl

theorem furniture_derive (s : State) : s.derive.furniture = s.furniture := by
  have layout := layout_derive s
  rw [furniture, players_derive, funext (kindOfZone?_congr layout), stackZone_congr layout]
  rfl

/-- New cards of a seat are on top of the library, in this order. -/
structure Filled (catalog : Catalog) (seat : Seat) (library : ZoneId) (order : List DefinitionId)
    (s t : State) : Prop where
  furniture : t.furniture = s.furniture
  next : t.nextCard = s.nextCard + order.length
  contents : ∀ zone, t.contents zone =
    s.contents zone ++ if zone = library then List.range' s.nextCard order.length else []
  identities : (List.range' s.nextCard order.length).map t.identity =
    order.map fun id => (catalog.get? id).map (·, seat)
  old : ∀ id < s.nextCard, t.identity id = s.identity id
  numbers : ∀ id, (t.identity id).isSome ↔
    (s.identity id).isSome ∨ s.nextCard ≤ id ∧ id < t.nextCard

theorem identity_withCard (s : State) (c : Card) (n : AbilityId) (id : CardId) :
    (s.withCard c n).identity id =
      if id = s.nextCard then some (c.definition, c.owner) else s.identity id := by
  have lookUp : (s.withCard c n).card? id = if id = s.nextCard then some c else s.card? id :=
    Table.get?_insert s.cards s.nextCard c id
  rw [identity, lookUp]
  split <;> rfl

theorem filled_putOn (known : (s.kindOfZone? p.zones.library).isSome) {id : DefinitionId}
    (put : putOn catalog registry seat p.zones.library s id = .ok t) :
    Filled catalog seat p.zones.library [id] s t := by
  obtain ⟨d, found, put⟩ := Outcome.bind_eq_ok.mp put
  obtain ⟨⟨next, card⟩, created, put⟩ := Outcome.bind_eq_ok.mp put
  cases put
  obtain ⟨abilities, n, rfl, -⟩ := create_eq_ok created
  have found : catalog.get? id = some d := Outcome.find_eq_ok.mp found
  refine ⟨furniture_withCard s _ n, rfl, fun zone => contents_withCard _ n known zone, ?_, ?_, ?_⟩
  · show [(s.withCard _ n).identity s.nextCard] = [(catalog.get? id).map (·, seat)]
    rw [identity_withCard, if_pos rfl, found]
    rfl
  · intro id less
    rw [identity_withCard, if_neg (Nat.ne_of_lt less)]
  · intro id
    rw [identity_withCard]
    have next : id = s.nextCard ↔ s.nextCard ≤ id ∧ id < s.nextCard + 1 := by
      rw [Nat.lt_succ_iff, ← Nat.le_antisymm_iff, eq_comm]
    split
    · rename_i same
      exact iff_of_true rfl (.inr (next.mp same))
    · rename_i other
      exact (or_iff_left fun new => other (next.mpr new)).symm

theorem Filled.append {library : ZoneId} {first rest : List DefinitionId}
    (now : Filled catalog seat library first s t) (later : Filled catalog seat library rest t u) :
    Filled catalog seat library (first ++ rest) s u where
  furniture := later.furniture.trans now.furniture
  next := by rw [later.next, now.next, List.length_append, Nat.add_assoc]
  contents zone := by
    rw [later.contents, now.contents, now.next, List.length_append, List.append_assoc]
    split
    · rw [List.range'_append_1]
    · rfl
  identities := by
    rw [List.length_append, ← List.range'_append_1, List.map_append, List.map_append,
      ← later.identities, ← now.identities, now.next]
    congr 1
    refine List.map_congr_left fun id member => later.old id ?_
    rw [now.next]
    exact (List.mem_range'_1.mp member).2
  old id less := by
    rw [later.old id (now.next ▸ Nat.lt_add_right _ less), now.old id less]
  numbers id := by
    rw [later.numbers, now.numbers, or_assoc, between_iff (now.next ▸ Nat.le_add_right _ _)
      (later.next ▸ Nat.le_add_right _ _)]

theorem Filled.refl (s : State) (library : ZoneId) : Filled catalog seat library [] s s where
  furniture := rfl
  next := rfl
  contents zone := by rw [List.length_nil, List.range'_zero, ite_self, List.append_nil]
  identities := rfl
  old _ _ := rfl
  numbers id := (or_iff_left fun none => Nat.not_le_of_lt none.2 none.1).symm

theorem filled_fillLibrary (seated : s.player? seat = some p)
    (library : (s.kindOfZone? p.zones.library).isSome) {order : List DefinitionId}
    (filled : s.fillLibrary catalog registry seat order = .ok t) :
    Filled catalog seat p.zones.library order s t := by
  rw [fillLibrary_eq seated] at filled
  induction order generalizing s with
  | nil =>
      cases filled
      exact .refl _ _
  | cons id rest ih =>
      obtain ⟨mid, put, filled⟩ := Outcome.bind_eq_ok.mp filled
      have first := filled_putOn library put
      refine first.append (ih ((player?_of_furniture first.furniture seat).trans seated) ?_ filled)
      rw [kindOfZone?_of_furniture first.furniture]
      exact library

end State

open State

/-- The first decks of a deal, put in order, lie on the libraries of their seats, and nothing lies
    anywhere else. -/
structure Laid (config : Config) (catalog : Catalog) (orders : List (List DefinitionId))
    (done : Nat) (s : State) : Prop where
  dealt : s.Dealt
  furniture : s.furniture = (State.initial config.playerCount config.startingLife).furniture
  next : s.nextCard = firstNumber orders done
  libraries : ∀ seat order, orders[seat]? = some order →
    s.contents (PlayerZones.ofSeat seat).library =
      if seat < done then List.range' (firstNumber orders seat) order.length else []
  identities : ∀ seat order, orders[seat]? = some order → seat < done →
    (List.range' (firstNumber orders seat) order.length).map s.identity =
      order.map fun id => (catalog.get? id).map (·, seat)
  others : ∀ zone, s.kindOfZone? zone ≠ some .library → s.contents zone = []
  numbers : ∀ id, (s.identity id).isSome ↔ 1 ≤ id ∧ id < s.nextCard

namespace Laid

variable {config : Config} {catalog : Catalog} {registry : Registry}
  {orders : List (List DefinitionId)} {order : List DefinitionId} {done : Nat} {s t : State}

theorem seated (h : Laid config catalog orders done s) {seat : Seat}
    (below : seat < config.playerCount) :
    s.player? seat = some (.initial seat config.startingLife) :=
  (player?_of_furniture h.furniture seat).trans (player?_initial_of_lt below)

theorem initial (config : Config) (catalog : Catalog) (orders : List (List DefinitionId)) :
    Laid config catalog orders 0 (.initial config.playerCount config.startingLife) where
  dealt := initial_dealt _ _
  furniture := rfl
  next := rfl
  libraries _ _ _ := contents_initial _
  identities _ _ _ none := absurd none (Nat.not_lt_zero _)
  others zone _ := contents_initial zone
  numbers _ := iff_of_false nofun fun some => Nat.not_le_of_lt some.2 some.1

/-- The next deck goes onto the next library. -/
theorem fill (h : Laid config catalog orders done s) (found : orders[done]? = some order)
    (below : done < config.playerCount)
    (filled : s.fillLibrary catalog registry done order = .ok t) :
    Laid config catalog orders (done + 1) t := by
  have seated := h.seated below
  have library := h.dealt.library seated
  have laid : Filled catalog done (PlayerZones.ofSeat done).library order s t :=
    filled_fillLibrary seated (Option.isSome_iff_exists.mpr ⟨_, library⟩) filled
  have next : t.nextCard = firstNumber orders (done + 1) := by
    rw [laid.next, h.next, firstNumber_succ found]
  refine {
    dealt := (h.dealt.of_fillLibrary filled).1
    furniture := laid.furniture.trans h.furniture
    next := next
    libraries := fun seat other listed => ?libraries
    identities := fun seat other listed less => ?identities
    others := fun zone kind => ?others
    numbers := fun id => ?numbers }
  case libraries =>
    rw [laid.contents, h.libraries seat other listed, h.next]
    by_cases same : seat = done
    · subst same
      cases found.symm.trans listed
      rw [if_neg (Nat.lt_irrefl _), if_pos rfl, if_pos (Nat.lt_succ_self _), List.nil_append]
    · rw [if_neg (mt PlayerZones.library_inj.mp same), List.append_nil]
      exact if_congr (Nat.lt_succ_iff_lt_or_eq.trans (or_iff_left same)).symm rfl rfl
  case identities =>
    rcases Nat.lt_succ_iff_lt_or_eq.mp less with before | rfl
    · rw [← h.identities seat other listed before]
      refine List.map_congr_left fun id member => laid.old id ?_
      calc
        id < firstNumber orders seat + other.length := (List.mem_range'_1.mp member).2
        _ = firstNumber orders (seat + 1) := (firstNumber_succ listed).symm
        _ ≤ firstNumber orders done := firstNumber_le before
        _ = s.nextCard := h.next.symm
    · cases found.symm.trans listed
      rw [← laid.identities, h.next]
  case others =>
    rw [kindOfZone?_of_furniture laid.furniture] at kind
    rw [laid.contents, h.others zone kind, if_neg ?_, List.append_nil]
    rintro rfl
    exact kind library
  case numbers =>
    rw [laid.numbers, h.numbers]
    exact between_iff (h.next ▸ firstNumber_pos) (laid.next ▸ Nat.le_add_right _ _)

end Laid

end CardGame
