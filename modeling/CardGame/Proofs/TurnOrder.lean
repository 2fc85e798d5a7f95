import CardGame.Proofs.LandDrops
import CardGame.Proofs.Totality

/-! # The order of the turns

A game stands at a moment of the turn's order, in a turn of the seat that is due. The active player takes
it on to the next moment, and from the last one to the turn of the next seat, and has priority there,
with all pools empty.
-/

namespace CardGame

/-- Every moment of a turn has a place in the order, and the moment after it has the next place. -/
theorem Moment.place {m : Moment} (ordered : m ∈ sequence) :
    ∃ i < sequence.length, sequence[i]? = some m ∧ m.next? = sequence[i + 1]? ∧
      m.position?.isSome := by
  revert m
  decide

/-- In a game of `n` players the later date is the next one: of the next moment of the turn, or of the
    first moment of the next seat's turn. -/
def Date.Next (n : Nat) (now later : Date) : Prop :=
  ∃ i, Moment.sequence[i]? = some now.moment ∧
    (Moment.sequence[i + 1]? = some later.moment ∧ later.turn = now.turn ∧
        later.activePlayer = now.activePlayer ∨
      i + 1 = Moment.sequence.length ∧ later.moment = .first ∧ later.turn = now.turn + 1 ∧
        later.activePlayer = (now.activePlayer + 1) % n)

namespace State

variable {config : Config} {s t : State} {events : List Event} {n : Nat}

theorem next_advance (few : n ≤ Seat.limit) (regular : s.tempo.Regular n) :
    s.date.Next n s.advance.date := by
  have ordered : s.moment ∈ Moment.sequence := regular.moment
  obtain ⟨i, below, here, next, known⟩ := Moment.place ordered
  refine ⟨i, here, ?_⟩
  cases found : s.moment.next? with
  | some moment =>
      have same : s.advance = { s with moment := moment } := by rw [advance, found]
      rw [same]
      exact .inl ⟨next.symm.trans found, rfl, rfl⟩
  | none =>
      have same : s.advance = s.nextTurn := by rw [advance, found, if_pos known]
      have last : Moment.sequence.length ≤ i + 1 := List.getElem?_eq_none_iff.mp (next ▸ found)
      have seats : s.playerCount = n := regular.seats
      have some : 0 < s.playerCount := seats ▸ Nat.zero_lt_of_lt regular.active
      rw [same, ← seats]
      exact .inr ⟨by omega, rfl, rfl, nextSeat_eq some (seats ▸ few) s.activePlayer⟩

/-- At the end of a moment the pools are emptied, and no built-in ability that triggers then makes
    mana. -/
theorem pools_endMoment {player : Seat} (orderly : s.Orderly) (derived : s.derive = s)
    (equipped : s.Equipped .builtin)
    (performed : s.perform config ((Transform.endMoment player).run config) = .ok (t, events)) :
    ∀ p ∈ t.players, p.mana = .empty := by
  obtain ⟨after, run, settled⟩ := Outcome.bind_eq_ok.mp performed
  obtain ⟨trace, course, -⟩ := Transform.leads derived orderly run
  obtain ⟨-, -, begun, begins, rfl⟩ := endMoment_eq_ok.mp run
  have ended : begun.kept Player.mana = s.strip.advance.emptyPools.kept Player.mana :=
    kept_beginMoment (fun _ _ _ => rfl) (fun _ _ _ => rfl) begins
  have ripples : Ripples Player.mana begun.giveActivePriority t :=
    ripples_settle (fun _ _ _ => rfl) (course.orderly orderly).keyed
      (.of_builtin (equipped.of_kit course.kit)) settled
  have mana : t.kept Player.mana = s.strip.advance.emptyPools.kept Player.mana :=
    ripples.kept.trans ended
  intro p seated
  have member : p.mana ∈ s.strip.advance.emptyPools.kept Player.mana :=
    mana ▸ List.mem_map_of_mem seated
  rw [kept, emptyPools, List.map_map] at member
  obtain ⟨_, -, empty⟩ := List.mem_map.mp member
  exact empty.symm

/-- The game goes on to the next date. The active player has priority, and all pools are empty. -/
structure Advances (n : Nat) (s t : State) : Prop where
  date : s.date.Next n t.date
  priority : t.priorityPlayer = t.activePlayer
  pools : ∀ p ∈ t.players, p.mana = .empty

/-- In a game of `n` players the turn is that of the seat that is due and stands at one of its moments,
    somebody with a seat has priority, and no more lands have been played than are allowed. -/
structure InTurn (n : Nat) (s : State) : Prop where
  moment : s.moment ∈ Moment.sequence
  first : 1 ≤ s.turn
  active : s.activePlayer = (s.turn - 1) % n
  priority : (s.player? s.priorityPlayer).isSome
  lands : s.Allotted

end State

namespace Match

variable {config : Config} {generator : Generator} {catalog : Catalog} {registry : Registry}
  {decks : List (List DefinitionId)} {m : Match}

theorem inTurn_run (started : start config catalog registry decks generator = .ok m)
    (commands : List Command) : (m.run commands).state.InTurn config.playerCount := by
  have dated := dated_run started commands
  have allotted := (Lasting.run (lasting_allotted (few_players started)) started
    ⟨regular_start started, allotted_start started⟩ commands).2
  have seated := (State.seated_of_regular dated.regular).priority
  refine ⟨dated.regular.moment, dated.first, dated.active, ?_, allotted⟩
  exact Option.isSome_iff_exists.mpr (State.player?_of_lt seated)

theorem advances_call (started : start config catalog .builtin decks generator = .ok m)
    {commands : List Command} {player : Seat} {next : Match} {events : List Event}
    (called : (m.run commands).call (.act player .advanceStep) = .ok (next, events)) :
    State.Advances config.playerCount (m.run commands).state next.state := by
  obtain ⟨orderly, derived, -⟩ := ((kept_start started).run commands).present
  have performed : (m.run commands).state.perform (m.run commands).config
      ((Transform.endMoment player).run (m.run commands).config) = .ok (next.state, events) :=
    perform_of_call rfl called
  obtain ⟨-, -, date, priority⟩ := State.perform_endMoment performed
  have equipped := equipped_run started commands
  refine ⟨?_, priority, State.pools_endMoment orderly derived equipped performed⟩
  rw [date]
  exact State.next_advance (few_players started).le (regular_run started commands)

/-- Along every run from a deal the turns go round the seats, and each goes through its moments, from
    one to the next. As long as nothing is undone, lands are played in turns that follow each other. -/
theorem turns_in_order (config : Config) {generator : Generator} (catalog : Catalog)
    (decks : List (List DefinitionId)) (m : Match) (commands : List Command)
    (started : start config catalog .builtin decks generator = .ok m) :
    (m.run commands).state.InTurn config.playerCount ∧
      (∀ operations, ((m.run commands).landTurns operations).Pairwise (· < ·)) ∧
      ∀ player next events,
        (m.run commands).call (.act player .advanceStep) = .ok (next, events) →
          State.Advances config.playerCount (m.run commands).state next.state :=
  ⟨inTurn_run started commands,
    fun operations =>
      (landTurns_increase (few_players started) (regular_run started commands) operations).1,
    fun _ _ _ called => advances_call started called⟩

/-- A land in the first turn, where the active player cannot play another, and one in the second. -/
def twoLands : List Operation :=
  [.act 0 (.playLand 1), .act 0 (.playLand 1), .act 0 .advanceTurn] ++
    List.replicate 3 (.act 1 .advanceStep) ++ [.act 1 (.playLand 2)]

theorem turns_in_order_mayflies :
    ∃ m next, mayflies = .ok m ∧ (m.run (toMain.map .call)).state.InTurn 2 ∧
      (m.run (toMain.map .call)).landTurns twoLands = [1, 2] ∧
      ((m.run (toMain.map .call)).landTurns twoLands).Pairwise (· < ·) ∧
      (m.run (toMain.map .call)).call (.act 0 .advanceStep) = .ok (next, []) ∧
      State.Advances 2 (m.run (toMain.map .call)).state next.state := by
  have played : (do
      let m ← mayflies
      let answer ← (m.run (toMain.map .call)).call (.act 0 .advanceStep)
      .ok ((m.run (toMain.map .call)).landTurns twoLands, answer.2) :
        Outcome (List Nat × List Event)) = .ok ([1, 2], []) := by decide +kernel
  obtain ⟨m, started, played⟩ := Outcome.bind_eq_ok.mp played
  obtain ⟨⟨next, events⟩, called, same⟩ := Outcome.bind_eq_ok.mp played
  obtain ⟨lands, rfl⟩ := Prod.mk.inj (Except.ok.inj same)
  obtain ⟨inTurn, increase, advances⟩ := turns_in_order _ _ _ m (toMain.map .call) started
  exact ⟨m, next, started, inTurn, lands, increase twoLands, called, advances 0 next [] called⟩

end Match

end CardGame
