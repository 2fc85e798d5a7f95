import CardGame.Proofs.Arrivals
import CardGame.Proofs.Keeping

/-! # One land a turn

Only the active player plays lands, in a main phase, and only if the count of lands for the turn is
still zero. The counts of all players go back to zero where a turn begins, and nowhere else. So nobody
plays two lands in one turn, and the turns in which lands are played follow each other.
-/

namespace CardGame

namespace State

variable {config : Config} {s t : State} {events : List Event} {n : Nat}

/-- The lands that a seat has played in the turn. -/
def landsOf (s : State) (seat : Seat) : Nat := ((s.player? seat).map (·.landsPlayed)).getD 0

theorem landsOf_of_player? {seat : Seat} {p : Player} (seated : s.player? seat = some p) :
    s.landsOf seat = p.landsPlayed := by
  rw [landsOf, seated]
  rfl

theorem landsOf_of_kept (same : t.kept Player.landsPlayed = s.kept Player.landsPlayed) :
    t.landsOf = s.landsOf := by
  funext seat
  have counts := congrArg (fun l : List Nat => l[seat]?) same
  simp only [kept, List.getElem?_map] at counts
  rw [landsOf, landsOf, player?, player?, counts]

theorem landsOf_updateSeats (few : s.playerCount < Seat.limit) (seat : Seat) :
    (s.updateSeats fun p => { p with landsPlayed := 0 }).landsOf seat = 0 := by
  rw [landsOf, player?_updateSeats]
  cases found : s.player? seat with
  | none => rfl
  | some p =>
      have present := (mem_seats few).mpr (List.getElem?_eq_some_iff.mp found).choose
      rw [Option.map_some, if_pos present]
      rfl

theorem landsOf_untapStep (few : s.playerCount < Seat.limit) (untapped : s.untapStep = .ok t)
    (seat : Seat) : t.landsOf seat = 0 := by
  obtain ⟨ready, changed, untapped⟩ := Outcome.bind_eq_ok.mp untapped
  cases untapped
  have seats : ready.playerCount = s.playerCount := playerCount_of_tempo (tempo_changeCards changed)
  exact landsOf_updateSeats (seats ▸ few) seat

theorem landsOf_updatePlayer (s : State) (seat : Seat) (f : Player → Player) (other : Seat) :
    (s.updatePlayer seat f).landsOf other =
      if other = seat then ((s.player? seat).map fun p => (f p).landsPlayed).getD 0
      else s.landsOf other := by
  simp only [landsOf, player?, updatePlayer, List.getElem?_modify]
  by_cases same : other = seat
  · simp [same, Function.comp_def]
  · simp [same, Ne.symm same]

/-- A land is played by the active player in a main phase, as the first one of the turn. -/
structure Drops (player : Seat) (s t : State) : Prop where
  active : player = s.activePlayer
  main : s.moment.phase.isMain = true
  first : s.landsOf player = 0
  counted : ∀ seat, t.landsOf seat = if seat = player then 1 else s.landsOf seat
  date : t.date = s.date

theorem drops_playLand {player : Seat} {id : CardId} (h : s.playLand player id = .ok t) :
    Drops player s t := by
  have date : t.date = s.date := (date_of_tempo (tempo_playLand h)).trans rfl
  simp only [playLand, checkLand, Outcome.bind_eq_ok, Outcome.require_eq_ok,
    requireSorceryTiming_eq_ok, player_eq_ok, decide_eq_true_eq] at h
  obtain ⟨-, ⟨-, -, -, ⟨active, main, -⟩, c, -, -, -, p, seated, first⟩, next, entered, h⟩ := h
  cases h
  refine ⟨active, main, (landsOf_of_player? seated).trans first, fun seat => ?_, date⟩
  obtain ⟨c, q, source, kind, -, -, -, -, rfl⟩ := enter_eq_ok entered
  refine (landsOf_updatePlayer _ player _ seat).trans ?_
  rw [player?_relocate, seated, Option.map_some, Option.getD_some, first]
  rfl

/-- The later state is of the same turn, and past its beginning if the earlier one is. -/
structure SameTurn (s t : State) : Prop where
  turn : t.turn = s.turn
  active : t.activePlayer = s.activePlayer
  early : t.moment.phase = .beginning → s.moment.phase = .beginning

theorem SameTurn.of_date (same : t.date = s.date) : SameTurn s t where
  turn := congrArg Date.turn same
  active := congrArg Date.activePlayer same
  early := fun early => (congrArg (fun d : Date => d.moment.phase) same).symm.trans early

theorem SameTurn.trans {u : State} (first : SameTurn s t) (rest : SameTurn t u) : SameTurn s u where
  turn := rest.turn.trans first.turn
  active := rest.active.trans first.active
  early := first.early ∘ rest.early

/-- The counts of lands are what they were, or a turn has begun and they are all zero. -/
def Recounts (s t : State) : Prop :=
  SameTurn s t ∧ t.landsOf = s.landsOf ∨ t.turn = s.turn + 1 ∧ ∀ seat, t.landsOf seat = 0

theorem Recounts.trans {u : State} (same : t.turn = s.turn) (first : Recounts s t)
    (rest : Recounts t u) : Recounts s u := by
  obtain ⟨now, counts⟩ | ⟨later, -⟩ := first
  · obtain ⟨still, counts'⟩ | ⟨later, none⟩ := rest
    · exact .inl ⟨now.trans still, counts'.trans counts⟩
    · exact .inr ⟨now.turn ▸ later, none⟩
  · omega

/-- What follows in a turn upon a moment past its beginning is past it too. -/
theorem beginning_of_next {m next : Moment} (ordered : m ∈ Moment.sequence)
    (member : next ∈ Moment.sequence) (less : next.left + 1 = m.left)
    (early : next.phase = .beginning) : m.phase = .beginning := by
  have all : ∀ m ∈ Moment.sequence, ∀ next ∈ Moment.sequence, next.left + 1 = m.left →
      next.phase = .beginning → m.phase = .beginning := by decide
  exact all m ordered next member less early

theorem recounts_endMoment {player : Seat} (few : s.playerCount < Seat.limit)
    (ordered : s.moment ∈ Moment.sequence) (ended : s.endMoment config player = .ok t) : Recounts s t := by
  have date := date_endMoment ended
  obtain ⟨-, -, begun, begins, rfl⟩ := endMoment_eq_ok.mp ended
  obtain ⟨next, member, advanced, less⟩ | ⟨advanced, -⟩ := advance_cases ordered
  · rw [advanced] at begins date
    have later : next.step ≠ some .untap := by
      refine step_ne_untap member ?_
      have := s.moment.left_le
      omega
    have kept : begun.kept Player.landsPlayed = _ :=
      kept_beginMoment (fun _ _ _ => rfl) (fun untap => absurd untap later) begins
    have moment : begun.giveActivePriority.moment = next := congrArg Date.moment date
    refine .inl ⟨⟨congrArg Date.turn date, congrArg Date.activePlayer date, fun early => ?_⟩,
      landsOf_of_kept (kept.trans (kept_mapPlayers s fun _ => rfl))⟩
    exact beginning_of_next ordered member less (moment ▸ early)
  · rw [advanced] at begins date
    have seats : s.nextTurn.emptyPools.playerCount = s.playerCount := List.length_map _
    have none := landsOf_untapStep (seats ▸ few) begins
    exact .inr ⟨congrArg Date.turn date, none⟩

/-- Settling changes neither the date nor the counts. -/
theorem lands_settle {rounds : Nat} {before after : State}
    (settled : settle rounds before after = .ok (t, events)) :
    t.date = after.date ∧ t.landsOf = after.landsOf :=
  ⟨date_of_tempo (tempo_settle settled),
    landsOf_of_kept (kept_settle (fun _ _ _ => rfl) (fun _ _ => rfl) settled)⟩

theorem recounts_perform {transform : Transform} (few : s.playerCount < Seat.limit)
    (ordered : s.moment ∈ Moment.sequence) (noLand : ∀ player card, transform ≠ .playLand player card)
    (performed : s.perform config (transform.run config) = .ok (t, events)) : Recounts s t := by
  obtain ⟨after, run, settled⟩ := Outcome.bind_eq_ok.mp performed
  obtain ⟨date, lands⟩ := lands_settle settled
  have staged : Recounts s.strip after := by
    by_cases ends : ∃ player, transform = .endMoment player
    · obtain ⟨player, rfl⟩ := ends
      exact recounts_endMoment (s := s.strip) few ordered run
    · have kept : after.kept Player.landsPlayed = s.strip.kept Player.landsPlayed :=
        transform.kept (fun _ _ _ => rfl) (fun _ _ => rfl) noLand
          (fun player same => ends ⟨player, same⟩) run
      exact .inl ⟨.of_date ((transform.date_cases run).resolve_right ends), landsOf_of_kept kept⟩
  obtain ⟨now, counts⟩ | ⟨later, none⟩ := staged
  · have now : SameTurn s after := ⟨now.turn, now.active, now.early⟩
    exact .inl ⟨now.trans (.of_date date), lands.trans counts⟩
  · exact .inr ⟨(congrArg Date.turn date).trans later, fun seat => lands ▸ none seat⟩

theorem drops_perform {player : Seat} {card : CardId}
    (performed : s.perform config ((Transform.playLand player card).run config) = .ok (t, events)) :
    Drops player s t := by
  obtain ⟨after, run, settled⟩ := Outcome.bind_eq_ok.mp performed
  obtain ⟨date, lands⟩ := lands_settle settled
  have drops := drops_playLand (s := s.strip) run
  exact ⟨drops.active, drops.main, drops.first, fun seat => lands ▸ drops.counted seat,
    date.trans drops.date⟩

/-- Nobody has played more than one land in the turn, only the active player any, and none before the
    main phase. -/
structure Allotted (s : State) : Prop where
  one : ∀ seat, s.landsOf seat ≤ 1
  others : ∀ seat, seat ≠ s.activePlayer → s.landsOf seat = 0
  early : s.moment.phase = .beginning → ∀ seat, s.landsOf seat = 0

theorem Allotted.of_none (none : ∀ seat, s.landsOf seat = 0) : s.Allotted where
  one seat := none seat ▸ Nat.zero_le 1
  others seat _ := none seat
  early _ := none

theorem Allotted.recounts (h : s.Allotted) (recounts : Recounts s t) : t.Allotted := by
  obtain ⟨now, counts⟩ | ⟨-, none⟩ := recounts
  · refine ⟨fun seat => counts ▸ h.one seat, fun seat other => ?_, fun early seat => ?_⟩ <;> rw [counts]
    · exact h.others seat (now.active ▸ other)
    · exact h.early (now.early early) seat
  · exact .of_none none

theorem Allotted.drops (h : s.Allotted) {player : Seat} (drops : Drops player s t) : t.Allotted := by
  have now := SameTurn.of_date drops.date
  refine ⟨fun seat => ?_, fun seat other => ?_, fun early => ?_⟩
  · rw [drops.counted]
    split
    · exact le_rfl
    · exact h.one seat
  · rw [now.active, ← drops.active] at other
    rw [drops.counted, if_neg other]
    exact h.others seat (drops.active ▸ other)
  · have main := drops.main
    rw [now.early early] at main
    cases main

theorem allotted_perform {transform : Transform} (few : s.playerCount < Seat.limit)
    (ordered : s.moment ∈ Moment.sequence) (h : s.Allotted)
    (performed : s.perform config (transform.run config) = .ok (t, events)) : t.Allotted := by
  by_cases lands : ∃ player card, transform = .playLand player card
  · obtain ⟨player, card, rfl⟩ := lands
    exact h.drops (drops_perform performed)
  · exact h.recounts
      (recounts_perform few ordered (fun player card same => lands ⟨player, card, same⟩) performed)

end State

namespace Match

variable {config : Config} {generator : Generator} {catalog : Catalog} {registry : Registry}
  {decks : List (List DefinitionId)} {m next : Match} {events : List Event} {n : Nat}

theorem lasting_allotted (few : n < Seat.limit) :
    Lasting fun s => s.tempo.Regular n ∧ s.Allotted := by
  intro config s t events transform _ _ h stage
  have few : s.playerCount < Seat.limit := h.1.seats.trans_lt few
  exact ⟨State.regular_perform h.1 stage, State.allotted_perform few h.1.moment h.2 stage⟩

/-- Nobody has played a land at the deal. -/
theorem allotted_start (started : start config catalog registry decks generator = .ok m) :
    m.state.Allotted := by
  refine .of_none fun seat => ?_
  rw [State.landsOf, State.player?, players_start started]
  cases found : (State.initial config.playerCount config.startingLife).players[seat]? with
  | none => rfl
  | some p =>
      obtain ⟨-, rfl⟩ := State.player?_initial found
      rfl

/-- An operation that plays no land leaves the counts or begins a turn. -/
theorem recounts_call {operation : Operation} (few : n < Seat.limit)
    (regular : m.state.tempo.Regular n) (noLand : ∀ player card, operation ≠ .act player (.playLand card))
    (called : m.call operation = .ok (next, events)) : State.Recounts m.state next.state := by
  obtain ⟨⟨transform, one, performed⟩ | ⟨player, -, ended⟩, -⟩ := call_cases called
  · refine State.recounts_perform (regular.seats.trans_lt few) regular.moment
      (fun player card same => ?_) performed
    subst same
    cases operation with
    | act other action =>
        cases action <;> cases one
        exact noLand _ _ rfl
    | declareAttackers => cases one
    | declareBlockers => cases one
    | checkState => cases one
  · refine State.endTurn_relates (P := fun s => s.tempo.Regular n) State.Recounts.trans
      (fun regular stage => ⟨State.regular_perform regular stage, ?_⟩) regular ended
    exact State.recounts_perform (regular.seats.trans_lt few) regular.moment (by nofun) stage

theorem drops_call {player : Seat} {card : CardId}
    (called : m.call (.act player (.playLand card)) = .ok (next, events)) :
    State.Drops player m.state next.state :=
  State.drops_perform (perform_of_call rfl called)

/-- The turns in which operations play lands, one for each land. -/
def landTurns (m : Match) : List Operation → List Nat
  | [] => []
  | operation :: rest =>
    let later := (m.step (.call operation)).landTurns rest
    match operation with
    | .act player (.playLand card) =>
      if (m.call (.act player (.playLand card))).isOk then m.state.turn :: later else later
    | _ => later

theorem landTurns_cons {operation : Operation}
    (noLand : ∀ player card, operation ≠ .act player (.playLand card)) (rest : List Operation) :
    m.landTurns (operation :: rest) = (m.step (.call operation)).landTurns rest := by
  cases operation with
  | act player action =>
      cases action with
      | playLand card => exact absurd rfl (noLand player card)
      | _ => rfl
  | _ => rfl

theorem landTurns_playLand {player : Seat} {card : CardId}
    (called : m.call (.act player (.playLand card)) = .ok (next, events)) (rest : List Operation) :
    m.landTurns (.act player (.playLand card) :: rest) = m.state.turn :: next.landTurns rest := by
  rw [landTurns, step_of_ok called, called]
  rfl

theorem landTurns_refused {player : Seat} {card : CardId} {reason : RuleError}
    (refused : m.call (.act player (.playLand card)) = .error reason) (rest : List Operation) :
    m.landTurns (.act player (.playLand card) :: rest) = m.landTurns rest := by
  rw [landTurns, step_of_error refused, refused]
  rfl

/-- Every land is played in a later turn than the one before. Where the active player has played one,
    the next comes in a later turn. -/
theorem landTurns_increase (few : n < Seat.limit) (regular : m.state.tempo.Regular n)
    (operations : List Operation) :
    (m.landTurns operations).Pairwise (· < ·) ∧
      ∀ turn ∈ m.landTurns operations, m.state.turn ≤ turn ∧
        (m.state.landsOf m.state.activePlayer ≠ 0 → m.state.turn < turn) := by
  induction operations generalizing m with
  | nil => exact ⟨.nil, nofun⟩
  | cons operation rest ih =>
      by_cases land : ∃ player card, operation = .act player (.playLand card)
      · obtain ⟨player, card, rfl⟩ := land
        cases called : m.call (.act player (.playLand card)) with
        | error reason =>
            rw [landTurns_refused called]
            exact ih regular
        | ok result =>
            obtain ⟨next, events⟩ := result
            rw [landTurns_playLand called]
            obtain ⟨increase, later⟩ := ih (regular_call regular called)
            have drops := drops_call called
            have now := State.SameTurn.of_date drops.date
            -- the active player has played a land after this one, so all others come in later turns
            have played : next.state.landsOf next.state.activePlayer ≠ 0 := by
              rw [now.active, ← drops.active, drops.counted, if_pos rfl]
              exact one_ne_zero
            have after : ∀ turn ∈ next.landTurns rest, m.state.turn < turn := fun turn member =>
              now.turn ▸ (later turn member).2 played
            refine ⟨List.pairwise_cons.mpr ⟨after, increase⟩, fun turn member => ?_⟩
            refine ⟨?_, fun already => absurd (drops.active ▸ drops.first) already⟩
            rcases List.mem_cons.mp member with rfl | member
            · exact le_rfl
            · exact (after turn member).le
      · have noLand : ∀ player card, operation ≠ .act player (.playLand card) :=
          fun player card same => land ⟨player, card, same⟩
        rw [landTurns_cons noLand]
        cases called : m.call operation with
        | error reason =>
            rw [step_of_error called]
            exact ih regular
        | ok result =>
            obtain ⟨next, events⟩ := result
            rw [step_of_ok called]
            obtain ⟨increase, later⟩ := ih (regular_call regular called)
            refine ⟨increase, fun turn member => ?_⟩
            obtain ⟨notBefore, after⟩ := later turn member
            obtain ⟨now, counts⟩ | ⟨begun, -⟩ := recounts_call few regular noLand called
            · rw [now.turn, now.active, counts] at after
              exact ⟨now.turn ▸ notBefore, after⟩
            · omega

end Match

end CardGame
