import CardGame.Proofs.Deaths
import CardGame.Proofs.Equipment
import CardGame.Proofs.Tempo

/-! # Settling comes to an end

Where triggered abilities gain life and do nothing else, as the built-in ones do, creatures die in the
first round of settling only. In the second what they triggered may make players lose, and in the third
nothing happens any more.
-/

namespace CardGame

namespace State

variable {s t u : State}

/-- The states differ at most in their players, who keep their zones. -/
def SamePlay (s t : State) : Prop :=
  ∃ players : List Player, t = { s with players := players } ∧
    players.map (·.zones) = s.players.map (·.zones)

namespace SamePlay

theorem refl (s : State) : s.SamePlay s := ⟨s.players, rfl, rfl⟩

theorem trans (first : s.SamePlay t) (rest : t.SamePlay u) : s.SamePlay u := by
  obtain ⟨players, rfl, zones⟩ := first
  obtain ⟨others, rfl, zones'⟩ := rest
  exact ⟨others, rfl, zones'.trans zones⟩

theorem layout (h : s.SamePlay t) : t.layout = s.layout := by
  obtain ⟨players, rfl, zones⟩ := h
  exact layout_ext zones rfl rfl fun _ => rfl

theorem playerCount (h : s.SamePlay t) : t.playerCount = s.playerCount := by
  obtain ⟨players, rfl, zones⟩ := h
  simpa [State.playerCount] using congrArg List.length zones

theorem cards (h : s.SamePlay t) : t.cards = s.cards := by
  obtain ⟨players, rfl, -⟩ := h
  rfl

theorem dying (h : s.SamePlay t) : t.dying = s.dying := by
  obtain ⟨players, rfl, -⟩ := h
  rfl

/-- Deriving does not read the players. -/
theorem derived (h : s.SamePlay t) (derived : s.derive = s) : t.derive = t := by
  obtain ⟨players, rfl, -⟩ := h
  have same := derive_withBoard { s with players := players } s
  rwa [derived] at same

theorem updatePlayer (s : State) (seat : Seat) {f : Player → Player}
    (zones : ∀ p, (f p).zones = p.zones) : s.SamePlay (s.updatePlayer seat f) :=
  ⟨_, rfl, congrArg Layout.seats (layout_updatePlayer s seat zones)⟩

theorem markLosers (s : State) : s.SamePlay s.markLosers :=
  ⟨_, rfl, congrArg Layout.seats (layout_markLosers s)⟩

end SamePlay

/-- What triggered abilities need to resolve: every card has a controller at the table, and every
    triggered ability is one of an existing card and gains life. -/
structure Answers (s : State) : Prop where
  controlled : ∀ {id c}, s.card? id = some c → c.controller < s.playerCount
  triggered : ∀ {id c a}, s.card? id = some c → a ∈ c.triggered →
    (∃ d, s.card? a.source = some d) ∧ ∃ amount, a.effect = .gainLife amount

theorem Orderly.seated (h : s.Orderly) {id : CardId} {c : Card} (found : s.card? id = some c) :
    c.controller < s.playerCount := by
  obtain ⟨p, hp⟩ := h.owned found
  rw [h.controlled found]
  exact (List.getElem?_eq_some_iff.mp hp).1

theorem Orderly.answers (h : s.Orderly) (equipped : s.Equipped .builtin) : s.Answers where
  controlled := h.seated
  triggered {id c a} found carried := by
    obtain ⟨source, gains⟩ :=
      Builtin.of_triggered (equipped id c found _ (c.triggered_mem_abilities.mpr carried))
    exact ⟨⟨c, source ▸ found⟩, gains⟩

theorem Answers.congr (h : s.Answers) (layout : t.layout = s.layout) : t.Answers := by
  have seats : t.playerCount = s.playerCount := by
    simpa [State.layout, State.playerCount] using congrArg (fun l : Layout => l.seats.length) layout
  constructor
  · intro id c found
    obtain ⟨d, known, place⟩ := card?_congr layout found
    rw [seats, ← Card.controller_eq_of_placement place]
    exact h.controlled known
  · intro id c a found carried
    obtain ⟨d, known, place⟩ := card?_congr layout found
    have triggered : d.triggered = c.triggered := congrArg Placement.triggered place
    obtain ⟨⟨source, present⟩, gains⟩ := h.triggered known (triggered ▸ carried)
    obtain ⟨e, still, -⟩ := card?_congr layout.symm present
    exact ⟨⟨e, still⟩, gains⟩

/-- A card that is buried comes under the control of its owner, and keeps its abilities. -/
theorem Answers.of_bury (h : s.Answers) {id : CardId} (buried : s.bury id = .ok t) : t.Answers := by
  obtain ⟨c, p, source, kind, found, player, -, -, rfl⟩ := bury_eq_ok.mp buried
  have moved := c.placement_movedTo source kind p.zones.graveyard
  constructor
  · intro other d known
    obtain ⟨rfl, rfl⟩ | ⟨-, known⟩ := (card?_relocate_eq_some _ _ found).mp known
    · rw [Card.controller_movedTo]
      split
      · exact h.controlled found
      · exact (List.getElem?_eq_some_iff.mp player).1
    · exact h.controlled known
  · intro other d a known carried
    have before : ∃ e, s.card? other = some e ∧ a ∈ e.triggered := by
      obtain ⟨rfl, rfl⟩ | ⟨-, known⟩ := (card?_relocate_eq_some _ _ found).mp known
      · have triggered : (c.movedTo source kind p.zones.graveyard).triggered = c.triggered :=
          congrArg Placement.triggered moved
        exact ⟨c, found, triggered ▸ carried⟩
      · exact ⟨d, known, carried⟩
    obtain ⟨e, known, carried⟩ := before
    obtain ⟨⟨f, present⟩, gains⟩ := h.triggered known carried
    refine ⟨?_, gains⟩
    rw [card?_relocate, present]
    split <;> exact ⟨_, rfl⟩

theorem orderById_perm (abilities : List TriggeredAbility) :
    (TriggeredAbility.orderById abilities).Perm abilities := by
  have inserted (a : TriggeredAbility) (others : List TriggeredAbility) :
      (TriggeredAbility.insertById a others).Perm (a :: others) := by
    induction others with
    | nil => exact .refl _
    | cons other rest ih =>
        unfold TriggeredAbility.insertById
        split
        · exact .refl _
        · exact (ih.cons other).trans (.swap a other rest)
  induction abilities with
  | nil => exact .refl _
  | cons a rest ih => exact (inserted a _).trans (ih.cons a)

/-- The triggered abilities of all cards. -/
def triggers (s : State) : List TriggeredAbility := s.cards.values.flatMap fun c => c.triggered

theorem mem_triggers {a : TriggeredAbility} :
    a ∈ s.triggers ↔ ∃ id c, s.card? id = some c ∧ a ∈ c.triggered := by
  simp only [triggers, Table.values, List.mem_flatMap, List.mem_map, Prod.exists, exists_eq_right,
    Table.mem_entries, card?]
  constructor
  · rintro ⟨c, ⟨id, found⟩, carried⟩
    exact ⟨id, c, found, carried⟩
  · rintro ⟨id, c, found, carried⟩
    exact ⟨c, ⟨id, found⟩, carried⟩

theorem fired_perm (s : State) (event : Event) :
    (s.fired event).Perm (s.triggers.filter fun a => a.fires event s) :=
  orderById_perm _

theorem card?_of_fired {event : Event} {a : TriggeredAbility} (fires : a ∈ s.fired event) :
    ∃ id c, s.card? id = some c ∧ a ∈ c.triggered :=
  mem_triggers.mp (List.mem_of_mem_filter ((s.fired_perm event).mem_iff.mp fires))

/-- An ability that gains life resolves. -/
theorem Answers.resolve (h : s.Answers) (event : Event) {a : TriggeredAbility}
    (seated : event.controller < s.playerCount) (source : ∃ d, s.card? a.source = some d)
    (gains : ∃ amount, a.effect = .gainLife amount) :
    ∃ t, a.resolve s event = .ok t ∧ s.SamePlay t := by
  obtain ⟨d, found⟩ := source
  obtain ⟨amount, gains⟩ := gains
  obtain ⟨seat, controls, sits⟩ : ∃ seat, a.controllerOn s event = .ok seat ∧
      seat < s.playerCount := by
    unfold TriggeredAbility.controllerOn
    split
    · exact ⟨_, rfl, seated⟩
    · exact ⟨d.controller, Outcome.bind_eq_ok.mpr ⟨d, card_eq_ok.mpr found, rfl⟩, h.controlled found⟩
  refine ⟨s.updatePlayer seat fun p => { p with life := word (p.life + amount) }, ?_,
    .updatePlayer s seat fun _ => rfl⟩
  rw [TriggeredAbility.resolve, gains]
  refine Outcome.bind_eq_ok.mpr ⟨seat, controls, ?_⟩
  exact Outcome.bind_eq_ok.mpr ⟨_, player_eq_ok.mpr (List.getElem?_eq_getElem sits), rfl⟩

/-- All that deaths trigger resolves, and changes nothing but life totals. -/
theorem Answers.dispatch (h : s.Answers) (derived : s.derive = s) {events : List Event}
    (seated : ∀ event ∈ events, event.controller < s.playerCount) :
    ∃ t, s.dispatch events = .ok t ∧ s.SamePlay t := by
  refine Outcome.foldlM_total (P := s.SamePlay) (fun mid event member same => ?_) (.refl s)
  have answers := h.congr same.layout
  refine Outcome.foldlM_total (P := s.SamePlay) (fun now a fires play => ?_) same
  obtain ⟨id, c, found, carried⟩ := card?_of_fired fires
  rw [card?, same.cards] at found
  obtain ⟨source, gains⟩ := h.triggered found carried
  obtain ⟨t, resolved, change⟩ := (h.congr play.layout).resolve event
    (play.playerCount ▸ seated event member) (by rwa [card?, play.cards]) gains
  have all := play.trans change
  exact ⟨t, Outcome.bind_eq_ok.mpr ⟨t, resolved, congrArg Except.ok (all.derived derived)⟩, all⟩

theorem Housed.toRest (h : s.Housed) : ∃ r, s.toRest = .ok r := by
  obtain ⟨r, rest, -⟩ := (h.congr (layout_derive s)).repeatPasses (derive_derive s) 0
    (Nat.lt_succ_of_le s.derive.unrest_le)
  exact ⟨r, rest⟩

/-- Where no creature has lethal damage, state-based actions do no more than to mark losers. -/
theorem samePlay_toRest (derived : s.derive = s) (healthy : s.dying = []) {r : AtRest}
    (h : s.toRest = .ok r) : s.SamePlay r.state := by
  refine toRest_of_burials (P := s.SamePlay) (fun t same => ?_) (fun {t u} same burials => ?_)
    (.refl s) h
  · rwa [same.derived derived]
  · rw [same.dying, healthy] at burials
    cases burials
    exact same.trans (.markLosers t)

/-- When nothing is left to do, triggered abilities still resolve. -/
theorem Answers.toRest (h : s.Answers) (housed : s.Housed) {r : AtRest} (rest : s.toRest = .ok r) :
    r.state.Housed ∧ r.state.Answers := by
  refine toRest_invariant (P := fun t => t.Housed ∧ t.Answers) (fun t => ?_) (fun t => ?_)
    (fun {t u id} buried => ?_) ⟨housed, h⟩ rest
  · intro ⟨housed, answers⟩
    exact ⟨housed.congr (layout_derive t), answers.congr (layout_derive t)⟩
  · intro ⟨housed, answers⟩
    exact ⟨housed.congr (layout_markLosers t), answers.congr (layout_markLosers t)⟩
  · intro ⟨housed, answers⟩
    obtain ⟨c, -, -, -, found, -⟩ := bury_eq_ok.mp buried
    obtain ⟨u', buried', housed', -⟩ := housed.bury (Option.isSome_iff_exists.mpr ⟨c, found⟩)
    cases buried'.symm.trans buried
    exact ⟨housed', answers.of_bury buried⟩

theorem settleRounds_succ {limit left : Nat} {baseline current resolved : State}
    {earlier : List Event} {r : AtRest}
    (dispatched : current.dispatch (baseline.deaths current) = .ok resolved)
    (rest : resolved.toRest = .ok r) :
    settleRounds limit baseline current earlier (left + 1) =
      if (baseline.deaths current).isEmpty && !r.changed then
        .ok (r.state, earlier ++ baseline.deaths current)
      else settleRounds limit current r.state (earlier ++ baseline.deaths current) left := by
  simp only [settleRounds, dispatched, rest, bind, Except.bind]

/-- A round of settling succeeds, and another one can follow. It leaves the cards where they were if
    nothing is left to die. -/
theorem round_total {baseline current : State} (housed : current.Housed) (answers : current.Answers)
    (derived : current.derive = current)
    (seated : ∀ id c, baseline.card? id = some c → c.controller < current.playerCount) :
    ∃ resolved r, current.dispatch (baseline.deaths current) = .ok resolved ∧
      resolved.toRest = .ok r ∧ r.state.Housed ∧ r.state.Answers ∧ r.state.Settled ∧
      r.state.playerCount = current.playerCount ∧
      (current.dying = [] → r.state.layout = current.layout) := by
  have controlled : ∀ event ∈ baseline.deaths current, event.controller < current.playerCount := by
    intro event died
    obtain ⟨id, c, creature, -, rfl⟩ := mem_deaths.mp died
    obtain ⟨-, -, -, key, found⟩ := mem_creatures.mp creature
    exact seated key c found
  obtain ⟨resolved, dispatched, same⟩ := answers.dispatch derived controlled
  have housed := housed.congr same.layout
  obtain ⟨r, rest⟩ := housed.toRest
  obtain ⟨housed, answers⟩ := (answers.congr same.layout).toRest housed rest
  refine ⟨resolved, r, dispatched, rest, housed, answers, toRest_settled rest, ?_, ?_⟩
  · rw [playerCount_of_tempo (tempo_toRest rest), same.playerCount]
  · intro healthy
    have marked := samePlay_toRest (same.derived derived) (same.dying.trans healthy) rest
    exact marked.layout.trans same.layout

/-- In three rounds settling comes to an end, and it makes no difference how many more there might
    be. -/
theorem settle_total {before after : State} (housed : after.Housed) (answers : after.Answers)
    (seated : ∀ id c, before.card? id = some c → c.controller < after.playerCount) :
    ∃ t events, t.Settled ∧ t.Keyed ∧
      ∀ rounds, 3 ≤ rounds → State.settle rounds before after = .ok (t, events) := by
  have layout := layout_derive after
  have seats : after.derive.playerCount = after.playerCount := playerCount_of_tempo (tempo_derive after)
  have answers := answers.congr layout
  have seated : ∀ id c, before.card? id = some c → c.controller < after.derive.playerCount := by
    rwa [seats]
  -- the first round may bury creatures
  obtain ⟨resolved, r, dispatched, rest, housed', answers', settled, seats', -⟩ :=
    round_total (housed.congr layout) answers (derive_derive after) seated
  have controlled : ∀ id c, after.derive.card? id = some c → c.controller < r.state.playerCount := by
    rw [seats']
    exact fun _ _ => answers.controlled
  -- in the second, no creature has lethal damage
  obtain ⟨resolved', r', dispatched', rest', housed'', -, settled', -, unmoved⟩ :=
    round_total housed' answers' settled.derived controlled
  -- so in the third, nothing has died
  have nobody : r.state.deaths r'.state = [] :=
    housed'.keyed.deaths_of_layout (unmoved (dying_eq_nil.mpr settled.healthy))
  have quiet : r'.state.dispatch (r.state.deaths r'.state) = .ok r'.state := by
    rw [nobody, dispatch_nil]
  have later (limit left : Nat) (earlier : List Event) :
      settleRounds limit after.derive r.state earlier (left + 1 + 1) =
        .ok (r'.state, earlier ++ after.derive.deaths r.state) := by
    rw [settleRounds_succ dispatched' rest']
    split
    · rfl
    · rw [settleRounds_succ quiet settled'.toRest, nobody]
      simp [AtRest.changed]
  by_cases still : ((before.deaths after.derive).isEmpty && !r.changed) = true
  · refine ⟨r.state, before.deaths after.derive, settled, housed'.keyed, fun rounds enough => ?_⟩
    obtain ⟨left, rfl⟩ := Nat.exists_eq_add_of_le' enough
    rw [State.settle, settleRounds_succ dispatched rest, if_pos still, List.nil_append]
  · refine ⟨r'.state, before.deaths after.derive ++ after.derive.deaths r.state, settled',
      housed''.keyed, fun rounds enough => ?_⟩
    obtain ⟨left, rfl⟩ := Nat.exists_eq_add_of_le' enough
    rw [State.settle, settleRounds_succ dispatched rest, if_neg still, List.nil_append, later]

/-- A creature that is about to die, and whose death costs its controller the game. -/
def martyr : Card :=
  { Card.create 1 (.creature 1 "Martyr" 1 1) 0 (PlayerZones.ofSeat 0).battlefield
      [.triggered ⟨1, 1, Builtin.ownDeath, .gainLife (-20)⟩] with
    damage := 1 }

def martyrdom : State :=
  { (initial 2 20).updateZone martyr.zone (·.push 1) with
    cards := .ofList [(1, martyr)]
    nextCard := 2
    nextAbility := 2 }

theorem martyrdom_answers : martyrdom.Answers := by
  have only {id : CardId} {c : Card} (found : martyrdom.card? id = some c) : id = 1 ∧ c = martyr := by
    have listed : (id, c) ∈ [(1, martyr)] := Table.mem_entries.mpr found
    simpa using listed
  constructor
  · intro id c found
    obtain ⟨-, rfl⟩ := only found
    decide
  · intro id c a found carried
    obtain ⟨-, rfl⟩ := only found
    obtain rfl := List.mem_singleton.mp carried
    exact ⟨⟨martyr, rfl⟩, -20, rfl⟩

/-- Two rounds are not enough for it. -/
example : (State.settle 2 martyrdom martyrdom).map (·.2) = .error (.nonConvergence 2) := by decide

end State

end CardGame
