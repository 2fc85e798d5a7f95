import CardGame.Proofs.Calendar
import CardGame.Proofs.Destroying

/-! # The order of the stack

A spell goes on top of the stack, and leaves it from the top, when a round of passes is complete.
Nothing else that happens in a game touches the stack. All spells but instants wait for an empty stack,
so they can only lie at the bottom, and as long as anything waits on the stack the turn stands still.
-/

namespace CardGame

namespace State

variable {config : Config} {s t : State} {events : List Event}

/-- The card is an instant by definition. -/
def IsInstant (s : State) (id : CardId) : Prop :=
  ∃ c, s.card? id = some c ∧ c.definition.hasType .instant = true

/-- The card is an instant, or it is a main phase of its controller's turn. -/
def IsTimely (s : State) (id : CardId) : Prop :=
  ∃ c, s.card? id = some c ∧ (c.definition.hasType .instant = true ∨
    s.moment.phase.isMain = true ∧ c.controller = s.activePlayer)

/-- Only the bottom of the stack need not be an instant, and then the turn is where it was cast. -/
structure StackOrder (s : State) : Prop where
  above : ∀ id ∈ s.stack.tail, s.IsInstant id
  bottom : ∀ id ∈ s.stack.head?, s.IsTimely id

theorem StackOrder.of_empty (empty : s.stack = []) : s.StackOrder where
  above := by simp [empty]
  bottom := by simp [empty]

theorem stack_of_happens {happening : Happening} (h : s.Orderly)
    (happens : s.Happens happening t) (source : happening.source ≠ .stack) :
    t.stack = s.stack ++ if happening.target = .stack then [happening.card] else [] := by
  rw [happens.stack h, if_neg source]

/-- The stack after a stage. -/
def stackAfter (s : State) : Transform → List CardId
  | .cast _ card _ => s.stack ++ [card]
  | .pass => if s.playerCount ≤ s.passes + 1 then s.stack.dropLast else s.stack
  | _ => s.stack

theorem stack_run {transform : Transform} (h : s.Orderly) (derived : s.derive = s)
    (run : transform.run config s.strip = .ok t) : t.stack = s.stackAfter transform := by
  have layout := layout_strip s
  have orderly : s.strip.Orderly := h.congr layout
  have within := h.keyed.strip_within_derive
  rw [derived] at within
  have printed := stack_congr layout
  cases transform with
  | playLand player card =>
      obtain ⟨next, played, same⟩ := happens_playLand run
      rw [stack_congr same.layout, stack_of_happens orderly played nofun, printed]
      exact List.append_nil _
  | cast player card targets =>
      obtain ⟨paid, next, payment, put, same⟩ := happens_cast run
      rw [stack_congr same.layout, stack_of_happens (orderly.congr payment.layout) put nofun,
        stack_congr payment.layout, printed]
      rfl
  | activate player card ability targets =>
      exact ((wanes_activate derived run).stack orderly h.keyed within).trans printed
  | pass =>
      obtain ⟨⟨next, outcome⟩, passed, run⟩ := Outcome.bind_eq_ok.mp run
      cases run
      have early : outcome = .passed ↔ s.passes + 1 < s.playerCount := (tempo_pass passed).1
      rw [stack_pass orderly passed, printed, stackAfter]
      by_cases others : outcome = .passed
      · rw [if_pos others, if_neg (Nat.not_le.mpr (early.mp others))]
      · rw [if_neg others, if_pos (Nat.le_of_not_lt (mt early.mpr others))]
  | endMoment player => exact ((wanes_endMoment derived run).stack orderly h.keyed within).trans printed
  | declareAttackers player attackers =>
      obtain ⟨next, declared, run⟩ := Outcome.bind_eq_ok.mp run
      cases run
      exact (stack_congr (still_declareAttackers declared).layout).trans printed
  | declareBlockers player blocks =>
      obtain ⟨next, declared, run⟩ := Outcome.bind_eq_ok.mp run
      cases run
      exact (stack_congr (still_declareBlockers declared).layout).trans printed
  | stay =>
      cases run
      exact printed

theorem stack_perform {transform : Transform} (h : s.Orderly) (derived : s.derive = s)
    (performed : s.perform config (transform.run config) = .ok (t, events)) :
    t.stack = s.stackAfter transform := by
  obtain ⟨after, run, settled⟩ := Outcome.bind_eq_ok.mp performed
  obtain ⟨trace, -, course, -⟩ := course_of_settle h derived run settled
  rw [stack_settle (course.orderly h) settled, stack_run h derived run]

/-- A turn ends with nothing on the stack from its first moment on. -/
theorem stack_endTurn {player : Seat} (h : s.Orderly) (derived : s.derive = s)
    (ended : s.endTurn config player = .ok (t, events)) : s.stack = [] ∧ t.stack = [] := by
  refine endTurn_relates (P := fun s => s.Orderly ∧ s.derive = s)
    (R := fun s t => s.stack = [] ∧ t.stack = []) (fun _ first rest => ⟨first.1, rest.2⟩) ?_
    ⟨h, derived⟩ ended
  rintro s t events ⟨h, derived⟩ stage
  have empty := (perform_endMoment stage).2.1
  have same : t.stack = s.stack := stack_perform h derived stage
  exact ⟨⟨h.perform derived stage, (perform_settled stage).1.derived⟩, empty, same.trans empty⟩

/-- The card of a number is the same card under the same control in every state of a game. -/
theorem card?_of_course {trace : List Happening} (course : Course s trace t) (h : s.Orderly)
    {id : CardId} {c : Card} (found : s.card? id = some c) :
    ∃ d, t.card? id = some d ∧ d.definition = c.definition ∧ d.controller = c.controller := by
  obtain ⟨d, known, definition, owner⟩ := card?_of_identity (course.identity h) found
  exact ⟨d, known, definition, by rw [(course.orderly h).controlled known, h.controlled found, owner]⟩

section Course

variable {trace : List Happening} (course : Course s trace t) (h : s.Orderly)
include course h

theorem IsInstant.carries {id : CardId} (instant : s.IsInstant id) : t.IsInstant id := by
  obtain ⟨c, found, instant⟩ := instant
  obtain ⟨d, known, definition, -⟩ := card?_of_course course h found
  exact ⟨d, known, definition ▸ instant⟩

theorem IsTimely.carries {id : CardId} (timely : s.IsTimely id) (date : t.date = s.date) :
    t.IsTimely id := by
  obtain ⟨c, found, timely⟩ := timely
  obtain ⟨d, known, definition, controller⟩ := card?_of_course course h found
  have moment : t.moment = s.moment := congrArg Date.moment date
  have active : t.activePlayer = s.activePlayer := congrArg Date.activePlayer date
  exact ⟨d, known, by rwa [definition, controller, moment, active]⟩

/-- Spells may leave the stack from the top, while the turn stands still. -/
theorem StackOrder.of_prefix (order : s.StackOrder) (fewer : t.stack <+: s.stack)
    (date : s.stack ≠ [] → t.date = s.date) : t.StackOrder := by
  obtain ⟨gone, whole⟩ := fewer
  cases split : t.stack with
  | nil => exact .of_empty split
  | cons bottom rest =>
      rw [split, List.cons_append] at whole
      have date := date (by simp [← whole])
      refine ⟨fun id member => ?_, fun id member => ?_⟩
      · rw [split, List.tail_cons] at member
        exact (order.above id (by simp [← whole, member])).carries course h
      · obtain rfl : bottom = id := by simpa [split] using member
        exact (order.bottom bottom (by simp [← whole])).carries course h date

/-- A spell on top of others has to be an instant. -/
theorem StackOrder.push (order : s.StackOrder) {id : CardId} (pushed : t.stack = s.stack ++ [id])
    (date : t.date = s.date) (timely : s.IsTimely id) (instant : s.stack ≠ [] → s.IsInstant id) :
    t.StackOrder := by
  by_cases empty : s.stack = []
  · rw [empty, List.nil_append] at pushed
    refine ⟨by simp [pushed], fun other member => ?_⟩
    obtain rfl : id = other := by simpa [pushed] using member
    exact timely.carries course h date
  · refine ⟨fun other member => ?_, fun other member => ?_⟩
    · rw [pushed, List.tail_append_of_ne_nil empty, List.mem_append, List.mem_singleton] at member
      rcases member with below | rfl
      · exact (order.above other below).carries course h
      · exact (instant empty).carries course h
    · rw [pushed, List.head?_append_of_ne_nil _ empty] at member
      exact (order.bottom other member).carries course h date

end Course

/-- Whoever casts a card casts it in time, and casts nothing but instants on top of others. -/
theorem timely_of_cast {player : Seat} {id : CardId} {targets : List CardId} (h : s.Orderly)
    (cast : s.strip.cast player id targets = .ok t) :
    s.IsTimely id ∧ (s.stack ≠ [] → s.IsInstant id) := by
  obtain ⟨_, checked, -⟩ := Outcome.bind_eq_ok.mp cast
  obtain ⟨-, c, p, -, found, hp, inHand, -, timely, -⟩ := checkCast_eq_ok.mp checked
  rw [card?_strip, Option.map_eq_some_iff] at found
  obtain ⟨c, found, rfl⟩ := found
  rw [stack_congr (layout_strip s)] at timely
  have controller : c.controller = player := by
    rw [h.controlled found]
    exact h.owner_of_zone hp found (by simp [PlayerZones.all, show c.zone = p.zones.hand from inHand])
  rcases timely with instant | ⟨active, main, empty⟩
  · exact ⟨⟨c, found, .inl instant⟩, fun _ => ⟨c, found, instant⟩⟩
  · exact ⟨⟨c, found, .inr ⟨main, controller.trans active⟩⟩, absurd empty⟩

theorem order_perform {transform : Transform} (h : s.Orderly) (derived : s.derive = s)
    (order : s.StackOrder) (performed : s.perform config (transform.run config) = .ok (t, events)) :
    t.StackOrder := by
  obtain ⟨trace, course, -⟩ := course_of_perform h derived performed
  have stack := stack_perform h derived performed
  cases transform with
  | cast player id targets =>
      obtain ⟨after, run, settled⟩ := Outcome.bind_eq_ok.mp performed
      obtain ⟨timely, instant⟩ := timely_of_cast h run
      have date : t.date = s.date :=
        (date_of_tempo (tempo_settle settled)).trans ((date_of_tempo (tempo_cast run)).trans rfl)
      exact order.push course h stack date timely instant
  | pass =>
      refine order.of_prefix course h ?_ fun busy => date_perform busy performed
      rw [stack, stackAfter]
      split
      · exact List.dropLast_prefix s.stack
      · exact List.prefix_rfl
  | _ => exact order.of_prefix course h (stack ▸ List.prefix_rfl) fun busy => date_perform busy performed

end State

namespace Match

variable {m next : Match} {operation : Operation} {events : List Event}

theorem lasting_order : Lasting State.StackOrder :=
  fun _ orderly derived order stage => State.order_perform orderly derived order stage

theorem stack_start {config : Config} {generator : Generator} {catalog : Catalog}
    {registry : Registry} {decks : List (List DefinitionId)}
    (started : start config catalog registry decks generator = .ok m) :
    m.state.stack = [] := by
  refine (start_induction started (P := fun s => s.stack = []) (State.contents_initial _)
    (fun {s t d seat p id} dealt hp created empty => ?_)
    (fun orderly drawn empty =>
      ((State.wanes_drawMany drawn).stack orderly orderly.keyed (.refl _)).trans empty)
    fun _ empty => (State.stack_congr (State.layout_derive _)).trans empty).2
  obtain ⟨abilities, n, rfl, -⟩ := State.create_eq_ok created
  have library := dealt.library hp
  let card := Card.create s.nextCard d seat p.zones.library abilities
  have elsewhere : s.stackZone ≠ card.zone := by
    rintro (same : s.stackZone = p.zones.library)
    simpa [same, library] using dealt.stack
  have contents := State.contents_withCard (s := s) card n
    (Option.isSome_iff_exists.mpr ⟨_, library⟩) s.stackZone
  rw [if_neg elsewhere, List.append_nil] at contents
  exact contents.trans empty

/-- The stack after an operation that succeeds. -/
def stackAfter (m : Match) : Operation → List CardId
  | .act _ (.castSpell card _) => m.state.stack ++ [card]
  | .act _ .passPriority => if m.completesRound then m.state.stack.dropLast else m.state.stack
  | _ => m.state.stack

theorem stack_of_call (orderly : m.state.Orderly) (derived : m.state.derive = m.state)
    (called : m.call operation = .ok (next, events)) : next.state.stack = m.stackAfter operation := by
  have stage {transform : Transform} (one : operation.transform? = some transform) :
      next.state.stack = m.state.stackAfter transform :=
    State.stack_perform orderly derived (perform_of_call one called)
  cases operation with
  | act player action =>
      cases action with
      | passPriority => exact stack_of_pass called orderly
      | advanceTurn =>
          obtain ⟨-, t, ended, rfl⟩ := call_act_eq_ok.mp called
          obtain ⟨before, after⟩ := State.stack_endTurn orderly derived ended
          exact after.trans before.symm
      | _ => exact stage rfl
  | _ => exact stage rfl

/-- While something is on the stack, no operation changes the date. -/
theorem date_of_call (orderly : m.state.Orderly) (derived : m.state.derive = m.state)
    (busy : m.state.stack ≠ []) (called : m.call operation = .ok (next, events)) :
    next.state.date = m.state.date := by
  obtain ⟨⟨transform, -, stage⟩ | ⟨player, rfl, ended⟩, -⟩ := call_cases called
  · exact State.date_perform busy stage
  · exact absurd (State.stack_endTurn orderly derived ended).1 busy

/-- Along every run from a deal, a cast puts its card on top of the stack, a pass that completes a round
    takes the top off, and nothing else changes the stack. While it is not empty, the turn stands still,
    and everything on it but the bottom is an instant. -/
theorem stack_in_order (config : Config) {generator : Generator} (catalog : Catalog)
    (registry : Registry) (decks : List (List DefinitionId)) (m : Match) (commands : List Command)
    (started : start config catalog registry decks generator = .ok m) :
    (m.run commands).state.StackOrder ∧
      ∀ operation next events, (m.run commands).call operation = .ok (next, events) →
        next.state.stack = (m.run commands).stackAfter operation ∧
          ((m.run commands).state.stack ≠ [] →
            next.state.turn = (m.run commands).state.turn ∧
              next.state.moment = (m.run commands).state.moment ∧
              next.state.activePlayer = (m.run commands).state.activePlayer) := by
  obtain ⟨orderly, derived, -⟩ := ((kept_start started).run commands).present
  have order := lasting_order.run started (.of_empty (stack_start started)) commands
  refine ⟨order, fun operation next events called => ⟨stack_of_call orderly derived called, ?_⟩⟩
  intro busy
  have date := date_of_call orderly derived busy called
  exact ⟨congrArg Date.turn date, congrArg Date.moment date, congrArg Date.activePlayer date⟩

/-- Two spells and a pass, after a land. -/
def untilResponse : List Operation :=
  toMain ++ [.act 0 (.playLand 1), .act 0 (.castSpell 2 []), .act 0 (.castSpell 3 [1]),
    .act 0 .passPriority]

/-- An instant on top of a creature spell resolves. -/
theorem stack_in_order_response :
    ∃ m next events, ambush = .ok m ∧
      (m.run (untilResponse.map .call)).state.stack = [2, 3] ∧
      (m.run (untilResponse.map .call)).call (.act 1 .passPriority) = .ok (next, events) ∧
      next.state.stack = [2] ∧ next.state.turn = (m.run (untilResponse.map .call)).state.turn ∧
      (m.run (untilResponse.map .call)).state.StackOrder := by
  have played : (do
      let m ← ambush
      let _ ← (m.run (untilResponse.map .call)).call (.act 1 .passPriority)
      .ok ((m.run (untilResponse.map .call)).state.stack,
        (m.run (untilResponse.map .call)).stackAfter (.act 1 .passPriority)) :
        Outcome (List CardId × List CardId)) = .ok ([2, 3], [2]) := by decide +kernel
  obtain ⟨m, started, played⟩ := Outcome.bind_eq_ok.mp played
  obtain ⟨⟨next, events⟩, called, same⟩ := Outcome.bind_eq_ok.mp played
  obtain ⟨before, after⟩ := Prod.mk.inj (Except.ok.inj same)
  obtain ⟨order, step⟩ := stack_in_order _ _ _ _ m (untilResponse.map .call) started
  obtain ⟨stack, stands⟩ := step (.act 1 .passPriority) next events called
  have busy : (m.run (untilResponse.map .call)).state.stack ≠ [] := by simp [before]
  exact ⟨m, next, events, started, before, called, stack.trans after, (stands busy).1, order⟩

end Match

end CardGame
