import CardGame.Proofs.Arrivals
import CardGame.Proofs.Undoing

/-! # The order of combat

A combat begins with the declaration of its attackers, and ends with the last step of the phase. As long
as it goes on, its lists tell who fights for whom, every creature fights once, and attackers without
vigilance are tapped, whatever is played in the meantime.
-/

namespace CardGame

namespace Combat

/-- The combat goes on at this moment of a turn. There are no blockers before their step. -/
def Open (c : Combat) (m : Moment) : Prop :=
  m.phase = .combat ∧
    (m.step = some .declareAttackers ∧ c.blocks = .empty ∨
      m.step = some .declareBlockers ∨ m.step = some .combatDamage)

theorem Open.next? {c : Combat} {m : Moment} (h : c.Open m) :
    ∃ next, m.next? = some next ∧ (next.step ≠ some .endCombat → c.Open next) := by
  obtain ⟨phase, step⟩ := m
  obtain ⟨rfl, ⟨rfl, -⟩ | rfl | rfl⟩ := h
  · exact ⟨_, rfl, fun _ => ⟨rfl, .inr (.inl rfl)⟩⟩
  · exact ⟨_, rfl, fun _ => ⟨rfl, .inr (.inr rfl)⟩⟩
  · exact ⟨_, rfl, fun goesOn => absurd rfl goesOn⟩

/-- The operation that the combat began with. -/
def declaration (c : Combat) : Operation := .declareAttackers c.attackingPlayer c.attackers

end Combat

namespace State

variable {config : Config} {s t u : State} {events : List Event} {n : Nat} {player : Seat}
  {id blocker attacker : CardId} {c : Combat}

/-- The card fights for the player. It may have died since it was declared. -/
def Fights (s : State) (player : Seat) (id : CardId) : Prop :=
  ∃ c, s.card? id = some c ∧ c.controller = player ∧
    (s.zoneKind? id = some .battlefield ∨ s.zoneKind? id = some .graveyard)

theorem Ready.fights {c : Card} (ready : s.Ready player id c) : s.Fights player id := by
  refine ⟨c, ready.found, ready.controller, .inl ?_⟩
  rw [zoneKind?_of_card? ready.found]
  exact of_decide_eq_true ready.inPlay

theorem Fights.carries {trace : List Happening} (fights : s.Fights player id)
    (course : Course s trace t) (h : s.Orderly) : t.Fights player id := by
  obtain ⟨c, found, controller, place⟩ := fights
  obtain ⟨d, known, -, same⟩ := card?_of_course course h found
  refine ⟨d, known, same.trans controller, ?_⟩
  rcases place with inPlay | buried
  · exact (course.battlefield h inPlay).imp_right And.left
  · exact .inr (course.graveyard h buried)

/-- The next of several seats is another one. -/
theorem succ_mod_ne {seat n : Nat} (several : 2 ≤ n) (seated : seat < n) : (seat + 1) % n ≠ seat := by
  rcases Nat.lt_or_eq_of_le seated with less | last
  · rw [Nat.mod_eq_of_lt less]
    omega
  · rw [← Nat.succ_eq_add_one, last, Nat.mod_self]
    omega

end State

/-- What holds of a combat of `n` players as long as it goes on. -/
structure Combat.InOrder (n : Nat) (s : State) (c : Combat) : Prop where
  moment : c.Open s.moment
  attacking : c.attackingPlayer = s.activePlayer
  defending : c.defendingPlayer = (s.activePlayer + 1) % n
  /-- Every creature is declared once. -/
  once : (c.attackers ++ c.blockers).Nodup
  blocked : ∀ attacker blockers, c.blocks.get? attacker = some blockers →
    attacker ∈ c.attackers ∧ blockers ≠ []
  attack : ∀ id ∈ c.attackers, s.Fights c.attackingPlayer id
  block : ∀ id ∈ c.blockers, s.Fights c.defendingPlayer id

namespace Combat.InOrder

open State

variable {s t : State} {n : Nat} {blocker attacker : CardId} {c : Combat}

theorem carries {trace : List Happening} (order : c.InOrder n s) (course : Course s trace t)
    (h : s.Orderly) (moment : c.Open t.moment) (active : t.activePlayer = s.activePlayer) :
    c.InOrder n t where
  moment := moment
  attacking := order.attacking.trans active.symm
  defending := active ▸ order.defending
  once := order.once
  blocked := order.blocked
  attack id member := (order.attack id member).carries course h
  block id member := (order.block id member).carries course h

/-- A creature fights for one of the two players only. -/
theorem not_both {id : CardId} (order : c.InOrder n s) (several : 2 ≤ n) (seated : s.activePlayer < n)
    (blocks : s.Fights c.defendingPlayer id) : id ∉ c.attackers := by
  intro attacks
  obtain ⟨a, found, attacking, -⟩ := order.attack id attacks
  obtain ⟨b, known, defending, -⟩ := blocks
  cases found.symm.trans known
  refine succ_mod_ne several seated ?_
  rw [← order.defending, ← defending, attacking, order.attacking]

theorem addBlock (order : c.InOrder n s) (several : 2 ≤ n) (seated : s.activePlayer < n)
    (step : s.moment = ⟨.combat, some .declareBlockers⟩) (fresh : blocker ∉ c.blockers)
    (attacks : attacker ∈ c.attackers) (blocks : s.Fights c.defendingPlayer blocker) :
    (c.addBlock blocker attacker).InOrder n s where
  moment := by
    rw [step]
    exact ⟨rfl, .inr (.inl rfl)⟩
  attacking := order.attacking
  defending := order.defending
  once := by
    have perm := ((c.perm_blockers_addBlock blocker attacker).append_left c.attackers).trans
      List.perm_middle
    refine perm.nodup_iff.mpr (List.nodup_cons.mpr ⟨fun member => ?_, order.once⟩)
    rcases List.mem_append.mp member with both | again
    · exact order.not_both several seated blocks both
    · exact fresh again
  blocked other blockers listed := by
    rw [c.get?_addBlock] at listed
    split at listed
    · rename_i same
      cases listed
      exact ⟨same ▸ attacks, by simp⟩
    · exact order.blocked other blockers listed
  attack := order.attack
  block id member := by
    have added := (c.perm_blockers_addBlock blocker attacker).mem_iff.mp member
    rcases List.mem_cons.mp added with rfl | before
    · exact blocks
    · exact order.block id before

end Combat.InOrder

/-- Where the combat after a transformation comes from. -/
inductive CombatStage (s t : State) (c : Combat) : Transform → Prop where
  | opened {player : Seat} {attackers : List CardId} (none : s.combat = none)
      (moment : s.moment = ⟨.combat, some .declareAttackers⟩) (active : player = s.activePlayer)
      (nodup : attackers.Nodup) (able : ∀ id ∈ attackers, s.derive.MayAttack player id)
      (combat : c = ⟨player, s.nextSeat player, attackers, .empty⟩) (date : t.date = s.date) :
      CombatStage s t c (.declareAttackers player attackers)
  | blocked {b : Combat} {blocks : List (CardId × CardId)} {transform : Transform}
      (before : s.combat = some b) (moment : s.moment = ⟨.combat, some .declareBlockers⟩)
      (added : blocks.foldlM (s.derive.addBlocker b.defendingPlayer) b = .ok c)
      (date : t.date = s.date) : CombatStage s t c transform
  | kept {transform : Transform} (before : s.combat = some c) (date : t.date = s.date) :
      CombatStage s t c transform
  | advanced {transform : Transform} (before : s.combat = some c) (date : t.date = s.advance.date)
      (goesOn : s.advance.moment.step ≠ some .endCombat) : CombatStage s t c transform

open State

variable {config : Config} {transform : Transform} {s t : State} {events : List Event} {n : Nat}
  {c : Combat}

theorem Combat.Open.advance (h : c.Open s.moment)
    (goesOn : s.advance.moment.step ≠ some .endCombat) :
    c.Open s.advance.moment ∧ s.advance.activePlayer = s.activePlayer := by
  obtain ⟨next, follows, stillOpen⟩ := h.next?
  have advance : s.advance = { s with moment := next } := by rw [State.advance, follows]
  rw [advance] at goesOn ⊢
  exact ⟨stillOpen goesOn, rfl⟩

theorem State.combat_advance (s : State) : s.advance.combat = s.combat := by
  unfold advance
  split
  · rfl
  · split <;> rfl

theorem Transform.combatStage (run : transform.run config s = .ok t) (fighting : t.combat = some c) :
    CombatStage s t c transform := by
  have same (tempo : t.tempo = { s.tempo with passes := 0 }) : CombatStage s t c transform :=
    .kept ((congrArg Tempo.combat tempo).symm.trans fighting) ((date_of_tempo tempo).trans rfl)
  cases transform with
  | playLand player card => exact same (tempo_playLand run)
  | cast player card targets => exact same (tempo_cast run)
  | activate player card ability targets => exact same (tempo_activate run)
  | pass =>
      obtain ⟨⟨next, outcome⟩, passed, run⟩ := Outcome.bind_eq_ok.mp run
      cases run
      have tempo := (tempo_pass passed).2
      split at tempo <;>
        exact .kept ((congrArg Tempo.combat tempo).symm.trans fighting)
          ((date_of_tempo tempo).trans rfl)
  | endMoment player =>
      have tempo := tempo_endMoment run
      have combat := (congrArg Tempo.combat tempo).symm.trans fighting
      dsimp only at combat
      split at combat
      · cases combat
      · rename_i goesOn
        exact .advanced (s.combat_advance.symm.trans combat) (date_endMoment run) goesOn
  | declareAttackers player attackers =>
      obtain ⟨declared, declaration, run⟩ := Outcome.bind_eq_ok.mp run
      cases run
      have date : declared.date = s.date :=
        (date_of_tempo (tempo_declareAttackers declaration)).trans rfl
      obtain ⟨moment, active, none, nodup, able, rfl⟩ := declareAttackers_eq_ok.mp declaration
      exact .opened none moment active nodup able (Option.some.inj fighting).symm date
  | declareBlockers player blocks =>
      obtain ⟨declared, declaration, run⟩ := Outcome.bind_eq_ok.mp run
      cases run
      obtain ⟨moment, b, d, before, rfl, added, rfl⟩ := declareBlockers_eq_ok.mp declaration
      cases fighting
      exact .blocked before moment added rfl
  | stay =>
      cases run
      exact .kept fighting rfl

theorem Combat.InOrder.opening {attackers : List CardId} (few : n ≤ Seat.limit)
    (regular : s.tempo.Regular n) (moment : s.moment = ⟨.combat, some .declareAttackers⟩)
    (nodup : attackers.Nodup) (able : ∀ id ∈ attackers, s.MayAttack s.activePlayer id) :
    InOrder n s ⟨s.activePlayer, s.nextSeat s.activePlayer, attackers, .empty⟩ where
  moment := by
    rw [moment]
    exact ⟨rfl, .inl ⟨rfl, rfl⟩⟩
  attacking := rfl
  defending := by
    have seats : s.playerCount = n := regular.seats
    have some : 0 < s.playerCount := Nat.zero_lt_of_lt (seated_of_regular regular).active
    rw [nextSeat_eq some (seats ▸ few), seats]
  once := by simpa [Combat.blockers, Table.values, Table.empty] using nodup
  blocked := nofun
  attack id member := by
    obtain ⟨c, ready, -⟩ := able id member
    exact ready.fights
  block := nofun

theorem Combat.InOrder.addBlocks {b : Combat} {blocks : List (CardId × CardId)} (several : 2 ≤ n)
    (seated : s.activePlayer < n) (moment : s.moment = ⟨.combat, some .declareBlockers⟩)
    (order : b.InOrder n s) (added : blocks.foldlM (s.addBlocker b.defendingPlayer) b = .ok c) :
    c.InOrder n s := by
  refine (Outcome.foldlM_preserves
    (P := fun d => d.InOrder n s ∧ d.defendingPlayer = b.defendingPlayer) ?_ added ⟨order, rfl⟩).1
  rintro before ⟨blocker, attacker⟩ - after step ⟨order, defending⟩
  obtain ⟨fresh, attacks, ⟨blocking, -, ready, -⟩, rfl⟩ := addBlocker_eq_ok.mp step
  exact ⟨order.addBlock several seated moment fresh attacks (defending ▸ ready.fights), defending⟩

namespace State

/-- A combat that goes on is in order. -/
def CombatOrder (n : Nat) (s : State) : Prop := ∀ c, s.combat = some c → c.InOrder n s

theorem combatOrder_perform (several : 2 ≤ n) (few : n ≤ Seat.limit) (h : s.Orderly)
    (derived : s.derive = s) (regular : s.tempo.Regular n) (order : s.CombatOrder n)
    (performed : s.perform config (transform.run config) = .ok (t, events)) : t.CombatOrder n := by
  intro c fighting
  obtain ⟨trace, course, -⟩ := course_of_perform h derived performed
  obtain ⟨after, run, settled⟩ := Outcome.bind_eq_ok.mp performed
  have tempo := tempo_settle settled
  have stage := transform.combatStage run ((congrArg Tempo.combat tempo).symm.trans fighting)
  have view : s.strip.derive = s := (derive_strip s).trans derived
  -- what is in order before is in order afterwards, unless the turn moves on
  have stands (order : c.InOrder n s) (same : after.date = s.date) : c.InOrder n t := by
    have date : t.date = s.date := (date_of_tempo tempo).trans same
    have moment : t.moment = s.moment := congrArg Date.moment date
    exact order.carries course h (moment ▸ order.moment) (congrArg Date.activePlayer date)
  cases stage with
  | opened none moment active nodup able combat same =>
      subst combat
      subst active
      rw [view] at able
      exact stands (.opening few regular moment nodup able) same
  | blocked before moment added same =>
      rw [view] at added
      exact stands (.addBlocks several regular.active moment (order _ before) added) same
  | kept before same => exact stands (order c before) same
  | advanced before later goesOn =>
      have order := order c before
      have date := (date_of_tempo tempo).trans later
      have moment : t.moment = s.strip.advance.moment := congrArg Date.moment date
      obtain ⟨stillOpen, active⟩ := Combat.Open.advance (s := s.strip) order.moment goesOn
      exact order.carries course h (moment ▸ stillOpen) ((congrArg Date.activePlayer date).trans active)

/-- The combat that goes on in the later state is one that went on already, and all permanents have
    stayed since. -/
def Continues (s t : State) : Prop :=
  ∀ c, t.combat = some c →
    (∃ b, s.combat = some b ∧ b.declaration = c.declaration) ∧ s.Stays t

theorem Continues.refl (s : State) : s.Continues s :=
  fun c fighting => ⟨⟨c, fighting, rfl⟩, .refl s⟩

theorem Continues.trans {u : State} (first : s.Continues t) (rest : t.Continues u) : s.Continues u := by
  intro c fighting
  obtain ⟨⟨b, before, same⟩, later⟩ := rest c fighting
  obtain ⟨⟨a, start, same'⟩, earlier⟩ := first b before
  exact ⟨⟨a, start, same'.trans same⟩, earlier.trans later⟩

/-- In combat nothing enters and nothing untaps. -/
theorem stays_of_inOrder (order : c.InOrder n t)
    (came : ∀ id card, t.InPlay id card → Provenance s t id card) : s.Stays t := by
  intro id card permanent
  have phase := order.moment.1
  cases came id card permanent with
  | stayed before stays => exact ⟨_, before, stays⟩
  | entered since sick controller main turn =>
      rw [phase] at main
      cases main
  | readied before controller since sick turn moment =>
      rw [moment] at phase
      cases phase

/-- What is known of a game of `n` players between its operations. -/
structure Governed (n : Nat) (s : State) : Prop where
  orderly : s.Orderly
  derived : s.derive = s
  regular : s.tempo.Regular n
  stack : s.StackOrder
  combat : s.CombatOrder n

section Governed

variable (several : 2 ≤ n) (few : n ≤ Seat.limit) (governed : s.Governed n)
include several few governed

theorem Governed.perform (performed : s.perform config (transform.run config) = .ok (t, events)) :
    t.Governed n := by
  obtain ⟨orderly, derived, regular, stack, combat⟩ := governed
  exact ⟨orderly.perform derived performed, (perform_settled performed).1.derived,
    Match.lasting_regular n transform orderly derived regular performed,
    order_perform orderly derived stack performed,
    combatOrder_perform several few orderly derived regular combat performed⟩

/-- A stage in which no attackers are declared opens no combat, and lets none untap. -/
theorem continues_perform (performed : s.perform config (transform.run config) = .ok (t, events))
    (noOpening : ∀ player attackers, transform ≠ .declareAttackers player attackers) :
    s.Continues t := by
  intro c fighting
  have order := (governed.perform several few performed).combat c fighting
  obtain ⟨orderly, derived, regular, stack, -⟩ := governed
  refine ⟨?_, stays_of_inOrder order fun id card permanent =>
    provenance_perform orderly derived regular stack performed permanent⟩
  obtain ⟨after, run, settled⟩ := Outcome.bind_eq_ok.mp performed
  have combat := congrArg Tempo.combat (tempo_settle settled)
  cases transform.combatStage run (combat.symm.trans fighting) with
  | opened => exact absurd rfl (noOpening _ _)
  | blocked before moment added =>
      refine ⟨_, before, ?_⟩
      rw [addBlockers_eq added]
      rfl
  | kept before => exact ⟨c, before, rfl⟩
  | advanced before => exact ⟨c, before, rfl⟩

theorem continues_endTurn {player : Seat} (ended : s.endTurn config player = .ok (t, events)) :
    s.Continues t := by
  refine endTurn_relates (P := Governed n) (fun _ => Continues.trans) (fun governed stage => ?_)
    governed ended
  exact ⟨governed.perform several few stage, continues_perform several few governed stage nofun⟩

end Governed

/-- After the declaration a combat goes on with the declared attackers. Those without vigilance are
    tapped, unless they have died on the way. -/
theorem perform_declareAttackers {player : Seat} {attackers : List CardId} (h : s.Orderly)
    (derived : s.derive = s)
    (performed : s.perform config ((Transform.declareAttackers player attackers).run config) =
      .ok (t, events)) :
    (∀ c, t.combat = some c → c.attackingPlayer = player ∧ c.attackers = attackers) ∧
      ∀ id ∈ attackers, ∀ a card, s.card? id = some a → a.hasKeyword .vigilance = false →
        t.InPlay id card → card.tapped = true := by
  obtain ⟨after, run, settled⟩ := Outcome.bind_eq_ok.mp performed
  obtain ⟨trace, course, -⟩ := Transform.leads derived h run
  obtain ⟨declared, declaration, run⟩ := Outcome.bind_eq_ok.mp run
  cases run
  obtain ⟨-, -, -, -, -, rfl⟩ := declareAttackers_eq_ok.mp declaration
  refine ⟨fun c fighting => ?_, fun id attacks a card found noVigilance permanent => ?_⟩
  · have combat := congrArg Tempo.combat (tempo_settle settled)
    cases combat.symm.trans fighting
    exact ⟨rfl, rfl⟩
  · obtain ⟨b, ⟨known, -⟩, stays⟩ :=
      ((changes_settle (course.orderly h).keyed settled).stays (course.orderly h)).2 id card permanent
    replace known : (s.strip.tapAttackers s.strip.derive attackers).card? id = some b := known
    rw [card?_tapAttackers, derive_strip, derived, found, if_pos ⟨attacks, noVigilance⟩, card?_strip,
      found] at known
    cases known
    exact stays.tapped rfl

end State

namespace Match

variable {config : Config} {generator : Generator} {catalog : Catalog} {registry : Registry}
  {decks : List (List DefinitionId)} {m next : Match} {n : Nat} {operation : Operation}
  {events : List Event} {before after : List Operation} {b c : Combat}

/-- The operations `before` led to the declaration of the attackers, with the operations `after` it the
    combat has gone on up to this state, and attackers declared without vigilance are tapped as long as
    they are in play. -/
structure Fought (m : Match) (before after : List Operation) (s : State) (c : Combat) : Prop where
  declared : ∃ next events, (m.run (before.map .call)).call c.declaration = .ok (next, events)
  since : ∀ part, part <+: after → ∃ b,
    (m.run ((before ++ c.declaration :: part).map .call)).state.combat = some b ∧
      b.declaration = c.declaration
  led : (m.run ((before ++ c.declaration :: after).map .call)).state = s
  tapped : ∀ id ∈ c.attackers, ∀ a card, (m.run (before.map .call)).state.card? id = some a →
    a.hasKeyword .vigilance = false → s.InPlay id card → card.tapped = true

theorem run_snoc (m : Match) (operations : List Operation) (operation : Operation) :
    m.run ((operations ++ [operation]).map .call) =
      (m.run (operations.map .call)).step (.call operation) := by
  rw [List.map_append, run_append]
  rfl

theorem governed_run (started : start config catalog registry decks generator = .ok m)
    (commands : List Command) : (m.run commands).state.Governed config.playerCount := by
  obtain ⟨several, -, -⟩ := inRound_start started
  have few := (few_players started).le
  obtain ⟨orderly, derived, -⟩ := (kept_start started).present
  have noCombat : m.state.combat = none := congrArg Tempo.combat (tempo_start started)
  refine Lasting.run (P := State.Governed config.playerCount)
    (fun _ _ _ governed stage => governed.perform several few stage) started ?_ commands
  refine ⟨orderly, derived, regular_start started, .of_empty (stack_start started), ?_⟩
  intro c fighting
  cases noCombat.symm.trans fighting

/-- An operation that opens no combat keeps the one that goes on. -/
theorem continues_call (several : 2 ≤ n) (few : n ≤ Seat.limit) (governed : m.state.Governed n)
    (called : m.call operation = .ok (next, events))
    (noOpening : ∀ player attackers, operation ≠ .declareAttackers player attackers) :
    m.state.Continues next.state := by
  obtain ⟨⟨transform, one, stage⟩ | ⟨player, -, ended⟩, -⟩ := call_cases called
  · refine State.continues_perform several few governed stage ?_
    rintro player attackers rfl
    cases operation with
    | act seat action => cases action <;> cases one
    | declareAttackers seat listed => exact noOpening seat listed rfl
    | declareBlockers seat blocks => cases one
    | checkState => cases one
  · exact State.continues_endTurn several few governed ended

/-- An operation opens a combat, or keeps the one that goes on. -/
theorem continues_step (several : 2 ≤ n) (few : n ≤ Seat.limit) (governed : m.state.Governed n)
    (operation : Operation) :
    (∃ player attackers next events, operation = .declareAttackers player attackers ∧
      m.call operation = .ok (next, events)) ∨
      m.state.Continues (m.step (.call operation)).state := by
  cases called : m.call operation with
  | error reason =>
      rw [step_of_error called]
      exact .inr (.refl _)
  | ok result =>
      by_cases opens : ∃ player attackers, operation = .declareAttackers player attackers
      · obtain ⟨player, attackers, same⟩ := opens
        exact .inl ⟨player, attackers, _, _, same, rfl⟩
      · rw [step_of_ok called]
        refine .inr (continues_call several few governed called fun player attackers same => ?_)
        exact opens ⟨player, attackers, same⟩

theorem Fought.opening {player : Seat} {attackers : List CardId}
    (governed : (m.run (before.map .call)).state.Governed n)
    (called : (m.run (before.map .call)).call (.declareAttackers player attackers) =
      .ok (next, events))
    (fighting : next.state.combat = some c) :
    c.declaration = .declareAttackers player attackers ∧ Fought m before [] next.state c := by
  have led := run_snoc m before (.declareAttackers player attackers)
  rw [step_of_ok called] at led
  obtain ⟨opened, tapped⟩ := State.perform_declareAttackers governed.orderly governed.derived
    (perform_of_call rfl called)
  obtain ⟨rfl, rfl⟩ := opened c fighting
  refine ⟨rfl, ⟨next, events, called⟩, fun part none => ?_, congrArg Match.state led, tapped⟩
  rw [List.prefix_nil.mp none]
  exact ⟨c, (congrArg (fun r => r.state.combat) led).trans fighting, rfl⟩

theorem Fought.of_same {s : State} (fought : Fought m before after s b)
    (same : b.declaration = c.declaration) : Fought m before after s c := by
  obtain ⟨declared, since, led, tapped⟩ := fought
  have attackers : b.attackers = c.attackers := (Operation.declareAttackers.inj same).2
  rw [same] at declared since led
  rw [attackers] at tapped
  exact ⟨declared, since, led, tapped⟩

theorem Fought.extend {s t : State} (fought : Fought m before after s c) (continues : s.Continues t)
    (led : (m.run ((before ++ c.declaration :: (after ++ [operation])).map .call)).state = t)
    (fighting : t.combat = some c) : Fought m before (after ++ [operation]) t c := by
  obtain ⟨-, stays⟩ := continues c fighting
  refine ⟨fought.declared, fun part earlier => ?_, led, fun id attacks a card found lacks inPlay => ?_⟩
  · rcases List.prefix_concat_iff.mp earlier with rfl | earlier
    · exact ⟨c, led ▸ fighting, rfl⟩
    · exact fought.since part earlier
  · obtain ⟨d, before, stays⟩ := stays id card inPlay
    exact stays.tapped (fought.tapped id attacks a d found lacks before)

/-- Every combat of a run without undoing was opened by one of the operations, and has been fought
    since. -/
theorem fought_calls (started : start config catalog registry decks generator = .ok m)
    (operations : List Operation)
    (fighting : (m.run (operations.map .call)).state.combat = some c) :
    ∃ before after, operations = before ++ c.declaration :: after ∧
      Fought m before after (m.run (operations.map .call)).state c := by
  obtain ⟨several, -, -⟩ := inRound_start started
  -- on the last operation: it has opened the combat, or the combat went on before it
  induction operations using List.reverseRecOn generalizing c with
  | nil =>
      have noCombat : m.state.combat = none := congrArg Tempo.combat (tempo_start started)
      cases noCombat.symm.trans fighting
  | append_singleton earlier operation ih =>
      have governed := governed_run started (earlier.map .call)
      have last := run_snoc m earlier operation
      obtain ⟨player, attackers, next, events, rfl, called⟩ | continues :=
        continues_step several (few_players started).le governed operation
      · rw [last, step_of_ok called] at fighting ⊢
        obtain ⟨same, fought⟩ := Fought.opening governed called fighting
        exact ⟨earlier, [], by rw [same], fought⟩
      · rw [← last] at continues
        obtain ⟨⟨b, before, same⟩, -⟩ := continues c fighting
        obtain ⟨first, after, rfl, fought⟩ := ih before
        refine ⟨first, after ++ [operation], by simp [same], ?_⟩
        exact (fought.of_same same).extend continues (by simp [same]) fighting

/-- Along every run from a deal, a combat that goes on is in order. Of the operations that stand after
    the run, one has opened the combat, which has gone on since then, and attackers declared without
    vigilance are tapped as long as they are in play. -/
theorem combat_in_order (config : Config) {generator : Generator} (catalog : Catalog)
    (registry : Registry) (decks : List (List DefinitionId)) (m : Match) (commands : List Command)
    (c : Combat) (started : start config catalog registry decks generator = .ok m)
    (fighting : (m.run commands).state.combat = some c) :
    c.InOrder config.playerCount (m.run commands).state ∧
      ∃ before after, (m.standing [] commands).reverse = before ++ c.declaration :: after ∧
        Fought m before after (m.run commands).state c := by
  obtain ⟨-, -, -, fresh⟩ := start_eq_ok started
  have same := congrArg Match.state (run_standing fresh commands)
  replace same : (m.run ((m.standing [] commands).reverse.map .call)).state =
    (m.run commands).state := same
  rw [← same] at fighting ⊢
  refine ⟨?_, fought_calls started _ fighting⟩
  exact (governed_run started _).combat c fighting

/-- An attack that is blocked, and a pass that is undone. -/
def untilBlock : List Command :=
  untilAttack.map .call ++ [.call (.declareAttackers 0 [1]), .call (.act 0 .advanceStep),
    .call (.declareBlockers 1 [(2, 1)]), .call (.act 0 .passPriority), .undo]

theorem combat_in_order_skirmish :
    ∃ m c, skirmish = .ok m ∧ (m.run untilBlock).state.combat = some c ∧ c.attackers = [1] ∧
      c.blockers = [2] ∧ c.InOrder 2 (m.run untilBlock).state ∧
      ∃ before after, (m.standing [] untilBlock).reverse = before ++ c.declaration :: after ∧
        Fought m before after (m.run untilBlock).state c := by
  have played : (do
      let m ← skirmish
      .ok ((m.run untilBlock).state.combat.map fun c => (c.attackers, c.blockers)) :
        Outcome (Option (List CardId × List CardId))) = .ok (some ([1], [2])) := by decide +kernel
  obtain ⟨m, started, played⟩ := Outcome.bind_eq_ok.mp played
  obtain ⟨c, fighting, lists⟩ := Option.map_eq_some_iff.mp (Except.ok.inj played)
  obtain ⟨attackers, blockers⟩ := Prod.mk.inj lists
  obtain ⟨order, fought⟩ := combat_in_order _ _ _ _ m untilBlock c started fighting
  exact ⟨m, c, started, fighting, attackers, blockers, order, fought⟩

end Match

end CardGame
