import CardGame.Proofs.Passing
import CardGame.Proofs.Run
import CardGame.Proofs.Tempo

/-! # What spells destroy

An effect destroys those of its targets that are creatures in play where it resolves. An activated
ability resolves among derived characteristics, a spell among printed ones.
-/

namespace CardGame

namespace State

variable {s t : State} {id : CardId}

theorem isCreatureInPlay_iff_types :
    s.isCreatureInPlay id = true ↔
      s.zoneKind? id = some .battlefield ∧ ∃ types, s.types id = some types ∧ .creature ∈ types := by
  simp only [isCreatureInPlay, isOnBattlefield, Bool.and_eq_true, decide_eq_true_eq, types]
  cases s.card? id <;> simp [Card.isCreature, Card.hasType]

theorem Still.isCreatureInPlay (h : s.Still t) (id : CardId) :
    t.isCreatureInPlay id = s.isCreatureInPlay id := by
  rw [Bool.eq_iff_iff, isCreatureInPlay_iff_types, isCreatureInPlay_iff_types, h.types,
    zoneKind?_congr h.layout]

theorem zoneKind?_bury (h : s.Orderly) (buried : s.bury id = .ok t) (other : CardId) :
    t.zoneKind? other = if other = id then some .graveyard else s.zoneKind? other := by
  obtain ⟨c, p, source, kind, found, owner, -, hkind, rfl⟩ := bury_eq_ok.mp buried
  rw [zoneKind?_relocate _ _ found, Card.zone_movedTo, h.graveyard owner]

/-- A card in play stays there unless it dies. -/
theorem Course.battlefield {trace : List Happening} (course : Course s trace t) (h : s.Orderly)
    (inPlay : s.zoneKind? id = some .battlefield) :
    t.zoneKind? id = some .battlefield ∨
      t.zoneKind? id = some .graveyard ∧ ∃ event ∈ deathsIn trace, event.subject = id := by
  induction course with
  | done => exact .inl inPlay
  | still same _ ih => exact ih (h.congr same) (by rw [zoneKind?_congr same, inPlay])
  | @next s t u happening trace happens rest ih =>
      have shifts := happens.shifts h
      rw [deathsIn_cons]
      by_cases same : id = happening.card
      · rw [same, shifts.source] at inPlay
        cases happening with
        | died card controller owner =>
            have buried := rest.graveyard shifts.orderly shifts.target
            exact .inr ⟨same ▸ buried, _, List.mem_cons_self, same.symm⟩
        | _ => cases inPlay
      · obtain inPlay | ⟨buried, event, member, subject⟩ :=
          ih shifts.orderly (by rw [shifts.others same, inPlay])
        · exact .inl inPlay
        · exact .inr ⟨buried, event, List.mem_append_right _ member, subject⟩

/-- The card is a creature in play, or already in a graveyard. -/
def Doomed (s : State) (id : CardId) : Prop :=
  s.isCreatureInPlay id = true ∨ s.zoneKind? id = some .graveyard

theorem Doomed.course {trace : List Happening} (doomed : s.Doomed id) (h : s.Orderly)
    (course : Course s trace t) (types : t.types = s.types) : t.Doomed id := by
  obtain creature | buried := doomed
  · obtain ⟨inPlay, isCreature⟩ := isCreatureInPlay_iff_types.mp creature
    obtain inPlay | ⟨buried, -⟩ := course.battlefield h inPlay
    · exact .inl (isCreatureInPlay_iff_types.mpr ⟨inPlay, types ▸ isCreature⟩)
    · exact .inr buried
  · exact .inr (course.graveyard h buried)

/-- Destroying puts every doomed card among its targets into a graveyard. -/
theorem zoneKind?_destroy {ids : List CardId} (h : s.Orderly) (doomed : s.Doomed id)
    (listed : id ∈ ids) (destroyed : s.destroy ids = .ok t) :
    t.zoneKind? id = some .graveyard := by
  induction ids generalizing s with
  | nil => cases listed
  | cons other rest ih =>
      have stays {mid : State} (orderly : mid.Orderly) (buried : mid.zoneKind? id = some .graveyard)
          (destroyed : mid.destroy rest = .ok t) : t.zoneKind? id = some .graveyard := by
        obtain ⟨trace, course, -⟩ := (wanes_destroy destroyed).course orderly
        exact course.graveyard orderly buried
      rw [destroy] at destroyed
      split at destroyed
      · rename_i creature
        obtain ⟨mid, buried, others⟩ := Outcome.bind_eq_ok.mp destroyed
        obtain ⟨trace, course, -⟩ := (wanes_bury creature buried).course h
        have orderly := course.orderly h
        rcases List.mem_cons.mp listed with rfl | listed
        · exact stays orderly (by rw [zoneKind?_bury h buried, if_pos rfl]) others
        · exact ih orderly (doomed.course h course (alike_bury buried).types) listed others
      · rename_i noCreature
        rcases List.mem_cons.mp listed with rfl | listed
        · exact stays h (doomed.resolve_left noCreature) destroyed
        · exact ih h doomed listed destroyed

/-- A spell or ability that destroys its targets does so whatever effects it has besides. -/
theorem zoneKind?_resolveEffects {context : EffectContext} {effects : List Descriptor}
    (h : s.Orderly) (doomed : s.Doomed id) (chosen : id ∈ context.targets)
    (destroys : ∃ d ∈ effects, Effect.ofDescriptor d = .ok (.destroy .chosen))
    (resolved : s.resolveEffects context effects = .ok t) :
    t.zoneKind? id = some .graveyard := by
  induction effects generalizing s with
  | nil =>
      obtain ⟨d, listed, -⟩ := destroys
      cases listed
  | cons first rest ih =>
      rw [resolveEffects, List.foldlM_cons, Outcome.bind_eq_ok] at resolved
      obtain ⟨mid, step, resolved⟩ := resolved
      obtain ⟨effect, reads, step⟩ := Outcome.bind_eq_ok.mp step
      obtain ⟨trace, course, -⟩ := (Effect.wanes step).course h
      have orderly := course.orderly h
      obtain ⟨d, listed, destroys⟩ := destroys
      rcases List.mem_cons.mp listed with rfl | listed
      · obtain rfl := Except.ok.inj (reads.symm.trans destroys)
        have buried := zoneKind?_destroy h doomed chosen step
        obtain ⟨later, more, -⟩ := (wanes_resolveEffects resolved).course orderly
        exact more.graveyard orderly buried
      · have doomed := doomed.course h course (Effect.alike step).types
        exact ih orderly doomed ⟨d, listed, destroys⟩ resolved

/-- Is the card an instant or sorcery that destroys its targets, and was it cast with this one? -/
def condemns (s : State) (spell target : CardId) : Bool :=
  (s.card? spell).any fun c => !c.definition.isPermanent && decide (target ∈ c.targets) &&
    c.definition.effects.any fun d => Effect.ofDescriptor d = .ok (.destroy .chosen)

theorem condemns_iff {spell target : CardId} :
    s.condemns spell target = true ↔
      ∃ c, s.card? spell = some c ∧ c.definition.isPermanent = false ∧ target ∈ c.targets ∧
        ∃ d ∈ c.definition.effects, Effect.ofDescriptor d = .ok (.destroy .chosen) := by
  simp [condemns, Option.any_eq_true, and_assoc]

theorem condemns_strip (s : State) (spell target : CardId) :
    s.strip.condemns spell target = s.condemns spell target := by
  rw [condemns, condemns, card?_strip, Option.any_map]
  rfl

theorem zoneKind?_resolveCard {spell target : CardId} (h : s.Orderly)
    (condemned : s.condemns spell target = true) (doomed : s.Doomed target)
    (resolved : s.resolveCard spell = .ok t) : t.zoneKind? target = some .graveyard := by
  obtain ⟨c, found, perishes, chosen, destroys⟩ := condemns_iff.mp condemned
  obtain ⟨d, known, resolved⟩ := Outcome.bind_eq_ok.mp resolved
  obtain rfl : c = d := Option.some.inj (found.symm.trans (card_eq_ok.mp known))
  rw [if_neg (by simp [perishes]), Outcome.bind_eq_ok] at resolved
  obtain ⟨next, effects, buried⟩ := resolved
  have orderly := (wanes_resolveEffects effects).orderly h
  rw [zoneKind?_bury orderly buried, zoneKind?_resolveEffects h doomed chosen destroys effects, ite_self]

/-- A spell that resolves destroys of its targets the creatures in play, as the state that it resolves
    in tells them. -/
theorem pass_destroys {spell target : CardId} (h : s.Orderly)
    (passed : s.pass = .ok (t, .resolved spell)) (condemned : s.condemns spell target = true)
    (inPlay : s.zoneKind? target = some .battlefield) :
    t.zoneKind? target =
      if s.isCreatureInPlay target then some .graveyard else some .battlefield := by
  obtain ⟨trace, course, only⟩ : Leads s s t := leads_pass h h.keyed (Within.refl s) passed
  obtain ⟨other, -⟩ | ⟨other, -⟩ | ⟨top, next, same, -, -, resolved, rfl⟩ := pass_cases passed
  · cases other
  · cases other
  · cases same
    split
    · rename_i creature
      have counted : { s with passes := s.passes + 1 }.Orderly := h.congr rfl
      have buried : next.zoneKind? target = some .graveyard :=
        zoneKind?_resolveCard counted condemned (.inl creature) resolved
      exact buried
    · rename_i noCreature
      obtain stays | ⟨-, event, dies, rfl⟩ := course.battlefield h inPlay
      · exact stays
      · exact absurd (only event dies) noCreature

theorem isCreatureInPlay_of_checkTargets {targets : List CardId} {u : Unit}
    (checked : Effect.checkTargets (.destroy .chosen) s targets = .ok u) (chosen : id ∈ targets) :
    s.isCreatureInPlay id = true := by
  simp only [Effect.checkTargets, Effect.needsTargets, if_true] at checked
  split at checked
  · cases checked
  · split at checked
    · cases checked
    · rename_i none
      simpa using List.find?_eq_none.mp none id chosen

/-- An ability that destroys its targets has creatures in play as targets, and destroys them all. -/
theorem activate_destroys {player : Seat} {card : CardId} {ability : AbilityId}
    {targets : List CardId} {a : ActivatedAbility} (h : s.Orderly)
    (found : s.derive.activatedAbility card ability = .ok a) (destroys : a.effect = .destroy .chosen)
    (chosen : id ∈ targets) (activated : s.activate player card ability targets = .ok t) :
    s.derive.isCreatureInPlay id = true ∧ t.zoneKind? id = some .graveyard := by
  simp only [activate, Outcome.bind_eq_ok] at activated
  obtain ⟨-, -, b, known, next, activated, done⟩ := activated
  cases done
  obtain rfl := Except.ok.inj (known.symm.trans found)
  simp only [ActivatedAbility.activate, Outcome.bind_eq_ok, destroys] at activated
  obtain ⟨_, -, _, checked, paid, payment, resolved⟩ := activated
  have creature := isCreatureInPlay_of_checkTargets checked chosen
  have still := ActivationCost.still_payAll payment
  have orderly : paid.Orderly := h.congr (still.layout.trans (layout_derive s))
  have unchanged : paid.isCreatureInPlay id = true := (still.isCreatureInPlay id).trans creature
  have buried : next.zoneKind? id = some .graveyard :=
    zoneKind?_destroy orderly (.inl unchanged) chosen resolved
  exact ⟨creature, buried⟩

/-- Is the card in the graveyard of its owner? -/
def isInOwnersGraveyard (s : State) (id : CardId) : Bool :=
  (s.card? id).any fun c => (s.player? c.owner).any fun p => id ∈ s.contents p.zones.graveyard

theorem Orderly.isInOwnersGraveyard (h : s.Orderly) (buried : s.zoneKind? id = some .graveyard) :
    s.isInOwnersGraveyard id = true := by
  obtain ⟨c, found, kind⟩ := Option.bind_eq_some_iff.mp buried
  obtain ⟨owner, -, seated, -, -, -, graveyard, -⟩ := h.accounted.home found
  have listed : id ∈ s.contents c.zone := List.count_pos_iff.mp (by simp [h.placed found])
  rw [graveyard kind] at listed
  simp [State.isInOwnersGraveyard, found, seated, listed]

end State

namespace Match

/-- What a stage has put into a graveyard before it settles is there in the end. -/
theorem Kept.isInOwnersGraveyard {origin after t : State} {m : Match} {transform : Transform}
    {rounds : Nat} {events : List Event} {id : CardId} (h : Kept origin m)
    (run : transform.run m.config m.state.strip = .ok after)
    (settled : State.settle rounds m.state after = .ok (t, events))
    (buried : after.zoneKind? id = some .graveyard) : t.isInOwnersGraveyard id = true := by
  obtain ⟨trace, later, course, more, -⟩ :=
    State.course_of_settle h.present.orderly h.present.derived run settled
  have orderly := course.orderly h.present.orderly
  exact (more.orderly orderly).isInOwnersGraveyard (more.graveyard orderly buried)

/-- Along every run from a deal, a pass that lets an instant or sorcery resolve which destroys its
    targets puts into their owners' graveyards those that are creatures in play by print. A target
    that is one by its derived types only is left in play by the spell. -/
theorem spell_destroys (config : Config) {generator : Generator} (catalog : Catalog)
    (registry : Registry) (decks : List (List DefinitionId)) (m : Match) (commands : List Command)
    (player : Seat) (next : Match) (events : List Event) (after : State) (spell target : CardId)
    (started : start config catalog registry decks generator = .ok m)
    (called : (m.run commands).call (.act player .passPriority) = .ok (next, events))
    (resolved : (m.run commands).state.strip.pass = .ok (after, .resolved spell))
    (condemned : (m.run commands).state.condemns spell target = true)
    (creature : (m.run commands).state.isCreatureInPlay target = true) :
    ((m.run commands).state.strip.isCreatureInPlay target = true →
        next.state.isInOwnersGraveyard target = true) ∧
      ((m.run commands).state.strip.isCreatureInPlay target = false →
        after.zoneKind? target = some .battlefield) := by
  have kept := (kept_start started).run commands
  generalize m.run commands = present at *
  have layout := State.layout_strip present.state
  have orderly : present.state.strip.Orderly := kept.present.orderly.congr layout
  have inPlay : present.state.strip.zoneKind? target = some .battlefield := by
    rw [State.zoneKind?_congr layout]
    exact of_decide_eq_true (Bool.and_eq_true_iff.mp creature).1
  have destroyed := State.pass_destroys orderly resolved
    ((State.condemns_strip ..).trans condemned) inPlay
  refine ⟨fun printed => ?_, fun notPrinted => by simpa [notPrinted] using destroyed⟩
  obtain ⟨-, -, after', outcome, passed, settled⟩ := pass_eq_ok called
  obtain ⟨rfl, -⟩ := Prod.mk.inj (Except.ok.inj (resolved.symm.trans passed))
  have run : Transform.pass.run present.config present.state.strip = .ok after := by
    simp only [Transform.run, resolved, bind, Except.bind]
  exact kept.isInOwnersGraveyard run settled (by simpa [printed] using destroyed)

/-- Along every run from a deal, an ability that destroys its targets puts all of them into their
    owners' graveyards, whatever makes creatures of them. -/
theorem ability_destroys (config : Config) {generator : Generator} (catalog : Catalog)
    (registry : Registry) (decks : List (List DefinitionId)) (m : Match) (commands : List Command)
    (player : Seat) (next : Match) (events : List Event) (card target : CardId)
    (ability : AbilityId) (targets : List CardId) (a : ActivatedAbility)
    (started : start config catalog registry decks generator = .ok m)
    (called : (m.run commands).call (.act player (.activateAbility card ability targets)) =
      .ok (next, events))
    (found : (m.run commands).state.activatedAbility card ability = .ok a)
    (destroys : a.effect = .destroy .chosen) (chosen : target ∈ targets) :
    (m.run commands).state.isCreatureInPlay target = true ∧
      next.state.isInOwnersGraveyard target = true := by
  have kept := (kept_start started).run commands
  generalize m.run commands = present at *
  simp only [call, apply, Outcome.bind_eq_ok] at called
  obtain ⟨_, -, _, -, _, -, ⟨state, more⟩, acted, committed⟩ := called
  cases committed
  obtain ⟨after, activated, settled⟩ := Outcome.bind_eq_ok.mp acted
  have derived : present.state.strip.derive = present.state :=
    (State.derive_strip _).trans kept.present.derived
  have orderly : present.state.strip.Orderly := kept.present.orderly.congr (State.layout_strip _)
  obtain ⟨creature, buried⟩ := State.activate_destroys orderly (derived.symm ▸ found) destroys chosen
    activated
  have run : Transform.run present.config (.activate player card ability targets)
      present.state.strip = .ok after := activated
  exact ⟨derived ▸ creature, kept.isInOwnersGraveyard run settled buried⟩

/-- A land that is a creature by its own abilities, a creature by print, and an instant that destroys
    its targets, all in the hand of one player. -/
def ambush : Outcome Match :=
  let grove : Definition := { Definition.basicLand 0 "Grove" with
    abilities := [⟨"add_type", .ofList [("type", .text "creature")]⟩,
      ⟨"set_base_pt", .ofList [("power", .int 2), ("toughness", .int 2)]⟩] }
  let murder : Definition :=
    { id := 2, name := "Murder", types := [.instant], effects := [⟨"destroy", .empty⟩] }
  start { openingHandSize := 3, shuffleLibraries := false }
    ⟨Table.ofList [(0, grove), (1, .creature 1 "Bear" 2 2), (2, murder)]⟩ .builtin [[0, 1, 2], []]

/-- The instant is cast with both creatures as targets, and all but one player have passed. -/
def untilMurder : List Operation :=
  toMain ++ [.act 0 (.playLand 1), .act 0 (.castSpell 2 []), .act 0 .passPriority,
    .act 1 .passPriority, .act 0 (.castSpell 3 [1, 2]), .act 0 .passPriority]

/-- Both targets are creatures in play when the instant resolves, the second one by print. Only that
    one dies. -/
theorem murder_resolves :
    ∃ m next after, ambush = .ok m ∧
      (m.run (untilMurder.map .call)).call (.act 1 .passPriority) =
        .ok (next, [.creatureDied 2 0 0]) ∧
      (m.run (untilMurder.map .call)).state.strip.pass = .ok (after, .resolved 3) ∧
      [1, 2].map (m.run (untilMurder.map .call)).state.isCreatureInPlay = [true, true] ∧
      [1, 2].map ((m.run (untilMurder.map .call)).state.condemns 3) = [true, true] ∧
      [1, 2].map (m.run (untilMurder.map .call)).state.strip.isCreatureInPlay = [false, true] ∧
      [1, 2].map next.state.isInOwnersGraveyard = [false, true] := by
  have played : (do
      let m ← ambush
      let present := (m.run (untilMurder.map .call)).state
      let answer ← (m.run (untilMurder.map .call)).call (.act 1 .passPriority)
      let passing ← present.strip.pass
      .ok (answer.2, passing.2, [[1, 2].map present.isCreatureInPlay,
        [1, 2].map (present.condemns 3), [1, 2].map present.strip.isCreatureInPlay,
        [1, 2].map answer.1.state.isInOwnersGraveyard]) :
        Outcome (List Event × PassOutcome × List (List Bool))) =
      .ok ([.creatureDied 2 0 0], .resolved 3,
        [[true, true], [true, true], [false, true], [false, true]]) := by decide +kernel
  obtain ⟨m, started, played⟩ := Outcome.bind_eq_ok.mp played
  obtain ⟨⟨next, events⟩, called, played⟩ := Outcome.bind_eq_ok.mp played
  obtain ⟨⟨after, outcome⟩, passed, same⟩ := Outcome.bind_eq_ok.mp played
  simp only [Except.ok.injEq, Prod.mk.injEq, List.cons.injEq, and_true] at same
  obtain ⟨rfl, rfl, facts⟩ := same
  exact ⟨m, next, after, started, called, passed, facts⟩

theorem spell_destroys_bear :
    ∃ m next after, ambush = .ok m ∧
      (m.run (untilMurder.map .call)).call (.act 1 .passPriority) =
        .ok (next, [.creatureDied 2 0 0]) ∧
      (m.run (untilMurder.map .call)).state.strip.pass = .ok (after, .resolved 3) ∧
      next.state.isInOwnersGraveyard 2 = true := by
  obtain ⟨m, next, after, started, called, passed, creatures, condemned, printed, -⟩ :=
    murder_resolves
  simp only [List.map_cons, List.cons.injEq] at creatures condemned printed
  have destroyed := spell_destroys _ _ _ _ m (untilMurder.map .call) 1 next _ after 3 2 started called
    passed condemned.2.1 creatures.2.1
  exact ⟨m, next, after, started, called, passed, destroyed.1 printed.2.1⟩

/-- The land is a creature in play, as the cast of the instant found it, and yet the instant leaves it
    there. -/
theorem spell_spares_grove :
    ∃ m next after, ambush = .ok m ∧
      (m.run (untilMurder.map .call)).call (.act 1 .passPriority) =
        .ok (next, [.creatureDied 2 0 0]) ∧
      (m.run (untilMurder.map .call)).state.strip.pass = .ok (after, .resolved 3) ∧
      (m.run (untilMurder.map .call)).state.condemns 3 1 = true ∧
      (m.run (untilMurder.map .call)).state.isCreatureInPlay 1 = true ∧
      next.state.isInOwnersGraveyard 1 = false := by
  obtain ⟨m, next, after, started, called, passed, creatures, condemned, -, buried⟩ :=
    murder_resolves
  simp only [List.map_cons, List.cons.injEq] at creatures condemned buried
  exact ⟨m, next, after, started, called, passed, condemned.1, creatures.1, buried.1⟩

end Match

end CardGame
