import CardGame.Proofs.CombatOrder
import CardGame.Proofs.Marks
import CardGame.Proofs.Wounds

/-! # Damage and the turn

Damage is dealt in combat and wears off before the turn is over. All that time it is marked on cards
that are on a battlefield.
-/

namespace CardGame

namespace Moment

/-- From combat damage on, until it wears off, cards may have damage. -/
def Wounding (m : Moment) : Prop :=
  m.step = some .combatDamage ∨ m.step = some .endCombat ∨ m.phase = .postCombatMain ∨
    m.step = some .endStep

instance : DecidablePred Wounding := fun _ => inferInstanceAs (Decidable (_ ∨ _))

/-- Damage that there may be in one moment there may be in the next, until it wears off. -/
theorem wounding_next {m next : Moment} (ordered : m ∈ sequence) (member : next ∈ sequence)
    (less : next.left + 1 = m.left) (lasts : next.step ≠ some .cleanup) (wounding : m.Wounding) :
    next.Wounding := by
  have all : ∀ m ∈ sequence, ∀ next ∈ sequence, next.left + 1 = m.left →
      next.step ≠ some .cleanup → m.Wounding → next.Wounding := by decide
  exact all m ordered next member less lasts wounding

theorem not_wounding_of_last {m : Moment} (ordered : m ∈ sequence) (last : m.left = 1) :
    ¬m.Wounding := by
  revert m
  decide

end Moment

namespace State

variable {config : Config} {damaged damaged' whole : Prop} {s t : State} {id : CardId} {c c' : Card}

theorem clean_dealDamage {defending : Seat} {plan : DamagePlan} (h : s.Clean damaged whole)
    (wounds : s.Wounds plan) (fits : whole → s.CanMark plan)
    (dealt : s.dealDamage defending plan = .ok t) : t.Clean True whole := by
  intro id c kind found inZone
  rw [card?_dealDamage dealt, Option.map_eq_some_iff] at found
  obtain ⟨b, known, rfl⟩ := found
  rw [kindOfZone?_congr (still_dealDamage dealt).layout] at inZone
  have clean := h id b kind known inZone
  by_cases inPlay : kind = .battlefield
  · subst inPlay
    refine clean.hurt fun exact => ?_
    rw [DamagePlan.mark_of_isWord (fits exact id b known)]
    exact Int.add_nonneg (clean.nonneg exact) (wounds.total_nonneg id)
  · have off : s.isOnBattlefield id = false := by
      simp [isOnBattlefield, (zoneKind?_of_card? known).trans inZone, inPlay]
    rw [wounds.mark_eq off]
    exact clean.mono fun _ => trivial

/-- Combat damage, if there is any, leaves a word on every card in both passes. -/
def Sustains (s : State) : Prop :=
  ∀ combat, s.combat = some combat →
    let first := s.derive.planDamage combat .firstStrike .empty
    s.derive.CanMark first.plan ∧
      ∀ between, s.derive.dealFirstStrike combat.defendingPlayer first.plan = .ok between →
        between.CanMark (between.planDamage combat .regular first.assigned).plan

theorem Sustains.of_strip (h : s.Sustains) (same : s.strip = t.strip) : t.Sustains := by
  have combat : s.combat = t.combat := (congrArg State.combat same :)
  have derived : s.derive = t.derive := by rw [← derive_strip, same, derive_strip]
  intro fought opened
  rw [← derived]
  exact h fought (combat.trans opened)

theorem clean_combatDamage (h : s.Clean True whole) (orderly : s.Orderly)
    (fits : whole → s.Sustains) (dealt : s.combatDamage = .ok t) : t.Clean True whole := by
  obtain rfl | ⟨combat, between, opened, first, second⟩ := combatDamage_cases dealt
  · exact h
  obtain ⟨hurt, struck, after⟩ := dealFirstStrike_eq_ok first
  have derived : Ripples (fun _ => ()) s s.derive := .derive s
  obtain ⟨orderly, h⟩ := h.ripples orderly derived
  have wounded := clean_dealDamage h (wounds_planDamage _ _ _ _) (fun exact => (fits exact _ opened).1)
    struck
  have between : between.Clean True whole := by
    obtain ⟨-, rfl⟩ | ⟨r, rest, rfl⟩ := after
    · exact h
    · have orderly := orderly.congr (still_dealDamage struck).layout
      have rested : Ripples (fun _ => ()) hurt r.state :=
        ripples_toRest (fun _ _ _ => rfl) orderly.keyed rest
      exact (wounded.ripples orderly rested).2
  exact clean_dealDamage between (wounds_planDamage _ _ _ _)
    (fun exact => (fits exact _ opened).2 _ first) second

/-- Damage that was there stays unless it wears off, and only combat brings more. -/
theorem clean_beginMoment (h : s.Clean damaged whole) (orderly : s.Orderly)
    (lasts : s.moment.step ≠ some .cleanup → damaged → s.moment.Wounding)
    (fits : whole → s.moment.step = some .combatDamage → s.emptyPools.Sustains)
    (begun : s.beginMoment config = .ok t) : t.Clean s.moment.Wounding whole := by
  have same : s.SameBoard s.emptyPools := ⟨rfl, layout_mapPlayers s fun _ => rfl⟩
  have emptied := h.aside same
  have orderly := orderly.congr same.layout
  unfold beginMoment at begun
  dsimp only at begun
  split at begun
  · rename_i step
    have kept := emptied.mono (lasts fun cleanup => nomatch cleanup.symm.trans step)
    obtain ⟨ready, untapped, begun⟩ := Outcome.bind_eq_ok.mp begun
    cases begun
    refine Clean.aside (s := ready) ?_ ⟨rfl, layout_updateSeats _ fun _ => rfl⟩
    obtain ⟨-, rfl⟩ := changeCards_eq_ok.mp untapped
    refine kept.updatePermanents orderly.keyed (fun _ => rfl) fun c clean => ?_
    split
    · exact clean.tap false false
    · exact clean
  · rename_i step
    have kept := emptied.mono (lasts fun cleanup => nomatch cleanup.symm.trans step)
    have drawn : Ripples (fun _ => ()) s.emptyPools t := ripples_drawStep begun
    exact (kept.ripples orderly drawn).2
  · rename_i step
    have wounding : s.moment.Wounding := .inl step
    exact (clean_combatDamage (emptied.mono fun _ => trivial) orderly
      (fun exact => fits exact step) begun).mono fun _ => wounding
  · rename_i step
    have kept := emptied.mono (lasts fun cleanup => nomatch cleanup.symm.trans step)
    cases begun
    exact kept.aside ⟨rfl, rfl⟩
  · obtain ⟨-, rfl⟩ := changeCards_eq_ok.mp begun
    refine emptied.updatePermanents orderly.keyed (fun _ => rfl) fun c clean => ?_
    split
    · exact clean.heal
    · rename_i unhurt
      have none : c.damage = 0 := by simpa using unhurt
      exact ⟨clean.plain, clean.untargeted, clean.nonneg, fun _ => none⟩
  · rename_i notCleanup
    cases begun
    exact emptied.mono (lasts notCleanup)

/-- If the next moment brings combat damage, that leaves a word on every card. -/
def SustainsNext (s : State) : Prop :=
  s.advance.moment.step = some .combatDamage → s.advance.emptyPools.Sustains

theorem SustainsNext.strip (h : s.SustainsNext) : s.strip.SustainsNext := by
  intro damage
  rw [advance_strip] at damage ⊢
  exact (h damage).of_strip (strip_strip s.advance.emptyPools).symm

theorem clean_endMoment {player : Seat} {n : Nat} (h : s.Clean s.moment.Wounding whole)
    (orderly : s.Orderly) (regular : s.tempo.Regular n) (fits : whole → s.SustainsNext)
    (ended : s.endMoment config player = .ok t) : t.Clean t.moment.Wounding whole := by
  have moment : t.moment = s.advance.moment := congrArg Date.moment (date_endMoment ended)
  obtain ⟨-, -, begun, begins, rfl⟩ := endMoment_eq_ok.mp ended
  refine Clean.aside (s := begun) ?_ ⟨rfl, rfl⟩
  rw [moment]
  obtain ⟨next, member, advanced, less⟩ | ⟨advanced, last⟩ := advance_cases regular.moment
  · rw [advanced] at begins ⊢
    exact clean_beginMoment (h.aside ⟨rfl, rfl⟩) (orderly.congr rfl)
      (fun lasts => Moment.wounding_next regular.moment member less lasts)
      (fun exact step => advanced ▸ fits exact (advanced ▸ step)) begins
  · rw [advanced] at begins ⊢
    exact clean_beginMoment (h.aside ⟨rfl, rfl⟩) (orderly.congr rfl)
      (fun _ wounding => absurd wounding (Moment.not_wounding_of_last regular.moment last))
      (fun exact step => advanced ▸ fits exact (advanced ▸ step)) begins

end State

open State

theorem Transform.clean {config : Config} {transform : Transform} {whole : Prop} {s t : State}
    {n : Nat} (h : s.Clean s.moment.Wounding whole) (orderly : s.Orderly)
    (regular : s.tempo.Regular n)
    (fits : whole → ∀ player, transform = .endMoment player → s.SustainsNext)
    (run : transform.run config s.strip = .ok t) : t.Clean t.moment.Wounding whole := by
  have printed : s.strip.Clean s.moment.Wounding whole := h.of_strip (strip_strip s).symm
  replace orderly : s.strip.Orderly := orderly.congr (layout_strip s)
  by_cases ends : ∃ player, transform = .endMoment player
  · obtain ⟨player, rfl⟩ := ends
    exact clean_endMoment (s := s.strip) printed orderly regular
      (fun exact => (fits exact player rfl).strip) run
  -- every other stage is at the same moment
  have moment : t.moment = s.moment :=
    congrArg Date.moment ((transform.date_cases run).resolve_right ends)
  rw [moment]
  cases transform with
  | playLand player card =>
      obtain ⟨next, played, same⟩ := happens_playLand run
      exact (printed.happens orderly played).aside same
  | cast player card targets =>
      obtain ⟨paid, next, payment, put, same⟩ := happens_cast run
      exact ((printed.aside payment).happens (orderly.congr payment.layout) put).aside same
  | activate player card ability targets => exact clean_activate printed orderly run
  | pass =>
      obtain ⟨⟨next, outcome⟩, passed, run⟩ := Outcome.bind_eq_ok.mp run
      cases run
      exact clean_pass printed orderly passed
  | endMoment player => exact absurd ⟨player, rfl⟩ ends
  | declareAttackers player attackers =>
      obtain ⟨next, declared, run⟩ := Outcome.bind_eq_ok.mp run
      cases run
      exact (clean_declareAttackers printed declared).aside ⟨rfl, rfl⟩
  | declareBlockers player blocks =>
      obtain ⟨next, declared, run⟩ := Outcome.bind_eq_ok.mp run
      cases run
      exact (clean_declareBlockers printed declared).aside ⟨rfl, rfl⟩
  | stay =>
      cases run
      exact printed

/-- A stage keeps the marks clean. Damage stays whole if the stage does not end a moment before combat
    damage that is too much. -/
theorem State.clean_perform {config : Config} {whole : Prop} {s t : State} {events : List Event}
    {n : Nat} {transform : Transform} (h : s.Clean s.moment.Wounding whole) (orderly : s.Orderly)
    (derived : s.derive = s) (regular : s.tempo.Regular n)
    (fits : whole → ∀ player, transform = .endMoment player → s.SustainsNext)
    (stage : s.perform config (transform.run config) = .ok (t, events)) :
    t.Clean t.moment.Wounding whole := by
  obtain ⟨after, run, settled⟩ := Outcome.bind_eq_ok.mp stage
  obtain ⟨trace, course, -⟩ := transform.leads derived orderly run
  have ran := course.orderly orderly
  have rippled : Ripples (fun _ => ()) after t :=
    ripples_settle (fun _ _ _ => rfl) ran.keyed (.of_ignoresMana (fun _ _ => rfl) after) settled
  have moment : t.moment = after.moment := congrArg Tempo.moment (tempo_settle settled)
  rw [moment]
  exact ((transform.clean h orderly regular fits run).ripples ran rippled).2

namespace Match

/-- Wherever an operation of the run ends a moment before combat damage, that damage leaves a word on
    every card. -/
def Sustained (m : Match) : List Command → Prop
  | [] => True
  | command :: rest =>
    (∀ operation, command = .call operation → (m.call operation).isOk = true →
      ∀ s, m.EndsMoment operation s → s.SustainsNext) ∧ (m.step command).Sustained rest

variable {config : Config} {generator : Generator} {catalog : Catalog} {registry : Registry}
  {decks : List (List DefinitionId)} {m next : Match} {operation : Operation} {events : List Event}
  {n : Nat} {whole : Prop}

/-- The turn stands where a turn can stand, and the marks on all cards are clean there. -/
def InPlace (n : Nat) (whole : Prop) (s : State) : Prop :=
  s.tempo.Regular n ∧ s.Clean s.moment.Wounding whole

theorem InPlace.call {origin : State} (h : InPlace n whole m.state) (sound : Sound origin m.state)
    (fits : whole → ∀ s, m.EndsMoment operation s → s.SustainsNext)
    (called : m.call operation = .ok (next, events)) : InPlace n whole next.state := by
  refine (call_keeps (P := fun s => s.Orderly ∧ s.derive = s ∧ InPlace n whole s)
    (fun transform ends kept stage => ?_) ⟨sound.orderly, sound.derived, h⟩ called).2.2
  obtain ⟨orderly, derived, regular, clean⟩ := kept
  exact ⟨orderly.perform derived stage, (perform_settled stage).1.derived,
    regular_perform regular stage, clean_perform clean orderly derived regular
      (fun exact player same => fits exact _ (ends player same)) stage⟩

/-- A deal marks nothing. -/
theorem clean_start (started : start config catalog registry decks generator = .ok m) (whole : Prop) :
    m.state.Clean False whole := by
  refine (start_induction started (P := State.Clean False whole) (fun id c kind found => ?_)
    (fun {s t d seat p id} dealt hp created h => ?_) (fun {s t seat size} orderly drawn h => ?_)
    fun {s} orderly h => h.of_strip (strip_derive s).symm).2
  · cases found
  · obtain ⟨abilities, next, rfl, -⟩ := create_eq_ok created
    intro other c kind found inZone
    rw [kindOfZone?_withCard] at inZone
    obtain ⟨-, rfl⟩ | ⟨-, found⟩ := (card?_withCard_eq_some _ next).mp found
    · exact .of_plain fun _ => rfl
    · exact h other c kind found inZone
  · have rippled : Ripples (fun _ => ()) s t := ripples_drawMany drawn
    exact (h.ripples orderly rippled).2

theorem inPlace_run (started : start config catalog registry decks generator = .ok m)
    (commands : List Command) :
    InPlace config.playerCount (m.Sustained commands) (m.run commands).state := by
  have runs {origin : State} {whole : Prop} {commands : List Command} {m : Match}
      (fits : whole → m.Sustained commands)
      (h : Always (fun s => Sound origin s ∧ InPlace config.playerCount whole s) m) :
      Always (fun s => Sound origin s ∧ InPlace config.playerCount whole s) (m.run commands) := by
    induction commands generalizing m with
    | nil => exact h
    | cons command rest ih =>
        refine ih (fun exact => (fits exact).2) (h.step fun {operation next events} same called => ?_)
        obtain ⟨sound, inPlace⟩ := h.present
        exact ⟨(sound.call called).1, inPlace.call sound
          (fun exact => (fits exact).1 operation same (Outcome.isOk_iff.mpr ⟨_, called⟩)) called⟩
  have dealt : Always (fun s => Sound m.state s ∧
      InPlace config.playerCount (m.Sustained commands) s) m := by
    obtain ⟨-, -, -, history⟩ := start_eq_ok started
    exact ⟨⟨(kept_start started).present, regular_start started,
      (clean_start started _).mono False.elim⟩, by simp [history]⟩
  exact (runs id dealt).present.2

/-- A creature of the first player, and two of the second one, of which the first deals as much damage as
    a word can hold. -/
def colossi : Outcome Match :=
  start { openingHandSize := 2, shuffleLibraries := false }
    ⟨Table.ofList [(0, .creature 0 "Bear" 2 2), (1, .creature 1 "Colossus" 9223372036854775807 1),
      (2, .creature 2 "Imp" 1 1)]⟩ .builtin [[0], [1, 2]]

/-- The first player attacks in the third turn, and both creatures of the second one block. -/
def untilColossi : List Operation :=
  toMain ++ [.act 0 (.castSpell 1 []), .act 0 .passPriority, .act 1 .passPriority,
    .act 0 .advanceTurn] ++ List.replicate 3 (.act 1 .advanceStep) ++
    [.act 1 (.castSpell 2 []), .act 1 .passPriority, .act 0 .passPriority,
      .act 1 (.castSpell 3 []), .act 1 .passPriority, .act 0 .passPriority, .act 1 .advanceTurn] ++
    List.replicate 5 (.act 0 .advanceStep) ++
    [.declareAttackers 0 [1], .act 0 .advanceStep, .declareBlockers 1 [(2, 1), (3, 1)],
      .act 0 .advanceStep]

end Match

end CardGame
