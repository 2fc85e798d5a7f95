import CardGame.Proofs.Convergence
import CardGame.Proofs.StackOrder

/-! # Nothing fails past the checks

In an orderly state whatever a rule looks up is there. So an operation that its checks let through
succeeds, and a spell resolves if its written effects can be read. Costs are checked one by one before
any of them is paid, so they have to be of different kinds, as the built-in ones are.
-/

namespace CardGame

namespace State

variable {s t : State} {id : CardId} {c : Card} {seat : Seat}

theorem player?_of_lt (seated : seat < s.playerCount) : ∃ p, s.player? seat = some p :=
  ⟨_, List.getElem?_eq_getElem seated⟩

theorem player?_updatePlayer (s : State) (seat : Seat) (f : Player → Player) :
    (s.updatePlayer seat f).player? seat = (s.player? seat).map f := by
  simp [player?, updatePlayer]

section Move

variable (h : s.Orderly)
include h

theorem Orderly.move_total (found : s.card? id = some c) {target : ZoneId} {kind : ZoneKind}
    (known : s.kindOfZone? target = some kind) : ∃ t, s.move id target = .ok t := by
  obtain ⟨source, zoned⟩ := h.housed.zoned found
  exact ⟨_, move_eq_ok.mpr ⟨c, source, kind, found, zoned, known, rfl⟩⟩

theorem Orderly.enter_total (found : s.card? id = some c) (seated : seat < s.playerCount) :
    ∃ t, s.enter id seat = .ok t := by
  obtain ⟨p, hp⟩ := player?_of_lt seated
  obtain ⟨next, moved⟩ := h.move_total found (h.battlefield hp)
  simp only [enter, Outcome.bind_eq_ok, player_eq_ok]
  exact ⟨_, p, hp, next, moved, rfl⟩

theorem Orderly.putOnStack_total (found : s.card? id = some c) (seat : Seat)
    (targets : List CardId) : ∃ t, s.putOnStack id seat targets = .ok t := by
  obtain ⟨next, moved⟩ := h.move_total found h.stack
  simp only [putOnStack, Outcome.bind_eq_ok]
  exact ⟨_, next, moved, rfl⟩

theorem Orderly.draw_total (seated : seat < s.playerCount) :
    ∃ t drawn, s.draw seat = .ok (t, drawn) := by
  obtain ⟨p, hp⟩ := player?_of_lt seated
  obtain ⟨library, found, -⟩ := kindOfZone?_eq_some.mp (h.library hp)
  simp only [draw, Outcome.bind_eq_ok, player_eq_ok, zone_eq_ok]
  cases top : library.top? with
  | none => exact ⟨s, none, p, hp, library, found, by rw [top]⟩
  | some id =>
      obtain ⟨c, known, -⟩ := h.known (contents_of_zone? found ▸ List.mem_of_getLast? top)
      obtain ⟨t, moved⟩ := h.move_total known (h.hand hp)
      refine ⟨t, some id, p, hp, library, found, ?_⟩
      rw [top]
      exact Outcome.bind_eq_ok.mpr ⟨t, moved, rfl⟩

theorem Orderly.drawMany_total (seated : seat < s.playerCount) (n : Nat) :
    ∃ t, s.drawMany seat n = .ok t := by
  induction n generalizing s with
  | zero => exact ⟨s, rfl⟩
  | succ n ih =>
      obtain ⟨next, drawn, drew⟩ := h.draw_total seated
      simp only [State.drawMany, Outcome.bind_eq_ok]
      cases drawn with
      | none => exact ⟨next, _, drew, rfl⟩
      | some id =>
          have seats := playerCount_of_tempo (alike_draw drew).tempo
          obtain ⟨t, rest⟩ := ih ((wanes_draw drew).orderly h) (by rwa [seats])
          exact ⟨t, _, drew, rest⟩

end Move

theorem Housed.destroy_total (h : s.Housed) (ids : List CardId) : ∃ t, s.destroy ids = .ok t := by
  induction ids generalizing s with
  | nil => exact ⟨s, rfl⟩
  | cons id rest ih =>
      rw [destroy]
      split
      · rename_i creature
        obtain ⟨c, found, -⟩ := isCreatureInPlay_eq_true.mp creature
        obtain ⟨next, buried, housed, -⟩ := h.bury (Option.isSome_iff_exists.mpr ⟨c, found⟩)
        obtain ⟨t, others⟩ := ih housed
        exact ⟨t, Outcome.bind_eq_ok.mpr ⟨next, buried, others⟩⟩
      · exact ih h

end State

open State

variable {s t : State} {id : CardId} {c : Card}

theorem Effect.total (effect : Effect) (h : s.Orderly) (context : EffectContext)
    (seated : context.controller < s.playerCount) : ∃ t, effect.resolve s context = .ok t := by
  obtain ⟨p, hp⟩ := player?_of_lt seated
  cases effect with
  | addMana color amount => exact ⟨_, Outcome.bind_eq_ok.mpr ⟨p, player_eq_ok.mpr hp, rfl⟩⟩
  | gainLife amount => exact ⟨_, Outcome.bind_eq_ok.mpr ⟨p, player_eq_ok.mpr hp, rfl⟩⟩
  | destroy target =>
      cases target with
      | source => exact h.housed.destroy_total _
      | chosen => exact h.housed.destroy_total _
  | drawCards count => exact h.drawMany_total seated count

/-- Every effect that is written on the card can be read. -/
def Definition.Legible (d : Definition) : Prop :=
  ∀ e ∈ d.effects, ∃ effect, Effect.ofDescriptor e = .ok effect

namespace State

theorem resolveEffects_total (h : s.Orderly) {d : Definition} (legible : d.Legible)
    (context : EffectContext) (seated : context.controller < s.playerCount) :
    ∃ t, s.resolveEffects context d.effects = .ok t := by
  obtain ⟨t, resolved, -⟩ := Outcome.foldlM_total
    (P := fun t : State => t.Orderly ∧ t.playerCount = s.playerCount)
    (f := fun (s : State) e => do
      let effect ← Effect.ofDescriptor e
      effect.resolve s context)
    (fun mid e written ⟨orderly, seats⟩ => by
      obtain ⟨effect, read⟩ := legible e written
      obtain ⟨next, resolved⟩ := effect.total orderly context (seats ▸ seated)
      exact ⟨next, Outcome.bind_eq_ok.mpr ⟨effect, read, resolved⟩,
        (Effect.wanes resolved).orderly orderly,
        (playerCount_of_tempo (Effect.alike resolved).tempo).trans seats⟩)
    ⟨h, rfl⟩
  exact ⟨t, resolved⟩

theorem resolveCard_total (h : s.Orderly) (found : s.card? id = some c)
    (legible : c.definition.Legible) : ∃ t, s.resolveCard id = .ok t := by
  have seated := h.seated found
  simp only [resolveCard, Outcome.bind_eq_ok, card_eq_ok]
  by_cases permanent : c.definition.isPermanent = true
  · obtain ⟨t, entered⟩ := h.enter_total found seated
    exact ⟨t, c, found, by rwa [if_pos permanent]⟩
  · obtain ⟨next, resolved⟩ :=
      resolveEffects_total h legible ⟨id, c.controller, c.targets⟩ seated
    obtain ⟨trace, course, -⟩ := (wanes_resolveEffects resolved).course h
    obtain ⟨d, known, -⟩ := card?_of_identity (course.identity h) found
    obtain ⟨t, buried, -⟩ :=
      (course.orderly h).housed.bury (Option.isSome_iff_exists.mpr ⟨d, known⟩)
    refine ⟨t, c, found, ?_⟩
    rw [if_neg permanent]
    exact Outcome.bind_eq_ok.mpr ⟨next, resolved, buried⟩

/-- Every effect that is written on a card of the stack can be read. -/
def Legible (s : State) : Prop :=
  ∀ id ∈ s.stack, ∃ c, s.card? id = some c ∧ c.definition.Legible

theorem Legible.congr (h : s.Legible) (layout : t.layout = s.layout) : t.Legible := by
  intro id member
  rw [stack_congr layout] at member
  obtain ⟨c, found, legible⟩ := h id member
  obtain ⟨d, known, place⟩ := card?_congr layout.symm found
  exact ⟨d, known, Card.definition_eq_of_placement place ▸ legible⟩

theorem Legible.resolveCard (h : s.Legible) (orderly : s.Orderly) (onStack : id ∈ s.stack) :
    ∃ t, s.resolveCard id = .ok t := by
  obtain ⟨c, found, legible⟩ := h id onStack
  exact resolveCard_total orderly found legible

theorem Legible.pass (h : s.Legible) (orderly : s.Orderly) :
    ∃ t outcome, s.pass = .ok (t, outcome) := by
  obtain ⟨stack, found, -⟩ := kindOfZone?_eq_some.mp orderly.stack
  have cards : s.stack = stack.cards := contents_of_zone? found
  unfold State.pass
  dsimp only
  split
  · exact ⟨_, _, rfl⟩
  · simp only [Outcome.bind_eq_ok]
    cases top : stack.top? with
    | none => exact ⟨_, _, stack, zone_eq_ok.mpr found, by rw [top]⟩
    | some id =>
        have counted : { s with passes := s.passes + 1 }.Legible := h.congr rfl
        obtain ⟨next, resolved⟩ := counted.resolveCard (orderly.congr rfl)
          (cards ▸ List.mem_of_getLast? top : id ∈ s.stack)
        refine ⟨next.giveActivePriority, .resolved id, stack, zone_eq_ok.mpr found, ?_⟩
        rw [top]
        have top := resolveTop_eq (s := { s with passes := s.passes + 1 }) (zone_eq_ok.mpr found) top
        exact Outcome.bind_eq_ok.mpr ⟨next, top.trans resolved, rfl⟩

theorem Orderly.cast_total (h : s.Orderly) {player : Seat} {targets : List CardId} {u : Unit}
    (checked : s.checkCast player id targets = .ok u) : ∃ t, s.cast player id targets = .ok t := by
  obtain ⟨-, c, p, cost, found, -, -, -, -, priced, -⟩ := checkCast_eq_ok.mp checked
  have paid := layout_updatePlayer s player
    (f := fun p => { p with mana := (p.mana.pay? cost).getD p.mana }) fun _ => rfl
  obtain ⟨next, pushed⟩ := (h.congr paid).putOnStack_total found player targets
  simp only [cast, Outcome.bind_eq_ok, card_eq_ok]
  exact ⟨_, u, checked, c, found, cost, priced, next, pushed, rfl⟩

theorem Orderly.playLand_total (h : s.Orderly) {player : Seat} {u : Unit}
    (checked : s.checkLand player id = .ok u) : ∃ t, s.playLand player id = .ok t := by
  have fits := checked
  simp only [checkLand, Outcome.bind_eq_ok] at fits
  obtain ⟨-, -, -, -, c, inHand, -⟩ := fits
  obtain ⟨found, p, hp, -⟩ := cardInHand_eq_ok.mp inHand
  obtain ⟨next, entered⟩ := h.enter_total found (List.getElem?_eq_some_iff.mp hp).1
  simp only [playLand, Outcome.bind_eq_ok]
  exact ⟨_, u, checked, next, entered, rfl⟩

end State

namespace ActivationCost

variable {first other : ActivationCost} {source : CardId} {player : Seat} {u : Unit}

/-- Are the two costs paid from the same supply? -/
def sameKind : ActivationCost → ActivationCost → Bool
  | tap, tap | mana _, mana _ | payLife _, payLife _ => true
  | _, _ => false

/-- Paying a cost makes no difference to the check of another kind of cost. -/
theorem check_of_pay (different : first.sameKind other = false)
    (paid : first.pay s source player = .ok t) :
    other.check t source player = other.check s source player := by
  obtain ⟨_, -, paid⟩ := Outcome.bind_eq_ok.mp paid
  cases first with
  | tap =>
      cases paid
      cases other with
      | tap => cases different
      | mana | payLife => rfl
  | mana cost =>
      cases paid
      cases other with
      | mana => cases different
      | tap => rfl
      | payLife amount =>
          simp only [check, State.player, player?_updatePlayer]
          cases s.player? player <;> rfl
  | payLife amount =>
      cases paid
      cases other with
      | payLife => cases different
      | tap => rfl
      | mana cost =>
          simp only [check, State.player, player?_updatePlayer]
          cases s.player? player <;> rfl

theorem pay_total (checked : first.check s source player = .ok u) :
    ∃ t, first.pay s source player = .ok t := by
  simp only [pay, Outcome.bind_eq_ok]
  cases first <;> exact ⟨_, u, checked, rfl⟩

theorem payAll_total {costs : List ActivationCost}
    (apart : costs.Pairwise fun a b => a.sameKind b = false)
    (checked : checkAll costs s source player = .ok u) :
    ∃ t, payAll costs s source player = .ok t := by
  induction costs generalizing s with
  | nil => exact ⟨s, rfl⟩
  | cons first rest ih =>
      obtain ⟨different, apart⟩ := List.pairwise_cons.mp apart
      have checks := Outcome.forM_eq_ok.mp checked
      obtain ⟨mid, paid⟩ := pay_total (checks first List.mem_cons_self)
      obtain ⟨t, others⟩ := ih (s := mid) apart (Outcome.forM_eq_ok.mpr fun other member => by
        rw [check_of_pay (different other member) paid]
        exact checks other (List.mem_cons_of_mem _ member))
      refine ⟨t, ?_⟩
      rw [payAll, List.foldlM_cons, Outcome.bind_eq_ok]
      exact ⟨mid, paid, others⟩

end ActivationCost

/-- The costs of a built-in ability are of different kinds. -/
theorem Builtin.costs_apart {a : ActivatedAbility}
    (built : Registry.builtin.Builds id (.activated a)) :
    a.costs.Pairwise fun x y => x.sameKind y = false := by
  obtain ⟨-, ⟨costs, -⟩ | ⟨⟨mana, life, costs⟩, -⟩⟩ := of_activated built
  · rw [costs]
    exact List.pairwise_singleton _ _
  · rw [costs, destroyCosts]
    split <;> split <;> simp [ActivationCost.sameKind]

namespace State

/-- An ability that was looked up is one of the card. -/
theorem activatedAbility_eq_ok {ability : AbilityId} {a : ActivatedAbility}
    (h : s.activatedAbility id ability = .ok a) :
    ∃ c, s.card? id = some c ∧ a ∈ c.activated := by
  obtain ⟨c, found, h⟩ := Outcome.bind_eq_ok.mp h
  split at h
  · rename_i b hit
    cases h
    exact ⟨c, card_eq_ok.mp found, List.mem_of_find?_eq_some hit⟩
  · cases h

theorem Orderly.activate_total (h : s.Orderly) (equipped : s.Equipped .builtin) {player : Seat}
    (seated : player < s.playerCount) {ability : AbilityId} {targets : List CardId} {u : Unit}
    (checked : s.checkActivate player id ability targets = .ok u) :
    ∃ t, s.activate player id ability targets = .ok t := by
  have layout := layout_derive s
  have view : s.derive.Equipped .builtin := equipped.of_kit (kit_congr layout)
  have fits := checked
  simp only [checkActivate, Outcome.bind_eq_ok] at fits
  obtain ⟨-, -, a, known, _, payable, targeted⟩ := fits
  obtain ⟨c, found, carried⟩ := activatedAbility_eq_ok known
  have apart := Builtin.costs_apart (view id c found _ (c.activated_mem_abilities.mpr carried))
  have costs := payable
  simp only [ActivatedAbility.check, Outcome.bind_eq_ok] at costs
  obtain ⟨-, -, -, -, -, -, costs⟩ := costs
  obtain ⟨paid, payment⟩ := ActivationCost.payAll_total apart costs
  have seats : paid.playerCount = s.playerCount :=
    playerCount_of_tempo ((tempo_foldlM (fun _ _ _ _ => ActivationCost.tempo_pay) payment).trans
      (tempo_derive s))
  have orderly : paid.Orderly :=
    (h.congr layout).congr (ActivationCost.still_payAll payment).layout
  obtain ⟨next, resolved⟩ :=
    a.effect.total orderly ⟨a.source, player, targets⟩ (seats ▸ seated)
  simp only [activate, ActivatedAbility.activate, Outcome.bind_eq_ok]
  exact ⟨_, u, checked, a, known, next, ⟨_, payable, _, targeted, paid, payment, resolved⟩, rfl⟩

theorem dealDamage_total {defending : Seat} (seated : defending < s.playerCount)
    (plan : DamagePlan) : ∃ t, s.dealDamage defending plan = .ok t := by
  unfold dealDamage
  dsimp only
  split
  · exact ⟨_, rfl⟩
  · have hurt : (plan.toCards.foldl
        (fun s hit => s.updateCard hit.1 fun c => { c with damage := word (c.damage + hit.2) }) s).tempo =
          s.tempo :=
      tempo_foldl fun _ _ => rfl
    obtain ⟨p, hp⟩ := player?_of_lt ((playerCount_of_tempo hurt).symm ▸ seated)
    exact ⟨_, Outcome.bind_eq_ok.mpr ⟨p, player_eq_ok.mpr hp, rfl⟩⟩

theorem Housed.dealFirstStrike_total (h : s.Housed) {defending : Seat}
    (seated : defending < s.playerCount) (plan : DamagePlan) :
    ∃ t, s.dealFirstStrike defending plan = .ok t ∧ t.playerCount = s.playerCount := by
  unfold dealFirstStrike
  split
  · exact ⟨s, rfl, rfl⟩
  · obtain ⟨hurt, dealt⟩ := dealDamage_total seated plan
    obtain ⟨r, rest⟩ := (h.congr (still_dealDamage dealt).layout).toRest
    refine ⟨r.state, ?_, playerCount_of_tempo ((tempo_toRest rest).trans (tempo_dealDamage dealt))⟩
    simp only [Outcome.bind_eq_ok]
    exact ⟨hurt, dealt, r, rest, rfl⟩

theorem Housed.combatDamage_total (h : s.Housed)
    (defended : ∀ combat, s.combat = some combat → combat.defendingPlayer < s.playerCount) :
    ∃ t, s.combatDamage = .ok t := by
  unfold combatDamage
  split
  · exact ⟨s, rfl⟩
  · rename_i combat opened
    split
    · exact ⟨s, rfl⟩
    · have seated : combat.defendingPlayer < s.derive.playerCount :=
        (playerCount_of_tempo (tempo_derive s)).symm ▸ defended combat opened
      obtain ⟨between, first, seats⟩ :=
        (h.congr (layout_derive s)).dealFirstStrike_total seated _
      obtain ⟨t, dealt⟩ := dealDamage_total (s := between) (seats ▸ seated) _
      exact ⟨t, Outcome.bind_eq_ok.mpr ⟨between, first, dealt⟩⟩

variable {n : Nat}

theorem Orderly.beginMoment_total (h : s.Orderly) (config : Config) (regular : s.tempo.Regular n) :
    ∃ t, s.beginMoment config = .ok t := by
  have layout : s.emptyPools.layout = s.layout := layout_mapPlayers s fun _ => rfl
  have tempo : s.emptyPools.tempo = s.tempo := tempo_mapPlayers s _
  have orderly := h.congr layout
  have regular : s.emptyPools.tempo.Regular n := tempo ▸ regular
  unfold beginMoment
  dsimp only
  split
  · exact ⟨_, Outcome.bind_eq_ok.mpr ⟨_, orderly.keyed.changePermanents _ _, rfl⟩⟩
  · unfold drawStep
    split
    · exact ⟨_, rfl⟩
    · obtain ⟨t, drawn, drew⟩ := orderly.draw_total (seated_of_regular regular).active
      exact ⟨t, Outcome.bind_eq_ok.mpr ⟨(t, drawn), drew, rfl⟩⟩
  · exact orderly.housed.combatDamage_total fun combat declared =>
      Nat.lt_of_lt_of_eq (regular.defending combat declared) regular.seats.symm
  · exact ⟨_, rfl⟩
  · exact ⟨_, orderly.keyed.changePermanents _ _⟩
  · exact ⟨_, rfl⟩

/-- The active player can end any moment, with nothing on the stack. -/
theorem Orderly.endMoment_total (h : s.Orderly) (config : Config) (regular : s.tempo.Regular n)
    (empty : s.stack = []) : ∃ t, s.endMoment config s.activePlayer = .ok t := by
  obtain ⟨begun, begins⟩ := (h.congr (still_advance s).layout).beginMoment_total
    config (regular_advance regular)
  exact ⟨_, endMoment_eq_ok.mpr ⟨rfl, empty, begun, begins, rfl⟩⟩

end State

end CardGame
