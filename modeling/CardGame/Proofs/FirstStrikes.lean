import CardGame.Proofs.DamagePlan
import CardGame.Proofs.Totality

/-! # Slain before striking

A creature with neither first nor double strike strikes in the second pass of combat damage. If it is off
the battlefields by then it deals nothing, and its power makes no difference. Two states that differ in
the power of one card look the same when that power is blurred, and all that happens in the first pass
and after it can be told of the blurred state.
-/

namespace CardGame

/-- Only whether there is a power shows. -/
def Definition.blur (d : Definition) : Definition := { d with power := d.power.map fun _ => 0 }

def Characteristics.blur (c : Characteristics) : Characteristics :=
  { c with power := c.power.map fun _ => 0 }

def Card.blur (c : Card) : Card :=
  { c with definition := c.definition.blur, characteristics := c.characteristics.blur }

theorem Modification.blur_apply (m : Modification) (c : Characteristics) :
    (m.apply c.blur).blur = (m.apply c).blur := by
  cases m with
  | addType | grantKeyword =>
      simp only [apply, Characteristics.blur, Option.map_map]
      rfl
  | setPowerToughness | modifyPowerToughness => rfl

theorem Card.blur_withCounters (c : Card) : c.blur.withCounters.blur = c.withCounters.blur := by
  unfold withCounters
  cases power : c.characteristics.power <;> cases toughness : c.characteristics.toughness <;>
    simp [blur, Definition.blur, Characteristics.blur, Characteristics.raise, power, toughness,
      Function.comp_def]
  rfl

theorem Card.blur_movedTo (c : Card) (source target : ZoneKind) (zone : ZoneId) :
    c.blur.movedTo source target zone = (c.movedTo source target zone).blur := by
  unfold movedTo
  split <;> split <;> split <;> rfl

/-- A card that is blurred if it is the one of that number. -/
def Card.blurAt (x id : CardId) (c : Card) : Card := if id = x then c.blur else c

section BlurAt

variable (x id : CardId) (c : Card)

/-- What does not look at the power sees no difference. -/
theorem Card.apply_blurAt {α : Type} {f : Card → α} (blind : ∀ c, f c.blur = f c) :
    f (c.blurAt x id) = f c := by
  unfold blurAt
  split
  · exact blind c
  · rfl

@[simp]
theorem Card.id_blurAt : (c.blurAt x id).id = c.id :=
  c.apply_blurAt x id (f := Card.id) fun _ => rfl

@[simp]
theorem Card.zone_blurAt : (c.blurAt x id).zone = c.zone :=
  c.apply_blurAt x id (f := Card.zone) fun _ => rfl

@[simp]
theorem Card.owner_blurAt : (c.blurAt x id).owner = c.owner :=
  c.apply_blurAt x id (f := Card.owner) fun _ => rfl

@[simp]
theorem Card.controller_blurAt : (c.blurAt x id).controller = c.controller :=
  c.apply_blurAt x id (f := Card.controller) fun _ => rfl

@[simp]
theorem Card.statics_blurAt : (c.blurAt x id).statics = c.statics :=
  c.apply_blurAt x id (f := Card.statics) fun _ => rfl

@[simp]
theorem Card.isCountered_blurAt : (c.blurAt x id).isCountered = c.isCountered :=
  c.apply_blurAt x id (f := Card.isCountered) fun _ => rfl

@[simp]
theorem Card.isCreature_blurAt : (c.blurAt x id).isCreature = c.isCreature :=
  c.apply_blurAt x id (f := Card.isCreature) fun _ => rfl

@[simp]
theorem Card.hasLethalDamage_blurAt : (c.blurAt x id).hasLethalDamage = c.hasLethalDamage :=
  c.apply_blurAt x id (f := Card.hasLethalDamage) fun _ => rfl

end BlurAt

namespace State

variable {s t : State} {x id : CardId}

def blur (s : State) (x : CardId) : State := { s with cards := s.cards.mapWithKey (Card.blurAt x) }

theorem card?_blur (s : State) (x id : CardId) :
    (s.blur x).card? id = (s.card? id).map (Card.blurAt x id) :=
  Table.get?_mapWithKey ..

theorem zoneKind?_blur (s : State) (x id : CardId) : (s.blur x).zoneKind? id = s.zoneKind? id := by
  unfold zoneKind?
  rw [card?_blur]
  cases s.card? id with
  | none => rfl
  | some c =>
      simp only [Option.map_some, Option.bind_some, Card.zone_blurAt]
      rfl

theorem isOnBattlefield_blur (s : State) (x id : CardId) :
    (s.blur x).isOnBattlefield id = s.isOnBattlefield id := by
  rw [isOnBattlefield, zoneKind?_blur, isOnBattlefield]

/-- The cards in play of the blurred state carry the numbers that they carry in the other. -/
theorem battlefield_blur (s : State) (x : CardId) :
    (s.blur x).battlefield =
      (s.cards.entries.filter fun e => s.isBattlefield e.2.zone).map fun e =>
        (e.2.id, e.2.blurAt x e.1) := by
  simp only [battlefield, blur, Table.values, Table.mapWithKey, List.map_map, List.filter_map,
    Function.comp_def, Card.zone_blurAt, Card.id_blurAt]
  rfl

theorem battlefield_eq_entries (s : State) :
    s.battlefield =
      (s.cards.entries.filter fun e => s.isBattlefield e.2.zone).map fun e => (e.2.id, e.2) := by
  simp only [battlefield, Table.values, List.map_map, List.filter_map, Function.comp_def]

theorem permanents_blur (s : State) (x : CardId) {p : Card → Bool}
    (blind : ∀ id c, p (c.blurAt x id) = p c) : (s.blur x).permanents p = s.permanents p := by
  simp only [permanents, battlefield_blur, battlefield_eq_entries s, List.filter_map, List.map_map,
    Function.comp_def, blind]

theorem creatures_length_blur (s : State) (x : CardId) :
    (s.blur x).creatures.length = s.creatures.length := by
  have listed := congrArg List.length
    (s.permanents_blur x (p := Card.isCreature) fun id c => c.isCreature_blurAt x id)
  rwa [permanents, permanents, List.length_map, List.length_map] at listed

theorem dying_blur (s : State) (x : CardId) : (s.blur x).dying = s.dying := by
  simp only [dying, creatures, battlefield_blur, battlefield_eq_entries s, List.filter_map,
    List.map_map, Function.comp_def, Card.isCreature_blurAt, Card.hasLethalDamage_blurAt]

theorem activeStatics_blur (s : State) (x : CardId) :
    (s.blur x).activeStatics = s.activeStatics := by
  simp only [activeStatics, battlefield_blur, battlefield_eq_entries s, List.flatMap_map,
    Card.statics_blurAt]

/-- Effects reach the same cards in the blurred state. -/
theorem reached_blur (effect : ContinuousEffect) (s : State) (x : CardId) :
    effect.reached (s.blur x) = effect.reached s := by
  have source : effect.activeSource? (s.blur x) =
      (effect.activeSource? s).map (Card.blurAt x effect.source) := by
    unfold ContinuousEffect.activeSource?
    rw [isOnBattlefield_blur, card?_blur]
    split <;> rfl
  unfold ContinuousEffect.reached
  rw [source]
  cases effect.activeSource? s with
  | none => rfl
  | some p =>
      rw [Option.map_some]
      cases effect.affected with
      | source => rfl
      | allCreatures =>
          exact s.permanents_blur x (p := Card.isCreature) fun id c => c.isCreature_blurAt x id
      | creaturesYouControl includeSource =>
          simp only [creatures, battlefield_blur, battlefield_eq_entries s, List.filter_map,
            List.map_map, Function.comp_def, Card.isCreature_blurAt, Card.controller_blurAt]

theorem updateCard_blur (s : State) (x id : CardId) {f : Card → Card}
    (h : ∀ c, f c.blur = (f c).blur) :
    (s.blur x).updateCard id f = (s.updateCard id f).blur x := by
  have same (other : CardId) (c : Card) : f (c.blurAt x other) = (f c).blurAt x other := by
    unfold Card.blurAt
    split
    · exact h c
    · rfl
  have cards : (s.cards.mapWithKey (Card.blurAt x)).update id f =
      (s.cards.update id f).mapWithKey (Card.blurAt x) := by
    refine Table.ext_get? fun other => ?_
    simp only [Table.get?_update, Table.get?_mapWithKey]
    cases s.cards.get? other <;> split <;> simp [same]
  simp only [updateCard, blur, cards]

theorem strip_blur (s : State) (x : CardId) : (s.blur x).strip = s.strip.blur x := by
  have cards : (s.cards.mapWithKey (Card.blurAt x)).map Card.strip =
      (s.cards.map Card.strip).mapWithKey (Card.blurAt x) := by
    refine Table.ext_get? fun id => ?_
    simp only [Table.get?_map, Table.get?_mapWithKey, Option.map_map]
    refine Option.map_congr fun c _ => ?_
    simp only [Function.comp_apply, Card.blurAt]
    split <;> rfl
  rw [strip, blur, cards]
  rfl

section Alike

variable (h : s.blur x = t.blur x)
include h

/-- Changes that do not look at the power have alike results. -/
theorem blur_updateCard_congr (id : CardId) {f : Card → Card}
    (blind : ∀ c, (f c.blur).blur = (f c).blur) :
    (s.updateCard id f).blur x = (t.updateCard id f).blur x := by
  have alike {c d : Card} {other : CardId} (same : c.blurAt x other = d.blurAt x other) :
      (f c).blurAt x other = (f d).blurAt x other := by
    unfold Card.blurAt at same ⊢
    split at same
    · rw [if_pos ‹_›, if_pos ‹_›, ← blind c, same, blind d]
    · rw [if_neg ‹_›, if_neg ‹_›, same]
  have card? (other : CardId) :
      ((s.updateCard id f).blur x).card? other = ((t.updateCard id f).blur x).card? other := by
    have looks := congrArg (fun r : State => r.card? other) h
    simp only [card?_blur, card?_updateCard] at looks ⊢
    split
    · cases left : s.card? other <;> cases right : t.card? other <;> rw [left, right] at looks
      case some.some => exact congrArg some (alike (Option.some.inj looks))
      all_goals cases looks
    · exact looks
  have cards : ((s.updateCard id f).blur x).cards = ((t.updateCard id f).blur x).cards :=
    Table.ext_get? card?
  calc
    _ = { s.blur x with cards := ((s.updateCard id f).blur x).cards } := rfl
    _ = { t.blur x with cards := ((t.updateCard id f).blur x).cards } := by rw [h, cards]

theorem blur_updateCards_congr (ids : List CardId) {f : Card → Card}
    (blind : ∀ c, (f c.blur).blur = (f c).blur) :
    (s.updateCards ids f).blur x = (t.updateCards ids f).blur x := by
  induction ids generalizing s t with
  | nil => exact h
  | cons id rest ih => exact ih (blur_updateCard_congr h id blind)

theorem apply_congr (effect : ContinuousEffect) :
    (effect.apply s).blur x = (effect.apply t).blur x := by
  have reached : effect.reached s = effect.reached t := by
    rw [← reached_blur effect s x, h, reached_blur]
  unfold ContinuousEffect.apply ContinuousEffect.change
  rw [reached]
  refine blur_updateCards_congr h _ fun c => ?_
  have looks := effect.modification.blur_apply c.characteristics
  have printed : c.definition.blur.blur = c.definition.blur := by
    simp [Definition.blur, Function.comp_def]
  simp only [Card.blur, looks, printed]

theorem applyStatics_congr (abilities : List StaticAbility) :
    (s.applyStatics abilities).blur x = (t.applyStatics abilities).blur x := by
  induction abilities generalizing s t with
  | nil => exact h
  | cons ability rest ih => exact ih (apply_congr h ability.effect)

theorem countCounters_congr : s.countCounters.blur x = t.countCounters.blur x := by
  have blind (id : CardId) (c : Card) := c.isCountered_blurAt x id
  have countered : s.permanents Card.isCountered = t.permanents Card.isCountered := by
    rw [← permanents_blur s x blind, h, permanents_blur t x blind]
  rw [countCounters, countered]
  exact blur_updateCards_congr h _ Card.blur_withCounters

/-- Deriving does not read powers, so what differs in one alone does so when derived. -/
theorem derive_congr : s.derive.blur x = t.derive.blur x := by
  have printed : s.strip.blur x = t.strip.blur x := by
    rw [← strip_blur, h, strip_blur]
  have statics : s.activeStatics = t.activeStatics := by
    rw [← activeStatics_blur s x, h, activeStatics_blur]
  rw [derive, derive, ← statics]
  exact countCounters_congr (applyStatics_congr printed s.activeStatics)

end Alike

theorem move_blur (s : State) (x id : CardId) (target : ZoneId) :
    (s.blur x).move id target = (s.move id target).map (·.blur x) := by
  unfold move card zone
  rw [card?_blur]
  cases s.card? id with
  | none => rfl
  | some c =>
      simp only [Option.map_some, Outcome.find, bind, Except.bind, Card.zone_blurAt,
        show (s.blur x).zone? = s.zone? from rfl]
      cases s.zone? c.zone with
      | none => rfl
      | some source =>
          cases s.zone? target with
          | none => rfl
          | some zone =>
              have moved := updateCard_blur
                ((s.updateZone c.zone (·.remove id)).updateZone target (·.push id)) x id
                (f := (·.movedTo source.kind zone.kind target)) fun c => c.blur_movedTo _ _ _
              exact congrArg Except.ok moved

theorem bury_blur (s : State) (x id : CardId) :
    (s.blur x).bury id = (s.bury id).map (·.blur x) := by
  unfold bury card player
  rw [card?_blur]
  cases s.card? id with
  | none => rfl
  | some c =>
      simp only [Option.map_some, Outcome.find, bind, Except.bind, Card.owner_blurAt,
        show (s.blur x).player? = s.player? from rfl]
      cases s.player? c.owner with
      | none => rfl
      | some p => exact s.move_blur x id p.zones.graveyard

theorem buryAll_blur (s : State) (x : CardId) (ids : List CardId) :
    ids.foldlM bury (s.blur x) = (ids.foldlM bury s).map (·.blur x) := by
  induction ids generalizing s with
  | nil => rfl
  | cons id rest ih =>
      rw [List.foldlM_cons, List.foldlM_cons, bury_blur]
      cases s.bury id with
      | error reason => rfl
      | ok next => exact ih next

section Alike

variable (h : s.blur x = t.blur x)
include h

theorem buryAll_congr (ids : List CardId) :
    (ids.foldlM bury s).map (·.blur x) = (ids.foldlM bury t).map (·.blur x) := by
  rw [← buryAll_blur, h, buryAll_blur]

theorem dying_congr : s.dying = t.dying := by
  rw [← dying_blur s x, h, dying_blur]

theorem players_congr : s.players = t.players :=
  (congrArg State.players h :)

theorem markLosers_congr : s.markLosers.blur x = t.markLosers.blur x :=
  (congrArg State.markLosers h :)

theorem hasLoser_congr : s.hasLoser = t.hasLoser := (congrArg State.hasLoser h :)

theorem stateBasedPass_congr :
    s.stateBasedPass.map (fun r => (r.1.blur x, r.2)) =
      t.stateBasedPass.map fun r => (r.1.blur x, r.2) := by
  have derived := derive_congr h
  unfold stateBasedPass
  dsimp only
  rw [dying_congr derived, hasLoser_congr derived]
  refine Outcome.map_bind_congr (buryAll_congr (markLosers_congr derived) _) fun {a b} same => ?_
  split
  · have settled := derive_congr same
    show Except.ok (a.derive.blur x, true) = Except.ok (b.derive.blur x, true)
    rw [settled]
  · exact congrArg (fun r => Except.ok (r, false)) same

theorem repeatPasses_congr (done left : Nat) :
    (s.repeatPasses done left).map (fun r => (r.state.blur x, r.passes)) =
      (t.repeatPasses done left).map fun r => (r.state.blur x, r.passes) := by
  induction left generalizing s t done with
  | zero => rfl
  | succ left ih =>
      refine Outcome.map_bind_congr (stateBasedPass_congr h) ?_
      rintro ⟨a, changed⟩ ⟨b, changed'⟩ alike
      obtain ⟨same, rfl⟩ : a.blur x = b.blur x ∧ changed = changed' := Prod.mk.inj alike
      cases changed with
      | true => exact ih same (done + 1)
      | false => exact congrArg (fun r => Except.ok (r, done)) same

theorem toRest_congr :
    s.toRest.map (fun r => (r.state.blur x, r.passes)) =
      t.toRest.map fun r => (r.state.blur x, r.passes) := by
  have derived := derive_congr h
  have creatures : s.derive.creatures.length = t.derive.creatures.length := by
    simpa only [creatures_length_blur] using congrArg (·.creatures.length) derived
  unfold toRest
  dsimp only
  rw [playerCount, players_congr derived, creatures]
  exact repeatPasses_congr derived 0 _

end Alike

theorem dealDamage_blur (s : State) (x : CardId) (defending : Seat) (plan : DamagePlan) :
    (s.blur x).dealDamage defending plan = (s.dealDamage defending plan).map (·.blur x) := by
  have hurt : plan.toCards.foldl
      (fun s hit => s.updateCard hit.1 fun c => { c with damage := word (c.damage + hit.2) })
        (s.blur x) =
        (plan.toCards.foldl
          (fun s hit => s.updateCard hit.1 fun c => { c with damage := word (c.damage + hit.2) })
          s).blur x :=
    List.foldl_hom (·.blur x) fun s hit =>
      updateCard_blur s x hit.1 (f := fun c => { c with damage := word (c.damage + hit.2) })
        fun _ => rfl
  unfold dealDamage
  dsimp only
  rw [hurt]
  generalize plan.toCards.foldl _ s = hurt
  split
  · rfl
  · rw [player, show (hurt.blur x).player? = hurt.player? from rfl, player]
    cases hurt.player? defending <;> rfl

section Alike

variable (h : s.blur x = t.blur x)
include h

theorem dealDamage_congr (defending : Seat) (plan : DamagePlan) :
    (s.dealDamage defending plan).map (·.blur x) = (t.dealDamage defending plan).map (·.blur x) := by
  rw [← dealDamage_blur, h, dealDamage_blur]

theorem dealFirstStrike_congr (defending : Seat) (plan : DamagePlan) :
    (s.dealFirstStrike defending plan).map (·.blur x) =
      (t.dealFirstStrike defending plan).map (·.blur x) := by
  unfold dealFirstStrike
  split
  · exact congrArg Except.ok h
  · refine Outcome.map_bind_congr (dealDamage_congr h defending plan) fun {a b} same => ?_
    refine Outcome.map_bind_congr (toRest_congr same) fun {r r'} alike => ?_
    exact congrArg Except.ok (Prod.mk.inj alike).1

end Alike

/-- The card deals no damage in the pass, whatever its power is. -/
def Silent (s : State) (x : CardId) (pass : DamagePass) : Prop :=
  ∀ c, s.card? x = some c → s.isOnBattlefield x = true → pass.includes c = false

theorem survivors_blur (s : State) (x : CardId) (ids : List CardId) :
    (s.blur x).survivors ids = (s.survivors ids).map fun e => (e.1, e.2.blurAt x e.1) := by
  unfold survivors
  rw [List.map_filterMap]
  refine List.filterMap_congr fun id _ => ?_
  rw [isOnBattlefield_blur, card?_blur]
  split
  · cases s.card? id <;> rfl
  · rfl

end State

namespace Planning

variable {p : Planning} {x : CardId} {blockers : List (CardId × Card)}

theorem spread_blur (power : Int) :
    p.spread power (blockers.map fun e => (e.1, e.2.blurAt x e.1)) = p.spread power blockers := by
  induction blockers generalizing p power with
  | nil => rfl
  | cons b rest ih =>
      have capacity : p.capacity b.1 (b.2.blurAt x b.1) = p.capacity b.1 b.2 :=
        b.2.apply_blurAt x b.1 fun _ => rfl
      simp only [List.map_cons, spread, capacity, ih]

theorem strikeBlockers_blur (attacker : Card) :
    p.strikeBlockers attacker (blockers.map fun e => (e.1, e.2.blurAt x e.1)) =
      p.strikeBlockers attacker blockers := by
  unfold strikeBlockers
  rw [spread_blur, List.getLast?_map]
  cases blockers.getLast? <;> rfl

theorem strikeBack_blur {pass : DamagePass} {attacker : CardId}
    (silent : ∀ b ∈ blockers, b.1 = x → pass.includes b.2 = false) :
    p.strikeBack pass attacker (blockers.map fun e => (e.1, e.2.blurAt x e.1)) =
      p.strikeBack pass attacker blockers := by
  unfold strikeBack
  rw [List.foldl_map]
  refine List.foldl_ext _ _ p fun p b listed => ?_
  unfold Card.blurAt
  split
  · rename_i same
    have none := silent b listed same
    have none' : pass.includes b.2.blur = false := none
    simp [none, none']
  · rfl

/-- What a card and its blockers plan does not depend on the power of one that is silent. -/
theorem attack_blur {s : State} {pass : DamagePass} (silent : s.Silent x pass) (combat : Combat)
    (p : Planning) (id : CardId) :
    attack (s.blur x) combat pass p id = attack s combat pass p id := by
  have blockers := s.survivors_blur x (combat.blockersOf id)
  have quiet : ∀ b ∈ s.survivors (combat.blockersOf id), b.1 = x → pass.includes b.2 = false := by
    intro b member same
    obtain ⟨-, inPlay, found⟩ := State.mem_survivors.mp member
    exact silent b.2 (same ▸ found) (same ▸ inPlay)
  unfold State.survivors at blockers quiet
  unfold attack
  rw [State.isOnBattlefield_blur, State.card?_blur]
  split
  · rename_i inPlay
    cases found : s.card? id with
    | none => rfl
    | some attacker =>
        simp only [Option.map_some, blockers, strikeBack_blur quiet, strikeBlockers_blur]
        unfold Card.blurAt
        split
        · rename_i same
          have none : pass.includes attacker = false := silent attacker (same ▸ found) (same ▸ inPlay)
          have none' : pass.includes attacker.blur = false := none
          simp [none, none']
        · rfl
  · rfl

end Planning

namespace State

variable {s t : State} {x : CardId} {pass : DamagePass}

theorem planDamage_blur (silent : s.Silent x pass) (combat : Combat) (assigned : Assigned) :
    (s.blur x).planDamage combat pass assigned = s.planDamage combat pass assigned := by
  have attack := funext fun p => funext fun id => Planning.attack_blur silent combat p id
  rw [planDamage, attack, planDamage]

theorem silent_blur : (s.blur x).Silent x pass ↔ s.Silent x pass := by
  unfold Silent
  rw [card?_blur, isOnBattlefield_blur]
  cases s.card? x with
  | none => simp
  | some c =>
      have same : pass.includes (c.blurAt x x) = pass.includes c := by
        rw [Card.blurAt, if_pos rfl]
        rfl
      simp [same]

theorem planDamage_congr (h : s.blur x = t.blur x) (silent : s.Silent x pass) (combat : Combat)
    (assigned : Assigned) :
    s.planDamage combat pass assigned = t.planDamage combat pass assigned := by
  have silent' : t.Silent x pass := by
    rwa [← silent_blur, ← h, silent_blur]
  rw [← planDamage_blur silent, h, planDamage_blur silent']

/-- The strokes of a pass, each with the card that deals it. -/
def dealings (s : State) (combat : Combat) (pass : DamagePass) (assigned : Assigned) :
    List (CardId × Stroke) :=
  (s.survivors combat.attackers).flatMap fun attacker =>
    let blockers := s.survivors (combat.blockersOf attacker.1)
    (combat.blows pass assigned attacker blockers).map (attacker.1, ·) ++
      blockers.map fun b => (b.1, .onAttacker attacker.1 (pass.force b.2))

/-- The dealings make up the plan of the pass. -/
theorem planDamage_eq_dealings (s : State) (combat : Combat) (distinct : combat.attackers.Nodup)
    (once : combat.blockers.Nodup) (pass : DamagePass) (assigned : Assigned) :
    s.planDamage combat pass assigned =
      Planning.strikes ⟨.none, assigned⟩ ((s.dealings combat pass assigned).map (·.2)) := by
  rw [s.planDamage_eq combat distinct once]
  simp only [dealings, List.map_flatMap, List.map_append, List.map_map, Function.comp_def,
    List.map_id']
  rfl

end State

/-- A card without force deals blows without damage. -/
theorem Combat.blows_of_force {combat : Combat} {pass : DamagePass} {attacker : CardId × Card}
    (none : pass.force attacker.2 = 0) (assigned : Assigned) (blockers : List (CardId × Card)) :
    ∀ stroke ∈ combat.blows pass assigned attacker blockers, stroke.amount = 0 := by
  have excess : assigned.excess 0 blockers = 0 := by
    have room := assigned.room_nonneg blockers
    unfold Assigned.excess
    omega
  intro stroke member
  simp only [blows, none, excess] at member
  split at member
  · rcases List.mem_append.mp member with share | rest
    · obtain ⟨⟨b, i⟩, -, rfl⟩ := List.mem_map.mp share
      have capacity := assigned.capacity_nonneg b
      have room := assigned.room_nonneg (blockers.take i)
      simp only [Stroke.amount]
      omega
    · split at rest
      · rw [List.mem_singleton.mp rest]
        rfl
      · obtain ⟨b, -, rfl⟩ := Option.map_eq_some_iff.mp (Option.mem_toList.mp rest)
        rfl
  · rw [List.mem_singleton.mp member]
    rfl

namespace State

variable {s t between : State} {x : CardId} {combat : Combat}

/-- A card that is silent in a pass deals nothing in it. -/
theorem Silent.dealings {pass : DamagePass} (silent : s.Silent x pass) (assigned : Assigned) :
    ∀ blow ∈ s.dealings combat pass assigned, blow.1 = x → blow.2.amount = 0 := by
  have force {ids : List CardId} {b : CardId × Card} (member : b ∈ s.survivors ids) (same : b.1 = x) :
      pass.force b.2 = 0 := by
    obtain ⟨-, inPlay, found⟩ := mem_survivors.mp member
    simp [DamagePass.force, silent b.2 (same ▸ found) (same ▸ inPlay)]
  intro blow member same
  obtain ⟨attacker, attacks, member⟩ := List.mem_flatMap.mp member
  rcases List.mem_append.mp member with blow' | back
  · obtain ⟨stroke, struck, rfl⟩ := List.mem_map.mp blow'
    exact Combat.blows_of_force (force attacks same) _ _ stroke struck
  · obtain ⟨b, blocks, rfl⟩ := List.mem_map.mp back
    exact force blocks same

/-- The same state, but the card prints this power. -/
def withPower (s : State) (x : CardId) (power : Int) : State :=
  s.updateCard x fun c => { c with definition := { c.definition with power := some power } }

theorem blur_withPower {c : Card} (found : s.card? x = some c) (printed : c.definition.power.isSome)
    (power : Int) : (s.withPower x power).blur x = s.blur x := by
  obtain ⟨before, printed⟩ := Option.isSome_iff_exists.mp printed
  have card? (id : CardId) : ((s.withPower x power).blur x).card? id = (s.blur x).card? id := by
    rw [card?_blur, card?_blur, withPower, card?_updateCard]
    split
    · rename_i same
      rw [same, found]
      simp [Card.blurAt, Card.blur, Definition.blur, printed]
    · rfl
  have cards : ((s.withPower x power).blur x).cards = (s.blur x).cards := Table.ext_get? card?
  calc
    _ = { s with cards := ((s.withPower x power).blur x).cards } := rfl
    _ = s.blur x := by
      rw [cards]
      rfl

/-- What combat damage comes to when the first pass has been dealt. -/
theorem combatDamage_eq (opened : s.combat = some combat) (some : combat.attackers ≠ [])
    (first : s.derive.dealFirstStrike combat.defendingPlayer
      (s.derive.planDamage combat .firstStrike .empty).plan = .ok between) :
    s.combatDamage = between.dealDamage combat.defendingPlayer
      (between.planDamage combat .regular
        (s.derive.planDamage combat .firstStrike .empty).assigned).plan := by
  unfold combatDamage
  simp only [opened, List.isEmpty_iff, some, if_false, first, bind, Except.bind]

theorem combatDamage_congr (h : s.blur x = t.blur x) (opened : s.combat = some combat)
    (silent : s.derive.Silent x .firstStrike)
    (first : s.derive.dealFirstStrike combat.defendingPlayer
      (s.derive.planDamage combat .firstStrike .empty).plan = .ok between)
    (slain : between.Silent x .regular) :
    s.combatDamage.map (·.blur x) = t.combatDamage.map (·.blur x) := by
  have opened' : t.combat = some combat := (congrArg State.combat h).symm.trans opened
  by_cases none : combat.attackers = []
  · simp only [combatDamage, opened, opened', none, List.isEmpty_nil, if_true]
    exact congrArg Except.ok h
  · have derived := derive_congr h
    have planned := planDamage_congr derived silent combat .empty
    have struck := dealFirstStrike_congr derived combat.defendingPlayer
      (s.derive.planDamage combat .firstStrike .empty).plan
    rw [first] at struck
    cases first' : t.derive.dealFirstStrike combat.defendingPlayer
        (s.derive.planDamage combat .firstStrike .empty).plan with
    | error reason =>
        rw [first'] at struck
        cases struck
    | ok between' =>
        rw [first'] at struck
        have same : between.blur x = between'.blur x := Except.ok.inj struck
        rw [combatDamage_eq opened none first, combatDamage_eq opened' none (planned ▸ first'),
          ← planned, ← planDamage_congr same slain]
        exact dealDamage_congr same _ _

/-- What is seen of a state after combat damage. -/
structure Aftermath where
  lives : List Int
  damage : Table CardId Int
  places : Table CardId ZoneId
  zones : Table ZoneId Zone
  deriving DecidableEq

def aftermath (s : State) : Aftermath where
  lives := s.players.map (·.life)
  damage := s.cards.map (·.damage)
  places := s.cards.map (·.zone)
  zones := s.zones

theorem aftermath_blur (s : State) (x : CardId) : (s.blur x).aftermath = s.aftermath := by
  have seen {α : Type} {f : Card → α} (h : ∀ id c, f (c.blurAt x id) = f c) :
      (s.blur x).cards.map f = s.cards.map f := by
    refine Table.ext_get? fun id => ?_
    rw [Table.get?_map, Table.get?_map, blur, Table.get?_mapWithKey, Option.map_map]
    simp only [Function.comp_def, h]
  have damage (id : CardId) (c : Card) : (c.blurAt x id).damage = c.damage :=
    c.apply_blurAt x id (f := Card.damage) fun _ => rfl
  simp only [aftermath, seen damage, seen fun id c => c.zone_blurAt x id]
  rfl

/-- A creature with neither first nor double strike that is off the battlefields after the first pass, and
    what followed from it, deals no damage in either pass, and combat damage comes to the same whatever
    power is printed on it. A card that prints none is set apart: its counters add to a power only where
    there is one. -/
theorem slain_before_striking (s between : State) (combat : Combat) (x : CardId) (c : Card)
    (opened : s.combat = some combat) (distinct : combat.attackers.Nodup)
    (once : combat.blockers.Nodup) (found : s.derive.card? x = some c)
    (plain : c.hasKeyword .firstStrike = false ∧ c.hasKeyword .doubleStrike = false)
    (first : s.derive.dealFirstStrike combat.defendingPlayer
      (s.derive.planDamage combat .firstStrike .empty).plan = .ok between)
    (slain : between.isOnBattlefield x = false) :
    (c.definition.power.isSome → ∀ power,
      ((s.withPower x power).combatDamage).map aftermath = s.combatDamage.map aftermath) ∧
    (s.WellFormed → combat.defendingPlayer < s.playerCount → ∃ t, s.combatDamage = .ok t) ∧
    let before := s.derive.dealings combat .firstStrike .empty
    let assigned := (s.derive.planDamage combat .firstStrike .empty).assigned
    let after := between.dealings combat .regular assigned
    s.derive.planDamage combat .firstStrike .empty =
        Planning.strikes ⟨.none, .empty⟩ (before.map (·.2)) ∧
      between.planDamage combat .regular assigned =
        Planning.strikes ⟨.none, assigned⟩ (after.map (·.2)) ∧
      ∀ blow ∈ before ++ after, blow.1 = x → blow.2.amount = 0 := by
  have silent : s.derive.Silent x .firstStrike := by
    intro d known _
    obtain rfl : c = d := Option.some.inj (found.symm.trans known)
    simp [DamagePass.includes, plain]
  have absent : between.Silent x .regular := by
    intro d _ inPlay
    rw [slain] at inPlay
    cases inPlay
  refine ⟨fun printed power => ?same, fun wellFormed defended => ?total,
    s.derive.planDamage_eq_dealings combat distinct once _ _,
    between.planDamage_eq_dealings combat distinct once _ _, fun blow dealt => ?nothing⟩
  case same =>
    obtain ⟨d, known, place⟩ := card?_congr (layout_derive s) found
    have definition := Card.definition_eq_of_placement place
    have blurred := (blur_withPower known (definition ▸ printed) power).symm
    have seen (outcome : Outcome State) :
        outcome.map aftermath = (outcome.map (·.blur x)).map aftermath := by
      cases outcome with
      | error reason => rfl
      | ok t => exact congrArg Except.ok (t.aftermath_blur x).symm
    rw [seen s.combatDamage, seen (s.withPower x power).combatDamage,
      combatDamage_congr blurred opened silent first absent]
  case total =>
    refine wellFormed.housed.combatDamage_total fun other opened' => ?_
    rwa [← Option.some.inj (opened.symm.trans opened')]
  case nothing =>
    rcases List.mem_append.mp dealt with before | after
    · exact silent.dealings _ blow before
    · exact absent.dealings _ blow after

def duelist : Card :=
  .create 1 (.creature 1 "Duelist" 2 2) 0 (PlayerZones.ofSeat 0).battlefield
    [.static (.ofEffect 1 ⟨1, .source, .grantKeyword .firstStrike⟩)]

def novice : Card := .create 2 (.creature 2 "Novice" 2 2) 1 (PlayerZones.ofSeat 1).battlefield []

def duelCombat : Combat := ⟨0, 1, [1], .ofList [(1, [2])]⟩

/-- An attacker with first strike is blocked by a creature without. -/
def duel : State :=
  { ((initial 2 20).updateZone duelist.zone (·.push 1)).updateZone novice.zone (·.push 2) with
    cards := .ofList [(1, duelist), (2, novice)]
    nextCard := 3
    nextAbility := 2
    combat := some duelCombat }

/-- The blocker dies in the first pass. With any power it would not have hurt the attacker. -/
theorem slain_before_striking_duel :
    ∃ between, duel.derive.card? 2 = some novice ∧
      (novice.hasKeyword .firstStrike = false ∧ novice.hasKeyword .doubleStrike = false) ∧
      duel.derive.dealFirstStrike 1 (duel.derive.planDamage duelCombat .firstStrike .empty).plan =
        .ok between ∧
      between.isOnBattlefield 2 = false ∧
      (∃ t, duel.combatDamage = .ok t ∧
        ∀ power, ((duel.withPower 2 power).combatDamage).map aftermath = .ok t.aftermath) ∧
      ∀ blow ∈ duel.derive.dealings duelCombat .firstStrike .empty, blow.1 = 2 → blow.2.amount = 0 := by
  have struck : (do
      let between ← duel.derive.dealFirstStrike 1
        (duel.derive.planDamage duelCombat .firstStrike .empty).plan
      .ok (between.isOnBattlefield 2) : Outcome Bool) = .ok false := by decide
  obtain ⟨between, first, slain⟩ := Outcome.bind_eq_ok.mp struck
  have slain : between.isOnBattlefield 2 = false := Except.ok.inj slain
  have found : duel.derive.card? 2 = some novice := by decide
  have plain : novice.hasKeyword .firstStrike = false ∧ novice.hasKeyword .doubleStrike = false := by
    decide
  obtain ⟨same, total, -, -, nothing⟩ := slain_before_striking duel between duelCombat 2 novice rfl
    (by decide) (by decide) found plain first slain
  obtain ⟨t, dealt⟩ := total (by decide) (by decide)
  refine ⟨between, found, plain, first, slain, ⟨t, dealt, fun power => ?_⟩, fun blow struck => ?_⟩
  · rw [same rfl power, dealt]
    rfl
  · exact nothing blow (List.mem_append_left _ struck)

end State

end CardGame
