import CardGame.Proofs.Layers
import CardGame.Proofs.Reach
import CardGame.Proofs.Words
import Mathlib.Algebra.BigOperators.Group.List.Basic
import Mathlib.Algebra.Ring.Int.Defs
import Mathlib.Data.List.Induction

/-! # The rule for derived characteristics

Where all static abilities are built-in ones, deriving layer by layer comes to one rule. A card in
play is as printed and as its own abilities change it. If it is a creature then, the anthems that
reach it add up, and counters come last. In which order the anthems are found makes no difference.
The sums wrap around, and so does the number of counters that decides whether they count at all, so
the rule in exact numbers holds only as far as these are words.
-/

namespace CardGame

namespace Characteristics

/-- Power and toughness replaced by a new base, if there is one. -/
def withBase (c : Characteristics) : Option (Int × Int) → Characteristics
  | none => c
  | some (power, toughness) => { c with power := some power, toughness := some toughness }

/-- Power and toughness raised by what several anthems add together. -/
def raisedBy (c : Characteristics) (raises : List (Int × Int)) : Characteristics :=
  if raises = [] then c else c.raise (raises.map (·.1)).sum (raises.map (·.2)).sum

/-- Power and toughness with counters, if there are both. -/
def countered (c : Characteristics) (delta : Int) : Characteristics :=
  match c.power, c.toughness with
  | some _, some _ => c.raise delta delta
  | _, _ => c

/-- Power and toughness by the rule in exact numbers: raised if any anthem reaches the card, and then
    changed by counters if there are both. -/
def exactly (c : Characteristics) (raises : List (Int × Int)) (delta : Int) : Characteristics :=
  let raised : Characteristics :=
    if raises = [] then c
    else
      { c with
        power := some (c.power.getD 0 + (raises.map (·.1)).sum)
        toughness := some (c.toughness.getD 0 + (raises.map (·.2)).sum) }
  match raised.power, raised.toughness with
  | some power, some toughness =>
    { raised with power := some (power + delta), toughness := some (toughness + delta) }
  | _, _ => raised

end Characteristics

/-- What is printed on a card, changed by the static abilities of the card itself: types and
    keywords are added as listed, and the last base power and toughness counts. -/
def Card.ownCharacteristics (c : Card) : Characteristics :=
  { Characteristics.printed c.definition with
    types := c.definition.types ++ c.statics.filterMap StaticAbility.addedType?
    keywords := c.statics.filterMap StaticAbility.grantedKeyword? }.withBase
      (c.statics.filterMap StaticAbility.base?).getLast?

/-- Is a creature among those that an anthem on a permanent is about? -/
def Affected.includes (affected : Affected) (permanent : CardId) (p : Card) (creature : CardId)
    (c : Card) : Bool :=
  match affected with
  | .source => false
  | .creaturesYouControl includeSource =>
    p.controller = c.controller && (includeSource || permanent ≠ creature)
  | .allCreatures => true

namespace State

/-- What the anthems that reach a card in play add to its power and toughness. -/
def raises (s : State) (id : CardId) (c : Card) : List (Int × Int) :=
  s.battlefield.flatMap fun (permanent, p) =>
    p.statics.filterMap fun ability =>
      if .creature ∈ c.ownCharacteristics.types ∧
          ability.effect.affected.includes permanent p id c then
        ability.raise?
      else none

/-- The characteristics that a card has by the rule. -/
def characteristicsOf (s : State) (id : CardId) (c : Card) : Characteristics :=
  if s.isBattlefield c.zone then
    let raised := c.ownCharacteristics.raisedBy (s.raises id c)
    if c.isCountered then raised.countered c.counterDelta else raised
  else .printed c.definition

/-- The characteristics that a card has by the rule in exact numbers. -/
def exactCharacteristicsOf (s : State) (id : CardId) (c : Card) : Characteristics :=
  if s.isBattlefield c.zone then c.ownCharacteristics.exactly (s.raises id c) c.counterDelta
  else .printed c.definition

/-- The static abilities in play, as they are discovered: by card, then as listed on the card. -/
def discovered (s : State) : List StaticAbility := s.battlefield.flatMap fun e => e.2.statics

/-- Derive characteristics from abilities that are discovered in some order. -/
def deriveFrom (s : State) (order : List StaticAbility) : State :=
  (s.strip.applyStatics (Layer.arrange StaticAbility.layer order)).countCounters

theorem deriveFrom_discovered (s : State) : s.deriveFrom s.discovered = s.derive := rfl

/-- The abilities in play in another order, in which only anthems have changed places. -/
structure Reorders (s : State) (order : List StaticAbility) : Prop where
  perm : order.Perm s.discovered
  others : (order.filter fun a => !a.isAnthem) = s.discovered.filter fun a => !a.isAnthem

/-- Every static ability is a built-in one of the card that carries it. -/
structure BuiltinStatics (s : State) : Prop where
  keyed : s.Keyed
  isBuiltin : ∀ id c, s.card? id = some c → ∀ ability ∈ c.statics, ability.IsBuiltin id

end State

namespace Characteristics

theorem raise_raise (c : Characteristics) (p t p' t' : Int) :
    (c.raise p t).raise p' t' = c.raise (p + p') (t + t') := by
  simp [raise, Int.add_assoc]

/-- Where the numbers are words in the end, it does not matter that sums wrap around on the way. -/
theorem exactly_of_areWords {c : Characteristics} {raises : List (Int × Int)} {delta : Int}
    (exact : (c.exactly raises delta).AreWords) :
    (c.raisedBy raises).countered delta = c.exactly raises delta := by
  obtain ⟨power, toughness⟩ := exact
  by_cases none : raises = []
  · simp only [exactly, none, if_true] at power toughness ⊢
    cases hp : c.power <;> cases ht : c.toughness <;>
      simp_all [raisedBy, countered, raise, word_of_isWord]
  · simp only [exactly, none, if_false, Option.mem_def, Option.some.injEq, forall_eq']
      at power toughness ⊢
    simp [raisedBy, countered, raise, none, word_of_isWord power, word_of_isWord toughness]

theorem raisedBy_of_areWords {c : Characteristics} {raises : List (Int × Int)}
    (exact : (c.exactly raises 0).AreWords) : c.raisedBy raises = c.exactly raises 0 := by
  obtain ⟨power, toughness⟩ := exact
  by_cases none : raises = []
  · simp only [exactly, raisedBy, none, if_true]
    cases hp : c.power <;> cases ht : c.toughness <;> simp [← hp, ← ht]
  · simp only [exactly, none, if_false, Option.mem_def, Option.some.injEq, forall_eq', Int.add_zero]
      at power toughness ⊢
    simp [raisedBy, raise, none, word_of_isWord power, word_of_isWord toughness]

theorem raisedBy_concat (c : Characteristics) (raises : List (Int × Int)) (r : Int × Int) :
    (c.raisedBy raises).raise r.1 r.2 = c.raisedBy (raises ++ [r]) := by
  unfold raisedBy
  by_cases none : raises = []
  · simp [none]
  · simp [none, raise_raise]

/-- The order of the summands does not matter. -/
theorem raisedBy_perm (c : Characteristics) {raises others : List (Int × Int)}
    (perm : raises.Perm others) : c.raisedBy raises = c.raisedBy others := by
  have empty : raises = [] ↔ others = [] := by
    rw [← List.length_eq_zero_iff, ← List.length_eq_zero_iff, perm.length_eq]
  simp only [raisedBy, empty, (perm.map Prod.fst).sum_eq, (perm.map Prod.snd).sum_eq]

theorem applyAll_concat (c : Characteristics) (abilities : List StaticAbility)
    (ability : StaticAbility) :
    c.applyAll (abilities ++ [ability]) =
      ability.effect.modification.apply (c.applyAll abilities) := by
  simp [applyAll]

/-- Anthems add up. -/
theorem applyAll_anthems (c : Characteristics) {abilities : List StaticAbility}
    (anthems : ∀ a ∈ abilities, a.isAnthem = true) :
    c.applyAll abilities = c.raisedBy (abilities.filterMap StaticAbility.raise?) := by
  induction abilities using List.reverseRecOn with
  | nil => rfl
  | append_singleton abilities ability ih =>
      rw [applyAll_concat, ih fun a ha => anthems a (List.mem_append_left _ ha)]
      have anthem := anthems ability (List.mem_append_right _ List.mem_cons_self)
      unfold StaticAbility.isAnthem StaticAbility.raise? at anthem
      cases modification : ability.effect.modification with
      | modifyPowerToughness power toughness =>
          have raise : ability.raise? = some (power, toughness) := by
            rw [StaticAbility.raise?, modification]
          rw [List.filterMap_append, List.filterMap_cons, raise]
          exact raisedBy_concat c _ (power, toughness)
      | addType | grantKeyword | setPowerToughness => simp [modification] at anthem

/-- Other abilities change types, keywords and the base of power and toughness, each kind without
    regard to the others. -/
theorem applyAll_own (c : Characteristics) {abilities : List StaticAbility}
    (own : ∀ a ∈ abilities, a.isAnthem = false) :
    c.applyAll abilities =
      { c with
        types := c.types ++ abilities.filterMap StaticAbility.addedType?
        keywords := c.keywords ++ abilities.filterMap StaticAbility.grantedKeyword? }.withBase
          (abilities.filterMap StaticAbility.base?).getLast? := by
  induction abilities using List.reverseRecOn with
  | nil => simp [applyAll, withBase]
  | append_singleton abilities ability ih =>
      rw [applyAll_concat, ih fun a ha => own a (List.mem_append_left _ ha)]
      have notAnthem := own ability (List.mem_append_right _ List.mem_cons_self)
      simp only [List.filterMap_append]
      generalize abilities.filterMap StaticAbility.base? = bases
      cases modification : ability.effect.modification with
      | addType | grantKeyword =>
          cases last : bases.getLast? <;>
            simp [StaticAbility.addedType?, StaticAbility.grantedKeyword?, StaticAbility.base?,
              modification, withBase, Modification.apply, last]
      | setPowerToughness =>
          cases bases.getLast? <;>
            simp [StaticAbility.addedType?, StaticAbility.grantedKeyword?, StaticAbility.base?,
              modification, withBase, Modification.apply]
      | modifyPowerToughness =>
          simp [StaticAbility.isAnthem, StaticAbility.raise?, modification] at notAnthem

end Characteristics

namespace State

variable {s : State} {order : List StaticAbility} {id : CardId} {c : Card}

theorem Reorders.self (s : State) : s.Reorders s.discovered := ⟨.refl _, rfl⟩

theorem mem_discovered {ability : StaticAbility} :
    ability ∈ s.discovered ↔ ∃ carrier p, (carrier, p) ∈ s.battlefield ∧ ability ∈ p.statics := by
  simp [discovered]

namespace BuiltinStatics

variable (h : s.BuiltinStatics)
include h

theorem source {carrier : CardId} {p : Card} (inPlay : (carrier, p) ∈ s.battlefield)
    {ability : StaticAbility} (listed : ability ∈ p.statics) : ability.effect.source = carrier := by
  have known := (h.keyed.mem_battlefield.mp inPlay).1
  obtain ⟨same, d, origin, t, built⟩ := h.isBuiltin carrier p known ability listed
  exact (Builtin.effect_of_build built).1.trans same

/-- Abilities in play other than anthems are about their own cards. -/
theorem affected_iff {ability : StaticAbility} (inPlay : ability ∈ s.discovered) :
    ability.effect.affected = .source ↔ ability.isAnthem = false := by
  obtain ⟨carrier, p, member, listed⟩ := mem_discovered.mp inPlay
  have known := (h.keyed.mem_battlefield.mp member).1
  obtain ⟨-, d, origin, t, built⟩ := h.isBuiltin carrier p known ability listed
  exact (Builtin.effect_of_build built).2

/-- The abilities in play that come from one card are those that are listed on it. -/
theorem filterMap_discovered {β : Type} (found : s.card? id = some c)
    (g : StaticAbility → Option β) :
    (s.discovered.filterMap fun a => if a.effect.source = id then g a else none) =
      if s.isBattlefield c.zone then c.statics.filterMap g else [] := by
  have byCarrier : (s.discovered.filterMap fun a => if a.effect.source = id then g a else none) =
      s.battlefield.flatMap fun e => if e.1 = id then e.2.statics.filterMap g else [] := by
    rw [discovered, List.filterMap_flatMap]
    refine List.flatMap_congr fun (carrier, p) member => ?_
    dsimp only
    split
    · rename_i same
      exact List.filterMap_congr fun a listed => if_pos ((h.source member listed).trans same)
    · rename_i other
      exact List.filterMap_eq_nil_iff.mpr fun a listed =>
        if_neg ((h.source member listed).trans_ne other)
  have onBattlefield : s.battlefield.lookup id = if s.isBattlefield c.zone then some c else none := by
    split
    · rename_i inPlay
      exact (Table.mem_entries_iff h.keyed.battlefield_ordered).mp
        (h.keyed.mem_battlefield.mpr ⟨found, inPlay⟩)
    · rename_i elsewhere
      refine Option.eq_none_iff_forall_not_mem.mpr fun d listed => elsewhere ?_
      obtain ⟨found', inPlay⟩ :=
        h.keyed.mem_battlefield.mp ((Table.mem_entries_iff h.keyed.battlefield_ordered).mpr listed)
      rwa [Option.some.inj (found.symm.trans found')]
  rw [byCarrier, h.keyed.battlefield_ordered.flatMap_ite id fun p => p.statics.filterMap g,
    onBattlefield]
  split <;> rfl

/-- What abilities in play other than anthems do to a card, by the layer in which they do it. -/
theorem filterMap_own {β : Type} (found : s.card? id = some c) (layer : Layer)
    {f : StaticAbility → Option β} (only : ∀ a : StaticAbility, a.layer ≠ layer → f a = none)
    (notAnthems : layer ≠ .powerToughnessModify) :
    ((Layer.arrange StaticAbility.layer (s.discovered.filter fun a => !a.isAnthem)).filter
        fun a => a.effect.source = id).filterMap f =
      if s.isBattlefield c.zone then c.statics.filterMap f else [] := by
  rw [List.filterMap_filter, Layer.filterMap_arrange layer, List.filterMap_filter,
    ← h.filterMap_discovered found f]
  · refine List.filterMap_congr fun a _ => ?_
    by_cases anthem : a.layer = .powerToughnessModify
    · simp [StaticAbility.isAnthem_eq, anthem, only a (anthem ▸ notAnthems.symm)]
    · simp [StaticAbility.isAnthem_eq, anthem]
  · intro a _ elsewhere
    simp [only a elsewhere]

/-- An ability about its own card reaches that card as long as it is in play. -/
theorem touches_own {ability : StaticAbility} (inPlay : ability ∈ s.discovered)
    (own : ability.effect.affected = .source) (id : CardId) (c : Card) :
    ability.effect.touches s id c = decide (ability.effect.source = id) := by
  obtain ⟨carrier, p, member, listed⟩ := mem_discovered.mp inPlay
  have source : ability.effect.source = carrier := h.source member listed
  refine Bool.eq_iff_iff.mpr ?_
  rw [ContinuousEffect.touches_iff, decide_eq_true_eq]
  simp only [ContinuousEffect.reaches, own, decide_eq_true_eq]
  constructor
  · rintro ⟨-, -, same⟩
    exact same.symm
  · intro same
    exact ⟨p, source ▸ h.keyed.mem_battlefield.mp member, same.symm⟩

theorem card?_applyOwn (id : CardId) :
    (s.strip.applyStatics (Layer.arrange StaticAbility.layer
        (s.discovered.filter fun a => !a.isAnthem))).card? id =
      (s.card? id).map fun c =>
        { c with
          characteristics :=
            if s.isBattlefield c.zone then c.ownCharacteristics else .printed c.definition } := by
  have own {a : StaticAbility} (member : a ∈ Layer.arrange StaticAbility.layer
      (s.discovered.filter fun a => !a.isAnthem)) : a ∈ s.discovered ∧ a.isAnthem = false := by
    rw [Layer.mem_arrange, List.mem_filter] at member
    simpa using member
  have affected {a : StaticAbility} (member : a ∈ Layer.arrange StaticAbility.layer
      (s.discovered.filter fun a => !a.isAnthem)) : a.effect.affected = .source :=
    (h.affected_iff (own member).1).mpr (own member).2
  rw [card?_applyStatics (h.keyed.congr (layout_strip s)) (fun a ha _ _ => .inl (affected ha)),
    card?_strip, Option.map_map]
  refine Option.map_congr fun c found => ?_
  have reached : ((Layer.arrange StaticAbility.layer
        (s.discovered.filter fun a => !a.isAnthem)).filter
        fun a => a.effect.touches s.strip id c.strip) =
      (Layer.arrange StaticAbility.layer (s.discovered.filter fun a => !a.isAnthem)).filter
        fun a => a.effect.source = id := by
    refine List.filter_congr fun a ha => ?_
    rw [ContinuousEffect.touches_congr (layout_strip s) (d := c.strip) (c := c) rfl
      (.inl (affected ha)), h.touches_own (own ha).1 (affected ha)]
  rw [Function.comp_apply, reached,
    Characteristics.applyAll_own _ fun a ha => (own (List.mem_of_mem_filter ha)).2,
    h.filterMap_own found .type (f := StaticAbility.addedType?)
      (fun a => a.none_of_layer.1) nofun,
    h.filterMap_own found .ability (f := StaticAbility.grantedKeyword?)
      (fun a => a.none_of_layer.2.1) nofun,
    h.filterMap_own found .powerToughnessSet (f := StaticAbility.base?)
      (fun a => a.none_of_layer.2.2) nofun]
  split
  · rfl
  · simp [Card.strip, Characteristics.withBase, Characteristics.printed]

theorem touches_anthem {permanent : CardId} {p : Card} (inPlay : (permanent, p) ∈ s.battlefield)
    {ability : StaticAbility} (listed : ability ∈ p.statics) (anthem : ability.isAnthem = true)
    (id : CardId) (c : Card) :
    ability.effect.touches s id c =
      (s.isBattlefield c.zone &&
        (c.isCreature && ability.effect.affected.includes permanent p id c)) := by
  have source : ability.effect.source = permanent := h.source inPlay listed
  have discovered : ability ∈ s.discovered := mem_discovered.mpr ⟨permanent, p, inPlay, listed⟩
  have notOwn : ability.effect.affected ≠ .source := by
    simp [h.affected_iff discovered, anthem]
  have only (other : Card) :
      (s.card? permanent = some other ∧ s.isBattlefield other.zone = true) ↔ other = p := by
    rw [h.keyed.mem_battlefield] at inPlay
    rw [inPlay.1]
    exact ⟨fun found => (Option.some.inj found.1).symm, fun same => by simp [same, inPlay.2]⟩
  refine Bool.eq_iff_iff.mpr ?_
  rw [ContinuousEffect.touches_iff, source]
  simp only [only, exists_eq_left, ContinuousEffect.reaches, Affected.includes, source]
  cases affected : ability.effect.affected with
  | source => exact absurd affected notOwn
  | creaturesYouControl includeSource =>
      simp only [Bool.and_eq_true, decide_eq_true_eq, Bool.or_eq_true, and_assoc]
      rw [eq_comm (a := c.controller), ne_comm (a := id)]
  | allCreatures => simp

theorem perm_anthems (reorders : s.Reorders order) (id : CardId) (c : Card) :
    (((order.filter (·.isAnthem)).filter fun a => a.effect.touches s id c).filterMap
        StaticAbility.raise?).Perm
      (s.battlefield.flatMap fun e => e.2.statics.filterMap fun a =>
        if s.isBattlefield c.zone && (c.isCreature && a.effect.affected.includes e.1 e.2 id c) then
          a.raise?
        else none) := by
  have one : (((order.filter (·.isAnthem)).filter fun a => a.effect.touches s id c).filterMap
      StaticAbility.raise?) =
      order.filterMap fun a => if a.effect.touches s id c then a.raise? else none := by
    rw [List.filterMap_filter, List.filterMap_filter]
    refine List.filterMap_congr fun a _ => ?_
    cases raise : a.raise? <;> simp [StaticAbility.isAnthem, raise]
  rw [one]
  refine (reorders.perm.filterMap _).trans (.of_eq ?_)
  rw [discovered, List.filterMap_flatMap]
  refine List.flatMap_congr fun (permanent, p) inPlay => List.filterMap_congr fun a listed => ?_
  cases raise : a.raise? with
  | none => simp
  | some r =>
      have anthem : a.isAnthem = true := by rw [StaticAbility.isAnthem, raise, Option.isSome_some]
      rw [h.touches_anthem inPlay listed anthem]

variable (id c) in
/-- In whatever order the anthems apply, they raise a card by the same. -/
theorem raisedBy_anthems (reorders : s.Reorders order) {d : Card} (place : d.placement = c.placement)
    (characteristics : d.characteristics =
      if s.isBattlefield c.zone then c.ownCharacteristics else .printed c.definition) :
    d.characteristics.raisedBy
        (((order.filter (·.isAnthem)).filter fun a => a.effect.touches s id d).filterMap
          StaticAbility.raise?) =
      if s.isBattlefield c.zone then c.ownCharacteristics.raisedBy (s.raises id c)
      else .printed c.definition := by
  rw [Characteristics.raisedBy_perm _ (h.perm_anthems reorders id d), characteristics,
    Card.zone_eq_of_placement place]
  split
  · rename_i inPlay
    rw [if_pos inPlay] at characteristics
    have same (affected : Affected) (permanent : CardId) (p : Card) :
        affected.includes permanent p id d = affected.includes permanent p id c := by
      unfold Affected.includes
      rw [Card.controller_eq_of_placement place]
    have creature : d.isCreature = decide (.creature ∈ c.ownCharacteristics.types) := by
      rw [Card.isCreature, Card.hasType, characteristics]
    simp only [same, creature, inPlay, Bool.true_and, Bool.and_eq_true, decide_eq_true_eq]
    rfl
  · rename_i elsewhere
    simp only [Bool.not_eq_true] at elsewhere
    simp [elsewhere, Characteristics.raisedBy]

theorem card?_applyArranged (reorders : s.Reorders order) (id : CardId) :
    (s.strip.applyStatics (Layer.arrange StaticAbility.layer order)).card? id =
      (s.card? id).map fun c =>
        { c with
          characteristics :=
            if s.isBattlefield c.zone then c.ownCharacteristics.raisedBy (s.raises id c)
            else .printed c.definition } := by
  have apart : s.strip.applyStatics (Layer.arrange StaticAbility.layer order) =
      (s.strip.applyStatics (Layer.arrange StaticAbility.layer
        (s.discovered.filter fun a => !a.isAnthem))).applyStatics
          (order.filter (·.isAnthem)) := by
    rw [StaticAbility.arrange_anthems_last, reorders.others]
    exact List.foldl_append
  have anthems : ∀ a ∈ order.filter (·.isAnthem), ∀ b ∈ order.filter (·.isAnthem),
      a.effect.affected = .source ∨ b.addedType? = none := by
    intro a _ b hb
    have anthem := List.of_mem_filter hb
    rw [StaticAbility.isAnthem_eq, decide_eq_true_eq] at anthem
    exact .inr (b.none_of_layer.1 (by rw [anthem]; nofun))
  have keyed : (s.strip.applyStatics (Layer.arrange StaticAbility.layer
      (s.discovered.filter fun a => !a.isAnthem))).Keyed :=
    h.keyed.congr ((layout_applyStatics _ _).trans (layout_strip s))
  rw [apart, card?_applyStatics keyed anthems, h.card?_applyOwn, Option.map_map]
  refine Option.map_congr fun c _ => ?_
  have reached (d : Card) : ((order.filter (·.isAnthem)).filter fun a =>
      a.effect.touches (s.strip.applyStatics (Layer.arrange StaticAbility.layer
        (s.discovered.filter fun a => !a.isAnthem))) id d) =
      (order.filter (·.isAnthem)).filter fun a => a.effect.touches s id d :=
    List.filter_congr fun a _ => ContinuousEffect.touches_congr
      ((layout_applyStatics _ _).trans (layout_strip s)) rfl (.inr rfl)
  have raised := h.raisedBy_anthems id c reorders
    (d := { c with
      characteristics :=
        if s.isBattlefield c.zone then c.ownCharacteristics else .printed c.definition }) rfl rfl
  rw [Function.comp_apply, reached, Characteristics.applyAll_anthems _ fun a ha =>
    List.of_mem_filter (List.mem_of_mem_filter ha), raised]

end BuiltinStatics

theorem withCounters_eq (c : Card) :
    c.withCounters =
      { c with characteristics := c.characteristics.countered c.counterDelta } := by
  unfold Card.withCounters Characteristics.countered
  cases power : c.characteristics.power <;> cases toughness : c.characteristics.toughness <;> rfl

theorem BuiltinStatics.card?_deriveFrom (h : s.BuiltinStatics) (reorders : s.Reorders order)
    (id : CardId) :
    (s.deriveFrom order).card? id =
      (s.card? id).map fun c => { c with characteristics := s.characteristicsOf id c } := by
  have layout : (s.strip.applyStatics (Layer.arrange StaticAbility.layer order)).layout = s.layout :=
    (layout_applyStatics _ _).trans (layout_strip s)
  rw [deriveFrom, countCounters, (h.keyed.congr layout).card?_updatePermanents,
    h.card?_applyArranged reorders, Option.map_map]
  refine Option.map_congr fun c _ => ?_
  simp only [Function.comp_apply, isBattlefield_congr layout, characteristicsOf, withCounters_eq]
  cases s.isBattlefield c.zone with
  | false => rfl
  | true =>
      change (if c.isCountered = true then _ else _ : Card) = _
      cases c.isCountered <;> rfl

theorem deriveFrom_eq (s : State) (order : List StaticAbility) :
    s.deriveFrom order = { s with cards := (s.deriveFrom order).cards } := by
  unfold deriveFrom countCounters
  rw [updateCards_eq, applyStatics_eq]
  rfl

/-- The rule holds in exact numbers wherever these are words and the counters of both kinds together
    have a number of their own. -/
theorem characteristicsOf_of_areWords
    (counted : tally (c.counterCount Card.plusOne + c.counterCount Card.minusOne) =
      c.counterCount Card.plusOne + c.counterCount Card.minusOne)
    (exact : (s.exactCharacteristicsOf id c).AreWords) :
    s.characteristicsOf id c = s.exactCharacteristicsOf id c := by
  unfold characteristicsOf exactCharacteristicsOf at *
  split
  · rename_i inPlay
    rw [if_pos inPlay] at exact
    dsimp only
    split
    · exact Characteristics.exactly_of_areWords exact
    · rename_i none
      rw [Card.isCountered, counted, decide_eq_true_eq] at none
      have same : c.counterDelta = 0 := by
        unfold Card.counterDelta
        omega
      rw [same] at exact ⊢
      exact Characteristics.raisedBy_of_areWords exact
  · rfl

/-- A land that its own abilities make a creature, with a counter on it, an anthem of its controller,
    and one of the other player for all creatures. -/
def risenLand : State :=
  let land := Card.create 1 (.basicLand 1 "Moor") 0 (PlayerZones.ofSeat 0).battlefield
    [.static (.ofEffect 1 ⟨1, .source, .addType .creature⟩),
      .static (.ofEffect 2 ⟨1, .source, .setPowerToughness 0 2⟩)]
  let banner := Card.create 2 { id := 2, name := "Banner", types := [.artifact] } 0
    (PlayerZones.ofSeat 0).battlefield
    [.static (.ofEffect 3 ⟨2, .creaturesYouControl false, .modifyPowerToughness 1 1⟩)]
  let storm := Card.create 3 { id := 3, name := "Storm", types := [.enchantment] } 1
    (PlayerZones.ofSeat 1).battlefield
    [.static (.ofEffect 4 ⟨3, .allCreatures, .modifyPowerToughness 2 (-1)⟩)]
  let table := (initial 2 20).updateZone land.zone (fun zone => (zone.push 1).push 2)
    |>.updateZone storm.zone (·.push 3)
  { table with
    cards := .ofList [(1, land.addCounters Card.plusOne 1), (2, banner), (3, storm)]
    nextCard := 4
    nextAbility := 5 }

example : (risenLand.derive.card? 1).map (fun c => (c.isCreature, c.power, c.toughness)) =
    some (true, 4, 3) := by decide

/-- A creature with as many plus-one counters as there can be and one minus-one counter. -/
def teeming : State :=
  let bear := Card.create 1 (.creature 1 "Bear" 2 2) 0 (PlayerZones.ofSeat 0).battlefield []
  let table := (initial 2 20).updateZone bear.zone (·.push 1)
  { table with
    cards := .ofList
      [(1, (bear.addCounters Card.plusOne 4294967295).addCounters Card.minusOne 1)]
    nextCard := 2 }

end State

end CardGame
