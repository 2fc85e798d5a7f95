import CardGame.Proofs.Layout
import Mathlib.Data.List.Flatten

/-! # What derived characteristics depend on

Deriving starts from the printed characteristics, so what was derived before leaves no trace. The
types that a card gets depend on the cards in play with it: fewer cards in play never give a card a
type that it would not have among more of them. Later layers and counters do not touch types.
-/

namespace CardGame

theorem Card.strip_withCounters (c : Card) : c.withCounters.strip = c.strip := by
  unfold Card.withCounters
  split <;> rfl

theorem Card.types_withCounters (c : Card) :
    c.withCounters.characteristics.types = c.characteristics.types := by
  unfold Card.withCounters
  split <;> rfl

theorem Card.isCreature_of_subset {c d : Card}
    (types : c.characteristics.types ⊆ d.characteristics.types) (h : c.isCreature = true) :
    d.isCreature = true := by
  simp only [Card.isCreature, Card.hasType, decide_eq_true_eq] at h ⊢
  exact types h

namespace State

theorem strip_mapCards (s : State) {f : CardId → Card → Card} (h : ∀ id c, (f id c).strip = c.strip) :
    { s with cards := s.cards.mapWithKey f }.strip = s.strip := by
  simp [strip, Table.map, Table.mapWithKey, Function.comp_def, h]

theorem strip_updateCards (s : State) (ids : List CardId) {f : Card → Card}
    (h : ∀ c, (f c).strip = c.strip) : (s.updateCards ids f).strip = s.strip :=
  updateCards_congr s (fun s id => strip_mapCards s fun _ c => by split <;> simp [h]) ids

theorem strip_change (effect : ContinuousEffect) (s : State)
    (f : Definition → Characteristics → Characteristics) :
    (effect.change s f).strip = s.strip :=
  strip_updateCards s (effect.reached s) fun _ => rfl

theorem strip_applyStatics (s : State) (abilities : List StaticAbility) :
    (s.applyStatics abilities).strip = s.strip := by
  unfold applyStatics
  induction abilities generalizing s with
  | nil => rfl
  | cons ability rest ih => exact (ih _).trans (strip_change ability.effect s _)

theorem strip_strip (s : State) : s.strip.strip = s.strip := strip_mapCards s fun _ _ => rfl

theorem strip_derive (s : State) : s.derive.strip = s.strip := by
  rw [derive, countCounters, strip_updateCards _ _ Card.strip_withCounters, strip_applyStatics,
    strip_strip]

theorem types_countCounters (s : State) : s.countCounters.types = s.types :=
  types_updateCards s _ Card.types_withCounters

theorem battlefield_strip (s : State) :
    s.strip.battlefield = s.battlefield.map fun e => (e.1, e.2.strip) := by
  have values : s.strip.cards.values = s.cards.values.map Card.strip := by
    simp [strip, Table.values, Table.map, Table.mapWithKey]
  rw [battlefield, values, List.filter_map, List.map_map, battlefield, List.map_map]
  rfl

theorem activeStatics_strip (s : State) : s.strip.activeStatics = s.activeStatics := by
  rw [activeStatics, battlefield_strip, List.flatMap_map, activeStatics]
  rfl

/-- Only what is left of a state without its characteristics counts for deriving them. -/
theorem derive_eq_of_strip_eq {s t : State} (h : s.strip = t.strip) : s.derive = t.derive := by
  have statics : s.activeStatics = t.activeStatics := by
    rw [← activeStatics_strip s, ← activeStatics_strip t, h]
  rw [derive, derive, h, statics]

theorem derive_strip (s : State) : s.strip.derive = s.derive :=
  derive_eq_of_strip_eq (strip_strip s)

theorem derive_derive (s : State) : s.derive.derive = s.derive :=
  derive_eq_of_strip_eq (strip_derive s)

theorem change_eq (effect : ContinuousEffect) (s : State)
    (f : Definition → Characteristics → Characteristics) :
    effect.change s f = { s with cards := (effect.change s f).cards } :=
  updateCards_eq s (effect.reached s) _

theorem applyStatics_eq (s : State) (abilities : List StaticAbility) :
    s.applyStatics abilities = { s with cards := (s.applyStatics abilities).cards } := by
  unfold applyStatics
  induction abilities generalizing s with
  | nil => rfl
  | cons ability rest ih =>
      rw [List.foldl_cons, ih, ContinuousEffect.apply, change_eq]

theorem derive_eq (s : State) : s.derive = { s with cards := s.derive.cards } := by
  unfold derive countCounters
  rw [updateCards_eq, applyStatics_eq]
  rfl

theorem players_derive (s : State) : s.derive.players = s.players := by rw [derive_eq]

/-- The zones and cards of one state, and all the rest of another. -/
def withBoard (s board : State) : State := { s with zones := board.zones, cards := board.cards }

theorem updateCards_withBoard (s board : State) (ids : List CardId) (f : Card → Card) :
    (s.withBoard board).updateCards ids f = s.withBoard (board.updateCards ids f) := by
  induction ids generalizing board with
  | nil => rfl
  | cons id rest ih => exact ih (board.updateCard id f)

theorem change_withBoard (effect : ContinuousEffect) (s board : State)
    (f : Definition → Characteristics → Characteristics) :
    effect.change (s.withBoard board) f = s.withBoard (effect.change board f) :=
  updateCards_withBoard s board (effect.reached board) _

theorem applyStatics_withBoard (s board : State) (abilities : List StaticAbility) :
    (s.withBoard board).applyStatics abilities = s.withBoard (board.applyStatics abilities) := by
  unfold applyStatics
  induction abilities generalizing board with
  | nil => rfl
  | cons ability rest ih =>
      simpa only [List.foldl_cons, ContinuousEffect.apply, change_withBoard] using ih _

/-- Deriving reads nothing but zones and cards. -/
theorem derive_withBoard (s board : State) :
    (s.withBoard board).derive = s.withBoard board.derive := by
  show ((s.withBoard board.strip).applyStatics board.activeStatics).countCounters = _
  rw [applyStatics_withBoard]
  exact updateCards_withBoard s _ _ _

/-- Every card in play in the one state is in play in the other, at the same place and with all of
    its types. -/
def Within (t s : State) : Prop :=
  ∀ id c, t.card? id = some c → t.isBattlefield c.zone = true →
    ∃ d, s.card? id = some d ∧ s.isBattlefield d.zone = true ∧ d.placement = c.placement ∧
      c.characteristics.types ⊆ d.characteristics.types

namespace Within

theorem refl (s : State) : s.Within s :=
  fun _ c hc hz => ⟨c, hc, hz, rfl, List.Subset.refl _⟩

/-- Nothing but the layouts and the types of the cards matters. -/
theorem congr {s t s' t' : State} (h : t.Within s) (layoutₜ : t'.layout = t.layout)
    (typesₜ : t'.types = t.types) (layoutₛ : s'.layout = s.layout) (typesₛ : s'.types = s.types) :
    t'.Within s' := by
  have sameTypes {r r' : State} (types : r'.types = r.types) {id : CardId} {c c' : Card}
      (hc : r.card? id = some c) (hc' : r'.card? id = some c') :
      c'.characteristics.types = c.characteristics.types := by
    simpa [State.types, hc, hc'] using congrFun types id
  intro id c' hc' hz'
  obtain ⟨c, hc, hcp⟩ := card?_congr layoutₜ hc'
  have hz : t.isBattlefield c.zone = true := by
    rwa [← isBattlefield_congr layoutₜ, Card.zone_eq_of_placement hcp]
  obtain ⟨d, hd, hdz, hdp, hdt⟩ := h id c hc hz
  obtain ⟨d', hd', hdp'⟩ := card?_congr layoutₛ.symm hd
  refine ⟨d', hd', ?_, hdp'.trans (hdp.trans hcp), ?_⟩
  · rwa [isBattlefield_congr layoutₛ, Card.zone_eq_of_placement hdp']
  · rwa [sameTypes typesₜ hc hc', sameTypes typesₛ hd hd']

theorem strip {s t : State} (h : t.Within s) : t.strip.Within s.strip := by
  intro id c hc hz
  rw [card?_strip, Option.map_eq_some_iff] at hc
  obtain ⟨c, hc, rfl⟩ := hc
  obtain ⟨d, hd, hdz, hdp, -⟩ := h id c hc hz
  refine ⟨d.strip, by rw [card?_strip, hd, Option.map_some], hdz, hdp, ?_⟩
  have same := Card.definition_eq_of_placement hdp
  simp [Card.strip, Characteristics.printed, same]

/-- The creatures are among those of the other state. -/
theorem creature {s t : State} (h : t.Within s) (keyedₜ : t.Keyed) (keyedₛ : s.Keyed) {id : CardId}
    {c : Card} (hc : (id, c) ∈ t.creatures) :
    ∃ d, (id, d) ∈ s.creatures ∧ d.placement = c.placement := by
  obtain ⟨hc, hz, isCreature⟩ := keyedₜ.mem_creatures.mp hc
  obtain ⟨d, hd, hdz, place, types⟩ := h id c hc hz
  exact ⟨d, keyedₛ.mem_creatures.mpr ⟨hd, hdz, Card.isCreature_of_subset types isCreature⟩, place⟩

end Within

end State

theorem Modification.types_subset_apply (m : Modification) (c : Characteristics) :
    c.types ⊆ (m.apply c).types := by
  cases m with
  | addType type => exact List.subset_append_left _ _
  | grantKeyword | setPowerToughness | modifyPowerToughness => exact List.Subset.refl _

theorem Modification.apply_types_subset (m : Modification) {c d : Characteristics}
    (h : c.types ⊆ d.types) : (m.apply c).types ⊆ (m.apply d).types := by
  cases m with
  | addType type =>
      exact List.append_subset.mpr
        ⟨List.subset_append_of_subset_left _ h, List.subset_append_right _ _⟩
  | grantKeyword | setPowerToughness | modifyPowerToughness => exact h

namespace ContinuousEffect

open State

/-- Does the effect of this source reach the card? -/
def reaches (effect : ContinuousEffect) (s : State) (source : Card) (id : CardId) (card : Card) :
    Bool :=
  match effect.affected with
  | .source => id = effect.source
  | .creaturesYouControl includeSource =>
    s.isBattlefield card.zone && card.isCreature && card.controller = source.controller &&
      (includeSource || id ≠ effect.source)
  | .allCreatures => s.isBattlefield card.zone && card.isCreature

/-- Does the effect reach the card, from a source in play? -/
def touches (effect : ContinuousEffect) (s : State) (id : CardId) (c : Card) : Bool :=
  (effect.activeSource? s).any fun source => effect.reaches s source id c

theorem mem_reached {effect : ContinuousEffect} {s : State} (keyed : s.Keyed) {id : CardId} {c : Card}
    (found : s.card? id = some c) : id ∈ effect.reached s ↔ effect.touches s id c = true := by
  unfold reached touches
  cases effect.activeSource? s with
  | none => simp
  | some source =>
      unfold reaches
      cases effect.affected <;> simp [keyed.mem_creatures, found, and_assoc]

theorem nodup_reached {effect : ContinuousEffect} {s : State} (keyed : s.Keyed) :
    (effect.reached s).Nodup := by
  unfold reached
  cases effect.activeSource? s with
  | none => exact .nil
  | some source =>
      cases effect.affected with
      | source => exact List.nodup_singleton _
      | creaturesYouControl => exact keyed.nodup_creatures.sublist (List.filter_sublist.map _)
      | allCreatures => exact keyed.nodup_creatures

theorem card?_change (effect : ContinuousEffect) {s : State} (keyed : s.Keyed)
    (f : Definition → Characteristics → Characteristics) (id : CardId) :
    (effect.change s f).card? id = (s.card? id).map fun c =>
      if effect.touches s id c then
        { c with characteristics := f c.definition c.characteristics }
      else c := by
  rw [change, card?_updateCards s (nodup_reached keyed)]
  exact Option.map_congr fun c found => if_congr (mem_reached keyed found) rfl rfl

theorem card?_apply (effect : ContinuousEffect) {s : State} (keyed : s.Keyed) (id : CardId) :
    (effect.apply s).card? id = (s.card? id).map fun c =>
      if effect.touches s id c then
        { c with characteristics := effect.modification.apply c.characteristics }
      else c :=
  card?_change effect keyed _ id

theorem activeSource?_within {effect : ContinuousEffect} {s t : State} (h : t.Within s)
    {source : Card} (active : effect.activeSource? t = some source) :
    ∃ d, effect.activeSource? s = some d ∧ d.controller = source.controller := by
  unfold activeSource? at active ⊢
  split at active
  · rename_i inPlay
    have hz : t.isBattlefield source.zone = true := by
      simpa [isOnBattlefield, zoneKind?, active, isBattlefield] using inPlay
    obtain ⟨d, hd, hdz, hdp, -⟩ := h effect.source source active hz
    have inPlay : s.isOnBattlefield effect.source = true := by
      simpa [isOnBattlefield, zoneKind?, hd, isBattlefield] using hdz
    exact ⟨d, by rw [if_pos inPlay, hd], Card.controller_eq_of_placement hdp⟩
  · cases active

/-- What an effect reaches among fewer cards it reaches among more. -/
theorem touches_within {effect : ContinuousEffect} {s t : State} (h : t.Within s) {id : CardId}
    {c d : Card} (hd : s.isBattlefield d.zone = true) (place : d.placement = c.placement)
    (types : c.characteristics.types ⊆ d.characteristics.types)
    (touched : effect.touches t id c = true) : effect.touches s id d = true := by
  unfold touches at touched ⊢
  rw [Option.any_eq_true] at touched ⊢
  obtain ⟨source, active, reached⟩ := touched
  obtain ⟨source', active', sameSource⟩ := activeSource?_within h active
  have creature := Card.isCreature_of_subset types
  have control := Card.controller_eq_of_placement place
  refine ⟨source', active', ?_⟩
  unfold reaches at reached ⊢
  cases affected : effect.affected with
  | source => simpa [affected] using reached
  | creaturesYouControl includeSource =>
      simp only [affected, Bool.and_eq_true, decide_eq_true_eq] at reached ⊢
      obtain ⟨⟨⟨-, isCreature⟩, mine⟩, self⟩ := reached
      exact ⟨⟨⟨hd, creature isCreature⟩, by rw [control, sameSource, mine]⟩, self⟩
  | allCreatures =>
      simp only [affected, Bool.and_eq_true] at reached ⊢
      exact ⟨hd, creature reached.2⟩

end ContinuousEffect

namespace State.Within

variable {s t : State}

theorem apply_right (h : t.Within s) (keyed : s.Keyed) (effect : ContinuousEffect) :
    t.Within (effect.apply s) := by
  intro id c hc hz
  obtain ⟨d, hd, hdz, hdp, hdt⟩ := h id c hc hz
  have layout : (effect.apply s).layout = s.layout := layout_change effect s _
  refine ⟨_, by rw [effect.card?_apply keyed, hd, Option.map_some], ?_⟩
  split
  · exact ⟨by rwa [isBattlefield_congr layout], hdp,
      List.Subset.trans hdt (effect.modification.types_subset_apply _)⟩
  · exact ⟨by rwa [isBattlefield_congr layout], hdp, hdt⟩

section Keyed

variable (keyedₜ : t.Keyed) (keyedₛ : s.Keyed)
include keyedₜ keyedₛ

theorem apply (h : t.Within s) (effect : ContinuousEffect) :
    (effect.apply t).Within (effect.apply s) := by
  intro id c hc hz
  have layout (r : State) : (effect.apply r).layout = r.layout := layout_change effect r _
  rw [isBattlefield_congr (layout t)] at hz
  rw [effect.card?_apply keyedₜ, Option.map_eq_some_iff] at hc
  obtain ⟨c, hc, rfl⟩ := hc
  by_cases touched : effect.touches t id c = true
  · rw [if_pos touched] at hz ⊢
    obtain ⟨d, hd, hdz, hdp, hdt⟩ := h id c hc hz
    have also := ContinuousEffect.touches_within h hdz hdp hdt touched
    refine ⟨{ d with characteristics := effect.modification.apply d.characteristics }, ?_, ?_, hdp,
      effect.modification.apply_types_subset hdt⟩
    · rw [effect.card?_apply keyedₛ, hd, Option.map_some, if_pos also]
    · rwa [isBattlefield_congr (layout s)]
  · rw [if_neg touched] at hz ⊢
    exact h.apply_right keyedₛ effect id c hc hz

theorem applyStatics (h : t.Within s) {fewer more : List StaticAbility}
    (sub : fewer.Sublist more) : (t.applyStatics fewer).Within (s.applyStatics more) := by
  have keeps {r : State} (keyed : r.Keyed) (effect : ContinuousEffect) : (effect.apply r).Keyed :=
    keyed.congr (layout_change effect r _)
  induction sub generalizing s t with
  | slnil => exact h
  | cons ability _ ih =>
      exact ih keyedₜ (keeps keyedₛ ability.effect) (h.apply_right keyedₛ ability.effect)
  | cons_cons ability _ ih =>
      exact ih (keeps keyedₜ ability.effect) (keeps keyedₛ ability.effect)
        (h.apply keyedₜ keyedₛ ability.effect)

/-- The abilities that apply among fewer cards apply in the same order among more. -/
theorem activeStatics (h : t.Within s) : t.activeStatics.Sublist s.activeStatics := by
  have ordered {r : State} (keyed : r.Keyed) :
      Key.Ordered (r.battlefield.map fun e => (e.1, e.2.statics)) :=
    List.pairwise_map.mpr keyed.battlefield_ordered
  have subset : (t.battlefield.map fun e => (e.1, e.2.statics)) ⊆
      s.battlefield.map fun e => (e.1, e.2.statics) := by
    intro entry member
    obtain ⟨⟨id, c⟩, inPlay, rfl⟩ := List.mem_map.mp member
    obtain ⟨found, hz⟩ := keyedₜ.mem_battlefield.mp inPlay
    obtain ⟨d, hd, hdz, hdp, -⟩ := h id c found hz
    refine List.mem_map.mpr ⟨(id, d), keyedₛ.mem_battlefield.mpr ⟨hd, hdz⟩, ?_⟩
    rw [Card.statics_eq_of_placement hdp]
  have abilities := ((ordered keyedₜ).sublist_of_subset (ordered keyedₛ) subset).flatMap (·.2)
  simp only [List.flatMap_map] at abilities
  unfold State.activeStatics Layer.arrange
  exact List.Sublist.flatMap_right Layer.all fun layer _ => abilities.filter _

theorem derive (h : t.Within s) : t.derive.Within s.derive := by
  have printed {r : State} (keyed : r.Keyed) : r.strip.Keyed := keyed.congr (layout_strip r)
  have applied := h.strip.applyStatics (printed keyedₜ) (printed keyedₛ)
    (h.activeStatics keyedₜ keyedₛ)
  exact applied.congr (layout_countCounters _) (types_countCounters _) (layout_countCounters _)
    (types_countCounters _)

end Keyed

end State.Within

/-- Every card in play keeps its printed types. -/
theorem State.Keyed.strip_within_derive {s : State} (keyed : s.Keyed) : s.strip.Within s.derive := by
  have printed : s.strip.Keyed := keyed.congr (layout_strip s)
  have applied := (Within.refl s.strip).applyStatics printed printed
    (List.nil_sublist s.activeStatics)
  exact applied.congr rfl rfl (layout_countCounters _) (types_countCounters _)

end CardGame
