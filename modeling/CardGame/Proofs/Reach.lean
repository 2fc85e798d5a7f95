import CardGame.Proofs.BuiltinStatics
import CardGame.Proofs.Derivation

/-! # Whom effects reach

Whom an effect reaches depends on where the cards are and on their types. So effects that add no type
all reach the cards that they would reach alone, and so do effects that only change their sources.
What such effects make of a card is then what those that reach it make of it, one after the other.
-/

namespace CardGame

namespace ContinuousEffect

variable {effect : ContinuousEffect} {s t : State} {id : CardId} {c d : Card}

theorem activeSource?_eq_some {source : Card} :
    effect.activeSource? s = some source ↔
      s.card? effect.source = some source ∧ s.isBattlefield source.zone = true := by
  rw [activeSource?]
  constructor
  · intro active
    split at active
    · rename_i inPlay
      obtain ⟨c, found, onBattlefield⟩ := State.isOnBattlefield_iff.mp inPlay
      rw [found] at active
      cases active
      exact ⟨found, onBattlefield⟩
    · cases active
  · rintro ⟨found, onBattlefield⟩
    rw [if_pos (State.isOnBattlefield_iff.mpr ⟨source, found, onBattlefield⟩), found]

theorem touches_iff :
    effect.touches s id c = true ↔
      ∃ source, (s.card? effect.source = some source ∧ s.isBattlefield source.zone = true) ∧
        effect.reaches s source id c = true := by
  simp [touches, Option.any_eq_true, activeSource?_eq_some]

theorem reaches_congr (layout : t.layout = s.layout) {source source' : Card}
    (control : source'.controller = source.controller) (place : d.placement = c.placement)
    (types : effect.affected = .source ∨ d.characteristics.types = c.characteristics.types) :
    effect.reaches t source' id d = effect.reaches s source id c := by
  unfold reaches
  rcases types with own | types
  · simp only [own]
  · have creature : d.isCreature = c.isCreature := by
      simp only [Card.isCreature, Card.hasType, types]
    simp only [State.isBattlefield_congr layout, Card.zone_eq_of_placement place,
      Card.controller_eq_of_placement place, creature, control]

theorem touches_congr (layout : t.layout = s.layout) (place : d.placement = c.placement)
    (types : effect.affected = .source ∨ d.characteristics.types = c.characteristics.types) :
    effect.touches t id d = effect.touches s id c := by
  have carries {s t : State} {c d : Card} (layout : t.layout = s.layout)
      (place : d.placement = c.placement)
      (types : effect.affected = .source ∨ d.characteristics.types = c.characteristics.types)
      (touched : effect.touches s id c = true) : effect.touches t id d = true := by
    obtain ⟨source, ⟨found, onBattlefield⟩, reached⟩ := touches_iff.mp touched
    obtain ⟨source', found', samePlace⟩ := State.card?_congr layout.symm found
    refine touches_iff.mpr ⟨source', ⟨found', ?_⟩, ?_⟩
    · rwa [State.isBattlefield_congr layout, Card.zone_eq_of_placement samePlace]
    · rwa [reaches_congr layout (Card.controller_eq_of_placement samePlace) place types]
  refine Bool.eq_iff_iff.mpr ⟨carries layout.symm place.symm ?_, carries layout place types⟩
  exact types.imp_right Eq.symm

end ContinuousEffect

/-- Effects reach cards on battlefields only. -/
theorem State.isBattlefield_of_touches {effect : ContinuousEffect} {s : State} {id : CardId} {c : Card}
    (found : s.card? id = some c) (touched : effect.touches s id c = true) :
    s.isBattlefield c.zone = true := by
  obtain ⟨source, ⟨known, onBattlefield⟩, reached⟩ := ContinuousEffect.touches_iff.mp touched
  unfold ContinuousEffect.reaches at reached
  split at reached
  · rw [← of_decide_eq_true reached] at known
    rwa [Option.some.inj (found.symm.trans known)]
  · simp only [Bool.and_eq_true] at reached
    exact reached.1.1.1
  · exact (Bool.and_eq_true_iff.mp reached).1

/-- The characteristics after all the abilities have applied, in turn. -/
def Characteristics.applyAll (c : Characteristics) (abilities : List StaticAbility) :
    Characteristics :=
  abilities.foldl (fun c ability => ability.effect.modification.apply c) c

theorem StaticAbility.types_apply {ability : StaticAbility} (c : Characteristics)
    (none : ability.addedType? = none) : (ability.effect.modification.apply c).types = c.types := by
  unfold addedType? at none
  cases modification : ability.effect.modification <;> simp [modification] at none ⊢ <;> rfl

/-- Abilities that do not change whom any of them reaches apply to each card by themselves. -/
theorem State.card?_applyStatics {s : State} (keyed : s.Keyed) {abilities : List StaticAbility}
    (steady : ∀ a ∈ abilities, ∀ b ∈ abilities, a.effect.affected = .source ∨ b.addedType? = none)
    (id : CardId) :
    (s.applyStatics abilities).card? id = (s.card? id).map fun c =>
      { c with
        characteristics := c.characteristics.applyAll
          (abilities.filter fun a => a.effect.touches s id c) } := by
  induction abilities generalizing s with
  | nil => simp [applyStatics, Characteristics.applyAll]
  | cons ability rest ih =>
      have steadyRest : ∀ a ∈ rest, ∀ b ∈ rest,
          a.effect.affected = .source ∨ b.addedType? = none := fun a ha b hb =>
        steady a (List.mem_cons_of_mem _ ha) b (List.mem_cons_of_mem _ hb)
      have layout : (ability.effect.apply s).layout = s.layout := layout_change ability.effect s _
      show ((ability.effect.apply s).applyStatics rest).card? id = _
      rw [ih (keyed.congr layout) steadyRest, ability.effect.card?_apply keyed, Option.map_map]
      congr 1
      funext c
      -- the others reach the card after this ability if they reach it before
      have same (d : Card) (place : d.placement = c.placement)
          (changed : d.characteristics.types = c.characteristics.types ∨
            d.characteristics = ability.effect.modification.apply c.characteristics) :
          (rest.filter fun b => b.effect.touches (ability.effect.apply s) id d) =
            rest.filter fun b => b.effect.touches s id c := by
        refine List.filter_congr fun b hb => ContinuousEffect.touches_congr layout place ?_
        rcases steady b (List.mem_cons_of_mem _ hb) ability List.mem_cons_self with own | none
        · exact .inl own
        · right
          rcases changed with same | changed
          · exact same
          · rw [changed, StaticAbility.types_apply _ none]
      by_cases touched : ability.effect.touches s id c = true
      · simp only [Function.comp_apply, touched, if_true, List.filter_cons_of_pos]
        rw [same { c with characteristics := ability.effect.modification.apply c.characteristics }
          rfl (.inr rfl)]
        rfl
      · simp only [Function.comp_apply, touched, if_false, List.filter_cons_of_neg,
          not_false_eq_true, Bool.false_eq_true]
        rw [same c rfl (.inl rfl)]

end CardGame
