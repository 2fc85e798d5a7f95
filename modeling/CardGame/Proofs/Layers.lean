import CardGame.Proofs.BuiltinStatics
import Mathlib.Data.List.Basic

/-! # Abilities by layer

Arranging abilities by layer keeps the order of those that do the same kind of thing, and puts the
anthems last.
-/

namespace CardGame

theorem Layer.filterMap_arrange {α β : Type} {layerOf : α → Layer} {items : List α}
    {f : α → Option β} (layer : Layer) (only : ∀ a ∈ items, layerOf a ≠ layer → f a = none) :
    (arrange layerOf items).filterMap f = items.filterMap f := by
  have part (l : Layer) : (items.filter fun a => layerOf a = l).filterMap f =
      if l = layer then items.filterMap f else [] := by
    rw [List.filterMap_filter]
    split
    · rename_i same
      refine List.filterMap_congr fun a ha => ?_
      by_cases here : layerOf a = layer
      · simp [same, here]
      · simp [only a ha here]
    · rename_i other
      refine List.filterMap_eq_nil_iff.mpr fun a ha => ?_
      by_cases there : layerOf a = l
      · simp [only a ha (there ▸ other)]
      · simp [there]
  unfold arrange
  rw [List.filterMap_flatMap, funext part]
  cases layer <;> simp [all]

theorem Layer.mem_arrange {α : Type} {layerOf : α → Layer} {items : List α} {a : α} :
    a ∈ arrange layerOf items ↔ a ∈ items := by
  unfold arrange all
  cases here : layerOf a <;> simp [here]

namespace StaticAbility

theorem isAnthem_eq (ability : StaticAbility) :
    ability.isAnthem = decide (ability.layer = .powerToughnessModify) := by
  unfold isAnthem raise? layer ContinuousEffect.layer
  cases ability.effect.modification <;> rfl

/-- An ability does nothing in any layer but its own. -/
theorem none_of_layer (ability : StaticAbility) :
    (ability.layer ≠ .type → ability.addedType? = none) ∧
      (ability.layer ≠ .ability → ability.grantedKeyword? = none) ∧
      (ability.layer ≠ .powerToughnessSet → ability.base? = none) := by
  unfold layer ContinuousEffect.layer addedType? grantedKeyword? base?
  cases ability.effect.modification <;> simp [Modification.layer]

theorem layer_ne_counters (ability : StaticAbility) : ability.layer ≠ .powerToughnessCounters := by
  unfold layer ContinuousEffect.layer
  cases ability.effect.modification <;> nofun

/-- Anthems apply after all other abilities. -/
theorem arrange_anthems_last (abilities : List StaticAbility) :
    Layer.arrange StaticAbility.layer abilities =
      Layer.arrange StaticAbility.layer (abilities.filter fun a => !a.isAnthem) ++
        abilities.filter (·.isAnthem) := by
  have part (l : Layer) :
      ((abilities.filter fun a => !a.isAnthem).filter fun a => a.layer = l) =
        if l = .powerToughnessModify then [] else abilities.filter fun a => a.layer = l := by
    rw [List.filter_filter]
    split
    · rename_i same
      refine List.filter_eq_nil_iff.mpr fun a _ => ?_
      simp [same, isAnthem_eq]
    · rename_i other
      refine List.filter_congr fun a _ => ?_
      by_cases here : a.layer = l <;> simp [isAnthem_eq, here, other]
  have none : (abilities.filter fun a => a.layer = .powerToughnessCounters) = [] :=
    List.filter_eq_nil_iff.mpr fun a _ => by simp [layer_ne_counters a]
  have anthems : abilities.filter (·.isAnthem) =
      abilities.filter fun a => a.layer = .powerToughnessModify :=
    List.filter_congr fun a _ => a.isAnthem_eq
  rw [anthems]
  simp only [Layer.arrange, part]
  simp [Layer.all, none]

end StaticAbility

end CardGame
