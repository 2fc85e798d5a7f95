import CardGame.Proofs.Derivation

/-! # Deriving again

Deriving writes the characteristics of cards and nothing else, and it reads everything but them. So
two states come out the same exactly when they differ in nothing else before.
-/

namespace CardGame

/-- The cards differ at most in what was derived for them. -/
def Card.SameButDerived (c d : Card) : Prop := d = { c with characteristics := d.characteristics }

theorem Card.sameButDerived_iff {c d : Card} : c.SameButDerived d ↔ c.strip = d.strip := by
  constructor
  · intro same
    rw [same]
    rfl
  · intro same
    calc
      d = { d.strip with characteristics := d.characteristics } := rfl
      _ = { c.strip with characteristics := d.characteristics } := by rw [same]

theorem Card.rel_sameButDerived {x y : Option Card} :
    Option.Rel Card.SameButDerived x y ↔ x.map Card.strip = y.map Card.strip := by
  cases x <;> cases y <;> simp [Card.sameButDerived_iff]

namespace State

variable {s t : State}

/-- The states differ at most in what was derived for their cards. -/
structure SameButDerived (s t : State) : Prop where
  rest : t = { s with cards := t.cards }
  cards : ∀ id, Option.Rel Card.SameButDerived (s.card? id) (t.card? id)

theorem sameButDerived_iff : s.SameButDerived t ↔ s.strip = t.strip := by
  constructor
  · rintro ⟨rest, cards⟩
    have printed : s.cards.map Card.strip = t.cards.map Card.strip := by
      refine Table.ext_get? fun id => ?_
      rw [Table.get?_map, Table.get?_map]
      exact Card.rel_sameButDerived.mp (cards id)
    rw [strip, strip, printed, rest]
  · intro same
    refine ⟨?_, fun id => ?_⟩
    · calc
        t = { t.strip with cards := t.cards } := rfl
        _ = { s.strip with cards := t.cards } := by rw [same]
    · rw [Card.rel_sameButDerived, ← card?_strip, same, card?_strip]

theorem sameButDerived_derive (s : State) : s.SameButDerived s.derive :=
  sameButDerived_iff.mpr (strip_derive s).symm

/-- Deriving forgets what was derived before and nothing else, and changes nothing else. Deriving
    once more, or after going back to the printed characteristics, makes no difference. -/
theorem derive_forgets_derived (s t : State) :
    (s.derive = t.derive ↔ s.SameButDerived t) ∧ s.SameButDerived s.derive ∧
      s.derive.derive = s.derive ∧ s.strip.derive = s.derive := by
  refine ⟨⟨fun same => ?_, fun same => ?_⟩, sameButDerived_derive s, derive_derive s, derive_strip s⟩
  · rw [sameButDerived_iff, ← strip_derive s, same, strip_derive]
  · exact derive_eq_of_strip_eq (sameButDerived_iff.mp same)

end State

end CardGame
