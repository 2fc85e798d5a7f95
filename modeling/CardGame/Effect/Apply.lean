import CardGame.Effect.Continuous
import CardGame.State.Basic

/-! # Applying continuous effects

A continuous effect changes the characteristics of the cards that it reaches, and nothing else.
-/

namespace CardGame

/-- Take out the last occurrence of an item. -/
def eraseLast {α : Type} [DecidableEq α] (item : α) (items : List α) : List α :=
  (items.reverse.erase item).reverse

namespace Modification

def apply (m : Modification) (c : Characteristics) : Characteristics :=
  match m with
  | addType type => { c with types := c.types ++ [type] }
  | grantKeyword keyword => { c with keywords := c.keywords ++ [keyword] }
  | setPowerToughness power toughness => { c with power := some power, toughness := some toughness }
  | modifyPowerToughness power toughness => c.raise power toughness

/-- The characteristics without the modification. Where power and toughness were set, the printed
    ones come back. -/
def remove (m : Modification) (d : Definition) (c : Characteristics) : Characteristics :=
  match m with
  | addType type => { c with types := eraseLast type c.types }
  | grantKeyword keyword => { c with keywords := eraseLast keyword c.keywords }
  | setPowerToughness .. => { c with power := d.power, toughness := d.toughness }
  | modifyPowerToughness power toughness => c.raise (-power) (-toughness)

end Modification

namespace ContinuousEffect

/-- The source, while it is on a battlefield. -/
def activeSource? (effect : ContinuousEffect) (s : State) : Option Card :=
  if s.isOnBattlefield effect.source then s.card? effect.source else none

/-- The cards that the effect reaches, none without a source on a battlefield. -/
def reached (effect : ContinuousEffect) (s : State) : List CardId :=
  match effect.activeSource? s with
  | none => []
  | some source =>
    match effect.affected with
    | .source => [effect.source]
    | .creaturesYouControl includeSource =>
      (s.creatures.filter fun e => e.2.controller = source.controller &&
        (includeSource || e.1 ≠ effect.source)).map (·.1)
    | .allCreatures => s.creatures.map (·.1)

/-- Change the characteristics of the cards that the effect reaches. -/
def change (effect : ContinuousEffect) (s : State)
    (f : Definition → Characteristics → Characteristics) : State :=
  s.updateCards (effect.reached s) fun c =>
    { c with characteristics := f c.definition c.characteristics }

def apply (effect : ContinuousEffect) (s : State) : State :=
  effect.change s fun _ => effect.modification.apply

/-- The state without the effect, as far as its own state of affairs tells. -/
def remove (effect : ContinuousEffect) (s : State) : State :=
  effect.change s effect.modification.remove

end ContinuousEffect

end CardGame
