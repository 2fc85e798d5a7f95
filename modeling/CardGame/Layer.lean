/-! # Layers

Continuous effects apply layer by layer. The last three layers share a number and differ in what
they do to power and toughness.
-/

namespace CardGame

inductive Layer where
  | copy
  | control
  | text
  | type
  | color
  | ability
  | powerToughnessSet
  | powerToughnessModify
  | powerToughnessCounters
  deriving DecidableEq, Repr

namespace Layer

def all : List Layer :=
  [copy, control, text, type, color, ability, powerToughnessSet, powerToughnessModify,
    powerToughnessCounters]

def number : Layer → Nat
  | copy => 1
  | control => 2
  | text => 3
  | type => 4
  | color => 5
  | ability => 6
  | powerToughnessSet | powerToughnessModify | powerToughnessCounters => 7

/-- List items by layer; items of one layer keep their order. -/
def arrange {α : Type} (layerOf : α → Layer) (items : List α) : List α :=
  all.flatMap fun layer => items.filter fun item => layerOf item = layer

end Layer

end CardGame
