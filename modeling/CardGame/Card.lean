import CardGame.Ability.Basic
import CardGame.Word

/-! # Cards

One physical card of a game. Its characteristics start as the printed ones; only continuous effects
and counters make them differ.
-/

namespace CardGame

/-- What a card is and can do at the moment. Types and keywords may be listed more than once: each
    effect that adds one lists it again. -/
structure Characteristics where
  types : List CardType
  subtypes : List String
  supertypes : List String
  power : Option Int
  toughness : Option Int
  keywords : List Keyword
  deriving DecidableEq, Repr

namespace Characteristics

def printed (d : Definition) : Characteristics where
  types := d.types
  subtypes := d.subtypes
  supertypes := d.supertypes
  power := d.power
  toughness := d.toughness
  keywords := []

/-- Add to power and toughness, a missing one counting as zero. -/
def raise (c : Characteristics) (power toughness : Int) : Characteristics :=
  { c with
    power := some (word (c.power.getD 0 + power))
    toughness := some (word (c.toughness.getD 0 + toughness)) }

end Characteristics

structure Card where
  /-- The number that the card was created under. -/
  id : CardId
  definition : Definition
  owner : Seat
  /-- Differs from the owner only on the stack and on a battlefield. -/
  controller : Seat
  zone : ZoneId
  tapped : Bool
  /-- Damage marked on the card this turn. -/
  damage : Int
  /-- Number of counters of each kind; a kind stays listed when its number is zero. -/
  counters : Table String Nat
  /-- Set on entering a battlefield, cleared in the controller's untap step. -/
  summoningSick : Bool
  /-- The turn in which the card last entered a battlefield. -/
  enteredTurn : Option Nat
  /-- Targets chosen when the card was cast. -/
  targets : List CardId
  characteristics : Characteristics
  statics : List StaticAbility
  triggered : List TriggeredAbility
  activated : List ActivatedAbility
  deriving DecidableEq, Repr

namespace Card

def plusOne : String := "+1/+1"

def minusOne : String := "-1/-1"

/-- A new card in a zone, under its owner's control, with the given abilities. -/
def create (id : CardId) (d : Definition) (owner : Seat) (zone : ZoneId) (abilities : List Ability) :
    Card where
  id := id
  definition := d
  owner := owner
  controller := owner
  zone := zone
  tapped := false
  damage := 0
  counters := .empty
  summoningSick := false
  enteredTurn := none
  targets := []
  characteristics := .printed d
  statics := abilities.filterMap Ability.static?
  triggered := abilities.filterMap Ability.triggered?
  activated := abilities.filterMap Ability.activated?

def hasType (card : Card) (type : CardType) : Bool := type ∈ card.characteristics.types

def hasKeyword (card : Card) (keyword : Keyword) : Bool := keyword ∈ card.characteristics.keywords

def isCreature (card : Card) : Bool := card.hasType .creature

def isLand (card : Card) : Bool := card.hasType .land

def power (card : Card) : Int := card.characteristics.power.getD 0

def toughness (card : Card) : Int := card.characteristics.toughness.getD 0

/-- No toughness left, or damage that reaches it. -/
def hasLethalDamage (card : Card) : Bool := card.toughness ≤ 0 || card.toughness ≤ card.damage

/-- Kept from attacking and from tapping as a cost by having just entered. -/
def isSummoningSick (card : Card) : Bool := card.summoningSick && !card.hasKeyword .haste

def counterCount (card : Card) (kind : String) : Nat := (card.counters.get? kind).getD 0

def addCounters (card : Card) (kind : String) (n : Nat) : Card :=
  { card with counters := card.counters.insert kind (tally (card.counterCount kind + n)) }

/-- Make the characteristics the printed ones again. -/
def strip (card : Card) : Card := { card with characteristics := .printed card.definition }

def activated? (card : Card) (ability : AbilityId) : Option ActivatedAbility :=
  card.activated.find? fun a => a.id = ability

def abilityCount (card : Card) : Nat :=
  card.statics.length + card.triggered.length + card.activated.length

end Card

end CardGame
