import CardGame.Params

/-! # Printed cards

A definition holds what is printed on a card. Abilities and effects are written as a key with
parameters.
-/

namespace CardGame

inductive CardType where
  | land
  | creature
  | artifact
  | enchantment
  | planeswalker
  | instant
  | sorcery
  deriving DecidableEq, Repr

namespace CardType

def all : List CardType := [land, creature, artifact, enchantment, planeswalker, instant, sorcery]

def name : CardType → String
  | land => "Land"
  | creature => "Creature"
  | artifact => "Artifact"
  | enchantment => "Enchantment"
  | planeswalker => "Planeswalker"
  | instant => "Instant"
  | sorcery => "Sorcery"

/-- Read a type by its name, in any case of the letters A to Z. -/
def read? (text : String) : Option CardType := all.find? fun t => text.toLower = t.name.toLower

end CardType

inductive Keyword where
  | flying
  | firstStrike
  | doubleStrike
  | trample
  | haste
  | vigilance
  deriving DecidableEq, Repr

namespace Keyword

def all : List Keyword := [flying, firstStrike, doubleStrike, trample, haste, vigilance]

/-- Lower-case words of the name, joined by underscores. -/
def words : Keyword → String
  | flying => "flying"
  | firstStrike => "first_strike"
  | doubleStrike => "double_strike"
  | trample => "trample"
  | haste => "haste"
  | vigilance => "vigilance"

/-- A space or a hyphen joins words as an underscore does. -/
def joiner (c : Char) : Char := if c = ' ' ∨ c = '-' then '_' else c

/-- Read a keyword by its words, in any case of the letters A to Z. -/
def read? (text : String) : Option Keyword :=
  all.find? fun k => text.toLower.map joiner = k.words

end Keyword

/-- An ability or effect as data: a key and its parameters. -/
structure Descriptor where
  key : String
  params : Params
  deriving DecidableEq, Repr

/-- A printed card. -/
structure Definition where
  id : DefinitionId
  name : String
  cost : String := ""
  types : List CardType := []
  subtypes : List String := []
  supertypes : List String := []
  power : Option Int := none
  toughness : Option Int := none
  loyalty : Option Int := none
  abilities : List Descriptor := []
  /-- What the card does when it resolves as an instant or sorcery. -/
  effects : List Descriptor := []
  deriving DecidableEq, Repr

namespace Definition

/-- Print one more type, unless it is there already. -/
def withType (d : Definition) (type : CardType) : Definition :=
  if type ∈ d.types then d else { d with types := d.types ++ [type] }

def creature (id : DefinitionId) (name : String) (power toughness : Int) : Definition :=
  { id, name, types := [.creature], power := some power, toughness := some toughness }

def basicLand (id : DefinitionId) (name : String) : Definition :=
  { id, name, types := [.land], supertypes := ["Basic"] }

def hasType (d : Definition) (type : CardType) : Bool := type ∈ d.types

/-- Every card but an instant or sorcery stays on the battlefield when it resolves. -/
def isPermanent (d : Definition) : Bool := !d.hasType .instant && !d.hasType .sorcery

def manaCost (d : Definition) : Outcome Mana.Cost :=
  match Mana.Cost.read d.cost with
  | .ok cost => .ok cost
  | .error fault => .error (.invalidParameter "mana_cost" d.cost (.cost fault))

end Definition

end CardGame
