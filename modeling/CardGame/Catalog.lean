import CardGame.Definition

/-! # Catalogs

The definitions available to a game, at most one for each number.
-/

namespace CardGame

structure Catalog where
  definitions : Table DefinitionId Definition
  deriving DecidableEq, Repr

namespace Catalog

def empty : Catalog := ⟨.empty⟩

def get? (catalog : Catalog) (id : DefinitionId) : Option Definition := catalog.definitions.get? id

def contains (catalog : Catalog) (id : DefinitionId) : Bool := catalog.definitions.contains id

def ids (catalog : Catalog) : List DefinitionId := catalog.definitions.keys

def size (catalog : Catalog) : Nat := catalog.definitions.size

def isEmpty (catalog : Catalog) : Bool := catalog.definitions.isEmpty

/-- Add a definition; a number that is taken is refused. -/
def register (catalog : Catalog) (d : Definition) : Except SetupError Catalog :=
  if catalog.contains d.id then .error (.definitionTaken d.id)
  else .ok ⟨catalog.definitions.insert d.id d⟩

def lookup (catalog : Catalog) (id : DefinitionId) : Outcome Definition :=
  Outcome.find (catalog.get? id) (.definition id)

def findByName (catalog : Catalog) (name : String) : Option Definition :=
  catalog.definitions.values.find? fun d => d.name = name

end Catalog

end CardGame
