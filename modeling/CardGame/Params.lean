import CardGame.Error
import CardGame.Table

/-! # Named parameters

The parameters of an ability or effect written as data. Reading one with the wrong type is the same
as not finding it.
-/

namespace CardGame

inductive ParamValue where
  | int (value : Int)
  | bool (value : Bool)
  | text (value : String)
  | textList (values : List String)
  deriving DecidableEq, Repr

namespace ParamValue

def int? : ParamValue → Option Int
  | int value => some value
  | _ => none

def bool? : ParamValue → Option Bool
  | bool value => some value
  | _ => none

def text? : ParamValue → Option String
  | text value => some value
  | _ => none

def textList? : ParamValue → Option (List String)
  | textList values => some values
  | _ => none

end ParamValue

abbrev Params := Table String ParamValue

namespace Params

def int? (params : Params) (name : String) : Option Int := (params.get? name).bind (·.int?)

def bool? (params : Params) (name : String) : Option Bool := (params.get? name).bind (·.bool?)

def text? (params : Params) (name : String) : Option String := (params.get? name).bind (·.text?)

def intD (params : Params) (name : String) (default : Int) : Int :=
  (params.int? name).getD default

def boolD (params : Params) (name : String) (default : Bool) : Bool :=
  (params.bool? name).getD default

def textD (params : Params) (name : String) (default : String) : String :=
  (params.text? name).getD default

/-- An integer that `key` cannot do without. -/
def requireInt (params : Params) (key name : String) : Outcome Int :=
  match params.int? name with
  | some value => .ok value
  | none => .error (.invalidParameter key name .missing)

/-- A text that `key` cannot do without. -/
def requireText (params : Params) (key name : String) : Outcome String :=
  match params.text? name with
  | some value => .ok value
  | none => .error (.invalidParameter key name .missing)

end Params

end CardGame
