/-! # Amounts of mana

Mana comes in seven colors, counting colorless and generic mana. Amounts are held to 32 bits:
adding stops at the largest one.
-/

namespace CardGame.Mana

inductive Color where
  | white
  | blue
  | black
  | red
  | green
  | colorless
  | generic
  deriving DecidableEq, Repr

namespace Color

/-- Every color, in the order in which amounts are listed. -/
def all : List Color := [white, blue, black, red, green, colorless, generic]

/-- The lower-case names a color can be written by. -/
def names : Color → List String
  | white => ["w", "white"]
  | blue => ["u", "blue"]
  | black => ["b", "black"]
  | red => ["r", "red"]
  | green => ["g", "green"]
  | colorless => ["c", "colorless"]
  | generic => ["generic"]

/-- Read a color by one of its names, in any case of the letters A to Z. -/
def read? (text : String) : Option Color := all.find? fun c => text.toLower ∈ c.names

end Color

def maxAmount : Nat := 4294967295

/-- Sum of two amounts, held to the largest one. -/
def addCapped (a b : Nat) : Nat := min (a + b) maxAmount

/-- One amount for each color. -/
structure Amounts where
  white : Nat
  blue : Nat
  black : Nat
  red : Nat
  green : Nat
  colorless : Nat
  generic : Nat
  deriving DecidableEq, Repr

namespace Amounts

def zero : Amounts := ⟨0, 0, 0, 0, 0, 0, 0⟩

def get (a : Amounts) : Color → Nat
  | .white => a.white
  | .blue => a.blue
  | .black => a.black
  | .red => a.red
  | .green => a.green
  | .colorless => a.colorless
  | .generic => a.generic

def set (a : Amounts) (color : Color) (n : Nat) : Amounts :=
  match color with
  | .white => { a with white := n }
  | .blue => { a with blue := n }
  | .black => { a with black := n }
  | .red => { a with red := n }
  | .green => { a with green := n }
  | .colorless => { a with colorless := n }
  | .generic => { a with generic := n }

def add (a : Amounts) (color : Color) (n : Nat) : Amounts :=
  a.set color (addCapped (a.get color) n)

def toList (a : Amounts) : List Nat := Color.all.map a.get

/-- All amounts together, held to the largest amount. -/
def total (a : Amounts) : Nat := a.toList.foldl addCapped 0

/-- All amounts together, however many. -/
def sum (a : Amounts) : Nat :=
  a.white + a.blue + a.black + a.red + a.green + a.colorless + a.generic

@[ext]
theorem ext_get {a b : Amounts} (h : ∀ c, a.get c = b.get c) : a = b := by
  cases a; cases b
  have h1 := h .white; have h2 := h .blue; have h3 := h .black; have h4 := h .red
  have h5 := h .green; have h6 := h .colorless; have h7 := h .generic
  simp only [get] at h1 h2 h3 h4 h5 h6 h7
  subst h1 h2 h3 h4 h5 h6 h7
  rfl

@[simp]
theorem get_set (a : Amounts) (color other : Color) (n : Nat) :
    (a.set color n).get other = if other = color then n else a.get other := by
  cases color <;> cases other <;> rfl

end Amounts

end CardGame.Mana
