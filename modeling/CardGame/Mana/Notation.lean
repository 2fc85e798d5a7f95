import CardGame.Mana.Cost
import CardGame.Text.Blank
import CardGame.Text.Numeral

/-! # Written mana costs

A written cost is a sequence of symbols in braces: numerals, which add up to the generic amount, and
color names, one unit each. Blank characters around the whole text do not count.
-/

namespace CardGame.Mana

/-- Why a text is no mana cost. -/
inductive CostFault where
  | expectedOpening
  | unclosed
  | unknownSymbol
  | tooLarge
  deriving DecidableEq, Repr

def CostFault.reason : CostFault → String
  | expectedOpening => "expected `\x7b`"
  | unclosed => "unclosed `\x7b`"
  | unknownSymbol => "unknown symbol"
  | tooLarge => "cost too large"

def openingBrace : Char := '\x7b'

def closingBrace : Char := '\x7d'

/-- Cut a text into the symbols between braces. The cut stops where the text is no sequence of
    symbols, with the fault found there. Of a symbol still open, the characters read so far are
    given, last first. -/
def cutSymbols : Option (List Char) → List Char → List (List Char) × Option CostFault
  | none, [] => ([], none)
  | some _, [] => ([], some .unclosed)
  | none, c :: rest =>
    if c = openingBrace then cutSymbols (some []) rest else ([], some .expectedOpening)
  | some read, c :: rest =>
    if c = closingBrace then
      let (symbols, fault) := cutSymbols none rest
      (read.reverse :: symbols, fault)
    else cutSymbols (some (c :: read)) rest

def writeSymbols (symbols : List (List Char)) : List Char :=
  symbols.flatMap fun cs => openingBrace :: cs ++ [closingBrace]

/-- What a symbol asks for: a numeral an amount of generic mana, a color name one of that color.
    The name of generic mana is no symbol. -/
def symbol? (cs : List Char) : Option (Color × Nat) :=
  match Text.numeral? maxAmount cs with
  | some n => some (.generic, n)
  | none =>
    match Color.read? (String.ofList cs) with
    | none | some .generic => none
    | some color => some (color, 1)

namespace Cost

/-- Ask for what one more symbol says, unless the whole becomes too large. -/
def addSymbol (cost : Cost) (cs : List Char) : Except CostFault Cost :=
  match symbol? cs with
  | none => .error .unknownSymbol
  | some (color, n) =>
    let amounts := cost.amounts.set color (cost.amounts.get color + n)
    if amounts.sum ≤ maxAmount then .ok ⟨amounts⟩ else .error .tooLarge

/-- Read a cost. The first fault in the text is the one reported; the empty text is free. -/
def read (text : String) : Except CostFault Cost :=
  let (symbols, fault) := cutSymbols none (Text.strip text.toList)
  match symbols.foldlM addSymbol free, fault with
  | .error f, _ => .error f
  | .ok _, some f => .error f
  | .ok cost, none => .ok cost

/-- The colors that costs name by a letter, in the order in which they are written. -/
def letters : List (Color × Char) :=
  [(.white, 'W'), (.blue, 'U'), (.black, 'B'), (.red, 'R'), (.green, 'G'), (.colorless, 'C')]

/-- The symbols of a written cost: the generic amount unless it is zero and something else is asked
    for, then a letter for each other unit. -/
def symbols (cost : Cost) : List (List Char) :=
  (if cost.generic > 0 || cost.isFree then [Text.numeral cost.generic] else []) ++
    letters.flatMap fun entry => List.replicate (cost.amounts.get entry.1) [entry.2]

def text (cost : Cost) : String := String.ofList (writeSymbols cost.symbols)

end Cost

end CardGame.Mana
