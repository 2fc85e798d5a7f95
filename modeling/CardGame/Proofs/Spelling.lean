import CardGame.Mana.Notation
import Mathlib.Data.List.DropRight

/-! # How symbols are spelled

A numeral spells an amount of generic mana, a name of a color one mana of that color. Names are read
in any case, and no name is a numeral, so each symbol has one meaning. Around the symbols of a cost
there may be blanks.
-/

namespace CardGame

namespace Text

variable {before body after cs : List Char}

theorem strip_eq (cs : List Char) : strip cs = (cs.dropWhile isBlank).rdropWhile isBlank := rfl

theorem exists_strip (cs : List Char) :
    ∃ before after, cs = before ++ strip cs ++ after ∧ ∀ c ∈ before ++ after, isBlank c = true := by
  refine ⟨cs.takeWhile isBlank, (cs.dropWhile isBlank).rtakeWhile isBlank, ?_, fun c member => ?_⟩
  · rw [strip_eq, List.append_assoc, List.rdropWhile_append_rtakeWhile,
      List.takeWhile_append_dropWhile]
  · rcases List.mem_append.mp member with first | last
    · exact List.mem_takeWhile_imp first
    · exact List.mem_rtakeWhile_imp last

/-- Blanks around a text that neither begins nor ends with one are what is stripped. -/
theorem strip_between (blank : ∀ c ∈ before ++ after, isBlank c = true)
    (first : body.dropWhile isBlank = body) (last : body.rdropWhile isBlank = body) :
    strip (before ++ body ++ after) = body := by
  have blankBefore : ∀ c ∈ before, isBlank c = true := fun c member =>
    blank c (List.mem_append_left _ member)
  have blankAfter : ∀ c ∈ after, isBlank c = true := fun c member =>
    blank c (List.mem_append_right _ member)
  have nothing : after.dropWhile isBlank = [] := List.dropWhile_eq_nil_iff.mpr blankAfter
  rw [strip_eq, List.append_assoc, List.dropWhile_append_of_pos blankBefore, List.dropWhile_append,
    first]
  cases body with
  | nil => simp [nothing]
  | cons c rest =>
      rw [List.isEmpty_cons, if_neg Bool.false_ne_true]
      conv_rhs => rw [← last]
      rw [List.rdropWhile, List.rdropWhile, List.reverse_append, List.dropWhile_append_of_pos]
      simpa using blankAfter

/-- The characters are decimal digits of the number, at least one, perhaps after a plus sign. -/
def Writes (cs : List Char) (n : Nat) : Prop :=
  ∃ digits, (cs = digits ∨ cs = '+' :: digits) ∧ digits ≠ [] ∧
    (∀ c ∈ digits, c.isDigit = true) ∧ Nat.ofDigitChars 10 digits 0 = n

theorem unsigned_eq (cs : List Char) : cs = unsigned cs ∨ cs = '+' :: unsigned cs := by
  unfold unsigned
  split
  · exact .inr rfl
  · exact .inl rfl

theorem unsigned_of_digits {digits : List Char} (decimal : ∀ c ∈ digits, c.isDigit = true) :
    unsigned digits = digits := by
  unfold unsigned
  split
  · exact absurd (decimal '+' List.mem_cons_self) (by decide)
  · rfl

theorem numeral?_eq_some_iff {limit n : Nat} :
    numeral? limit cs = some n ↔ Writes cs n ∧ n ≤ limit := by
  simp only [numeral?, Option.ite_none_right_eq_some, Option.some.injEq, List.all_eq_true]
  constructor
  · rintro ⟨⟨some, decimal, small⟩, rfl⟩
    exact ⟨⟨unsigned cs, unsigned_eq cs, some, decimal, rfl⟩, small⟩
  · rintro ⟨⟨digits, spelled, some, decimal, rfl⟩, small⟩
    have same : unsigned cs = digits := by
      rcases spelled with rfl | rfl
      · exact unsigned_of_digits decimal
      · rfl
    rw [same]
    exact ⟨⟨some, decimal, small⟩, rfl⟩

theorem Writes.unique {m n : Nat} (h : Writes cs m) (h' : Writes cs n) : m = n := by
  have read := numeral?_eq_some_iff.mpr ⟨h, Nat.le_max_left m n⟩
  have read' := numeral?_eq_some_iff.mpr ⟨h', Nat.le_max_right m n⟩
  exact Option.some.inj (read.symm.trans read')

/-- Numerals are written in digits and plus signs. -/
theorem Writes.characters {n : Nat} (h : Writes cs n) : ∀ c ∈ cs, c.isDigit = true ∨ c = '+' := by
  obtain ⟨digits, rfl | rfl, -, decimal, -⟩ := h
  · exact fun c member => .inl (decimal c member)
  · intro c member
    rcases List.mem_cons.mp member with sign | member
    · exact .inr sign
    · exact .inl (decimal c member)

theorem isLower_toLower_of_isDigit {c : Char} (digit : c.isDigit = true) :
    c.toLower.isLower = false := by
  have bound : c.val ≤ '9'.val := by
    simp only [Char.isDigit, Bool.and_eq_true, decide_eq_true_eq] at digit
    exact digit.2
  have same : c.toLower = c := dif_neg fun upper => by
    have above := upper.1
    grind
  rw [same]
  show (decide (c.val ≥ 'a'.val) && decide (c.val ≤ 'z'.val)) = false
  grind

/-- A numeral has no letters in it. -/
theorem Writes.isLower_toLower {n : Nat} (h : Writes cs n) :
    ∀ c ∈ cs, c.toLower.isLower = false := by
  intro c member
  rcases h.characters c member with digit | rfl
  · exact isLower_toLower_of_isDigit digit
  · decide

theorem writes_numeral (n : Nat) : Writes (numeral n) n :=
  (numeral?_eq_some_iff.mp (numeral?_numeral (Nat.le_refl n))).1

end Text

namespace Mana

namespace Color

theorem mem_all (color : Color) : color ∈ all := by cases color <;> decide

/-- No two colors share a name. -/
theorem find?_names : ∀ color ∈ all, ∀ name ∈ color.names,
    (all.find? fun c => name ∈ c.names) = some color := by decide

theorem read?_eq_some_iff {text : String} {color : Color} :
    read? text = some color ↔ text.toLower ∈ color.names := by
  constructor
  · intro read
    simpa using List.find?_some read
  · exact find?_names color (mem_all color) text.toLower

/-- The names by which a cost asks for one mana of a color. -/
def singleNames : List (Color × String) :=
  [(white, "w"), (white, "white"), (blue, "u"), (blue, "blue"), (black, "b"), (black, "black"),
    (red, "r"), (red, "red"), (green, "g"), (green, "green"), (colorless, "c"),
    (colorless, "colorless")]

theorem mem_singleNames {color : Color} {name : String} :
    (color, name) ∈ singleNames ↔ color ≠ generic ∧ name ∈ color.names := by
  cases color <;> simp [singleNames, names]

/-- The characters are a name of a single color, in any case of the letters A to Z. -/
def Named (color : Color) (cs : List Char) : Prop :=
  ∃ name, (color, name) ∈ singleNames ∧ cs.map Char.toLower = name.toList

theorem named_iff_read? {cs : List Char} {color : Color} :
    Named color cs ↔ color ≠ generic ∧ read? (String.ofList cs) = some color := by
  have lower (name : String) :
      cs.map Char.toLower = name.toList ↔ (String.ofList cs).toLower = name := by
    rw [← String.toList_inj]
    show _ ↔ (String.map Char.toLower (String.ofList cs)).toList = _
    rw [String.toList_map, String.toList_ofList]
  simp only [read?_eq_some_iff, Named, mem_singleNames, lower, exists_eq_right']

/-- Names are written in letters. -/
theorem Named.isLower_toLower {cs : List Char} {color : Color} (h : Named color cs) :
    cs ≠ [] ∧ ∀ c ∈ cs, c.toLower.isLower = true := by
  have letters : ∀ entry ∈ singleNames,
      entry.2.toList ≠ [] ∧ entry.2.toList.all Char.isLower = true := by decide
  obtain ⟨name, listed, same⟩ := h
  obtain ⟨some, lower⟩ := letters (color, name) listed
  rw [← same] at some lower
  refine ⟨by simpa using some, fun c member => ?_⟩
  exact List.all_eq_true.mp lower _ (List.mem_map_of_mem member)

/-- No name is a numeral. -/
theorem Named.not_writes {cs : List Char} {color : Color} {n : Nat} (h : Named color cs) :
    ¬Text.Writes cs n := by
  intro written
  obtain ⟨some, letters⟩ := h.isLower_toLower
  obtain ⟨c, member⟩ := List.exists_mem_of_ne_nil cs some
  have letter := letters c member
  rw [written.isLower_toLower c member] at letter
  cases letter

end Color

/-- What a symbol of a cost asks for: an amount of generic mana, or one mana of a color. -/
inductive Symbol where
  | numeral (n : Nat)
  | unit (color : Color)
  deriving DecidableEq

namespace Symbol

/-- The spellings of a symbol. Generic mana is asked for by numerals only. -/
def Spelled : Symbol → List Char → Prop
  | numeral n, cs => Text.Writes cs n
  | unit color, cs => color.Named cs

def color : Symbol → Color
  | numeral _ => .generic
  | unit color => color

/-- How much mana a symbol asks for. -/
def amount : Symbol → Nat
  | numeral n => n
  | unit _ => 1

/-- The generic mana among it. -/
def value : Symbol → Nat
  | numeral n => n
  | unit _ => 0

/-- A text is read as a symbol that it spells, unless the number is too large. -/
theorem symbol?_eq_some_iff {cs : List Char} {ask : Color × Nat} :
    symbol? cs = some ask ↔
      ∃ symbol : Symbol, symbol.Spelled cs ∧ symbol.amount ≤ maxAmount ∧
        (symbol.color, symbol.amount) = ask := by
  constructor
  · unfold symbol?
    split
    · rename_i n read
      rintro ⟨⟩
      obtain ⟨written, small⟩ := Text.numeral?_eq_some_iff.mp read
      exact ⟨numeral n, written, small, rfl⟩
    · split
      · exact nofun
      · exact nofun
      · rename_i color different read
        rintro ⟨⟩
        have named := Color.named_iff_read?.mpr ⟨different, read⟩
        exact ⟨unit color, named, (by decide : 1 ≤ maxAmount), rfl⟩
  · rintro ⟨symbol, spelled, small, rfl⟩
    cases symbol with
    | numeral n =>
        have read : Text.numeral? maxAmount cs = some n :=
          Text.numeral?_eq_some_iff.mpr ⟨spelled, small⟩
        simp [symbol?, read, color, amount]
    | unit c =>
        have unread : Text.numeral? maxAmount cs = none := by
          refine Option.eq_none_iff_forall_ne_some.mpr fun n read => ?_
          exact Color.Named.not_writes spelled (Text.numeral?_eq_some_iff.mp read).1
        obtain ⟨different, read⟩ := Color.named_iff_read?.mp spelled
        cases c <;> simp_all [symbol?, color, amount]

/-- No two symbols have a spelling in common. -/
theorem Spelled.unique {symbol symbol' : Symbol} {cs : List Char} (h : symbol.Spelled cs)
    (h' : symbol'.Spelled cs) : symbol = symbol' := by
  cases symbol with
  | numeral m =>
      cases symbol' with
      | numeral n => exact congrArg numeral (Text.Writes.unique h h')
      | unit color => exact absurd h (Color.Named.not_writes h')
  | unit color =>
      cases symbol' with
      | numeral n => exact absurd h' (Color.Named.not_writes h)
      | unit color' =>
          have read := (Color.named_iff_read?.mp h).2
          have read' := (Color.named_iff_read?.mp h').2
          exact congrArg unit (Option.some.inj (read.symm.trans read'))

/-- Closing braces are in no symbol. -/
theorem Spelled.closingBrace_not_mem {symbol : Symbol} {cs : List Char} (h : symbol.Spelled cs) :
    closingBrace ∉ cs := by
  intro member
  cases symbol with
  | numeral n =>
      rcases Text.Writes.characters h _ member with digit | sign
      · exact absurd digit (by decide)
      · exact absurd sign (by decide)
  | unit c => exact absurd ((Color.Named.isLower_toLower h).2 _ member) (by decide)

end Symbol

end Mana

end CardGame
