import CardGame.Definition
import CardGame.Proofs.Reading

/-! # Costs that are too large

The symbols of a written cost are added up in order, and reading stops at the first one with which they
ask for more than the largest amount. That the cost is too large is what the fault tells, unless this
symbol is too large on its own. A numeral beyond the largest amount is read as no numeral, nor is it the
name of a color, so it is an unknown symbol then.
-/

namespace CardGame.Mana

namespace Symbol

variable {symbol : Symbol} {cs : List Char}

/-- With this symbol after those, a cost becomes too large. -/
structure Oversteps (symbol : Symbol) (before : List Symbol) : Prop where
  fits : (before.map amount).sum ≤ maxAmount
  exceeds : maxAmount < (before.map amount).sum + symbol.amount

/-- The fault of a cost that becomes too large with this symbol. -/
def fault (symbol : Symbol) : CostFault :=
  if symbol.amount ≤ maxAmount then .tooLarge else .unknownSymbol

theorem symbol?_eq_none (spelled : symbol.Spelled cs) (large : ¬symbol.amount ≤ maxAmount) :
    symbol? cs = none := by
  refine Option.eq_none_iff_forall_ne_some.mpr fun ask read => ?_
  obtain ⟨other, spelled', small, -⟩ := symbol?_eq_some_iff.mp read
  rw [spelled'.unique spelled] at small
  exact large small

end Symbol

namespace Cost

variable {cost : Cost} {symbol last : Symbol} {before after : List Symbol} {cs : List Char}
  {spelled : List (List Char)}

/-- What a symbol asks for is added, unless the whole becomes too large with it. -/
theorem addSymbol_of_spelled (meant : symbol.Spelled cs) :
    addSymbol cost cs =
      if cost.amounts.sum + symbol.amount ≤ maxAmount then .ok (cost.plus symbol)
      else .error symbol.fault := by
  rw [← sum_plus]
  by_cases small : symbol.amount ≤ maxAmount
  · have read := Symbol.symbol?_eq_some_iff.mpr ⟨symbol, meant, small, rfl⟩
    rw [addSymbol, read, Symbol.fault, if_pos small]
    rfl
  · have exceeds : ¬(cost.plus symbol).amounts.sum ≤ maxAmount := by
      rw [sum_plus]
      omega
    rw [addSymbol, Symbol.symbol?_eq_none meant small, if_neg exceeds, Symbol.fault, if_neg small]

/-- Adding symbols up fails with the first one that is too much, whatever comes after it. -/
theorem addSymbols_eq_error
    (meant : List.Forall₂ Symbol.Spelled (before ++ last :: after) spelled)
    (fits : cost.amounts.sum + (before.map Symbol.amount).sum ≤ maxAmount)
    (exceeds : maxAmount < cost.amounts.sum + (before.map Symbol.amount).sum + last.amount) :
    spelled.foldlM addSymbol cost = .error last.fault := by
  -- What has been added up is part of the cost, so each step moves a symbol from the sum into it.
  induction before generalizing cost spelled with
  | nil =>
      obtain ⟨cs, later, first, -, rfl⟩ := List.forall₂_cons_left_iff.mp meant
      have large : ¬cost.amounts.sum + last.amount ≤ maxAmount := Nat.not_le_of_lt exceeds
      rw [List.foldlM_cons, addSymbol_of_spelled first, if_neg large]
      rfl
  | cons symbol before ih =>
      obtain ⟨cs, later, first, others, rfl⟩ := List.forall₂_cons_left_iff.mp meant
      rw [List.map_cons, List.sum_cons, ← Nat.add_assoc] at fits exceeds
      have small : cost.amounts.sum + symbol.amount ≤ maxAmount := by omega
      rw [List.foldlM_cons, addSymbol_of_spelled first, if_pos small]
      rw [← sum_plus] at fits exceeds
      exact ih others fits exceeds

/-- What a text spells is read up to the symbol with which it becomes too much. -/
theorem read_of_oversteps {text : String} (spells : Spells text (before ++ last :: after))
    (oversteps : last.Oversteps before) : read text = .error last.fault := by
  obtain ⟨spelled, cut, meant⟩ := spells_iff.mp spells
  have fits : free.amounts.sum + (before.map Symbol.amount).sum ≤ maxAmount :=
    (Nat.zero_add _).trans_le oversteps.fits
  have exceeds : maxAmount < free.amounts.sum + (before.map Symbol.amount).sum + last.amount :=
    oversteps.exceeds.trans_eq (congrArg (· + last.amount) (Nat.zero_add _).symm)
  unfold read
  simp only [cut, addSymbols_eq_error meant fits exceeds]

end Cost

/-- Symbols that ask for too much become too much with one of them. -/
theorem exists_oversteps {symbols : List Symbol}
    (large : maxAmount < (symbols.map Symbol.amount).sum) :
    ∃ before last after, symbols = before ++ last :: after ∧ last.Oversteps before := by
  induction symbols using List.reverseRecOn with
  | nil => cases large
  | append_singleton symbols symbol ih =>
      rw [List.map_append, List.sum_append, List.map_singleton, List.sum_singleton] at large
      by_cases fits : (symbols.map Symbol.amount).sum ≤ maxAmount
      · exact ⟨symbols, symbol, [], rfl, fits, large⟩
      · obtain ⟨before, last, after, rfl, oversteps⟩ := ih (Nat.lt_of_not_le fits)
        exact ⟨before, last, after ++ [symbol], by simp, oversteps⟩

/-- A sequence of symbols in braces that asks for more than the largest amount is refused at the symbol
    with which it first does. The fault is that the cost is too large, unless this symbol is a numeral
    beyond the largest amount itself, which is taken for an unknown symbol. So where every numeral is an
    amount, a card with such a cost is refused for a cost that is too large. -/
theorem oversized_costs_refused (text : String) (symbols : List Symbol) (spells : Spells text symbols)
    (large : maxAmount < (symbols.map Symbol.amount).sum) :
    (∃ before last after, symbols = before ++ last :: after ∧ last.Oversteps before) ∧
    (∀ before last after, symbols = before ++ last :: after → last.Oversteps before →
      Cost.read text = .error (if last.amount ≤ maxAmount then .tooLarge else .unknownSymbol)) ∧
    ((∀ symbol ∈ symbols, symbol.amount ≤ maxAmount) → ∀ d : Definition, d.cost = text →
      ∃ fault, d.manaCost = .error (.invalidParameter "mana_cost" text fault) ∧
        fault.reason = "cost too large") := by
  have somewhere := exists_oversteps large
  refine ⟨somewhere, ?_, fun small d printed => ?_⟩
  · rintro before last after rfl oversteps
    exact Cost.read_of_oversteps spells oversteps
  · obtain ⟨before, last, after, rfl, oversteps⟩ := somewhere
    have tooLarge : last.fault = .tooLarge := if_pos (small last (by simp))
    refine ⟨.cost .tooLarge, ?_, rfl⟩
    rw [Definition.manaCost, printed, Cost.read_of_oversteps spells oversteps, tooLarge]

/-- The second symbol is too much already, so it does not matter what the third one is. -/
def greedyText : String := "\x7b4294967295\x7d\x7bW\x7d\x7b99999999999\x7d"

theorem oversized_costs_refused_greedy :
    Spells greedyText [.numeral 4294967295, .unit .white, .numeral 99999999999] ∧
      maxAmount < ([.numeral 4294967295, .unit .white, .numeral 99999999999].map Symbol.amount).sum ∧
      (Symbol.unit .white).Oversteps [.numeral 4294967295] ∧
      Cost.read greedyText = .error .tooLarge := by
  have spelled : List.Forall₂ Symbol.Spelled
      [.numeral 4294967295, .unit .white, .numeral 99999999999]
      [Text.numeral 4294967295, ['W'], Text.numeral 99999999999] :=
    .cons (Text.writes_numeral _)
      (.cons ⟨"w", by decide, rfl⟩ (.cons (Text.writes_numeral _) .nil))
  have spells : Spells greedyText [.numeral 4294967295, .unit .white, .numeral 99999999999] :=
    ⟨[], [], _, by decide +kernel, nofun, spelled⟩
  have large : maxAmount <
      ([.numeral 4294967295, .unit .white, .numeral 99999999999].map Symbol.amount).sum := by decide
  have oversteps : (Symbol.unit .white).Oversteps [.numeral 4294967295] := ⟨by decide, by decide⟩
  obtain ⟨-, refused, -⟩ := oversized_costs_refused greedyText _ spells large
  exact ⟨spells, large, oversteps, refused [_] _ [_] rfl oversteps⟩

/-- A single numeral, one beyond the largest amount. -/
def hugeText : String := "\x7b4294967296\x7d"

/-- It is refused for an unknown symbol, and nothing tells that the cost is too large. -/
theorem huge_numeral_unknown :
    hugeText.toList = writeSymbols [Text.numeral 4294967296] ∧
      Spells hugeText [.numeral 4294967296] ∧
      maxAmount < ([.numeral 4294967296].map Symbol.amount).sum ∧
      Cost.read hugeText = .error .unknownSymbol ∧
      CostFault.unknownSymbol.reason ≠ "cost too large" := by
  have written : hugeText.toList = writeSymbols [Text.numeral 4294967296] := by decide +kernel
  have spelled : List.Forall₂ Symbol.Spelled [.numeral 4294967296] [Text.numeral 4294967296] :=
    .cons (Text.writes_numeral _) .nil
  have spells : Spells hugeText [.numeral 4294967296] := ⟨[], [], _, by simpa using written, nofun, spelled⟩
  exact ⟨written, spells, by decide, by decide +kernel, by decide⟩

end CardGame.Mana
