import CardGame.Proofs.Payment
import CardGame.Proofs.Spelling

/-! # What a written cost asks for

A text is a cost exactly when it is a sequence of spelled symbols in braces, with blanks around it,
that asks for no more than the largest amount altogether. The cost is then the sum of the symbols.
-/

namespace CardGame.Mana

/-- The part of a text that was read before it is cut: nothing, or a symbol that is still open. -/
def unclosed : Option (List Char) → List Char
  | none => []
  | some read => openingBrace :: read.reverse

theorem writeSymbols_cons (cs : List Char) (symbols : List (List Char)) :
    writeSymbols (cs :: symbols) = openingBrace :: (cs ++ closingBrace :: writeSymbols symbols) := by
  simp [writeSymbols]

theorem writeSymbols_eq_nil {symbols : List (List Char)} :
    writeSymbols symbols = [] ↔ symbols = [] := by
  cases symbols with
  | nil => simp [writeSymbols]
  | cons cs symbols => simp [writeSymbols_cons]

/-- A text is cut at the first place where a character stands in one way only. -/
theorem eq_of_first_eq {c : Char} {before after before' after' : List Char} (fresh : c ∉ before)
    (fresh' : c ∉ before') (same : before ++ c :: after = before' ++ c :: after') :
    before = before' ∧ after = after' := by
  induction before generalizing before' with
  | nil =>
      cases before' with
      | nil => exact ⟨rfl, (List.cons.inj same).2⟩
      | cons d before' => exact absurd ((List.cons.inj same).1 ▸ List.mem_cons_self) fresh'
  | cons d before ih =>
      cases before' with
      | nil => exact absurd ((List.cons.inj same).1 ▸ List.mem_cons_self) fresh
      | cons e before' =>
          obtain ⟨rfl, others⟩ := List.cons.inj same
          obtain ⟨rfl, rfl⟩ := ih (List.not_mem_of_not_mem_cons fresh)
            (List.not_mem_of_not_mem_cons fresh') others
          exact ⟨rfl, rfl⟩

/-- Cutting takes a text apart into symbols, exactly as they would be written. -/
theorem cutSymbols_eq_iff {state : Option (List Char)} {cs : List Char} {symbols : List (List Char)}
    (closed : ∀ read, state = some read → closingBrace ∉ read) :
    cutSymbols state cs = (symbols, none) ↔
      unclosed state ++ cs = writeSymbols symbols ∧ ∀ s ∈ symbols, closingBrace ∉ s := by
  fun_induction cutSymbols state cs generalizing symbols with
  | case1 =>
      simp only [unclosed, List.append_nil, Prod.mk.injEq, and_true]
      constructor
      · rintro rfl
        exact ⟨rfl, nofun⟩
      · rintro ⟨none, -⟩
        exact (writeSymbols_eq_nil.mp none.symm).symm
  | case2 read =>
      simp only [unclosed, List.append_nil, Prod.mk.injEq, reduceCtorEq, and_false, false_iff]
      rintro ⟨written, -⟩
      cases symbols with
      | nil => cases written
      | cons cs symbols =>
          rw [writeSymbols_cons, List.cons.injEq] at written
          have inside : closingBrace ∈ read.reverse := by simp [written.2]
          exact closed read rfl (List.mem_reverse.mp inside)
  | case3 rest ih => simpa [unclosed] using ih (by simp)
  | case4 c rest other =>
      simp only [unclosed, List.nil_append, Prod.mk.injEq, reduceCtorEq, and_false, false_iff]
      rintro ⟨written, -⟩
      cases symbols with
      | nil => cases written
      | cons cs symbols =>
          rw [writeSymbols_cons, List.cons.injEq] at written
          exact other written.1
  | case5 read rest cut fault found ih =>
      have fresh : closingBrace ∉ read.reverse := by simpa using closed read rfl
      cases symbols with
      | nil => simp [unclosed, writeSymbols]
      | cons cs symbols =>
          have later : (cut, fault) = (symbols, none) ↔
              rest = writeSymbols symbols ∧ ∀ s ∈ symbols, closingBrace ∉ s := by
            rw [← found]
            simpa [unclosed] using ih (by simp)
          rw [unclosed, writeSymbols_cons, List.cons_append, List.cons.injEq, List.forall_mem_cons]
          constructor
          · rintro ⟨⟩
            obtain ⟨written, closed⟩ := later.mp rfl
            exact ⟨⟨rfl, by rw [written]⟩, fresh, closed⟩
          · rintro ⟨⟨-, written⟩, fresh', closed⟩
            obtain ⟨rfl, others⟩ := eq_of_first_eq fresh fresh' written
            obtain ⟨rfl, rfl⟩ := Prod.mk.inj (later.mpr ⟨others, closed⟩)
            rfl
  | case6 read c rest other ih =>
      have still : ∀ inner, some (c :: read) = some inner → closingBrace ∉ inner := by
        rintro _ ⟨⟩
        simp [closed read rfl, Ne.symm other]
      simpa [unclosed] using ih still

theorem cutSymbols_none_eq_iff {cs : List Char} {symbols : List (List Char)} :
    cutSymbols none cs = (symbols, none) ↔
      cs = writeSymbols symbols ∧ ∀ s ∈ symbols, closingBrace ∉ s :=
  cutSymbols_eq_iff nofun

theorem strip_written (symbols : List (List Char)) :
    (writeSymbols symbols).dropWhile Text.isBlank = writeSymbols symbols ∧
      (writeSymbols symbols).rdropWhile Text.isBlank = writeSymbols symbols := by
  constructor
  · cases symbols with
    | nil => rfl
    | cons cs symbols =>
        rw [writeSymbols_cons]
        exact List.dropWhile_cons_of_neg (by decide)
  · rcases List.eq_nil_or_concat symbols with rfl | ⟨others, last, rfl⟩
    · rfl
    · have ending : writeSymbols (others.concat last) =
          (writeSymbols others ++ openingBrace :: last) ++ [closingBrace] := by
        simp [writeSymbols]
      rw [ending]
      exact List.rdropWhile_concat_neg _ _ _ (by decide)

/-- The symbols that a text spells, in braces and with blanks around them. -/
def Spells (text : String) (symbols : List Symbol) : Prop :=
  ∃ before after spelled, text.toList = before ++ writeSymbols spelled ++ after ∧
    (∀ c ∈ before ++ after, Text.isBlank c = true) ∧ List.Forall₂ Symbol.Spelled symbols spelled

theorem closed_of_spelled {symbols : List Symbol} {spelled : List (List Char)}
    (meant : List.Forall₂ Symbol.Spelled symbols spelled) : ∀ cs ∈ spelled, closingBrace ∉ cs := by
  induction meant with
  | nil => exact nofun
  | cons first _ ih => exact List.forall_mem_cons.mpr ⟨first.closingBrace_not_mem, ih⟩

theorem spells_iff {text : String} {symbols : List Symbol} :
    Spells text symbols ↔
      ∃ spelled, cutSymbols none (Text.strip text.toList) = (spelled, none) ∧
        List.Forall₂ Symbol.Spelled symbols spelled := by
  simp only [cutSymbols_none_eq_iff]
  constructor
  · rintro ⟨before, after, spelled, written, blank, meant⟩
    obtain ⟨first, last⟩ := strip_written spelled
    refine ⟨spelled, ⟨?_, closed_of_spelled meant⟩, meant⟩
    rw [written, Text.strip_between blank first last]
  · rintro ⟨spelled, ⟨stripped, -⟩, meant⟩
    obtain ⟨before, after, whole, blank⟩ := Text.exists_strip text.toList
    rw [stripped] at whole
    exact ⟨before, after, spelled, whole, blank, meant⟩

namespace Cost

variable {cost cost' : Cost}

/-- Ask for what one more symbol says. -/
def plus (cost : Cost) (symbol : Symbol) : Cost :=
  ⟨cost.amounts.set symbol.color (cost.amounts.get symbol.color + symbol.amount)⟩

theorem sum_plus (cost : Cost) (symbol : Symbol) :
    (cost.plus symbol).amounts.sum = cost.amounts.sum + symbol.amount := by
  have sums := cost.amounts.sum_set symbol.color (cost.amounts.get symbol.color + symbol.amount)
  simp only [plus]
  omega

theorem sum_foldl_plus (cost : Cost) (symbols : List Symbol) :
    (symbols.foldl plus cost).amounts.sum =
      cost.amounts.sum + (symbols.map Symbol.amount).sum := by
  induction symbols generalizing cost with
  | nil => rfl
  | cons symbol symbols ih =>
      rw [List.foldl_cons, ih, sum_plus, List.map_cons, List.sum_cons, Nat.add_assoc]

theorem addSymbol_eq_ok {cs : List Char} :
    addSymbol cost cs = .ok cost' ↔
      ∃ symbol : Symbol, symbol.Spelled cs ∧ cost.plus symbol = cost' ∧
        cost'.amounts.sum ≤ maxAmount := by
  constructor
  · intro added
    unfold addSymbol at added
    split at added
    · cases added
    · rename_i color n read
      obtain ⟨symbol, spelled, -, ⟨⟩⟩ := Symbol.symbol?_eq_some_iff.mp read
      dsimp only at added
      split at added
      · rename_i small
        cases added
        exact ⟨symbol, spelled, rfl, small⟩
      · cases added
  · rintro ⟨symbol, spelled, rfl, small⟩
    have within : symbol.amount ≤ maxAmount := by
      rw [sum_plus] at small
      omega
    have read := Symbol.symbol?_eq_some_iff.mpr ⟨symbol, spelled, within, rfl⟩
    rw [addSymbol, read]
    exact if_pos small

/-- Symbols are added up as long as the sum is not too large. -/
theorem addSymbols_eq_ok {spelled : List (List Char)} (small : cost.amounts.sum ≤ maxAmount) :
    spelled.foldlM addSymbol cost = .ok cost' ↔
      ∃ symbols, List.Forall₂ Symbol.Spelled symbols spelled ∧ symbols.foldl plus cost = cost' ∧
        cost'.amounts.sum ≤ maxAmount := by
  induction spelled generalizing cost with
  | nil =>
      simp only [List.forall₂_nil_right_iff, exists_eq_left, List.foldl_nil, List.foldlM_nil]
      constructor
      · rintro ⟨⟩
        exact ⟨rfl, small⟩
      · rintro ⟨rfl, -⟩
        rfl
  | cons cs spelled ih =>
      have step : (cs :: spelled).foldlM addSymbol cost = .ok cost' ↔
          ∃ next, addSymbol cost cs = .ok next ∧ spelled.foldlM addSymbol next = .ok cost' := by
        rw [List.foldlM_cons]
        cases addSymbol cost cs <;> simp [bind, Except.bind]
      simp only [step, addSymbol_eq_ok]
      constructor
      · rintro ⟨next, ⟨symbol, meant, rfl, within⟩, others⟩
        obtain ⟨symbols, meant', rfl, within'⟩ := (ih within).mp others
        exact ⟨symbol :: symbols, .cons meant meant', rfl, within'⟩
      · rintro ⟨whole, meant, rfl, within⟩
        obtain ⟨symbol, symbols, first, others, rfl⟩ := List.forall₂_cons_right_iff.mp meant
        have grows := sum_foldl_plus (cost.plus symbol) symbols
        rw [List.foldl_cons] at within
        have within' : (cost.plus symbol).amounts.sum ≤ maxAmount := by omega
        exact ⟨_, ⟨symbol, first, rfl, within'⟩, (ih within').mpr ⟨symbols, others, rfl, within⟩⟩

theorem read_eq_ok_iff_cut {text : String} :
    read text = .ok cost ↔
      ∃ spelled, cutSymbols none (Text.strip text.toList) = (spelled, none) ∧
        spelled.foldlM addSymbol free = .ok cost := by
  unfold read
  obtain ⟨spelled, fault⟩ := cutSymbols none (Text.strip text.toList)
  cases added : spelled.foldlM addSymbol free <;> cases fault <;> simp [added]

/-- The costs that are read are the sums of spelled symbols that are not too large. -/
theorem read_eq_ok {text : String} :
    read text = .ok cost ↔
      ∃ symbols, Spells text symbols ∧ symbols.foldl plus free = cost ∧
        cost.amounts.sum ≤ maxAmount := by
  have small : free.amounts.sum ≤ maxAmount := by decide
  simp only [read_eq_ok_iff_cut, addSymbols_eq_ok small, spells_iff]
  constructor
  · rintro ⟨spelled, cut, symbols, meant, added⟩
    exact ⟨symbols, ⟨spelled, cut, meant⟩, added⟩
  · rintro ⟨symbols, ⟨spelled, cut, meant⟩, added⟩
    exact ⟨spelled, cut, symbols, meant, added⟩

theorem get_plus (cost : Cost) (symbol : Symbol) (color : Color) :
    (cost.plus symbol).amounts.get color =
      cost.amounts.get color + if symbol.color = color then symbol.amount else 0 := by
  rw [plus, Amounts.get_set]
  by_cases same : color = symbol.color
  · simp [same]
  · simp [same, Ne.symm same]

/-- Each single color is asked for as often as it is named. -/
theorem get_foldl_plus (cost : Cost) (symbols : List Symbol) {color : Color}
    (single : color ≠ .generic) :
    (symbols.foldl plus cost).amounts.get color =
      cost.amounts.get color + symbols.count (.unit color) := by
  induction symbols generalizing cost with
  | nil => rfl
  | cons symbol symbols ih =>
      have first : (if symbol.color = color then symbol.amount else 0) =
          if symbol == .unit color then 1 else 0 := by
        cases symbol with
        | numeral n => simp [Symbol.color, Ne.symm single]
        | unit other => by_cases same : other = color <;> simp [Symbol.color, Symbol.amount, same]
      rw [List.foldl_cons, ih, get_plus, List.count_cons, first, Nat.add_right_comm, Nat.add_assoc]

/-- The generic amount that is asked for is the sum of the numerals. -/
theorem generic_foldl_plus (cost : Cost) {symbols : List Symbol}
    (single : .unit .generic ∉ symbols) :
    (symbols.foldl plus cost).generic = cost.generic + (symbols.map Symbol.value).sum := by
  induction symbols generalizing cost with
  | nil => rfl
  | cons symbol symbols ih =>
      have first : (if symbol.color = .generic then symbol.amount else 0) = symbol.value := by
        cases symbol with
        | numeral n => rfl
        | unit color =>
            have different : color ≠ .generic := fun same => single (same ▸ List.mem_cons_self)
            simp [Symbol.color, Symbol.value, different]
      have added := get_plus cost symbol .generic
      rw [first] at added
      rw [List.foldl_cons, ih _ (List.not_mem_of_not_mem_cons single), List.map_cons, List.sum_cons,
        ← Nat.add_assoc]
      exact congrArg (· + _) added

end Cost

theorem Spells.single {text : String} {symbols : List Symbol} (spells : Spells text symbols) :
    .unit .generic ∉ symbols := by
  obtain ⟨-, -, spelled, -, -, meant⟩ := spells
  induction meant with
  | nil => exact List.not_mem_nil
  | cons first _ ih =>
      intro member
      rcases List.mem_cons.mp member with rfl | member
      · exact (Color.named_iff_read?.mp first).1 rfl
      · exact ih member

/-- A text spells one sequence of symbols at most. -/
theorem Spells.unique {text : String} {symbols symbols' : List Symbol}
    (spells : Spells text symbols) (spells' : Spells text symbols') : symbols = symbols' := by
  obtain ⟨spelled, cut, meant⟩ := spells_iff.mp spells
  obtain ⟨spelled', cut', meant'⟩ := spells_iff.mp spells'
  obtain ⟨rfl, -⟩ := Prod.mk.inj (cut.symm.trans cut')
  have functional : Relator.LeftUnique Symbol.Spelled := fun _ _ _ => Symbol.Spelled.unique
  exact List.left_unique_forall₂' functional meant meant'

/-- A text is read as a cost exactly when it is a sequence of symbols in braces, apart from blanks at
    both ends, whose numerals and single colors come to no more than the largest amount. The numerals
    then add up to the generic amount, and each color is asked for as often as it is named. -/
theorem symbols_read_as_cost (text : String) :
    ((∃ cost, Cost.read text = .ok cost) ↔
      ∃ symbols, Spells text symbols ∧ (symbols.map Symbol.amount).sum ≤ maxAmount) ∧
    ∀ symbols, Spells text symbols → ∀ cost, Cost.read text = .ok cost →
      cost.generic = (symbols.map Symbol.value).sum ∧
        ∀ color, color ≠ .generic → cost.amounts.get color = symbols.count (.unit color) := by
  have total (symbols : List Symbol) := (Cost.sum_foldl_plus .free symbols).trans (Nat.zero_add _)
  refine ⟨⟨fun ⟨cost, read⟩ => ?_, fun ⟨symbols, spells, small⟩ => ?_⟩, ?_⟩
  · obtain ⟨symbols, spells, rfl, small⟩ := Cost.read_eq_ok.mp read
    exact ⟨symbols, spells, total symbols ▸ small⟩
  · exact ⟨_, Cost.read_eq_ok.mpr ⟨symbols, spells, rfl, total symbols ▸ small⟩⟩
  · intro symbols spells cost read
    obtain ⟨symbols', spells', rfl, -⟩ := Cost.read_eq_ok.mp read
    obtain rfl := spells.unique spells'
    refine ⟨(Cost.generic_foldl_plus .free spells.single).trans (Nat.zero_add _), ?_⟩
    intro color single
    rw [Cost.get_foldl_plus .free symbols single]
    cases color <;> exact Nat.zero_add _

/-- A sign, a leading zero, capitals and blanks around the whole do not matter. -/
def sloppyText : String := " \x7b2\x7d\x7bg\x7d\x7bWhite\x7d\x7b+01\x7d\t"

theorem symbols_read_as_cost_sloppy :
    Spells sloppyText [.numeral 2, .unit .green, .unit .white, .numeral 1] ∧
      ∃ cost, Cost.read sloppyText = .ok cost ∧ cost.generic = 3 ∧ cost.amounts.get .white = 1 := by
  have spelled : List.Forall₂ Symbol.Spelled [.numeral 2, .unit .green, .unit .white, .numeral 1]
      [['2'], ['g'], ['W', 'h', 'i', 't', 'e'], ['+', '0', '1']] :=
    .cons ⟨['2'], .inl rfl, by decide, List.all_eq_true.mp rfl, rfl⟩
      (.cons ⟨"g", by decide, rfl⟩
        (.cons ⟨"white", by decide, rfl⟩
          (.cons ⟨['0', '1'], .inr rfl, by decide, List.all_eq_true.mp rfl, rfl⟩ .nil)))
  have spells : Spells sloppyText [.numeral 2, .unit .green, .unit .white, .numeral 1] :=
    ⟨[' '], ['\t'], _, rfl, List.all_eq_true.mp rfl, spelled⟩
  obtain ⟨readable, counts⟩ := symbols_read_as_cost sloppyText
  obtain ⟨cost, read⟩ := readable.mpr ⟨_, spells, by decide⟩
  obtain ⟨generic, single⟩ := counts _ spells cost read
  exact ⟨spells, cost, read, generic, single .white (by decide)⟩

end CardGame.Mana
