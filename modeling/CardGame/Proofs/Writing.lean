import CardGame.Proofs.Reading

/-! # Written costs are read back

A cost is written as its generic amount and a letter for each other mana, which are spellings of just
the symbols that add up to it. So reading gives the cost back, as long as it is not too large.
-/

namespace CardGame.Mana.Cost

/-- The symbols that a written cost consists of. -/
def content (cost : Cost) : List Symbol :=
  (if cost.generic > 0 || cost.isFree then [.numeral cost.generic] else []) ++
    letters.flatMap fun entry => List.replicate (cost.amounts.get entry.1) (.unit entry.1)

theorem letters_spelled : ∀ entry ∈ letters, (Symbol.unit entry.1).Spelled [entry.2] := by
  have lower : ∀ entry ∈ letters, (entry.1, String.ofList [entry.2.toLower]) ∈ Color.singleNames := by
    decide
  exact fun entry listed => ⟨_, lower entry listed, String.toList_ofList.symm⟩

theorem units_spelled (count : Color → Nat) {entries : List (Color × Char)}
    (spelled : ∀ entry ∈ entries, (Symbol.unit entry.1).Spelled [entry.2]) :
    List.Forall₂ Symbol.Spelled
      (entries.flatMap fun entry => List.replicate (count entry.1) (.unit entry.1))
      (entries.flatMap fun entry => List.replicate (count entry.1) [entry.2]) := by
  induction entries with
  | nil => exact .nil
  | cons entry entries ih =>
      obtain ⟨first, others⟩ := List.forall_mem_cons.mp spelled
      rw [List.flatMap_cons, List.flatMap_cons]
      refine List.rel_append ?_ (ih others)
      induction count entry.1 with
      | zero => exact .nil
      | succ n more => exact .cons first more

theorem content_spelled (cost : Cost) : List.Forall₂ Symbol.Spelled cost.content cost.symbols := by
  refine List.rel_append ?_ (units_spelled cost.amounts.get letters_spelled)
  split
  · exact .cons (Text.writes_numeral cost.generic) .nil
  · exact .nil

theorem spells_text (cost : Cost) : Spells cost.text cost.content :=
  ⟨[], [], cost.symbols, by simp [text], nofun, cost.content_spelled⟩

theorem value_content (cost : Cost) : (cost.content.map Symbol.value).sum = cost.generic := by
  have units : ((letters.flatMap fun entry =>
      List.replicate (cost.amounts.get entry.1) (Symbol.unit entry.1)).map Symbol.value).sum = 0 := by
    simp [letters, Symbol.value]
  rw [content, List.map_append, List.sum_append, units, Nat.add_zero]
  split
  · exact Nat.add_zero _
  · rename_i unwritten
    have none : ¬cost.generic > 0 := by
      intro asked
      simp [asked] at unwritten
    exact (Nat.eq_zero_of_not_pos none).symm

theorem count_content (cost : Cost) {color : Color} (single : color ≠ .generic) :
    cost.content.count (.unit color) = cost.amounts.get color := by
  have numerals : (if cost.generic > 0 || cost.isFree then [Symbol.numeral cost.generic] else []).count
      (.unit color) = 0 := by
    split <;> simp
  rw [content, List.count_append, numerals, Nat.zero_add]
  cases color <;> simp [letters, List.count_replicate] at single ⊢

/-- The symbols that a written cost consists of add up to it. -/
theorem foldl_content (cost : Cost) : cost.content.foldl plus free = cost := by
  have same : (cost.content.foldl plus free).amounts = cost.amounts := by
    ext color
    by_cases generic : color = .generic
    · subst generic
      have total := generic_foldl_plus free cost.spells_text.single
      rw [value_content] at total
      exact total.trans (Nat.zero_add _)
    · rw [get_foldl_plus free cost.content generic, count_content cost generic]
      cases color <;> exact Nat.zero_add _
  exact congrArg Cost.mk same

theorem read_text {cost : Cost} (small : cost.amounts.sum ≤ maxAmount) :
    read cost.text = .ok cost :=
  read_eq_ok.mpr ⟨cost.content, cost.spells_text, cost.foldl_content, small⟩

/-- Every cost that is not too large is read back from its written form. A cost that was read is such
    a one, and its written form stands for it alone, so it is a canonical form of what was read. -/
theorem written_costs_read_back :
    (∀ cost : Cost, cost.amounts.sum ≤ maxAmount → read cost.text = .ok cost) ∧
      (∀ text cost, read text = .ok cost → read cost.text = .ok cost) ∧
      ∀ text text' cost cost', read text = .ok cost → read text' = .ok cost' →
        cost.text = cost'.text → cost = cost' := by
  have again {text : String} {cost : Cost} (found : read text = .ok cost) :
      read cost.text = .ok cost := by
    obtain ⟨symbols, -, -, small⟩ := read_eq_ok.mp found
    exact read_text small
  refine ⟨fun cost small => read_text small, fun text cost => again, ?_⟩
  intro text text' cost cost' found found' same
  have twice := again found
  rw [same, again found'] at twice
  exact (Except.ok.inj twice).symm

/-- As large as a cost may be. -/
def dearest : Cost := (ofGeneric 4294967294).add .green 1

theorem written_costs_read_back_dearest :
    dearest.amounts.sum = maxAmount ∧ read dearest.text = .ok dearest ∧
      read "\x7bgreen\x7d\x7b4294967294\x7d" = .ok dearest ∧
      read "\x7b4294967294\x7d\x7bG\x7d" = .ok dearest ∧
      dearest.text = "\x7b4294967294\x7d\x7bG\x7d" := by
  obtain ⟨back, again, -⟩ := written_costs_read_back
  have found : read "\x7bgreen\x7d\x7b4294967294\x7d" = .ok dearest := by decide +kernel
  have written : dearest.text = "\x7b4294967294\x7d\x7bG\x7d" := by decide +kernel
  exact ⟨by decide, back dearest (by decide), found, written ▸ again _ dearest found, written⟩

end CardGame.Mana.Cost
