import CardGame.Mana.Pool
import Mathlib.Algebra.BigOperators.Group.List.Basic
import Mathlib.Algebra.GroupWithZero.Nat

/-! # What paying a cost leaves

A cost can be paid exactly when each color has its own share and the rest of the pool covers the
generic amount. What is left is then determined: nothing is lost, and a color gives generic mana only
after every color before it has given all that it has.
-/

namespace CardGame.Mana

/-- What a cost asks for of single colors. -/
def Cost.pips (cost : Cost) : Amounts := cost.amounts.set .generic 0

namespace Amounts

variable {a b : Amounts}

theorem sum_set (a : Amounts) (color : Color) (n : Nat) :
    (a.set color n).sum + a.get color = a.sum + n := by
  cases color <;> simp only [set, sum, get] <;> omega

theorem sum_toList (a : Amounts) : a.toList.sum = a.sum := by
  simp only [toList, Color.all, List.map_cons, List.map_nil, List.sum_cons, List.sum_nil, get, sum]
  omega

/-- Each amount less the other one of its color. -/
def minus (a b : Amounts) : Amounts where
  white := a.white - b.white
  blue := a.blue - b.blue
  black := a.black - b.black
  red := a.red - b.red
  green := a.green - b.green
  colorless := a.colorless - b.colorless
  generic := a.generic - b.generic

@[simp]
theorem get_minus (a b : Amounts) (color : Color) :
    (a.minus b).get color = a.get color - b.get color := by
  cases color <;> rfl

theorem sum_minus (h : ∀ color, b.get color ≤ a.get color) : (a.minus b).sum + b.sum = a.sum := by
  rw [← sum_toList, ← sum_toList, ← sum_toList, toList, toList, ← List.sum_map_add]
  simp only [get_minus, Nat.sub_add_cancel (h _), toList]

theorem sum_le_sum (h : ∀ color, b.get color ≤ a.get color) : b.sum ≤ a.sum :=
  sum_minus h ▸ Nat.le_add_left _ _

theorem get_set_of_ne {color other : Color} (h : other ≠ color) (n : Nat) :
    (a.set color n).get other = a.get other := by
  rw [get_set, if_neg h]

/-- Amounts that differ in one color alone. -/
theorem set_get_of_agree {color : Color} (h : ∀ other, other ≠ color → b.get other = a.get other) :
    a.set color (b.get color) = b := by
  ext other
  rw [get_set]
  split
  · rename_i same
    rw [same]
  · rename_i different
    exact (h other different).symm

theorem get_le_set_get (h : ∀ color, b.get color ≤ a.get color) (color other : Color) :
    b.get other ≤ (a.set color (b.get color)).get other := by
  rw [get_set]
  split
  · rename_i same
    exact same ▸ Nat.le_refl _
  · exact h other

end Amounts

namespace Pool

variable {a b : Amounts} {owed : Nat} {order : List Color}

theorem take?_eq_some {color : Color} {n : Nat} :
    take? a color n = some b ↔ n ≤ a.get color ∧ a.set color (a.get color - n) = b := by
  unfold take?
  split <;> simp [*]

/-- Each color of a list in turn gives what is needed of it. -/
theorem takeEach_eq_some (need : Color → Nat) {colors : List Color} (distinct : colors.Nodup) :
    colors.foldlM (fun a color => take? a color (need color)) a = some b ↔
      ∀ color, b.get color + (if color ∈ colors then need color else 0) = a.get color := by
  induction colors generalizing a with
  | nil =>
      simp only [List.foldlM_nil, List.not_mem_nil, if_false, Nat.add_zero]
      constructor
      · intro same color
        rw [← Option.some.inj same]
      · intro same
        exact congrArg some (Amounts.ext_get fun color => (same color).symm)
  | cons first colors ih =>
      obtain ⟨fresh, distinct⟩ := List.nodup_cons.mp distinct
      simp only [List.foldlM_cons, Option.bind_eq_bind, Option.bind_eq_some_iff, take?_eq_some,
        ih distinct]
      constructor
      · rintro ⟨_, ⟨enough, rfl⟩, taken⟩ color
        have taken := taken color
        rw [Amounts.get_set] at taken
        by_cases here : color = first
        · subst here
          simp only [if_true, fresh, if_false, List.mem_cons, true_or] at taken ⊢
          omega
        · simpa [here] using taken
      · intro taken
        have enough := taken first
        simp only [List.mem_cons, true_or, if_true] at enough
        refine ⟨_, ⟨by omega, rfl⟩, fun color => ?_⟩
        have taken := taken color
        rw [Amounts.get_set]
        by_cases here : color = first
        · subst here
          simp only [if_true, fresh, if_false]
          omega
        · simpa [here] using taken

theorem nodup_ownColors : ownColors.Nodup := by decide

theorem payOwn_eq_some {pool : Pool} {cost : Cost} :
    ownColors.foldlM (fun a color => take? a color (cost.amounts.get color)) pool.amounts = some b ↔
      (∀ color, cost.pips.get color ≤ pool.get color) ∧ pool.amounts.minus cost.pips = b := by
  have own (color : Color) :
      (if color ∈ ownColors then cost.amounts.get color else 0) = cost.pips.get color := by
    rw [Cost.pips, Amounts.get_set]
    cases color <;> rfl
  simp only [takeEach_eq_some cost.amounts.get nodup_ownColors, own]
  constructor
  · intro taken
    refine ⟨fun color => ?_, Amounts.ext_get fun color => ?_⟩
    · have taken := taken color
      rw [get]
      omega
    · have taken := taken color
      rw [Amounts.get_minus]
      omega
  · rintro ⟨enough, rfl⟩ color
    rw [Amounts.get_minus]
    exact Nat.sub_add_cancel (enough color)

@[simp]
theorem spend_nothing (a : Amounts) (order : List Color) : spend a 0 order = (a, 0) := by
  induction order generalizing a with
  | nil => rfl
  | cons color order ih =>
      have same : a.set color (a.get color) = a := Amounts.set_get_of_agree fun _ _ => rfl
      simp [spend, same, ih]

theorem get_spend_of_not_mem {color : Color} (h : color ∉ order) :
    (spend a owed order).1.get color = a.get color := by
  induction order generalizing a owed with
  | nil => rfl
  | cons first order ih =>
      rw [List.mem_cons, not_or] at h
      rw [spend, ih h.2, Amounts.get_set_of_ne h.1]

theorem get_spend_le (a : Amounts) (owed : Nat) (order : List Color) (color : Color) :
    (spend a owed order).1.get color ≤ a.get color := by
  induction order generalizing a owed with
  | nil => exact Nat.le_refl _
  | cons first order ih =>
      refine Nat.le_trans (ih _ _) ?_
      rw [Amounts.get_set]
      split
      · rename_i here
        rw [here]
        exact Nat.sub_le _ _
      · exact Nat.le_refl _

/-- What is taken from the colors is what is no longer owed. -/
theorem sum_spend (a : Amounts) (owed : Nat) (order : List Color) :
    (spend a owed order).1.sum + owed = a.sum + (spend a owed order).2 := by
  induction order generalizing a owed with
  | nil => rfl
  | cons color order ih =>
      have later := ih (a.set color (a.get color - min (a.get color) owed))
        (owed - min (a.get color) owed)
      have here := a.sum_set color (a.get color - min (a.get color) owed)
      rw [spend]
      omega

theorem owed_spend (distinct : order.Nodup) :
    (spend a owed order).2 = owed - (order.map a.get).sum := by
  induction order generalizing a owed with
  | nil => rfl
  | cons color order ih =>
      obtain ⟨fresh, distinct⟩ := List.nodup_cons.mp distinct
      have others : order.map (a.set color (a.get color - min (a.get color) owed)).get =
          order.map a.get :=
        List.map_congr_left fun other member =>
          Amounts.get_set_of_ne (ne_of_mem_of_not_mem member fresh) _
      rw [spend, ih distinct, others, List.map_cons, List.sum_cons]
      omega

/-- A color gives only after every color before it has given all that it has. -/
theorem spend_in_turn (a : Amounts) (owed : Nat) (distinct : order.Nodup) :
    order.Pairwise fun earlier later => (spend a owed order).1.get later < a.get later →
      (spend a owed order).1.get earlier = 0 := by
  induction order generalizing a owed with
  | nil => exact .nil
  | cons color order ih =>
      obtain ⟨fresh, distinct⟩ := List.nodup_cons.mp distinct
      have others (n : Nat) {other : Color} (member : other ∈ order) :
          (a.set color n).get other = a.get other :=
        Amounts.get_set_of_ne (ne_of_mem_of_not_mem member fresh) n
      rw [spend]
      have inTurn := ih (a.set color (a.get color - min (a.get color) owed))
        (owed - min (a.get color) owed) distinct
      refine List.pairwise_cons.mpr ⟨fun later member lowered => ?head, ?tail⟩
      case head =>
        rw [get_spend_of_not_mem fresh, Amounts.get_set, if_pos rfl]
        by_contra left
        -- The first color has some left, so that nothing is owed any more.
        have paid : owed - min (a.get color) owed = 0 := by omega
        rw [paid, spend_nothing, others _ member] at lowered
        exact Nat.lt_irrefl _ lowered
      case tail =>
        refine inTurn.imp_of_mem fun {_ later} _ member emptied lowered => emptied ?_
        rwa [others _ member]

/-- The first of several colors gives what is owed, and all that it has if a later one gives too. -/
theorem left_of_first {color : Color}
    (kept : ∀ other, other ∉ color :: order → b.get other = a.get other)
    (less : ∀ other, b.get other ≤ a.get other)
    (first : ∀ later ∈ order, b.get later < a.get later → b.get color = 0) :
    a.get color - min (a.get color) (a.sum - b.sum) = b.get color := by
  have sums := a.sum_set color (b.get color)
  have total := Amounts.sum_le_sum (Amounts.get_le_set_get less color)
  have here := less color
  by_cases touched : ∃ later ∈ order, b.get later < a.get later
  · obtain ⟨later, member, lowered⟩ := touched
    have emptied := first later member lowered
    omega
  · have agree : a.set color (b.get color) = b :=
      Amounts.set_get_of_agree fun other different => by
        by_cases member : other ∈ order
        · exact Nat.le_antisymm (less other)
            (Nat.not_lt.mp fun lowered => touched ⟨other, member, lowered⟩)
        · exact kept other (by simp [different, member])
    rw [agree] at sums
    omega

/-- The amounts that are left when colors give in turn are determined by their sum. -/
theorem spend_eq_of_in_turn (distinct : order.Nodup)
    (kept : ∀ color, color ∉ order → b.get color = a.get color)
    (less : ∀ color, b.get color ≤ a.get color)
    (inTurn : order.Pairwise fun earlier later => b.get later < a.get later → b.get earlier = 0) :
    spend a (a.sum - b.sum) order = (b, 0) := by
  induction order generalizing a with
  | nil =>
      have same : a = b := Amounts.ext_get fun color => (kept color List.not_mem_nil).symm
      rw [same, Nat.sub_self]
      rfl
  | cons color order ih =>
      obtain ⟨fresh, distinct⟩ := List.nodup_cons.mp distinct
      obtain ⟨first, inTurn⟩ := List.pairwise_cons.mp inTurn
      have given := left_of_first kept less first
      have less' := Amounts.get_le_set_get less color
      have owed : a.sum - b.sum - min (a.get color) (a.sum - b.sum) =
          (a.set color (b.get color)).sum - b.sum := by
        have sums := a.sum_set color (b.get color)
        have total := Amounts.sum_le_sum less'
        have here := less color
        omega
      rw [spend, given, owed]
      refine ih distinct (fun other absent => ?_) less' ?_
      · rw [Amounts.get_set]
        split
        · rename_i same
          rw [same]
        · rename_i different
          exact kept other (by simp [different, absent])
      · refine inTurn.imp_of_mem fun {earlier later} _ member emptied lowered => emptied ?_
        rwa [Amounts.get_set_of_ne (ne_of_mem_of_not_mem member fresh)] at lowered

/-- Paying an amount in full, where every color may give, leaves just those amounts that come to
    what is not owed and are reached by giving in turn. -/
theorem spend_eq_iff (distinct : order.Nodup) (every : ∀ color, color ∈ order) :
    spend a owed order = (b, 0) ↔
      (∀ color, b.get color ≤ a.get color) ∧ b.sum + owed = a.sum ∧
        order.Pairwise fun earlier later => b.get later < a.get later → b.get earlier = 0 := by
  constructor
  · intro paid
    have less := get_spend_le a owed order
    have gone := sum_spend a owed order
    have inTurn := spend_in_turn a owed distinct
    rw [paid] at less gone inTurn
    exact ⟨less, gone, inTurn⟩
  · rintro ⟨less, gone, inTurn⟩
    have same : owed = a.sum - b.sum := by omega
    rw [same]
    exact spend_eq_of_in_turn distinct (fun color absent => absurd (every color) absent) less inTurn

theorem nodup_genericOrder : genericOrder.Nodup := by decide

theorem mem_genericOrder (color : Color) : color ∈ genericOrder := by cases color <;> decide

theorem sum_genericOrder (a : Amounts) : (genericOrder.map a.get).sum = a.sum := by
  simp only [genericOrder, List.map_cons, List.map_nil, List.sum_cons, List.sum_nil, Amounts.get,
    Amounts.sum]
  omega

/-- An amount is paid in full exactly when the pool covers it. -/
theorem exists_spend_eq : (∃ rest : Pool, spend a owed genericOrder = (rest.amounts, 0)) ↔
    owed ≤ a.sum := by
  have short : (spend a owed genericOrder).2 = owed - a.sum := by
    rw [owed_spend nodup_genericOrder, sum_genericOrder]
  constructor
  · rintro ⟨rest, paid⟩
    rw [paid] at short
    omega
  · intro covered
    exact ⟨⟨_⟩, Prod.ext rfl (by omega)⟩

theorem pay?_eq_some {pool rest : Pool} {cost : Cost} :
    pool.pay? cost = some rest ↔
      (∀ color, cost.pips.get color ≤ pool.get color) ∧
        spend (pool.amounts.minus cost.pips) cost.generic genericOrder = (rest.amounts, 0) := by
  unfold pay?
  cases own : ownColors.foldlM (fun a color => take? a color (cost.amounts.get color))
      pool.amounts with
  | none =>
      have short : ¬∀ color, cost.pips.get color ≤ pool.get color := fun enough => by
        simp [payOwn_eq_some.mpr ⟨enough, rfl⟩] at own
      simp [short]
  | some left =>
      obtain ⟨enough, rfl⟩ := payOwn_eq_some.mp own
      simp only [enough, implies_true, true_and]
      cases spend (pool.amounts.minus cost.pips) cost.generic genericOrder with
      | mk left owed => cases owed <;> cases rest <;> simp

/-- A cost can be paid exactly when each color has its pips and all that is then left covers the
    generic amount. The pool that is left is the one from which exactly the cost is gone, the pips of
    each color out of its own mana, and where a color has given more than its pips only if the colors
    before it are used up. -/
theorem paid_in_turn (pool : Pool) (cost : Cost) :
    ((pool.pay? cost).isSome = true ↔
      (∀ color, cost.pips.get color ≤ pool.get color) ∧
        cost.generic ≤ pool.amounts.sum - cost.pips.sum) ∧
    ∀ rest, pool.pay? cost = some rest ↔
      (∀ color, rest.get color + cost.pips.get color ≤ pool.get color) ∧
      pool.amounts.sum - rest.amounts.sum = cost.pips.sum + cost.generic ∧
      [Color.generic, .colorless, .white, .blue, .black, .red, .green].Pairwise fun earlier later =>
        rest.get later < pool.get later - cost.pips.get later → rest.get earlier = 0 := by
  refine ⟨?payable, fun rest => ?left⟩
  case payable =>
    simp only [Option.isSome_iff_exists, pay?_eq_some, exists_and_left]
    refine and_congr_right fun enough => ?_
    rw [exists_spend_eq, ← Amounts.sum_minus enough, Nat.add_sub_cancel]
  case left =>
    rw [pay?_eq_some, spend_eq_iff nodup_genericOrder mem_genericOrder]
    simp only [Amounts.get_minus]
    constructor
    · rintro ⟨enough, less, gone, inTurn⟩
      have total := Amounts.sum_minus enough
      exact ⟨fun color => Nat.add_le_of_le_sub (enough color) (less color), by omega, inTurn⟩
    · rintro ⟨own, gone, inTurn⟩
      have enough (color : Color) : cost.pips.get color ≤ pool.get color :=
        Nat.le_trans (Nat.le_add_left _ _) (own color)
      have less (color : Color) :
          rest.amounts.get color ≤ (pool.amounts.minus cost.pips).get color := by
        rw [Amounts.get_minus]
        exact Nat.le_sub_of_add_le (own color)
      have total := Amounts.sum_minus enough
      have kept := Amounts.sum_le_sum less
      simp only [Amounts.get_minus] at less
      exact ⟨enough, less, by omega, inTurn⟩

def purse : Pool :=
  ⟨{ Amounts.zero with white := 2, blue := 3, green := 1, colorless := 1, generic := 1 }⟩

def fiveAndBlue : Cost := (Cost.ofGeneric 5).add .blue 1

/-- The generic amount uses up generic, colorless and white mana and one blue; green is not touched. -/
theorem paid_in_turn_purse :
    (purse.pay? fiveAndBlue).isSome = true ∧
      purse.pay? fiveAndBlue = some ⟨{ Amounts.zero with blue := 1, green := 1 }⟩ := by
  obtain ⟨payable, left⟩ := paid_in_turn purse fiveAndBlue
  refine ⟨payable.mpr ⟨?_, by decide⟩, (left _).mpr ⟨?_, by decide, by decide⟩⟩
  all_goals
    intro color
    cases color <;> decide

end Pool

end CardGame.Mana
