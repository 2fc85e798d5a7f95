import CardGame.Match.Setup

/-! # Shuffling loses nothing

Whatever the words of the stream are, a shuffle only takes items over from the pile to the new order.
A library holds the cards of its deck, whichever generator shuffles it, as long as that permutes.
-/

namespace CardGame

namespace Shuffle

/-- A word that gives no number is passed over, however many there are. -/
theorem below_eq (bound : UInt32) (stream : WordStream) :
    below bound stream = (attempt bound stream).elim (below bound) some := by
  rw [below, repeatM_eq_of_monadTail, repeatM.body]
  cases attempt bound stream <;> rfl

variable {α : Type}

/-- The item that is taken and the rest are the pile. -/
theorem takeAt_perm {pile rest : List α} {place : Nat} {item : α}
    (taken : takeAt pile place = some (item, rest)) : (item :: rest).Perm pile := by
  unfold takeAt at taken
  split at taken
  · rename_i item last found ends
    cases taken
    obtain ⟨front, rfl⟩ := List.getLast?_eq_some_iff.mp ends
    obtain ⟨within, rfl⟩ := List.getElem?_eq_some_iff.mp found
    rcases Nat.lt_or_ge place front.length with inside | atEnd
    · -- the last item takes the place of the item that is taken
      rw [List.set_append_left _ _ inside, List.dropLast_concat, List.getElem_append_left inside,
        List.set_eq_take_append_cons_drop, if_pos inside]
      have parts : front = front.take place ++ front[place] :: front.drop (place + 1) := by
        rw [List.getElem_cons_drop, List.take_append_drop]
      calc
        (front[place] :: (front.take place ++ last :: front.drop (place + 1))).Perm
            (front.take place ++ front[place] :: last :: front.drop (place + 1)) :=
          List.perm_middle.symm
        List.Perm _ (front.take place ++ front[place] :: (front.drop (place + 1) ++ [last])) :=
          ((List.perm_append_singleton last _).symm.cons _).append_left _
        _ = front ++ [last] := by rw [← List.cons_append, ← List.append_assoc, ← parts]
    · obtain rfl : place = front.length := by
        rw [List.length_append, List.length_singleton] at within
        omega
      rw [List.getElem_concat_length rfl, List.set_append_right _ _ (Nat.le_refl _), Nat.sub_self,
        List.set_cons_zero, List.dropLast_concat]
      exact (List.perm_append_singleton last front).symm
  · cases taken

theorem takeAll_perm (stream : WordStream) (pile done : List α) (count : Nat) :
    (takeAll stream pile done count).1.Perm (pile ++ done) := by
  induction count generalizing stream pile done with
  | zero => exact .refl _
  | succ count ih =>
      unfold takeAll
      split
      · exact .refl _
      · split
        · exact .refl _
        · split
          · rename_i item rest taken
            exact (ih _ rest (item :: done)).trans
              (List.perm_middle.trans ((takeAt_perm taken).append_right done))
          · exact .refl _

theorem shuffle_perm (stream : WordStream) (items : List α) :
    (shuffle stream items).1.Perm items := by
  have all := takeAll_perm stream items [] items.length
  rwa [List.append_nil] at all

end Shuffle

theorem Generator.permutes_chacha : chacha.Permutes := fun stream items =>
  Shuffle.shuffle_perm stream items

/-- A library holds the cards of its deck. -/
theorem Config.libraryOrder_perm (config : Config) {generator : Generator}
    (permutes : generator.Permutes) (seat : Seat) (deck : List DefinitionId) :
    (config.libraryOrder generator seat deck).Perm deck := by
  unfold libraryOrder
  split
  · exact permutes _ deck
  · exact .refl deck

end CardGame
