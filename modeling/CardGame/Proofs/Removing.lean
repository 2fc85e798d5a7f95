import CardGame.Proofs.Reach
import CardGame.Proofs.Words
import Mathlib.Logic.Function.Iterate

/-! # Taking an effect away again

Removing an effect reaches the cards that applying it has reached. Added types and keywords come off
without a trace. A power and toughness that were set fall back to the printed ones, whatever they were
before, and where one is missing a change leaves a zero. A second round finds nothing left to change.
-/

namespace CardGame

@[simp]
theorem eraseLast_concat {α : Type} [DecidableEq α] (item : α) (items : List α) :
    eraseLast item (items ++ [item]) = items := by
  simp [eraseLast]

namespace Modification

/-- What a modification leaves behind where it was made and removed. -/
def remains (m : Modification) (d : Definition) (c : Characteristics) : Characteristics :=
  match m with
  | addType _ | grantKeyword _ => c
  | setPowerToughness .. => { c with power := d.power, toughness := d.toughness }
  | modifyPowerToughness .. => c.raise 0 0

/-- Can the modification be made and removed without a trace? -/
def Reverts (m : Modification) (d : Definition) (c : Characteristics) : Prop :=
  match m with
  | addType _ | grantKeyword _ => True
  | setPowerToughness .. => c.power = d.power ∧ c.toughness = d.toughness
  | modifyPowerToughness .. => (c.power.isSome ∧ c.toughness.isSome) ∧ c.AreWords

variable (m : Modification) (d : Definition) (c : Characteristics)

instance : Decidable (m.Reverts d c) :=
  match m with
  | addType _ | grantKeyword _ => inferInstanceAs (Decidable True)
  | setPowerToughness .. => inferInstanceAs (Decidable (_ ∧ _))
  | modifyPowerToughness .. => inferInstanceAs (Decidable (_ ∧ _))

theorem remove_apply : m.remove d (m.apply c) = m.remains d c := by
  cases m with
  | addType | grantKeyword => simp [apply, remove, remains]
  | setPowerToughness => rfl
  | modifyPowerToughness power toughness =>
      have back (n m : Int) : n + m + -m = n := Int.add_neg_cancel_right n m
      simp [apply, remove, remains, Characteristics.raise, back]

theorem remains_remains : m.remains d (m.remains d c) = m.remains d c := by
  cases m with
  | addType | grantKeyword | setPowerToughness => rfl
  | modifyPowerToughness => simp [remains, Characteristics.raise]

theorem remains_eq_self_iff : m.remains d c = c ↔ m.Reverts d c := by
  cases m with
  | addType | grantKeyword => simp [remains, Reverts]
  | setPowerToughness =>
      obtain ⟨types, subtypes, supertypes, power, toughness, keywords⟩ := c
      simp [remains, Reverts, eq_comm]
  | modifyPowerToughness =>
      obtain ⟨types, subtypes, supertypes, power, toughness, keywords⟩ := c
      cases power <;> cases toughness <;>
        simp [remains, Reverts, Characteristics.raise, Characteristics.AreWords, word_eq_self_iff]

end Modification

namespace ContinuousEffect

/-- Apply an effect, and remove it again. -/
def comeAndGo (effect : ContinuousEffect) (s : State) : State := effect.remove (effect.apply s)

variable (effect : ContinuousEffect) {s : State}

/-- An effect that has been applied reaches the cards that it reached before. -/
theorem touches_apply {id : CardId} {c : Card} (found : s.card? id = some c) :
    (effect.touches (effect.apply s) id
      (if effect.touches s id c then
        { c with characteristics := effect.modification.apply c.characteristics }
      else c)) = effect.touches s id c := by
  have layout : (effect.apply s).layout = s.layout := State.layout_change effect s _
  rw [touches_congr layout rfl (.inr rfl)]
  split
  · rename_i touched
    -- The types may be more than before, but a creature stays one.
    have inPlay := State.isBattlefield_of_touches found touched
    rw [touched]
    exact touches_within (c := c) (State.Within.refl s) inPlay rfl
      (effect.modification.types_subset_apply c.characteristics) touched
  · rfl

theorem card?_comeAndGo (keyed : s.Keyed) (id : CardId) :
    (effect.comeAndGo s).card? id = (s.card? id).map fun c =>
      if effect.touches s id c then
        { c with characteristics := effect.modification.remains c.definition c.characteristics }
      else c := by
  have applied : (effect.apply s).Keyed := keyed.congr (State.layout_change effect s _)
  rw [comeAndGo, remove, effect.card?_change applied, effect.card?_apply keyed, Option.map_map]
  cases found : s.card? id with
  | none => rfl
  | some c =>
      simp only [Option.map_some, Function.comp_apply, effect.touches_apply found]
      by_cases touched : effect.touches s id c = true
      · simp only [touched, if_true, Modification.remove_apply]
      · simp only [touched, if_false, Bool.false_eq_true]

theorem layout_comeAndGo (s : State) : (effect.comeAndGo s).layout = s.layout :=
  (State.layout_change effect _ _).trans (State.layout_change effect s _)

theorem comeAndGo_eq (s : State) : effect.comeAndGo s = { s with cards := (effect.comeAndGo s).cards } := by
  rw [comeAndGo, remove, State.change_eq, apply, State.change_eq effect s]

/-- States that an effect leaves alone are known by their cards. -/
theorem comeAndGo_eq_self :
    effect.comeAndGo s = s ↔ ∀ id, (effect.comeAndGo s).card? id = s.card? id := by
  constructor
  · intro same id
    rw [same]
  · intro same
    rw [comeAndGo_eq, Table.ext_get? same]

theorem comeAndGo_comeAndGo (keyed : s.Keyed) :
    effect.comeAndGo (effect.comeAndGo s) = effect.comeAndGo s := by
  refine (comeAndGo_eq_self effect).mpr fun id => ?_
  have again : (effect.comeAndGo s).Keyed := keyed.congr (effect.layout_comeAndGo s)
  rw [effect.card?_comeAndGo again, effect.card?_comeAndGo keyed, Option.map_map]
  congr 1
  funext c
  by_cases touched : effect.touches s id c = true
  · simp [touched, Modification.remains_remains]
  · simp only [Function.comp_apply, touched, if_false, Bool.false_eq_true]
    rw [touches_congr (effect.layout_comeAndGo s) rfl (.inr rfl), if_neg touched]

/-- Applying an effect and removing it gives the state back exactly if no card that it reaches keeps a
    trace: types and keywords never leave one, set power and toughness leave none where the card had
    the printed ones, and a change of power and toughness leaves none where it had both. However often
    the effect comes and goes, the state is the one after the first time. -/
theorem comes_and_goes (effect : ContinuousEffect) (s : State) (keyed : s.Keyed) :
    (effect.remove (effect.apply s) = s ↔
      ∀ id c, s.card? id = some c → effect.touches s id c = true →
        effect.modification.Reverts c.definition c.characteristics) ∧
    ∀ n, effect.comeAndGo^[n + 1] s = effect.remove (effect.apply s) := by
  refine ⟨(comeAndGo_eq_self effect).trans (forall_congr' fun id => ?_), fun n => ?_⟩
  · rw [effect.card?_comeAndGo keyed]
    cases found : s.card? id with
    | none => simp
    | some c =>
        by_cases touched : effect.touches s id c = true
        · simp only [Option.map_some, touched, if_true, Option.some.injEq, forall_eq',
            forall_const, ← Modification.remains_eq_self_iff]
          exact ⟨congrArg Card.characteristics, fun same => by rw [same]⟩
        · simp [touched]
  · rw [Function.iterate_succ_apply]
    exact Function.iterate_fixed (effect.comeAndGo_comeAndGo keyed) n

def grownBear : Card :=
  (Card.create 1 (.creature 0 "Bear" 2 2) 0 (PlayerZones.ofSeat 0).battlefield []).addCounters
    Card.plusOne 1

def quietForest : Card :=
  .create 2 (.basicLand 1 "Forest") 0 (PlayerZones.ofSeat 0).battlefield []

/-- A creature that a counter has grown, beside a land. -/
def glade : State :=
  { (State.initial 2 20).updateZone grownBear.zone fun z => (z.push 1).push 2 with
    cards := .ofList [(1, grownBear), (2, quietForest)]
    nextCard := 3 }.derive

def raiseAll : ContinuousEffect := ⟨1, .allCreatures, .modifyPowerToughness 1 1⟩

def petrify : ContinuousEffect := ⟨1, .allCreatures, .setPowerToughness 0 5⟩

def awaken : ContinuousEffect := ⟨2, .source, .modifyPowerToughness 1 1⟩

/-- A raise of all creatures comes off again. -/
theorem comes_and_goes_glade :
    glade.Keyed ∧
      (∃ c, glade.card? 1 = some c ∧ raiseAll.touches glade 1 c = true) ∧
      raiseAll.remove (raiseAll.apply glade) = glade := by
  have reverts : ∀ e ∈ glade.cards.entries, raiseAll.touches glade e.1 e.2 = true →
      raiseAll.modification.Reverts e.2.definition e.2.characteristics := by decide
  have keyed : glade.Keyed := by decide
  exact ⟨keyed, by decide, (comes_and_goes raiseAll glade keyed).1.mpr fun id c found =>
    reverts (id, c) (Table.mem_entries.mpr found)⟩

/-- Setting power and toughness makes the creature forget its counter, and a raise of the land leaves it
    with power and toughness. -/
theorem removal_leaves_traces :
    glade.derive = glade ∧
      petrify.remove (petrify.apply glade) ≠ glade ∧
      awaken.remove (awaken.apply glade) ≠ glade := by decide

end ContinuousEffect

end CardGame
