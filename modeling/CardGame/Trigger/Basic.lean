import CardGame.Event

/-! # Trigger conditions

A condition names a kind of event and what must hold besides when it happens.
-/

namespace CardGame

/-- What must hold when an event happens. The source is the card with the ability. -/
inductive TriggerPredicate where
  | always
  | subjectIsSource
  | subjectIsNotSource
  | subjectControlledBySourceController
  | sourceOnBattlefield
  | all (predicates : List TriggerPredicate)
  | not (predicate : TriggerPredicate)
  deriving Repr

namespace TriggerPredicate

mutual

def decEq : (p q : TriggerPredicate) → Decidable (p = q)
  | always, always => .isTrue rfl
  | subjectIsSource, subjectIsSource => .isTrue rfl
  | subjectIsNotSource, subjectIsNotSource => .isTrue rfl
  | subjectControlledBySourceController, subjectControlledBySourceController => .isTrue rfl
  | sourceOnBattlefield, sourceOnBattlefield => .isTrue rfl
  | all ps, all qs =>
    match listDecEq ps qs with
    | .isTrue h => .isTrue (h ▸ rfl)
    | .isFalse h => .isFalse fun e => h (all.inj e)
  | not p, not q =>
    match decEq p q with
    | .isTrue h => .isTrue (h ▸ rfl)
    | .isFalse h => .isFalse fun e => h (not.inj e)
  | always, subjectIsSource | always, subjectIsNotSource
  | always, subjectControlledBySourceController | always, sourceOnBattlefield
  | always, all _ | always, not _
  | subjectIsSource, always | subjectIsSource, subjectIsNotSource
  | subjectIsSource, subjectControlledBySourceController | subjectIsSource, sourceOnBattlefield
  | subjectIsSource, all _ | subjectIsSource, not _
  | subjectIsNotSource, always | subjectIsNotSource, subjectIsSource
  | subjectIsNotSource, subjectControlledBySourceController
  | subjectIsNotSource, sourceOnBattlefield
  | subjectIsNotSource, all _ | subjectIsNotSource, not _
  | subjectControlledBySourceController, always
  | subjectControlledBySourceController, subjectIsSource
  | subjectControlledBySourceController, subjectIsNotSource
  | subjectControlledBySourceController, sourceOnBattlefield
  | subjectControlledBySourceController, all _ | subjectControlledBySourceController, not _
  | sourceOnBattlefield, always | sourceOnBattlefield, subjectIsSource
  | sourceOnBattlefield, subjectIsNotSource
  | sourceOnBattlefield, subjectControlledBySourceController
  | sourceOnBattlefield, all _ | sourceOnBattlefield, not _
  | all _, always | all _, subjectIsSource | all _, subjectIsNotSource
  | all _, subjectControlledBySourceController | all _, sourceOnBattlefield | all _, not _
  | not _, always | not _, subjectIsSource | not _, subjectIsNotSource
  | not _, subjectControlledBySourceController | not _, sourceOnBattlefield | not _, all _ =>
    .isFalse nofun

def listDecEq : (ps qs : List TriggerPredicate) → Decidable (ps = qs)
  | [], [] => .isTrue rfl
  | [], _ :: _ | _ :: _, [] => .isFalse nofun
  | p :: ps, q :: qs =>
    match decEq p q, listDecEq ps qs with
    | .isTrue h, .isTrue hs => .isTrue (h ▸ hs ▸ rfl)
    | .isFalse h, _ => .isFalse fun e => h (List.cons.inj e).1
    | _, .isFalse h => .isFalse fun e => h (List.cons.inj e).2

end

instance : DecidableEq TriggerPredicate := decEq

/-- Both must hold. A list of predicates takes in one more. -/
def and : TriggerPredicate → TriggerPredicate → TriggerPredicate
  | all ps, q => all (ps ++ [q])
  | p, q => all [p, q]

end TriggerPredicate

/-- When a triggered ability fires. -/
structure TriggerCondition where
  event : EventKind
  predicate : TriggerPredicate
  deriving DecidableEq, Repr

namespace TriggerCondition

def on (event : EventKind) : TriggerCondition := ⟨event, .always⟩

/-- Ask for one thing more. -/
def also (c : TriggerCondition) (p : TriggerPredicate) : TriggerCondition :=
  match c.predicate with
  | .always => { c with predicate := p }
  | q => { c with predicate := q.and p }

end TriggerCondition

end CardGame
