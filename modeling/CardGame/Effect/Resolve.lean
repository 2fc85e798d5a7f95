import CardGame.Effect.Basic
import CardGame.State.Move

/-! # Resolving effects -/

namespace CardGame

/-- What an effect resolves with. -/
structure EffectContext where
  source : CardId
  controller : Seat
  targets : List CardId
  deriving DecidableEq, Repr

namespace Effect

/-- Are these targets the effect can have? Only effects that need targets ask: there must be some,
    and each must be a creature on a battlefield. -/
def checkTargets (effect : Effect) (s : State) (targets : List CardId) : Outcome Unit :=
  if effect.needsTargets then
    if targets.isEmpty then .error (.illegal .missingTarget)
    else
      match targets.find? fun t => !s.isCreatureInPlay t with
      | some t => .error (.illegal (.invalidTarget t))
      | none => .ok ()
  else .ok ()

def resolve (effect : Effect) (s : State) (context : EffectContext) : Outcome State :=
  match effect with
  | addMana color amount => do
    let _ ← s.player context.controller
    .ok (s.updatePlayer context.controller fun p => { p with mana := p.mana.add color amount })
  | gainLife amount => do
    let _ ← s.player context.controller
    .ok (s.updatePlayer context.controller fun p => { p with life := word (p.life + amount) })
  | destroy .source => s.destroy [context.source]
  | destroy .chosen => s.destroy context.targets
  | drawCards count => s.drawMany context.controller count

end Effect

end CardGame
