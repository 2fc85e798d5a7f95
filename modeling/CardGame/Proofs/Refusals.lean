import CardGame.Proofs.Playable
import CardGame.Proofs.Turns

/-! # Why operations are refused

With the built-in abilities nothing that an operation does inside can fail. What is left are the
refusals of its checks: an illegal action, a card that does not exist, and what is written on a card that
is cast but cannot be read.
-/

namespace CardGame

/-- Does the error say that something written on a card cannot be read? -/
def RuleError.isMisprint : RuleError → Bool
  | invalidParameter .. | unknownEffectKey _ => true
  | _ => false

namespace Effect

variable {params : Params} {key name : String}

theorem misprint_of_requireInt :
    (params.requireInt key name).FailsOnly fun reason => reason.isMisprint = true := by
  intro reason failed
  unfold Params.requireInt at failed
  split at failed <;> cases failed
  rfl

theorem misprint_of_readColor :
    (readColor key params).FailsOnly fun reason => reason.isMisprint = true := by
  refine .bind (fun reason failed => ?_) fun text _ reason failed => ?_
  · unfold Params.requireText at failed
    split at failed <;> cases failed
    rfl
  · split at failed <;> cases failed
    rfl

theorem misprint_of_readCount {value : Int} :
    (readCount key name value).FailsOnly fun reason => reason.isMisprint = true := by
  intro reason failed
  unfold readCount at failed
  split at failed <;> cases failed
  rfl

theorem misprint_of_ofDescriptor (d : Descriptor) :
    (ofDescriptor d).FailsOnly fun reason => reason.isMisprint = true := by
  unfold ofDescriptor ofParams
  split
  · exact misprint_of_requireInt.bind fun amount _ => .of_total ⟨_, rfl⟩
  · exact misprint_of_readColor.bind fun color _ =>
      misprint_of_readCount.bind fun amount _ => .of_total ⟨_, rfl⟩
  · exact .of_total ⟨_, rfl⟩
  · exact misprint_of_readCount.bind fun count _ => .of_total ⟨_, rfl⟩
  · intro reason failed
    cases failed
    rfl

end Effect

theorem Definition.misprint_of_manaCost (d : Definition) :
    d.manaCost.FailsOnly fun reason => reason.isMisprint = true := by
  intro reason failed
  unfold manaCost at failed
  split at failed <;> cases failed
  rfl

namespace Operation

/-- Who asks for the operation, if anybody in particular. -/
def player? : Operation → Option Seat
  | act player _ | declareAttackers player _ | declareBlockers player _ => some player
  | checkState => none

/-- The cards that are named in asking for the operation. -/
def cards : Operation → List CardId
  | act _ (.playLand card) => [card]
  | act _ (.castSpell card targets) | act _ (.activateAbility card _ targets) => card :: targets
  | act .. => []
  | declareAttackers _ attackers => attackers
  | declareBlockers _ blocks => blocks.flatMap fun block => [block.1, block.2]
  | checkState => []

end Operation

/-- Why an operation is refused in a state. -/
inductive Refusal (s : State) (operation : Operation) : RuleError → Prop where
  | illegal (cause : IllegalAction) : Refusal s operation (.illegal cause)
  /-- A card that was asked for does not exist. -/
  | absent {id : CardId} (named : id ∈ operation.cards) (absent : s.card? id = none) :
      Refusal s operation (.malformed (.card id))
  /-- The mana cost or an effect of the card being cast cannot be read. -/
  | misprint {player : Seat} {id : CardId} {targets : List CardId} {c : Card} {reason : RuleError}
      (cast : operation = .act player (.castSpell id targets)) (found : s.card? id = some c)
      (written : c.definition.manaCost = .error reason ∨
        ∃ d ∈ c.definition.effects, Effect.ofDescriptor d = .error reason)
      (misprint : reason.isMisprint = true) : Refusal s operation reason
  | unseated {player : Seat} (asks : operation.player? = some player)
      (unseated : s.playerCount ≤ player) : Refusal s operation (.malformed (.player player))

namespace Refusal

open Outcome

variable {s t : State} {operation : Operation} {player : Seat} {id : CardId}
  {targets : List CardId}

theorem of_require {condition : Bool} {cause : IllegalAction} :
    (require condition cause).FailsOnly (Refusal s operation) := by
  intro reason failed
  obtain ⟨-, rfl⟩ := require_eq_error.mp failed
  exact .illegal cause

section Layout

variable (layout : t.layout = s.layout)
include layout

/-- States of one layout have the same cards. -/
theorem of_card (named : id ∈ operation.cards) : (t.card id).FailsOnly (Refusal s operation) := by
  intro reason failed
  obtain ⟨none, rfl⟩ := find_eq_error.mp failed
  have place := State.placement_congr layout id
  rw [none, Option.map_none, eq_comm, Option.map_eq_none_iff] at place
  exact .absent named place

theorem of_cardInHand (seated : player < t.playerCount) (named : id ∈ operation.cards) :
    (t.cardInHand player id).FailsOnly (Refusal s operation) := by
  obtain ⟨p, hp⟩ := State.player?_of_lt seated
  exact (of_card layout named).bind fun _ _ => .bind (.of_total ⟨p, State.player_eq_ok.mpr hp⟩)
    fun _ _ => of_require.bind fun _ _ => .of_total ⟨_, rfl⟩

theorem of_readyCreature (named : id ∈ operation.cards) :
    (t.readyCreature id player).FailsOnly (Refusal s operation) :=
  (of_card layout named).bind fun _ _ => of_require.bind fun _ _ => of_require.bind fun _ _ =>
    of_require.bind fun _ _ => of_require.bind fun _ _ => .of_total ⟨_, rfl⟩

end Layout

theorem of_requireSorceryTiming :
    (t.requireSorceryTiming player).FailsOnly (Refusal s operation) :=
  of_require.bind fun _ _ => of_require.bind fun _ _ => of_require

theorem of_checkTargets (effect : Effect) :
    (effect.checkTargets t targets).FailsOnly (Refusal s operation) := by
  intro reason failed
  unfold Effect.checkTargets at failed
  split at failed
  · split at failed
    · cases failed
      exact .illegal _
    · split at failed <;> cases failed
      exact .illegal _
  · cases failed

theorem of_costCheck (cost : ActivationCost) (seated : player < t.playerCount)
    (found : ∃ c, t.card? id = some c) :
    (cost.check t id player).FailsOnly (Refusal s operation) := by
  obtain ⟨p, hp⟩ := State.player?_of_lt seated
  obtain ⟨c, found⟩ := found
  cases cost with
  | tap =>
      exact .bind (.of_total ⟨c, State.card_eq_ok.mpr found⟩) fun _ _ =>
        of_require.bind fun _ _ => of_require
  | mana | payLife =>
      exact .bind (.of_total ⟨p, State.player_eq_ok.mpr hp⟩) fun _ _ => of_require

section Layout

variable (layout : t.layout = s.layout)
include layout

theorem of_checkCast (seated : player < t.playerCount) :
    (t.checkCast player id targets).FailsOnly
      (Refusal s (.act player (.castSpell id targets))) := by
  rw [State.checkCast_eq]
  refine of_require.bind fun _ _ =>
    (of_cardInHand layout seated List.mem_cons_self).bind fun c inHand => of_require.bind fun _ _ => ?_
  obtain ⟨found, -⟩ := State.cardInHand_eq_ok.mp inHand
  obtain ⟨d, known, place⟩ := State.card?_congr layout found
  have definition := Card.definition_eq_of_placement place
  refine .bind ?timing fun _ _ => .bind (fun reason failed => ?cost) fun cost _ => ?_
  case timing =>
    unfold State.requireTiming
    split
    · exact .of_total ⟨_, rfl⟩
    · exact of_requireSorceryTiming
  case cost =>
    exact .misprint rfl known (.inl (definition ▸ failed))
      (c.definition.misprint_of_manaCost reason failed)
  obtain ⟨p, hp⟩ := State.player?_of_lt seated
  refine .bind (.of_total ⟨p, State.player_eq_ok.mpr hp⟩) fun _ _ => of_require.bind fun _ _ =>
    .forM fun e written => .bind (fun reason failed => ?_) fun effect _ => of_checkTargets effect
  exact .misprint rfl known (.inr ⟨e, definition ▸ written, failed⟩)
    (Effect.misprint_of_ofDescriptor e reason failed)

theorem of_checkLand (seated : player < t.playerCount) :
    (t.checkLand player id).FailsOnly (Refusal s (.act player (.playLand id))) := by
  obtain ⟨p, hp⟩ := State.player?_of_lt seated
  exact of_require.bind fun _ _ => of_requireSorceryTiming.bind fun _ _ =>
    (of_cardInHand layout seated List.mem_cons_self).bind fun _ _ => of_require.bind fun _ _ =>
      .bind (.of_total ⟨p, State.player_eq_ok.mpr hp⟩) fun _ _ => of_require

theorem of_checkActivate (equipped : t.Equipped .builtin) (seated : player < t.playerCount)
    {ability : AbilityId} :
    (t.checkActivate player id ability targets).FailsOnly
      (Refusal s (.act player (.activateAbility id ability targets))) := by
  have derived := State.layout_derive t
  have view : t.derive.Equipped .builtin := equipped.of_kit (State.kit_congr derived)
  have seated : player < t.derive.playerCount :=
    (State.playerCount_of_tempo (State.tempo_derive t)).symm ▸ seated
  refine of_require.bind fun _ _ => .bind ?ability fun a known =>
    .bind ?_ fun _ _ => of_checkTargets a.effect
  case ability =>
    refine (of_card (derived.trans layout) List.mem_cons_self).bind fun c _ reason failed => ?_
    split at failed <;> cases failed
    exact .illegal _
  -- a built-in ability is one of the card itself, which was just looked up
  obtain ⟨c, found, carried⟩ := State.activatedAbility_eq_ok known
  obtain ⟨source, -⟩ := Builtin.of_activated (view id c found _ (c.activated_mem_abilities.mpr carried))
  have found : ∃ c, t.derive.card? a.source = some c := ⟨c, source ▸ found⟩
  exact .bind (.of_total (found.imp fun _ => State.card_eq_ok.mpr)) fun _ _ =>
    of_require.bind fun _ _ => of_require.bind fun _ _ =>
      .forM fun cost _ => of_costCheck cost seated found

theorem of_declareAttackers {attackers : List CardId} :
    (t.declareAttackers player attackers).FailsOnly
      (Refusal s (.declareAttackers player attackers)) := by
  have view := (State.layout_derive t).trans layout
  refine of_require.bind fun _ _ => of_require.bind fun _ _ => of_require.bind fun _ _ =>
    .bind (.foldlM (fun combat attacker member => ?_) _) fun _ _ => .of_total ⟨_, rfl⟩
  exact of_require.bind fun _ _ => (of_readyCreature view member).bind fun _ _ =>
    of_require.bind fun _ _ => .of_total ⟨_, rfl⟩

theorem of_declareBlockers {blocks : List (CardId × CardId)} :
    (t.declareBlockers player blocks).FailsOnly (Refusal s (.declareBlockers player blocks)) := by
  have view := (State.layout_derive t).trans layout
  refine of_require.bind fun _ _ => ?_
  cases t.combat with
  | none =>
      intro reason failed
      cases failed
      exact .illegal _
  | some combat =>
      refine of_require.bind fun _ _ => .bind (.foldlM (fun combat block member => ?_) _)
        fun _ _ => .of_total ⟨_, rfl⟩
      have named {id : CardId} (either : id = block.1 ∨ id = block.2) :
          id ∈ Operation.cards (.declareBlockers player blocks) :=
        List.mem_flatMap.mpr ⟨block, member, by simpa using either⟩
      exact of_require.bind fun _ _ => (of_readyCreature view (named (.inl rfl))).bind fun _ _ =>
        of_require.bind fun _ _ => (of_card view (named (.inr rfl))).bind fun _ _ =>
          of_require.bind fun _ _ => .of_total ⟨_, rfl⟩

end Layout

end Refusal

namespace Match

open Outcome State Refusal

variable {m mid next : Match} {operation : Operation} {player : Seat} {action : Action}
  {events : List Event} {reason : RuleError} {turn n : Nat}

section Playable

variable (h : m.state.Playable n) (enough : 3 ≤ m.config.maxEventRounds)
include h

theorem refusal_of_endMoment {config : Config} :
    (m.state.strip.endMoment config player).FailsOnly (Refusal m.state operation) :=
  of_require.bind fun _ _ => of_require.bind fun _ _ =>
    .bind (.of_total ((h.orderly_strip.congr (still_advance _).layout).beginMoment_total config
      (regular_advance (s := m.state.strip) h.regular))) fun _ _ => .of_total ⟨_, rfl⟩

theorem pass_total {config : Config} : ∃ after, Transform.pass.run config m.state.strip = .ok after := by
  obtain ⟨after, outcome, passed⟩ := h.legible_strip.pass h.orderly_strip
  exact ⟨after, bind_eq_ok.mpr ⟨(after, outcome), passed, rfl⟩⟩

include enough

/-- A stage fails as its transformation does. -/
theorem refusal_of_perform (transform : Transform)
    (run : (transform.run m.config m.state.strip).FailsOnly (Refusal m.state operation)) :
    (m.state.perform m.config (transform.run m.config)).FailsOnly (Refusal m.state operation) := by
  refine run.bind fun after run => ?_
  obtain ⟨t, events, settled⟩ := h.settles enough run
  exact .of_total ⟨_, settled⟩

theorem refusal_of_act (seated : player < m.state.playerCount) (one : action ≠ .advanceTurn) :
    (m.state.act m.config player action).FailsOnly (Refusal m.state (.act player action)) := by
  have layout := layout_strip m.state
  have orderly := h.orderly_strip
  cases action with
  | playLand card =>
      exact refusal_of_perform h enough (.playLand player card)
        (.of_check (of_checkLand layout seated) fun _ => orderly.playLand_total)
  | castSpell card targets =>
      exact refusal_of_perform h enough (.cast player card targets)
        (.of_check (of_checkCast layout seated) fun _ => orderly.cast_total)
  | activateAbility card ability targets =>
      exact refusal_of_perform h enough (.activate player card ability targets)
        (.of_check (of_checkActivate layout h.equipped_strip seated) fun _ =>
          orderly.activate_total h.equipped_strip seated)
  | passPriority =>
      exact refusal_of_perform h enough .pass (.of_total (pass_total h))
  | advanceStep =>
      exact refusal_of_perform h enough (.endMoment player) (refusal_of_endMoment h)
  | advanceTurn => exact absurd rfl one

omit h enough in
theorem refusal_of_allow : (m.allow player).FailsOnly (Refusal m.state (.act player action)) := by
  refine of_require.bind fun _ _ => .bind (fun reason failed => ?_) fun _ _ => of_require
  obtain ⟨none, rfl⟩ := find_eq_error.mp failed
  exact .unseated rfl (List.getElem?_eq_none_iff.mp none)

theorem refusal_of_stage (one : action ≠ .advanceTurn) :
    (m.call (.act player action)).FailsOnly (Refusal m.state (.act player action)) := by
  intro reason failed
  obtain refused | ⟨allows, failed⟩ := call_act_eq_error.mp failed
  · exact refusal_of_allow reason refused
  · exact refusal_of_act h enough allows.seated one reason failed

theorem checkState_total : ∃ next events, m.call .checkState = .ok (next, events) := by
  obtain ⟨t, events, settled⟩ := h.perform_total enough .stay ⟨_, rfl⟩
  rw [perform_stay] at settled
  simp only [call, checkState, settled, bind, Except.bind]
  split <;> exact ⟨_, _, rfl⟩

theorem passPriority_total (running : m.isOver = false) :
    ∃ next events, m.call (.act m.state.priorityPlayer .passPriority) = .ok (next, events) :=
  (call_iff_run h enough .pass rfl).mpr
    ⟨⟨running, (seated_of_regular h.regular).priority, rfl⟩, pass_total h⟩

theorem advanceStep_total (allows : m.Allows m.state.activePlayer) (empty : m.state.stack = []) :
    ∃ next events, m.call (.act m.state.activePlayer .advanceStep) = .ok (next, events) := by
  have printed : m.state.strip.stack = [] := (stack_congr (layout_strip m.state)).trans empty
  exact (call_iff_run h enough (.endMoment m.state.activePlayer) rfl).mpr
    ⟨allows, h.orderly_strip.endMoment_total m.config h.regular printed⟩

end Playable

/-- A moment can be ended, or it is not for this player to end it, or not now. -/
theorem StepFails.illegal (fails : StepFails player turn m reason) (h : m.state.Playable n)
    (enough : 3 ≤ m.config.maxEventRounds) (seated : player < n) : ∃ cause, reason = .illegal cause := by
  induction fails with
  | here failed =>
      cases refusal_of_stage h enough (by simp) _ failed with
      | illegal cause => exact ⟨cause, rfl⟩
      | absent named => cases named
      | misprint cast => cases cast
      | unseated asks unseated =>
          cases asks
          rw [h.playerCount] at unseated
          exact absurd seated (Nat.not_lt.mpr unseated)
  | later stepped _ _ _ ih =>
      obtain ⟨-, t, -, rfl⟩ := call_act_eq_ok.mp stepped
      exact ih (playable_call h stepped) enough

/-- The active player can end all the moments of a turn if nothing is on the stack. -/
theorem not_stepFails (h : m.state.Playable n) (enough : 3 ≤ m.config.maxEventRounds)
    (allows : m.Allows player) (active : player = m.state.activePlayer) (empty : m.state.stack = [])
    (same : m.state.turn = turn) : ¬ StepFails player turn m reason := by
  intro fails
  induction fails with
  | here failed =>
      subst active
      obtain ⟨next, events, stepped⟩ := advanceStep_total h enough allows empty
      cases stepped.symm.trans failed
  | @later m mid events reason stepped turnSame running _ ih =>
      obtain ⟨allowed, -⟩ := allows.step h.regular stepped (turnSame.trans same.symm) running
      have priority := (step_cases h.regular stepped).2.1
      have still : mid.state.stack = [] := (stack_of_call h.orderly h.derived stepped).trans empty
      obtain ⟨-, t, -, rfl⟩ := call_act_eq_ok.mp stepped
      exact ih (playable_call h stepped) enough allowed (allowed.priority.symm.trans priority) still
        turnSame

theorem refusal_of_call (h : m.state.Playable n) (enough : 3 ≤ m.config.maxEventRounds)
    (operation : Operation) : (m.call operation).FailsOnly (Refusal m.state operation) := by
  have layout := layout_strip m.state
  cases operation with
  | act player action =>
      by_cases one : action = .advanceTurn
      · subst one
        intro reason failed
        obtain refused | ⟨allows, -⟩ := call_act_eq_error.mp failed
        · exact refusal_of_allow reason refused
        · obtain ⟨_, _, _, -, turn⟩ | ⟨reason', fails, turn⟩ := advanceTurn_agrees h.regular player
          · cases failed.symm.trans turn
          · cases failed.symm.trans turn
            obtain ⟨cause, rfl⟩ := fails.illegal h enough (h.playerCount ▸ allows.seated)
            exact .illegal cause
      · exact refusal_of_stage h enough one
  | declareAttackers player attackers =>
      have declared := refusal_of_perform h enough (.declareAttackers player attackers)
        ((of_declareAttackers layout).bind fun _ _ => .of_total ⟨_, rfl⟩)
      exact of_require.bind fun _ _ => declared.bind fun _ _ => .of_total ⟨_, rfl⟩
  | declareBlockers player blocks =>
      have declared := refusal_of_perform h enough (.declareBlockers player blocks)
        ((of_declareBlockers layout).bind fun _ _ => .of_total ⟨_, rfl⟩)
      exact of_require.bind fun _ _ => declared.bind fun _ _ => .of_total ⟨_, rfl⟩
  | checkState =>
      obtain ⟨next, events, settled⟩ := checkState_total h enough
      exact .of_total ⟨_, settled⟩

/-- Nothing stands in the way of play. -/
structure Unobstructed (m : Match) : Prop where
  /-- Priority can always be passed on. -/
  passes : m.isOver = false →
    ∃ next events, m.call (.act m.state.priorityPlayer .passPriority) = .ok (next, events)
  /-- With nothing on the stack, the active player can always get on with the turn. -/
  advances : m.isOver = false → m.state.priorityPlayer = m.state.activePlayer →
    m.state.stack = [] → ∀ action, action = .advanceStep ∨ action = .advanceTurn →
      ∃ next events, m.call (.act m.state.activePlayer action) = .ok (next, events)
  /-- The present state can always be brought to rest. -/
  settles : ∃ next events, m.call .checkState = .ok (next, events)
  refuses : ∀ {operation reason}, m.call operation = .error reason →
    Refusal m.state operation reason
  converges : ∀ operation passes, m.call operation ≠ .error (.nonConvergence passes)
  /-- Every spell on the stack could resolve now. -/
  resolves : ∀ id ∈ m.state.stack, ∃ t, m.state.strip.resolveCard id = .ok t

end Match

end CardGame
