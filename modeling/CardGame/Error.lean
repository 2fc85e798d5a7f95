import CardGame.Id
import CardGame.Moment
import CardGame.Mana.Notation

/-! # Why an operation fails

Failures are named by cause. An illegal action is an ordinary refusal: the player may try something
else. All other failures point at data that does not fit together.
-/

namespace CardGame

/-- Why an action is refused. -/
inductive IllegalAction where
  | notPriorityHolder (player : Seat)
  | notActivePlayer (player : Seat)
  | notDefendingPlayer (player : Seat)
  | wrongTiming (moment : Moment)
  | stackNotEmpty
  | landAlreadyPlayed
  | notInHand (card : CardId)
  | notALand (card : CardId)
  | cannotCastLand (card : CardId)
  | notACreature (card : CardId)
  | notOnBattlefield (card : CardId)
  | notController (card : CardId) (player : Seat)
  | summoningSick (card : CardId)
  | tapped (card : CardId)
  | notAttacking (card : CardId)
  | cannotBlock (blocker attacker : CardId)
  | duplicateDeclaration (card : CardId)
  | cannotPayCost
  | invalidTarget (card : CardId)
  | missingTarget
  | unknownAbility (card : CardId) (ability : AbilityId)
  | gameOver
  deriving DecidableEq, Repr

def IllegalAction.message : IllegalAction → String
  | notPriorityHolder player => s!"{player.label} does not hold priority"
  | notActivePlayer player => s!"{player.label} is not the active player"
  | notDefendingPlayer player => s!"{player.label} is not the defending player"
  | wrongTiming moment => s!"not allowed during {moment.label}"
  | stackNotEmpty => "the stack is not empty"
  | landAlreadyPlayed => "a land was already played this turn"
  | notInHand card => s!"{card.label} is not in its controller's hand"
  | notALand card => s!"{card.label} is not a land"
  | cannotCastLand card => s!"{card.label} is a land and cannot be cast"
  | notACreature card => s!"{card.label} is not a creature"
  | notOnBattlefield card => s!"{card.label} is not on the battlefield"
  | notController card player => s!"{card.label} is not controlled by {player.label}"
  | summoningSick card => s!"{card.label} has summoning sickness"
  | tapped card => s!"{card.label} is tapped"
  | notAttacking card => s!"{card.label} is not attacking"
  | cannotBlock blocker attacker => s!"{blocker.label} cannot block {attacker.label}"
  | duplicateDeclaration card => s!"{card.label} was declared more than once"
  | cannotPayCost => "cost cannot be paid"
  | invalidTarget card => s!"invalid target {card.label}"
  | missingTarget => "a target is required"
  | unknownAbility card ability => s!"{card.label} has no activated ability {ability.label}"
  | gameOver => "the game is over"

/-- A number that names nothing. -/
inductive Reference where
  | card (id : CardId)
  | player (seat : Seat)
  | zone (id : ZoneId)
  | definition (id : DefinitionId)
  deriving DecidableEq, Repr

def Reference.label : Reference → String
  | card id => id.label
  | player seat => seat.label
  | zone id => id.label
  | definition id => id.label

inductive ParameterFault where
  /-- Absent, or of another type. -/
  | missing
  | unrecognized (value : String)
  | unknownColor (text : String)
  | notACount (value : Int)
  | cost (fault : Mana.CostFault)
  | seatCount (seats : Nat)
  | deckCount (decks seats : Nat)
  /-- A reason in the words of whoever supplies the parameters. -/
  | other (reason : String)
  deriving DecidableEq, Repr

def ParameterFault.reason : ParameterFault → String
  | missing => "missing or wrong type"
  | unrecognized value => s!"unrecognized value `{value}`"
  | unknownColor text => s!"unknown color `{text}`"
  | notACount value => s!"expected a non-negative count, got {value}"
  | cost fault => fault.reason
  | seatCount seats => s!"{seats} seats, expected 2 to 8"
  | deckCount decks seats => s!"{decks} decks for {seats} players"
  | other reason => reason

/-- Why an operation of the rules fails. -/
inductive RuleError where
  | illegal (reason : IllegalAction)
  | malformed (reference : Reference)
  | unknownAbilityKey (key : String)
  | unknownEffectKey (key : String)
  | invalidParameter (key name : String) (fault : ParameterFault)
  /-- Something that has to come to rest did not within its bound. -/
  | nonConvergence (passes : Nat)
  deriving DecidableEq, Repr

namespace RuleError

def message : RuleError → String
  | illegal reason => s!"illegal action: {reason.message}"
  | malformed reference => s!"malformed reference: {reference.label}"
  | unknownAbilityKey key => s!"unknown ability key `{key}`"
  | unknownEffectKey key => s!"unknown effect key `{key}`"
  | invalidParameter key name fault => s!"invalid parameter `{name}` for `{key}`: {fault.reason}"
  | nonConvergence passes => s!"rules loop did not converge after {passes} passes"

/-- Is this an ordinary refusal? -/
def isRecoverable : RuleError → Bool
  | illegal _ => true
  | _ => false

end RuleError

/-- Results of operations of the rules. -/
abbrev Outcome (α : Type) := Except RuleError α

namespace Outcome

/-- Refuse unless the condition holds. -/
def require (condition : Bool) (reason : IllegalAction) : Outcome Unit :=
  if condition then .ok () else .error (.illegal reason)

/-- The value, or a reference that names nothing. -/
def find {α : Type} (value : Option α) (reference : Reference) : Outcome α :=
  match value with
  | some a => .ok a
  | none => .error (.malformed reference)

end Outcome

/-- Why a table, configuration or catalog cannot be set up as asked. -/
inductive SetupError where
  | noPlayers
  /-- The zones of so many players have no numbers. -/
  | tooManyForZones
  | fewerThanTwo
  | moreThanEight
  | definitionTaken (id : DefinitionId)
  deriving DecidableEq, Repr

def SetupError.message : SetupError → String
  | noPlayers => "Must have at least 1 player"
  | tooManyForZones => "Too many players for the zone id space"
  | fewerThanTwo => "Must have at least 2 players"
  | moreThanEight => "At most 8 players supported"
  | definitionTaken id => s!"Card with ID CardId({id}) already registered"

end CardGame
