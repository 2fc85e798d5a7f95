import CardGame.Match.Run
import CardGame.Match.Setup
import CardGame.Proofs.Course
import CardGame.Proofs.Deaths
import CardGame.Proofs.Derivation
import CardGame.Proofs.Layout
import CardGame.Proofs.Moving
import CardGame.Proofs.Orderly
import CardGame.Proofs.Outcome
import CardGame.Proofs.Rederiving
import CardGame.Proofs.Rest
import CardGame.Proofs.Run
import CardGame.Proofs.Settling
import CardGame.Proofs.Setup
import CardGame.Proofs.Stages
import CardGame.Proofs.Table
import CardGame.Proofs.Transforms
import CardGame.Proofs.Waning
import CardGame.Proofs.WellFormed
import CardGame.Proofs.BuiltinStatics
import CardGame.Proofs.Reach
import CardGame.Proofs.ClosedForm
import CardGame.Proofs.Destroying
import CardGame.Proofs.Rounds
import CardGame.Proofs.Calendar
import CardGame.Proofs.Turns
import CardGame.Proofs.StackOrder
import CardGame.Proofs.Equipment
import CardGame.Proofs.Convergence
import CardGame.Proofs.Totality
import CardGame.Proofs.Refusals
import CardGame.Proofs.Previews
import CardGame.Proofs.Undoing
import CardGame.Proofs.Snapshots
import CardGame.Proofs.Ripples
import CardGame.Proofs.Changes
import CardGame.Proofs.Permanents
import CardGame.Proofs.Arrivals
import CardGame.Proofs.CombatOrder
import CardGame.Proofs.Marks
import CardGame.Proofs.OneWay
import CardGame.Proofs.Keeping
import CardGame.Proofs.LandDrops
import CardGame.Proofs.TurnOrder
import CardGame.Proofs.Dealing
import CardGame.Proofs.Opening
import CardGame.Proofs.Damage
import CardGame.Proofs.Independence
import CardGame.Proofs.Creation
import CardGame.Proofs.DamagePlan
import CardGame.Proofs.Declaring
import CardGame.Proofs.SideBySide
import CardGame.Proofs.Frames
import CardGame.Proofs.Dispatching
import CardGame.Proofs.FirstStrikes
import CardGame.Proofs.Payment
import CardGame.Proofs.Removing
import CardGame.Proofs.Spelling
import CardGame.Proofs.Reading
import CardGame.Proofs.Writing
import CardGame.Proofs.Oversize
import CardGame.Proofs.SecondStrikes
import CardGame.Proofs.Words
