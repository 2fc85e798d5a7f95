/-! # Moments of a turn

A turn runs through twelve moments in a fixed order. A moment is a phase and, outside the main
phases, a step of it.
-/

namespace CardGame

inductive Phase where
  | beginning
  | preCombatMain
  | combat
  | postCombatMain
  | ending
  deriving DecidableEq, Repr

namespace Phase

def name : Phase → String
  | beginning => "Beginning"
  | preCombatMain => "PreCombatMain"
  | combat => "Combat"
  | postCombatMain => "PostCombatMain"
  | ending => "Ending"

def isMain : Phase → Bool
  | preCombatMain | postCombatMain => true
  | _ => false

end Phase

inductive Step where
  | untap
  | upkeep
  | draw
  | beginCombat
  | declareAttackers
  | declareBlockers
  | combatDamage
  | endCombat
  | endStep
  | cleanup
  deriving DecidableEq, Repr

def Step.name : Step → String
  | untap => "Untap"
  | upkeep => "Upkeep"
  | draw => "Draw"
  | beginCombat => "BeginCombat"
  | declareAttackers => "DeclareAttackers"
  | declareBlockers => "DeclareBlockers"
  | combatDamage => "CombatDamage"
  | endCombat => "EndCombat"
  | endStep => "EndStep"
  | cleanup => "Cleanup"

/-- Where a turn stands: a phase, and its step if it has steps. -/
structure Moment where
  phase : Phase
  step : Option Step
  deriving DecidableEq, Repr

namespace Moment

/-- Phase and step with a slash between them; a missing step is named too. -/
def label (m : Moment) : String :=
  match m.step with
  | none => s!"{m.phase.name}/None"
  | some step => s!"{m.phase.name}/Some({step.name})"

def first : Moment := ⟨.beginning, some .untap⟩

/-- The moments of a turn, in order. -/
def sequence : List Moment :=
  [first,
    ⟨.beginning, some .upkeep⟩,
    ⟨.beginning, some .draw⟩,
    ⟨.preCombatMain, none⟩,
    ⟨.combat, some .beginCombat⟩,
    ⟨.combat, some .declareAttackers⟩,
    ⟨.combat, some .declareBlockers⟩,
    ⟨.combat, some .combatDamage⟩,
    ⟨.combat, some .endCombat⟩,
    ⟨.postCombatMain, none⟩,
    ⟨.ending, some .endStep⟩,
    ⟨.ending, some .cleanup⟩]

/-- Place of a moment in the turn; a phase paired with a step of another has none. -/
def position? (m : Moment) : Option Nat := sequence.findIdx? (· = m)

def next? (m : Moment) : Option Moment := m.position?.bind fun i => sequence[i + 1]?

end Moment

end CardGame
