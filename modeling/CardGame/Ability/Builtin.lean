import CardGame.Ability.Registry

/-! # Built-in abilities

The abilities that every game can use: keywords, anthems, base power and toughness, added types,
mana, destruction, and life gained from deaths.
-/

namespace CardGame.Builtin

/-- The fault of a parameter with a value that the key does not know. -/
def unrecognized (key name value : String) : RuleError :=
  .invalidParameter key name (.unrecognized value)

def static (origin : Origin) (affected : Affected) (modification : Modification) : Ability :=
  .static (.ofEffect origin.id ⟨origin.source, affected, modification⟩)

def keyword : AbilityFactory := fun params origin _ => do
  let text ← params.requireText "keyword" "keyword"
  match Keyword.read? text with
  | some k => .ok (static origin .source (.grantKeyword k))
  | none => .error (unrecognized "keyword" "keyword" text)

def anthemScope (params : Params) : Outcome Affected :=
  match params.textD "scope" "yours" with
  | "yours" => .ok (.creaturesYouControl (params.boolD "include_self" false))
  | "all" => .ok .allCreatures
  | other => .error (unrecognized "anthem" "scope" other)

def anthem : AbilityFactory := fun params origin _ => do
  let affected ← anthemScope params
  let power ← params.requireInt "anthem" "power"
  let toughness ← params.requireInt "anthem" "toughness"
  .ok (static origin affected (.modifyPowerToughness power toughness))

def setBase : AbilityFactory := fun params origin _ => do
  let power ← params.requireInt "set_base_pt" "power"
  let toughness ← params.requireInt "set_base_pt" "toughness"
  .ok (static origin .source (.setPowerToughness power toughness))

def addType : AbilityFactory := fun params origin _ => do
  let text ← params.requireText "add_type" "type"
  match CardType.read? text with
  | some type => .ok (static origin .source (.addType type))
  | none => .error (unrecognized "add_type" "type" text)

def tapForMana : AbilityFactory := fun params origin _ => do
  let effect ← Effect.ofParams "add_mana" params
  .ok (.activated ⟨origin.id, origin.source, [.tap], effect⟩)

/-- Costs of mana and life that ask for something, then tapping. -/
def destroyCosts (mana : Mana.Cost) (life : Int) : List ActivationCost :=
  (if mana.isFree then [] else [.mana mana]) ++ (if life > 0 then [.payLife life] else []) ++ [.tap]

def tapToDestroy : AbilityFactory := fun params origin _ => do
  let text := params.textD "cost" ""
  match Mana.Cost.read text with
  | .error fault => .error (.invalidParameter "mana_cost" text (.cost fault))
  | .ok mana =>
    let life := params.intD "life" 0
    if life < 0 then .error (unrecognized "activated_destroy" "life" (toString life))
    else .ok (.activated ⟨origin.id, origin.source, destroyCosts mana life, .destroy .chosen⟩)

def ownDeath : TriggerCondition := (TriggerCondition.on .creatureDied).also .subjectIsSource

/-- Another creature has died while the card is on a battlefield. -/
def otherDeath : TriggerCondition :=
  ((TriggerCondition.on .creatureDied).also .subjectIsNotSource).also .sourceOnBattlefield

def gainLifeOnDeath : AbilityFactory := fun params origin _ => do
  let amount ← params.requireInt "dies_gain_life" "amount"
  .ok (.triggered ⟨origin.id, origin.source, ownDeath, .gainLife amount⟩)

def watched (params : Params) : Outcome TriggerCondition :=
  match params.textD "whose" "any" with
  | "any" => .ok otherDeath
  | "yours" => .ok (otherDeath.also .subjectControlledBySourceController)
  | "opponents" => .ok (otherDeath.also (.not .subjectControlledBySourceController))
  | other => .error (unrecognized "creature_dies_gain_life" "whose" other)

def gainLifeOnOtherDeath : AbilityFactory := fun params origin _ => do
  let condition ← watched params
  let amount ← params.requireInt "creature_dies_gain_life" "amount"
  .ok (.triggered ⟨origin.id, origin.source, condition, .gainLife amount⟩)

def factories : List (String × AbilityFactory) :=
  [("keyword", keyword),
    ("anthem", anthem),
    ("set_base_pt", setBase),
    ("add_type", addType),
    ("tap_add_mana", tapForMana),
    ("activated_destroy", tapToDestroy),
    ("dies_gain_life", gainLifeOnDeath),
    ("creature_dies_gain_life", gainLifeOnOtherDeath)]

end CardGame.Builtin

def CardGame.Registry.builtin : Registry := ⟨Table.ofList Builtin.factories⟩
