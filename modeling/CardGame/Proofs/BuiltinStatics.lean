import CardGame.Ability.Builtin
import CardGame.Proofs.Outcome
import CardGame.Proofs.Table

/-! # Built-in static abilities

A built-in static ability is an anthem, which raises the power and toughness of creatures, or it
changes the card that carries it.
-/

namespace CardGame

namespace StaticAbility

/-- The type that the ability adds. -/
def addedType? (ability : StaticAbility) : Option CardType :=
  match ability.effect.modification with
  | .addType type => some type
  | _ => none

/-- The keyword that the ability grants. -/
def grantedKeyword? (ability : StaticAbility) : Option Keyword :=
  match ability.effect.modification with
  | .grantKeyword keyword => some keyword
  | _ => none

/-- The base power and toughness that the ability sets. -/
def base? (ability : StaticAbility) : Option (Int × Int) :=
  match ability.effect.modification with
  | .setPowerToughness power toughness => some (power, toughness)
  | _ => none

/-- What the ability adds to power and toughness. -/
def raise? (ability : StaticAbility) : Option (Int × Int) :=
  match ability.effect.modification with
  | .modifyPowerToughness power toughness => some (power, toughness)
  | _ => none

def isAnthem (ability : StaticAbility) : Bool := ability.raise?.isSome

/-- Some built-in key builds the ability, and it names the card that carries it. -/
def IsBuiltin (ability : StaticAbility) (carrier : CardId) : Prop :=
  ability.source = carrier ∧
    ∃ d origin s, Registry.builtin.build d origin s = .ok (.static ability)

end StaticAbility

namespace Builtin

variable {d : Descriptor} {origin : Origin} {s : State} {ability : StaticAbility}

theorem mem_factories_of_build {a : Ability} (built : Registry.builtin.build d origin s = .ok a) :
    ∃ factory, (d.key, factory) ∈ factories ∧ factory d.params origin s = .ok a := by
  unfold Registry.build at built
  split at built
  · rename_i factory found
    exact ⟨factory, Table.mem_of_get?_ofList found, built⟩
  · cases built

theorem affected_ne_source_of_anthemScope {params : Params} {affected : Affected}
    (h : anthemScope params = .ok affected) : affected ≠ .source := by
  unfold anthemScope at h
  split at h <;> cases h <;> nofun

/-- The effect has the same source as its ability. Anthems reach creatures, and every other static
    ability its own card. -/
theorem effect_of_build (built : Registry.builtin.build d origin s = .ok (.static ability)) :
    ability.effect.source = ability.source ∧
      (ability.effect.affected = .source ↔ ability.isAnthem = false) := by
  obtain ⟨factory, listed, built⟩ := mem_factories_of_build built
  simp only [factories, List.mem_cons, Prod.mk.injEq, List.not_mem_nil, or_false] at listed
  rcases listed with ⟨-, rfl⟩ | ⟨-, rfl⟩ | ⟨-, rfl⟩ | ⟨-, rfl⟩ | ⟨-, rfl⟩ | ⟨-, rfl⟩ | ⟨-, rfl⟩ |
    ⟨-, rfl⟩
  · obtain ⟨text, -, built⟩ := Outcome.bind_eq_ok.mp built
    split at built <;> cases built
    exact ⟨rfl, fun _ => rfl, fun _ => rfl⟩
  · simp only [anthem, Outcome.bind_eq_ok] at built
    obtain ⟨affected, scope, power, -, toughness, -, built⟩ := built
    cases built
    exact ⟨rfl, fun own => absurd own (affected_ne_source_of_anthemScope scope), nofun⟩
  · simp only [setBase, Outcome.bind_eq_ok] at built
    obtain ⟨power, -, toughness, -, built⟩ := built
    cases built
    exact ⟨rfl, fun _ => rfl, fun _ => rfl⟩
  · obtain ⟨text, -, built⟩ := Outcome.bind_eq_ok.mp built
    split at built <;> cases built
    exact ⟨rfl, fun _ => rfl, fun _ => rfl⟩
  -- the other keys build no static ability
  · obtain ⟨effect, -, built⟩ := Outcome.bind_eq_ok.mp built
    cases built
  · unfold tapToDestroy at built
    dsimp only at built
    split at built
    · cases built
    · split at built <;> cases built
  · obtain ⟨amount, -, built⟩ := Outcome.bind_eq_ok.mp built
    cases built
  · simp only [gainLifeOnOtherDeath, Outcome.bind_eq_ok] at built
    obtain ⟨condition, -, amount, -, built⟩ := built
    cases built

theorem read?_creature : CardType.read? "creature" = some .creature := by
  -- one text of each equation is given as it is: to compare two lowered texts takes far longer
  obtain ⟨lower, named, other⟩ : "creature".toLower = "creature" ∧
      "Creature".toLower = "creature" ∧ "creature" ≠ "Land".toLower := by decide +kernel
  simp [CardType.read?, CardType.all, CardType.name, lower, named, other]

theorem build_addType (params : Params) (origin : Origin) (s : State) :
    Registry.builtin.build ⟨"add_type", params⟩ origin s = addType params origin s := by
  have found : Registry.builtin.factories.get? "add_type" = some addType := rfl
  rw [Registry.build, found]

theorem addType_eq_ok {params : Params} {origin : Origin} {s : State} {text : String}
    {type : CardType} (found : params.requireText "add_type" "type" = .ok text)
    (read : CardType.read? text = some type) :
    addType params origin s = .ok (static origin .source (.addType type)) := by
  refine Outcome.bind_eq_ok.mpr ⟨text, found, ?_⟩
  rw [read]

end Builtin

end CardGame
