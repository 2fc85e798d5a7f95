import CardGame.Proofs.BuiltinStatics
import CardGame.Proofs.Run

/-! # What cards come with

A card gets its abilities when it is created, each built for it by the registry, and keeps them
wherever it goes.
-/

namespace CardGame

/-- The ability names the card as its source, and the effect of a static one does so too. -/
def Ability.IsAbout (card : CardId) : Ability → Prop
  | static a => a.source = card ∧ a.effect.source = card
  | triggered a => a.source = card
  | activated a => a.source = card

def Placement.abilities (p : Placement) : List Ability :=
  p.statics.map .static ++ p.triggered.map .triggered ++ p.activated.map .activated

def Card.abilities (c : Card) : List Ability := c.placement.abilities

namespace Card

variable (c : Card)

theorem static_mem_abilities {a : StaticAbility} : .static a ∈ c.abilities ↔ a ∈ c.statics := by
  simp [abilities, Placement.abilities, placement]

theorem triggered_mem_abilities {a : TriggeredAbility} :
    .triggered a ∈ c.abilities ↔ a ∈ c.triggered := by
  simp [abilities, Placement.abilities, placement]

theorem activated_mem_abilities {a : ActivatedAbility} :
    .activated a ∈ c.abilities ↔ a ∈ c.activated := by
  simp [abilities, Placement.abilities, placement]

theorem abilities_movedTo (source target : ZoneKind) (zone : ZoneId) :
    (c.movedTo source target zone).abilities = c.abilities :=
  (congrArg Placement.abilities (c.placement_movedTo source target zone)).trans rfl

/-- A new card has the abilities that were built for it, sorted by their form. -/
theorem abilities_create_perm (id : CardId) (d : Definition) (owner : Seat) (zone : ZoneId)
    (built : List Ability) : (Card.create id d owner zone built).abilities.Perm built := by
  induction built with
  | nil => rfl
  | cons ability others ih =>
      refine .trans ?_ (ih.cons ability)
      simp only [abilities, Placement.abilities, placement, create, List.filterMap_cons]
      cases ability with
      | static a => rfl
      | triggered a =>
          simp only [Ability.static?, Ability.triggered?, Ability.activated?, List.map_cons,
            List.append_assoc, List.cons_append]
          exact List.perm_middle
      | activated a =>
          simp only [Ability.static?, Ability.triggered?, Ability.activated?, List.map_cons]
          exact List.perm_middle

theorem abilities_create {id : CardId} {d : Definition} {owner : Seat} {zone : ZoneId}
    {built : List Ability} {a : Ability}
    (carried : a ∈ (Card.create id d owner zone built).abilities) : a ∈ built :=
  (abilities_create_perm id d owner zone built).mem_iff.mp carried

end Card

namespace State

variable {s t : State}

/-- The abilities of every card. -/
def kit (s : State) (id : CardId) : Option (List Ability) := (s.card? id).map Card.abilities

theorem kit_congr (layout : t.layout = s.layout) : t.kit = s.kit := by
  funext id
  have place := congrArg (Option.map Placement.abilities) (placement_congr layout id)
  rwa [Option.map_map, Option.map_map] at place

theorem kit_relocate {id : CardId} {c c' : Card} (source : ZoneId) (found : s.card? id = some c)
    (same : c'.abilities = c.abilities) : (s.relocate id source c').kit = s.kit := by
  funext other
  rw [kit, kit, card?_relocate]
  split
  · rename_i here
    simp [here, found, same]
  · rfl

theorem kit_bury {id : CardId} (h : s.bury id = .ok t) : t.kit = s.kit := by
  obtain ⟨c, p, source, kind, found, -, -, -, rfl⟩ := bury_eq_ok.mp h
  exact kit_relocate c.zone found (c.abilities_movedTo ..)

theorem kit_enter {id : CardId} {seat : Seat} (h : s.enter id seat = .ok t) : t.kit = s.kit := by
  obtain ⟨c, p, source, kind, found, -, -, -, rfl⟩ := enter_eq_ok h
  exact kit_relocate c.zone found (c.abilities_movedTo source kind p.zones.battlefield)

theorem Happens.kit {happening : Happening} (happens : s.Happens happening t) : t.kit = s.kit := by
  cases happens with
  | draw drawn =>
      obtain ⟨p, -, -, moved⟩ := draw_eq_some drawn
      obtain ⟨c, source, kind, found, -, -, rfl⟩ := move_eq_ok.mp moved
      exact kit_relocate c.zone found (c.abilities_movedTo ..)
  | play _ _ _ _ entered => exact kit_enter entered
  | cast _ _ _ _ pushed =>
      obtain ⟨c, source, kind, found, -, -, rfl⟩ := putOnStack_eq_ok pushed
      exact kit_relocate c.zone found (c.abilities_movedTo source kind s.stackZone)
  | resolve _ _ _ entered => exact kit_enter entered
  | spend _ _ _ buried => exact kit_bury buried
  | die _ _ buried => exact kit_bury buried

theorem Course.kit {trace : List Happening} (course : Course s trace t) : t.kit = s.kit := by
  induction course with
  | done => rfl
  | still same _ ih => exact ih.trans (kit_congr same)
  | next happens _ ih => exact ih.trans happens.kit

/-- Every ability of a card was built for it by the registry. -/
def Equipped (registry : Registry) (s : State) : Prop :=
  ∀ id c, s.card? id = some c → ∀ a ∈ c.abilities, registry.Builds id a

theorem Equipped.of_kit {registry : Registry} (h : s.Equipped registry) (same : t.kit = s.kit) :
    t.Equipped registry := by
  intro id c found
  have kit := congrFun same id
  rw [State.kit, State.kit, found, Option.map_some, eq_comm, Option.map_eq_some_iff] at kit
  obtain ⟨d, known, abilities⟩ := kit
  rw [← abilities]
  exact h id d known

end State

namespace Match

variable {config : Config} {generator : Generator} {catalog : Catalog} {registry : Registry}
  {decks : List (List DefinitionId)} {m : Match}

theorem lasting_equipped (registry : Registry) : Lasting (State.Equipped registry) := by
  intro config s t events transform orderly derived h stage
  obtain ⟨trace, course, -⟩ := State.course_of_perform orderly derived stage
  exact h.of_kit course.kit

theorem equipped_start (started : start config catalog registry decks generator = .ok m) :
    m.state.Equipped registry := by
  refine (start_induction started (P := State.Equipped registry) (fun _ _ found => nomatch found)
    (fun {s t d seat p id} dealt hp created h => ?_) (fun {s t seat n} orderly drawn h => ?_)
    fun {s} _ h => h.of_kit (State.kit_congr (State.layout_derive s))).2
  · obtain ⟨abilities, n, rfl, built⟩ := State.create_eq_ok created
    intro id c found
    obtain ⟨rfl, rfl⟩ | ⟨-, found⟩ := (State.card?_withCard_eq_some _ n).mp found
    · exact fun a carried => built a (Card.abilities_create carried)
    · exact h id c found
  · have wanes : State.Wanes s s t := State.wanes_drawMany drawn
    obtain ⟨trace, course, -⟩ := wanes.course orderly
    exact h.of_kit course.kit

/-- Along every run from a deal, cards have no abilities but those that were built for them. -/
theorem equipped_run (started : start config catalog registry decks generator = .ok m)
    (commands : List Command) : (m.run commands).state.Equipped registry :=
  Lasting.run (lasting_equipped registry) started (equipped_start started) commands

end Match

namespace Builtin

variable {card : CardId} {ability : Ability}

theorem ofParams_addMana {params : Params} {effect : Effect}
    (read : Effect.ofParams "add_mana" params = .ok effect) :
    ∃ color amount, effect = .addMana color amount := by
  simp only [Effect.ofParams, Outcome.bind_eq_ok] at read
  obtain ⟨color, -, amount, -, read⟩ := read
  cases read
  exact ⟨color, amount, rfl⟩

/-- A built-in ability has the number and the card that it is built for. If it is not static, it makes
    mana or destroys creatures when activated, or gains life when triggered. -/
theorem build_cases {d : Descriptor} {origin : Origin} {s : State}
    (built : Registry.builtin.build d origin s = .ok ability) :
    (∃ affected modification, ability = static origin affected modification) ∨
      (∃ color amount,
        ability = .activated ⟨origin.id, origin.source, [.tap], .addMana color amount⟩) ∨
      (∃ mana life, ability =
        .activated ⟨origin.id, origin.source, destroyCosts mana life, .destroy .chosen⟩) ∨
      ∃ condition amount,
        ability = .triggered ⟨origin.id, origin.source, condition, .gainLife amount⟩ := by
  obtain ⟨factory, listed, built⟩ := mem_factories_of_build built
  simp only [factories, List.mem_cons, Prod.mk.injEq, List.not_mem_nil, or_false] at listed
  rcases listed with ⟨-, rfl⟩ | ⟨-, rfl⟩ | ⟨-, rfl⟩ | ⟨-, rfl⟩ | ⟨-, rfl⟩ | ⟨-, rfl⟩ | ⟨-, rfl⟩ |
    ⟨-, rfl⟩
  · obtain ⟨text, -, built⟩ := Outcome.bind_eq_ok.mp built
    split at built <;> cases built
    exact .inl ⟨_, _, rfl⟩
  · simp only [anthem, Outcome.bind_eq_ok] at built
    obtain ⟨affected, -, power, -, toughness, -, built⟩ := built
    cases built
    exact .inl ⟨_, _, rfl⟩
  · simp only [setBase, Outcome.bind_eq_ok] at built
    obtain ⟨power, -, toughness, -, built⟩ := built
    cases built
    exact .inl ⟨_, _, rfl⟩
  · obtain ⟨text, -, built⟩ := Outcome.bind_eq_ok.mp built
    split at built <;> cases built
    exact .inl ⟨_, _, rfl⟩
  · obtain ⟨effect, read, built⟩ := Outcome.bind_eq_ok.mp built
    cases built
    obtain ⟨color, amount, rfl⟩ := ofParams_addMana read
    exact .inr (.inl ⟨color, amount, rfl⟩)
  · unfold tapToDestroy at built
    dsimp only at built
    split at built
    · cases built
    · split at built <;> cases built
      exact .inr (.inr (.inl ⟨_, _, rfl⟩))
  · obtain ⟨amount, -, built⟩ := Outcome.bind_eq_ok.mp built
    cases built
    exact .inr (.inr (.inr ⟨_, amount, rfl⟩))
  · simp only [gainLifeOnOtherDeath, Outcome.bind_eq_ok] at built
    obtain ⟨condition, -, amount, -, built⟩ := built
    cases built
    exact .inr (.inr (.inr ⟨condition, amount, rfl⟩))

theorem ability_cases (built : Registry.builtin.Builds card ability) :
    ∃ id, (∃ affected modification, ability = static ⟨id, card⟩ affected modification) ∨
      (∃ color amount, ability = .activated ⟨id, card, [.tap], .addMana color amount⟩) ∨
      (∃ mana life, ability = .activated ⟨id, card, destroyCosts mana life, .destroy .chosen⟩) ∨
      ∃ condition amount, ability = .triggered ⟨id, card, condition, .gainLife amount⟩ := by
  obtain ⟨d, n, s, built⟩ := built
  exact ⟨n, build_cases built⟩

/-- A built-in ability has the number that it is given, and is about the card that it is on. -/
theorem origin_of_build {d : Descriptor} {origin : Origin} {s : State}
    (built : Registry.builtin.build d origin s = .ok ability) :
    ability.id = origin.id ∧ ability.IsAbout origin.source := by
  rcases build_cases built with ⟨_, _, rfl⟩ | ⟨_, _, rfl⟩ | ⟨_, _, rfl⟩ | ⟨_, _, rfl⟩
  · exact ⟨rfl, rfl, rfl⟩
  · exact ⟨rfl, rfl⟩
  · exact ⟨rfl, rfl⟩
  · exact ⟨rfl, rfl⟩

theorem of_triggered {a : TriggeredAbility} (built : Registry.builtin.Builds card (.triggered a)) :
    a.source = card ∧ ∃ amount, a.effect = .gainLife amount := by
  obtain ⟨id, ⟨_, _, same⟩ | ⟨_, _, same⟩ | ⟨_, _, same⟩ | ⟨condition, amount, same⟩⟩ :=
    ability_cases built <;> cases same
  exact ⟨rfl, amount, rfl⟩

theorem of_activated {a : ActivatedAbility} (built : Registry.builtin.Builds card (.activated a)) :
    a.source = card ∧ ((a.costs = [.tap] ∧ ∃ color amount, a.effect = .addMana color amount) ∨
      (∃ mana life, a.costs = destroyCosts mana life) ∧ a.effect = .destroy .chosen) := by
  obtain ⟨id, ⟨_, _, same⟩ | ⟨color, amount, same⟩ | ⟨mana, life, same⟩ | ⟨_, _, same⟩⟩ :=
    ability_cases built <;> cases same
  · exact ⟨rfl, .inl ⟨rfl, color, amount, rfl⟩⟩
  · exact ⟨rfl, .inr ⟨⟨mana, life, rfl⟩, rfl⟩⟩

end Builtin

end CardGame
