import CardGame.Proofs.Equipment

/-! # Creating cards in place

The abilities of a card are built one by one, each with a number that is taken out of the state, and
any of them may fail. Done in place this uses up numbers, which a creation that fails has to give
back. Whatever is attempted, the cards of a state then come in the order of their numbers, and no two
abilities share one.
-/

namespace CardGame

namespace Registry

/-- Build abilities in place: a number that has been taken stays taken when its ability fails. -/
def buildInPlace (registry : Registry) (source : CardId) :
    State → List Descriptor → State × Outcome (List Ability)
  | s, [] => (s, .ok [])
  | s, d :: rest =>
    let (s, id) := s.takeAbilityId
    match registry.build d ⟨id, source⟩ s with
    | .error reason => (s, .error reason)
    | .ok ability =>
      let (s, others) := registry.buildInPlace source s rest
      (s, others.map (ability :: ·))

/-- An ability has the number it is built with, and the card it is built for. -/
def Faithful (registry : Registry) : Prop :=
  ∀ d origin s ability, registry.build d origin s = .ok ability →
    ability.id = origin.id ∧ ability.IsAbout origin.source

theorem faithful_builtin : Registry.builtin.Faithful :=
  fun _ _ _ _ built => Builtin.origin_of_build built

variable {registry : Registry} {source : CardId} {s t : State} {descriptors : List Descriptor}

theorem buildInPlace_of_ok {abilities : List Ability}
    (built : registry.buildAll source s descriptors = .ok (t, abilities)) :
    registry.buildInPlace source s descriptors = (t, .ok abilities) := by
  induction descriptors generalizing s abilities with
  | nil =>
      cases built
      rfl
  | cons d rest ih =>
      simp only [buildAll, Outcome.bind_eq_ok] at built
      obtain ⟨ability, first, ⟨next, others⟩, later, built⟩ := built
      cases built
      simp only [buildInPlace, first, ih later]
      rfl

/-- A failure uses up the numbers of the abilities before it and its own, and nothing else. -/
theorem buildInPlace_of_error {reason : RuleError}
    (failed : registry.buildAll source s descriptors = .error reason) :
    ∃ n, registry.buildInPlace source s descriptors =
      ({ s with nextAbility := n }, .error reason) := by
  induction descriptors generalizing s with
  | nil => cases failed
  | cons d rest ih =>
      simp only [buildAll, Outcome.bind_eq_error] at failed
      rcases failed with now | ⟨ability, first, failed⟩
      · refine ⟨s.nextAbility + 1, ?_⟩
        simp only [buildInPlace, now]
        rfl
      · rcases failed with later | ⟨built, -, failed⟩
        · obtain ⟨n, later⟩ := ih later
          refine ⟨n, ?_⟩
          simp only [buildInPlace, first, later]
          rfl
        · cases failed

end Registry

/-- What card to create, for whom, and where. -/
structure Request where
  definition : Definition
  owner : Seat
  zone : ZoneId

namespace State

/-- Create a card in place. When an ability cannot be built, the numbers that were taken are given
    back. -/
def attempt (registry : Registry) (s : State) (r : Request) : State × Outcome CardId :=
  match s.player r.owner, s.zone r.zone with
  | .error reason, _ => (s, .error reason)
  | .ok _, .error reason => (s, .error reason)
  | .ok _, .ok _ =>
    match registry.buildInPlace s.nextCard s r.definition.abilities with
    | (t, .error reason) => ({ t with nextAbility := s.nextAbility }, .error reason)
    | (t, .ok abilities) =>
      (t.withCard (Card.create s.nextCard r.definition r.owner r.zone abilities) t.nextAbility,
        .ok s.nextCard)

/-- Attempt one creation after the other, whether those before have failed or not. -/
def fulfill (registry : Registry) (s : State) (requests : List Request) : State :=
  requests.foldl (fun s r => (s.attempt registry r).1) s

variable {registry : Registry} {r : Request} {s t : State} {id : CardId}

theorem attempt_of_ok (created : s.create registry r.definition r.owner r.zone = .ok (t, id)) :
    s.attempt registry r = (t, .ok id) := by
  simp only [create, Outcome.bind_eq_ok] at created
  obtain ⟨p, seated, z, known, ⟨next, abilities⟩, built, created⟩ := created
  have same := (buildAll_eq_ok built).1
  cases created
  simp only [attempt, seated, known, Registry.buildInPlace_of_ok built]
  subst same
  rfl

/-- A creation that fails leaves the state as it was. -/
theorem attempt_of_error {reason : RuleError}
    (failed : s.create registry r.definition r.owner r.zone = .error reason) :
    s.attempt registry r = (s, .error reason) := by
  simp only [create, Outcome.bind_eq_error] at failed
  rcases failed with nobody | ⟨p, seated, failed⟩
  · simp [attempt, nobody]
  rcases failed with nowhere | ⟨z, known, failed⟩
  · simp [attempt, seated, nowhere]
  rcases failed with broken | ⟨built, -, failed⟩
  · obtain ⟨n, broken⟩ := Registry.buildInPlace_of_error broken
    simp [attempt, seated, known, broken]
  · cases failed

/-- The numbers of the abilities of all cards, card by card. -/
def abilityIds (s : State) : List AbilityId :=
  s.cards.values.flatMap fun c => c.abilities.map Ability.id

/-- One card has come on top of a zone, newer than all others. Its abilities are those built for the
    printed descriptors, each kind in their order, under the numbers that follow the ones in use. -/
structure Created (registry : Registry) (r : Request) (s t : State) (id : CardId) (card : Card)
    (abilities : List Ability) : Prop where
  newest : ∀ other ∈ s.cards.keys, other < id
  cards : t.cards.entries = s.cards.entries ++ [(id, card)]
  onTop : ∃ zone, s.zone? r.zone = some zone ∧ t.zone? r.zone = some (zone.push id)
  elsewhere : ∀ zone, zone ≠ r.zone → t.zone? zone = s.zone? zone
  nothingElse : t =
    { s with
      cards := t.cards
      zones := t.zones
      nextCard := id + 1
      nextAbility := s.nextAbility + r.definition.abilities.length }
  new : card = Card.create id r.definition r.owner r.zone abilities
  built : s.Built registry id r.definition.abilities abilities
  statics : card.statics = abilities.filterMap Ability.static?
  triggered : card.triggered = abilities.filterMap Ability.triggered?
  activated : card.activated = abilities.filterMap Ability.activated?
  numbers : abilities.map Ability.id = List.range' s.nextAbility r.definition.abilities.length
  unused : ∀ taken ∈ s.abilityIds, taken < s.nextAbility

/-- Cards and abilities have numbers below the next ones, no two abilities have the same, and each is
    about the card that carries it. -/
structure Numbered (s : State) : Prop where
  cards : ∀ id ∈ s.cards.keys, id < s.nextCard
  abilities : ∀ id ∈ s.abilityIds, id < s.nextAbility
  distinct : s.abilityIds.Nodup
  sources : ∀ id c, s.card? id = some c → ∀ a ∈ c.abilities, a.IsAbout id

theorem numbered_initial (players : Nat) (life : Int) : (initial players life).Numbered where
  cards _ listed := nomatch listed
  abilities _ listed := nomatch listed
  distinct := List.nodup_nil
  sources _ _ found := nomatch found

theorem Built.ids {descriptors : List Descriptor} {abilities : List Ability}
    (faithful : registry.Faithful) (built : s.Built registry id descriptors abilities) :
    abilities.map Ability.id = List.range' s.nextAbility descriptors.length := by
  rw [← List.zipIdx_map_snd]
  unfold Built at built
  generalize descriptors.zipIdx s.nextAbility = numbered at built
  induction built with
  | nil => rfl
  | cons made _ ih => rw [List.map_cons, List.map_cons, ih, (faithful _ _ _ _ made).1]

theorem Numbered.created (h : s.Numbered) (faithful : registry.Faithful)
    (creation : s.create registry r.definition r.owner r.zone = .ok (t, id)) :
    ∃ card abilities, Created registry r s t id card abilities := by
  obtain ⟨rfl, ⟨zone, known⟩, abilities, built, rfl⟩ := create_eq_withCard creation
  refine ⟨_, abilities, h.cards, Table.entries_insert_last _ h.cards, ⟨zone, known, ?_⟩, ?_, rfl, rfl,
    built, rfl, rfl, rfl, built.ids faithful, h.abilities⟩
  · rw [zone?_withCard]
    simp [Card.create, known]
  · intro other different
    rw [zone?_withCard]
    exact if_neg different

theorem Created.abilityIds {card : Card} {abilities : List Ability}
    (h : Created registry r s t id card abilities) :
    t.abilityIds.Perm
      (s.abilityIds ++ List.range' s.nextAbility r.definition.abilities.length) := by
  have values : t.cards.values = s.cards.values ++ [card] := by
    simp only [Table.values, h.cards, List.map_append, List.map_cons, List.map_nil]
  rw [State.abilityIds, values, List.flatMap_append, List.flatMap_singleton, ← h.numbers, h.new]
  exact ((Card.abilities_create_perm ..).map _).append_left _

theorem Numbered.next {card : Card} {abilities : List Ability} (h : s.Numbered)
    (faithful : registry.Faithful) (creation : Created registry r s t id card abilities) :
    t.Numbered := by
  have ids := creation.abilityIds
  have counters := creation.nothingElse
  have nextCard : t.nextCard = id + 1 := by rw [counters]
  have nextAbility : t.nextAbility = s.nextAbility + r.definition.abilities.length := by
    rw [counters]
  constructor
  · intro other listed
    rw [Table.keys, creation.cards, List.map_append, List.mem_append] at listed
    rw [nextCard]
    rcases listed with older | new
    · exact Nat.lt_succ_of_lt (creation.newest other older)
    · obtain rfl : other = id := by simpa using new
      exact Nat.lt_succ_self other
  · intro other listed
    rw [nextAbility]
    rcases List.mem_append.mp (ids.mem_iff.mp listed) with older | new
    · exact Nat.lt_add_right _ (h.abilities other older)
    · exact (List.mem_range'_1.mp new).2
  · rw [ids.nodup_iff, List.nodup_append]
    refine ⟨h.distinct, List.nodup_range', ?_⟩
    intro older listed new fresh same
    have below := h.abilities older listed
    have above := (List.mem_range'_1.mp fresh).1
    rw [same] at below
    exact Nat.not_lt.mpr above below
  · intro other c found a carried
    have listed := Table.mem_entries.mpr found
    rw [creation.cards, List.mem_append] at listed
    rcases listed with older | new
    · exact h.sources other c (Table.mem_entries.mp older) a carried
    · simp only [List.mem_singleton, Prod.mk.injEq] at new
      obtain ⟨rfl, rfl⟩ := new
      rw [creation.new] at carried
      obtain ⟨d, n, before, made⟩ := creation.built.builds a (Card.abilities_create carried)
      exact (faithful _ _ _ _ made).2

theorem Numbered.attempt (h : s.Numbered) (faithful : registry.Faithful) (r : Request) :
    (s.attempt registry r).1.Numbered := by
  cases outcome : s.create registry r.definition r.owner r.zone with
  | error reason =>
      rw [attempt_of_error outcome]
      exact h
  | ok created =>
      obtain ⟨t, id⟩ := created
      obtain ⟨card, abilities, creation⟩ := h.created faithful outcome
      rw [attempt_of_ok outcome]
      exact h.next faithful creation

theorem Numbered.fulfill (h : s.Numbered) (faithful : registry.Faithful) (requests : List Request) :
    (s.fulfill registry requests).Numbered := by
  induction requests generalizing s with
  | nil => exact h
  | cons r rest ih => exact ih (h.attempt faithful r)

/-- After any creations on a new table, some of which may have failed, the next one either fails and
    leaves the state as it is, or adds one card under a number larger than all others. The abilities of
    all cards then have numbers of their own, and each is about the card that carries it. -/
theorem cards_created_in_order (players : Nat) (life : Int) (requests : List Request) :
    let s := (initial players life).fulfill .builtin requests
    (∀ r reason, s.create .builtin r.definition r.owner r.zone = .error reason →
      s.attempt .builtin r = (s, .error reason)) ∧
    (∀ r t id, s.create .builtin r.definition r.owner r.zone = .ok (t, id) →
      s.attempt .builtin r = (t, .ok id) ∧
        ∃ card abilities, Created .builtin r s t id card abilities) ∧
    s.abilityIds.Nodup ∧
    ∀ id card, s.card? id = some card →
      (∀ a ∈ card.statics, a.source = id ∧ a.effect.source = id) ∧
      (∀ a ∈ card.triggered, a.source = id) ∧ ∀ a ∈ card.activated, a.source = id := by
  intro s
  have numbered : s.Numbered :=
    (numbered_initial players life).fulfill Registry.faithful_builtin requests
  refine ⟨fun r reason => attempt_of_error, fun r t id creation =>
    ⟨attempt_of_ok creation, numbered.created Registry.faithful_builtin creation⟩,
    numbered.distinct, ?_⟩
  intro id card found
  have sources := numbered.sources id card found
  refine ⟨fun a carried => ?_, fun a carried => ?_, fun a carried => ?_⟩
  · exact sources _ (card.static_mem_abilities.mpr carried)
  · exact sources _ (card.triggered_mem_abilities.mpr carried)
  · exact sources _ (card.activated_mem_abilities.mpr carried)

/-- A flying creature whose death gains life. -/
def dove : Definition :=
  { Definition.creature 1 "Dove" 1 1 with
    abilities := [⟨"keyword", .ofList [("keyword", .text "flying")]⟩,
      ⟨"dies_gain_life", .ofList [("amount", .int 2)]⟩] }

/-- The same with an ability at the end that nothing knows. -/
def phantom : Definition :=
  { dove with abilities := dove.abilities ++ [⟨"no_such_key", .empty⟩] }

/-- Between two doves, a phantom uses up no numbers. -/
theorem cards_created_in_order_dove :
    let s := (initial 2 20).fulfill .builtin [⟨dove, 0, 1⟩, ⟨phantom, 1, 6⟩]
    s.attempt .builtin ⟨phantom, 0, 1⟩ = (s, .error (.unknownAbilityKey "no_such_key")) ∧
      s.abilityIds = [1, 2] ∧ s.abilityIds.Nodup ∧
      ∃ t card abilities, s.attempt .builtin ⟨dove, 1, 6⟩ = (t, .ok 2) ∧
        Created .builtin ⟨dove, 1, 6⟩ s t 2 card abilities := by
  intro s
  have fails : s.create .builtin phantom 0 1 = .error (.unknownAbilityKey "no_such_key") := by
    decide +kernel
  have works : (s.create .builtin dove 1 6).map (·.2) = .ok 2 := by decide +kernel
  have ids : s.abilityIds = [1, 2] := by decide +kernel
  obtain ⟨failing, creating, distinct, -⟩ :=
    cards_created_in_order 2 20 [⟨dove, 0, 1⟩, ⟨phantom, 1, 6⟩]
  refine ⟨failing ⟨phantom, 0, 1⟩ _ fails, ids, distinct, ?_⟩
  cases outcome : s.create .builtin dove 1 6 with
  | error reason => simp [outcome, Except.map] at works
  | ok created =>
      obtain ⟨t, id⟩ := created
      obtain rfl : id = 2 := by simpa [outcome, Except.map] using works
      obtain ⟨same, card, abilities, creation⟩ := creating ⟨dove, 1, 6⟩ t 2 outcome
      exact ⟨t, card, abilities, same, creation⟩

end State

end CardGame
