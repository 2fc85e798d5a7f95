import CardGame.Proofs.Reach

/-! # Deriving side by side

Of a card in play deriving reads the controller, the types and the static abilities, and of any card
what it was printed as. So two states that match in this are derived in step: the same abilities apply
in the same order, and each reaches the same cards in both.
-/

namespace CardGame

namespace State

variable {s t : State} {R : CardId → Card → Card → Prop} {id : CardId} {c d : Card}

/-- Every card of the one state has a counterpart in the other, with the records related. -/
def Beside (R : CardId → Card → Card → Prop) (s t : State) : Prop :=
  ∀ id, Option.Rel (R id) (s.card? id) (t.card? id)

/-- What each card becomes can be a counterpart of it. -/
theorem Beside.of_map {f : CardId → Card → Card} (changed : ∀ id, t.card? id = (s.card? id).map (f id))
    (related : ∀ {id c}, s.card? id = some c → R id c (f id c)) : s.Beside R t := by
  intro id
  rw [changed]
  cases found : s.card? id with
  | none => exact .none
  | some c => exact .some (related found)

/-- Where related cards look the same, so do the states. -/
theorem Beside.map_eq {α : Type} {f g : CardId → Card → α} (h : s.Beside R t)
    (same : ∀ {id c d}, R id c d → g id d = f id c) (id : CardId) :
    (t.card? id).map (g id) = (s.card? id).map (f id) := by
  have related := h id
  cases found : s.card? id <;> cases other : t.card? id <;> rw [found, other] at related <;>
    cases related
  · rfl
  · exact congrArg some (same ‹_›)

/-- Cards that change in step stay related. -/
theorem Beside.map {s' t' : State} {f g : CardId → Card → Card} (h : s.Beside R t)
    (left : ∀ id, s'.card? id = (s.card? id).map (f id))
    (right : ∀ id, t'.card? id = (t.card? id).map (g id))
    (step : ∀ {id c d}, s.card? id = some c → R id c d → R id (f id c) (g id d)) :
    s'.Beside R t' := by
  intro id
  have related := h id
  rw [left, right]
  cases found : s.card? id <;> cases other : t.card? id <;> rw [found, other] at related <;>
    cases related
  · exact .none
  · exact .some (step found ‹_›)

theorem Beside.of_card? (h : s.Beside R t) (found : s.card? id = some c) :
    ∃ d, t.card? id = some d ∧ R id c d := by
  have related := h id
  rw [found] at related
  cases other : t.card? id with
  | none =>
      rw [other] at related
      cases related
  | some d =>
      rw [other] at related
      cases related with
      | some related => exact ⟨d, rfl, related⟩

/-- Deriving cannot tell related records apart, and keeps them related. -/
structure Matching (s t : State) (R : CardId → Card → Card → Prop) : Prop where
  inPlay : ∀ {id c d}, R id c d → t.isBattlefield d.zone = s.isBattlefield c.zone
  controller : ∀ {id c d}, R id c d → s.isBattlefield c.zone = true → d.controller = c.controller
  statics : ∀ {id c d}, R id c d → s.isBattlefield c.zone = true → d.statics = c.statics
  types : ∀ {id c d}, R id c d → s.isBattlefield c.zone = true →
    d.characteristics.types = c.characteristics.types
  strip : ∀ {id c d}, R id c d → R id c.strip d.strip
  apply : ∀ {id c d}, R id c d → s.isBattlefield c.zone = true → ∀ m : Modification,
    R id { c with characteristics := m.apply c.characteristics }
      { d with characteristics := m.apply d.characteristics }
  countered : ∀ {id c d}, R id c d → s.isBattlefield c.zone = true → d.isCountered = c.isCountered
  counters : ∀ {id c d}, R id c d → s.isBattlefield c.zone = true →
    R id c.withCounters d.withCounters

namespace Matching

theorem symm (h : s.Matching t R) : t.Matching s fun id d c => R id c d where
  inPlay related := (h.inPlay related).symm
  controller related inPlay := (h.controller related (h.inPlay related ▸ inPlay)).symm
  statics related inPlay := (h.statics related (h.inPlay related ▸ inPlay)).symm
  types related inPlay := (h.types related (h.inPlay related ▸ inPlay)).symm
  strip related := h.strip related
  apply related inPlay := h.apply related (h.inPlay related ▸ inPlay)
  countered related inPlay := (h.countered related (h.inPlay related ▸ inPlay)).symm
  counters related inPlay := h.counters related (h.inPlay related ▸ inPlay)

/-- Which zones are battlefields is all that counts of the states themselves. -/
theorem congr {s' t' : State} (h : s.Matching t R) (left : s'.isBattlefield = s.isBattlefield)
    (right : t'.isBattlefield = t.isBattlefield) : s'.Matching t' R where
  inPlay := left ▸ right ▸ h.inPlay
  controller := left ▸ h.controller
  statics := left ▸ h.statics
  types := left ▸ h.types
  strip := h.strip
  apply := left ▸ h.apply
  countered := left ▸ h.countered
  counters := left ▸ h.counters

end Matching

theorem Beside.symm (h : s.Beside R t) : t.Beside (fun id d c => R id c d) s := by
  intro id
  have related := h id
  cases found : s.card? id <;> cases other : t.card? id <;> rw [found, other] at related <;>
    cases related
  · exact .none
  · exact .some ‹_›

theorem Matching.statics_subset (h : s.Matching t R) (beside : s.Beside R t) (keyedₛ : s.Keyed)
    (keyedₜ : t.Keyed) :
    (s.battlefield.map fun e => (e.1, e.2.statics)) ⊆
      t.battlefield.map fun e => (e.1, e.2.statics) := by
  intro entry member
  obtain ⟨⟨id, c⟩, listed, rfl⟩ := List.mem_map.mp member
  obtain ⟨found, inPlay⟩ := keyedₛ.mem_battlefield.mp listed
  obtain ⟨d, other, related⟩ := beside.of_card? found
  refine List.mem_map.mpr ⟨(id, d), keyedₜ.mem_battlefield.mpr ⟨other, ?_⟩, ?_⟩
  · rw [h.inPlay related, inPlay]
  · rw [h.statics related inPlay]

theorem Matching.activeStatics (h : s.Matching t R) (beside : s.Beside R t) (keyedₛ : s.Keyed)
    (keyedₜ : t.Keyed) : t.activeStatics = s.activeStatics := by
  have ordered {r : State} (keyed : r.Keyed) :
      Key.Ordered (r.battlefield.map fun e => (e.1, e.2.statics)) :=
    List.pairwise_map.mpr keyed.battlefield_ordered
  have there := (ordered keyedₛ).sublist_of_subset (ordered keyedₜ)
    (h.statics_subset beside keyedₛ keyedₜ)
  have back := (ordered keyedₜ).sublist_of_subset (ordered keyedₛ)
    (h.symm.statics_subset beside.symm keyedₜ keyedₛ)
  have abilities := congrArg (List.flatMap (·.2)) (back.antisymm there)
  simp only [List.flatMap_map] at abilities
  rw [State.activeStatics, State.activeStatics, abilities]

variable {effect : ContinuousEffect}

theorem Matching.reaches (h : s.Matching t R) {source source' : Card}
    (control : source'.controller = source.controller) (related : R id c d) :
    effect.reaches t source' id d = effect.reaches s source id c := by
  have battlefield := h.inPlay related
  unfold ContinuousEffect.reaches
  cases inPlay : s.isBattlefield c.zone with
  | false =>
      rw [inPlay] at battlefield
      cases effect.affected <;> simp [battlefield]
  | true =>
      rw [inPlay] at battlefield
      have creature : d.isCreature = c.isCreature := by
        simp only [Card.isCreature, Card.hasType, h.types related inPlay]
      cases effect.affected <;>
        simp [battlefield, creature, h.controller related inPlay, control]

theorem Matching.touches (h : s.Matching t R) (beside : s.Beside R t) (related : R id c d) :
    effect.touches t id d = effect.touches s id c := by
  have sources := beside effect.source
  unfold ContinuousEffect.touches ContinuousEffect.activeSource? isOnBattlefield zoneKind?
  cases found : s.card? effect.source <;> cases other : t.card? effect.source <;>
    rw [found, other] at sources <;> cases sources
  · rfl
  · rename_i p q match'
    have battlefield := h.inPlay match'
    simp only [Option.bind_some]
    change (if t.isBattlefield q.zone = true then _ else _ : Option Card).any _ =
      (if s.isBattlefield p.zone = true then _ else _ : Option Card).any _
    rw [battlefield]
    split
    · rename_i inPlay
      exact h.reaches (h.controller match' inPlay) related
    · rfl

theorem Matching.beside_apply (h : s.Matching t R) (beside : s.Beside R t) (keyedₛ : s.Keyed)
    (keyedₜ : t.Keyed) (effect : ContinuousEffect) :
    (effect.apply s).Beside R (effect.apply t) := by
  refine beside.map (effect.card?_apply keyedₛ) (effect.card?_apply keyedₜ) ?_
  intro id c d found related
  rw [h.touches beside related]
  split
  · rename_i touched
    exact h.apply related (isBattlefield_of_touches found touched) _
  · exact related

theorem Matching.beside_applyStatics (h : s.Matching t R) (beside : s.Beside R t) (keyedₛ : s.Keyed)
    (keyedₜ : t.Keyed) (abilities : List StaticAbility) :
    (s.applyStatics abilities).Beside R (t.applyStatics abilities) := by
  induction abilities generalizing s t with
  | nil => exact beside
  | cons ability rest ih =>
      have layout (r : State) : (ability.effect.apply r).layout = r.layout :=
        layout_change ability.effect r _
      have battlefields (r : State) : (ability.effect.apply r).isBattlefield = r.isBattlefield :=
        funext (isBattlefield_congr (layout r))
      exact ih (h.congr (battlefields s) (battlefields t))
        (h.beside_apply beside keyedₛ keyedₜ ability.effect) (keyedₛ.congr (layout s))
        (keyedₜ.congr (layout t))

/-- Deriving keeps the cards of the two states related. -/
theorem Matching.beside_derive (h : s.Matching t R) (beside : s.Beside R t) (keyedₛ : s.Keyed)
    (keyedₜ : t.Keyed) : s.derive.Beside R t.derive := by
  have printed : s.strip.Beside R t.strip :=
    beside.map (card?_strip s) (card?_strip t) fun _ related => h.strip related
  have stripped : s.strip.Matching t.strip R := h.congr rfl rfl
  have applied := stripped.beside_applyStatics printed (keyedₛ.congr (layout_strip s))
    (keyedₜ.congr (layout_strip t)) s.activeStatics
  have layout (r : State) : (r.strip.applyStatics s.activeStatics).layout = r.layout :=
    (layout_applyStatics r.strip s.activeStatics).trans (layout_strip r)
  have battlefields (r : State) := funext (isBattlefield_congr (layout r))
  unfold derive
  rw [h.activeStatics beside keyedₛ keyedₜ]
  refine applied.map ((keyedₛ.congr (layout s)).card?_updatePermanents _ _)
    ((keyedₜ.congr (layout t)).card?_updatePermanents _ _) ?_
  intro id c d _ related
  rw [battlefields s, battlefields t, h.inPlay related]
  cases inPlay : s.isBattlefield c.zone with
  | false => exact related
  | true =>
      rw [h.countered related inPlay, Bool.true_and]
      split
      · exact h.counters related inPlay
      · exact related

end State

end CardGame
