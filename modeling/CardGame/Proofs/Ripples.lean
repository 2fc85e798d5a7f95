import CardGame.Proofs.Convergence
import CardGame.Proofs.Passing
import Mathlib.Logic.Relation

/-! # Ripples

Most of what the rules do marks no card and puts none onto a battlefield: cards are drawn, cast and
buried, players gain and lose life, and characteristics are derived. How much such ripples keep of the
players is a parameter. Settling consists of nothing else, as long as no triggered ability touches what
is kept.
-/

namespace CardGame

section Keep

variable {α : Type} (keep : Player → α)

/-- Life and loss do not matter to what is kept of a player. -/
def IgnoresLife : Prop :=
  ∀ (p : Player) (life : Int) (lost : Bool), keep { p with life := life, hasLost := lost } = keep p

/-- Nor does mana. -/
def IgnoresMana : Prop := ∀ (p : Player) (mana : Mana.Pool), keep { p with mana := mana } = keep p

/-- The effect does not touch what is kept of the players. -/
def Effect.Spares : Effect → Prop
  | .addMana .. => IgnoresMana keep
  | _ => True

theorem IgnoresMana.spares {keep : Player → α} (h : IgnoresMana keep) (effect : Effect) :
    effect.Spares keep := by
  cases effect <;> first | exact h | trivial

namespace State

/-- What is kept of every player, in seat order. -/
def kept (s : State) : List α := s.players.map keep

/-- A change that marks no card and brings none onto a battlefield. -/
inductive Ripple : State → State → Prop where
  /-- Of players and of the course of the turn. -/
  | aside {s t : State} (same : s.SameBoard t) (kept : t.kept keep = s.kept keep) : Ripple s t
  /-- Of characteristics, derived or printed. -/
  | derived {s t : State} (same : s.strip = t.strip) : Ripple s t
  | move {s t : State} {happening : Happening} (happens : s.Happens happening t)
      (off : happening.target ≠ .battlefield) : Ripple s t

/-- Any number of ripples, one after the other. -/
def Ripples : State → State → Prop := Relation.ReflTransGen (Ripple keep)

/-- No triggered ability touches what is kept of the players. -/
def Peaceful (s : State) : Prop :=
  ∀ id c a, s.card? id = some c → a ∈ c.triggered → a.effect.Spares keep

end State

end Keep

namespace State

variable {α : Type} {keep : Player → α} {s t u : State}

theorem kept_updatePlayer (s : State) (seat : Seat) {f : Player → Player}
    (same : ∀ p, keep (f p) = keep p) : (s.updatePlayer seat f).kept keep = s.kept keep := by
  apply List.ext_getElem?
  intro other
  simp only [kept, updatePlayer, List.getElem?_map, List.getElem?_modify]
  split <;> simp [Function.comp_def, same]

theorem kept_mapPlayers (s : State) {f : Player → Player} (same : ∀ p, keep (f p) = keep p) :
    { s with players := s.players.map f }.kept keep = s.kept keep := by
  rw [kept, List.map_map]
  exact List.map_congr_left fun p _ => same p

theorem kept_updateSeats (s : State) {f : Player → Player} (same : ∀ p, keep (f p) = keep p) :
    (s.updateSeats f).kept keep = s.kept keep :=
  map_updateSeats s same

theorem Ripple.kept (ripple : Ripple keep s t) : t.kept keep = s.kept keep := by
  cases ripple with
  | aside _ kept => exact kept
  | derived same =>
      show t.strip.kept keep = s.strip.kept keep
      rw [same]
  | move happens => exact congrArg (List.map keep) happens.players

theorem Ripple.kit (ripple : Ripple keep s t) : t.kit = s.kit := by
  cases ripple with
  | aside same => exact kit_congr same.layout
  | derived same => exact kit_congr (layout_of_strip same)
  | move happens => exact happens.kit

theorem Ripple.keyed (ripple : Ripple keep s t) (keyed : s.Keyed) : t.Keyed := by
  cases ripple with
  | aside same => exact keyed.congr same.layout
  | derived same => exact keyed.congr (layout_of_strip same)
  | move happens => exact happens.keyed keyed

namespace Ripples

theorem refl (s : State) : Ripples keep s s := Relation.ReflTransGen.refl

theorem trans (first : Ripples keep s t) (rest : Ripples keep t u) : Ripples keep s u :=
  Relation.ReflTransGen.trans first rest

theorem of_ripple (ripple : Ripple keep s t) : Ripples keep s t := Relation.ReflTransGen.single ripple

theorem updatePlayer (s : State) (seat : Seat) {f : Player → Player}
    (zones : ∀ p, (f p).zones = p.zones) (same : ∀ p, keep (f p) = keep p) :
    Ripples keep s (s.updatePlayer seat f) :=
  .of_ripple (.aside (.updatePlayer s seat zones) (kept_updatePlayer s seat same))

theorem derive (s : State) : Ripples keep s s.derive := .of_ripple (.derived (strip_derive s).symm)

theorem of_happens {happening : Happening} (happens : s.Happens happening t)
    (off : happening.target ≠ .battlefield) : Ripples keep s t :=
  .of_ripple (.move happens off)

theorem foldlM {β : Type} {f : State → β → Outcome State} {items : List β}
    (step : ∀ s, ∀ a ∈ items, ∀ t, f s a = .ok t → Ripples keep s t)
    (h : items.foldlM f s = .ok t) : Ripples keep s t :=
  Outcome.foldlM_relates refl trans step h

theorem kept (ripples : Ripples keep s t) : t.kept keep = s.kept keep := by
  induction ripples with
  | refl => rfl
  | tail _ ripple ih => exact ripple.kept.trans ih

theorem kit (ripples : Ripples keep s t) : t.kit = s.kit := by
  induction ripples with
  | refl => rfl
  | tail _ ripple ih => exact ripple.kit.trans ih

theorem keyed (ripples : Ripples keep s t) (keyed : s.Keyed) : t.Keyed := by
  induction ripples with
  | refl => exact keyed
  | tail _ ripple ih => exact ripple.keyed ih

end Ripples

namespace Peaceful

theorem of_ignoresMana (h : IgnoresMana keep) (s : State) : s.Peaceful keep :=
  fun _ _ a _ _ => h.spares a.effect

/-- The built-in triggered abilities only gain life. -/
theorem of_builtin (equipped : s.Equipped .builtin) : s.Peaceful keep := by
  intro id c a found carried
  obtain ⟨-, amount, gains⟩ :=
    Builtin.of_triggered (equipped id c found _ (c.triggered_mem_abilities.mpr carried))
  rw [gains]
  trivial

/-- Whether there is peace is a matter of the abilities of the cards. -/
theorem of_kit (h : s.Peaceful keep) (same : t.kit = s.kit) : t.Peaceful keep := by
  intro id c a found carried
  have kit := congrFun same id
  rw [State.kit, State.kit, found, Option.map_some, eq_comm, Option.map_eq_some_iff] at kit
  obtain ⟨d, known, abilities⟩ := kit
  refine h id d a known (d.triggered_mem_abilities.mp ?_)
  rw [abilities]
  exact c.triggered_mem_abilities.mpr carried

end Peaceful

theorem ripples_draw {seat : Seat} {drawn : Option CardId} (h : s.draw seat = .ok (t, drawn)) :
    Ripples keep s t := by
  cases drawn with
  | none =>
      rw [draw_eq_none h]
      exact .refl s
  | some id => exact .of_happens (.draw h) nofun

theorem ripples_drawMany {seat : Seat} {n : Nat} (h : s.drawMany seat n = .ok t) :
    Ripples keep s t := by
  induction n generalizing s with
  | zero =>
      cases h
      exact .refl _
  | succ n ih =>
      rw [drawMany, Outcome.bind_eq_ok] at h
      obtain ⟨⟨next, drawn⟩, drew, h⟩ := h
      cases drawn with
      | none =>
          cases h
          exact ripples_draw drew
      | some id => exact (ripples_draw drew).trans (ih h)

theorem ripples_drawStep {config : Config} (h : s.drawStep config = .ok t) : Ripples keep s t := by
  unfold drawStep at h
  split at h
  · cases h
    exact .refl _
  · obtain ⟨⟨next, drawn⟩, drew, h⟩ := Outcome.bind_eq_ok.mp h
    cases h
    exact ripples_draw drew

theorem ripples_bury {id : CardId} (creature : s.isCreatureInPlay id = true)
    (h : s.bury id = .ok t) : Ripples keep s t := by
  obtain ⟨c, found, inPlay, -⟩ := isCreatureInPlay_eq_true.mp creature
  exact .of_happens (.die found inPlay h) nofun

theorem ripples_destroy {ids : List CardId} (h : s.destroy ids = .ok t) : Ripples keep s t := by
  induction ids generalizing s with
  | nil =>
      cases h
      exact .refl _
  | cons id rest ih =>
      rw [destroy] at h
      split at h
      · rename_i creature
        obtain ⟨next, buried, h⟩ := Outcome.bind_eq_ok.mp h
        exact (ripples_bury creature buried).trans (ih h)
      · exact ih h

section Life

variable (life : IgnoresLife keep)
include life

theorem ripples_markLosers (s : State) : Ripples keep s s.markLosers := by
  refine .of_ripple (.aside ⟨rfl, layout_markLosers s⟩ (kept_updateSeats s fun p => ?_))
  unfold Player.checkLife
  split
  · exact life p p.life true
  · rfl

theorem ripples_toRest (keyed : s.Keyed) {r : AtRest} (h : s.toRest = .ok r) :
    Ripples keep s r.state :=
  keyed.toRest_invariant (P := Ripples keep s) (fun t before => before.trans (.derive t))
    (fun t before => before.trans (ripples_markLosers life t))
    (fun keyed dies buried before =>
      before.trans (ripples_bury (keyed.isCreatureInPlay_of_dying dies) buried))
    (.refl s) h

theorem ripples_resolve {effect : Effect} {context : EffectContext} (spared : effect.Spares keep)
    (h : effect.resolve s context = .ok t) : Ripples keep s t := by
  cases effect with
  | addMana color amount =>
      obtain ⟨p, -, h⟩ := Outcome.bind_eq_ok.mp h
      cases h
      exact .updatePlayer s _ (fun _ => rfl) fun p => spared p _
  | gainLife amount =>
      obtain ⟨p, -, h⟩ := Outcome.bind_eq_ok.mp h
      cases h
      exact .updatePlayer s _ (fun _ => rfl) fun p => life p _ p.hasLost
  | destroy target =>
      cases target with
      | source => exact ripples_destroy h
      | chosen => exact ripples_destroy h
  | drawCards count => exact ripples_drawMany h

theorem ripples_resolveEffects (mana : IgnoresMana keep) {context : EffectContext}
    {effects : List Descriptor} (h : s.resolveEffects context effects = .ok t) :
    Ripples keep s t := by
  refine .foldlM (fun s d _ t step => ?_) h
  obtain ⟨effect, -, step⟩ := Outcome.bind_eq_ok.mp step
  exact ripples_resolve life (mana.spares effect) step

theorem ripples_dispatch (peaceful : s.Peaceful keep) {events : List Event}
    (h : s.dispatch events = .ok t) : Ripples keep s t := by
  refine Outcome.foldlM_relates (R := fun s t => s.Peaceful keep → Ripples keep s t)
    (fun s _ => .refl s) (fun first rest peace => ?_) (fun s event _ t h peace => ?_) h peaceful
  · exact (first peace).trans (rest (peace.of_kit (first peace).kit))
  · refine .foldlM (fun s a fires t step => ?_) h
    obtain ⟨next, resolved, step⟩ := Outcome.bind_eq_ok.mp step
    cases step
    obtain ⟨controller, -, resolved⟩ := Outcome.bind_eq_ok.mp resolved
    obtain ⟨id, c, found, carried⟩ := card?_of_fired fires
    exact (ripples_resolve life (peace id c a found carried) resolved).trans (.derive next)

theorem ripples_settleRounds {limit left : Nat} {baseline current : State} {earlier events : List Event}
    (keyed : current.Keyed) (peaceful : current.Peaceful keep)
    (h : settleRounds limit baseline current earlier left = .ok (t, events)) :
    Ripples keep current t := by
  induction left generalizing baseline current earlier with
  | zero => cases h
  | succ left ih =>
      simp only [settleRounds, Outcome.bind_eq_ok] at h
      obtain ⟨resolved, dispatched, r, rest, h⟩ := h
      have first : Ripples keep current resolved := ripples_dispatch life peaceful dispatched
      have round := first.trans (ripples_toRest life (first.keyed keyed) rest)
      split at h
      · cases h
        exact round
      · exact round.trans (ih (round.keyed keyed) (peaceful.of_kit round.kit) h)

theorem ripples_settle {rounds : Nat} {before after : State} {events : List Event}
    (keyed : after.Keyed) (peaceful : after.Peaceful keep)
    (h : settle rounds before after = .ok (t, events)) : Ripples keep after t := by
  have derived : Ripples keep after after.derive := .derive after
  exact derived.trans
    (ripples_settleRounds life (derived.keyed keyed) (peaceful.of_kit derived.kit) h)

end Life

end State

end CardGame
