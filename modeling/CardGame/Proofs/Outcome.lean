import CardGame.Error

/-! # Operations that succeed or fail

An operation made of several succeeds when each of them does, and fails as the first one does that
fails. These equivalences take a run apart into the results of its parts.
-/

namespace CardGame.Outcome

variable {α β σ : Type}

theorem bind_eq_ok {x : Outcome α} {f : α → Outcome β} {b : β} :
    (x >>= f) = .ok b ↔ ∃ a, x = .ok a ∧ f a = .ok b := by
  cases x with
  | error e => simp [bind, Except.bind]
  | ok a => simp [bind, Except.bind]

theorem require_eq_ok {condition : Bool} {reason : IllegalAction} {u : Unit} :
    require condition reason = .ok u ↔ condition = true := by
  cases condition <;> simp [require]

theorem find_eq_ok {value : Option α} {reference : Reference} {a : α} :
    find value reference = .ok a ↔ value = some a := by
  cases value <;> simp [find]

theorem bind_eq_error {x : Outcome α} {f : α → Outcome β} {reason : RuleError} :
    (x >>= f) = .error reason ↔ x = .error reason ∨ ∃ a, x = .ok a ∧ f a = .error reason := by
  cases x with
  | error e => simp [bind, Except.bind]
  | ok a => simp [bind, Except.bind]

theorem require_eq_error {condition : Bool} {cause : IllegalAction} {reason : RuleError} :
    require condition cause = .error reason ↔ condition = false ∧ reason = .illegal cause := by
  cases condition <;> simp [require, eq_comm]

theorem find_eq_error {value : Option α} {reference : Reference} {reason : RuleError} :
    find value reference = .error reason ↔ value = none ∧ reason = .malformed reference := by
  cases value <;> simp [find, eq_comm]

theorem mem_toOption {x : Outcome α} {a : α} : a ∈ x.toOption ↔ x = .ok a := by
  cases x <;> simp [Except.toOption]

theorem isOk_iff {x : Outcome α} : x.isOk = true ↔ ∃ a, x = .ok a := by
  cases x <;> simp [Except.isOk, Except.toBool]

theorem isOk_bind_congr {γ : Type} {x : Outcome α} {f : α → Outcome β} {g : α → Outcome γ}
    (same : ∀ a, (f a).isOk = (g a).isOk) : (x >>= f).isOk = (x >>= g).isOk := by
  cases x with
  | error e => rfl
  | ok a => exact same a

/-- Two runs that look the same after their first parts look the same at the end, if what comes next
    cannot tell them apart. -/
theorem map_bind_congr {γ δ : Type} {x y : Outcome α} {f g : α → Outcome β} {φ : α → γ} {ψ : β → δ}
    (first : x.map φ = y.map φ) (rest : ∀ {a b}, φ a = φ b → (f a).map ψ = (g b).map ψ) :
    (x >>= f).map ψ = (y >>= g).map ψ := by
  cases x with
  | error reason =>
      cases y with
      | error other =>
          obtain rfl : reason = other := Except.error.inj first
          rfl
      | ok b => cases first
  | ok a =>
      cases y with
      | error other => cases first
      | ok b => exact rest (Except.ok.inj first)

/-- What every step of a fold establishes, and what carries over from step to step, holds from the
    first state to the last. -/
theorem foldlM_relates {f : σ → α → Outcome σ} {R : σ → σ → Prop} (refl : ∀ s, R s s)
    (trans : ∀ {s t u}, R s t → R t u → R s u)
    {items : List α} (step : ∀ s, ∀ a ∈ items, ∀ t, f s a = .ok t → R s t)
    {s t : σ} (h : items.foldlM f s = .ok t) : R s t := by
  induction items generalizing s with
  | nil =>
      obtain rfl : s = t := by simpa [pure, Except.pure] using h
      exact refl s
  | cons a rest ih =>
      rw [List.foldlM_cons, bind_eq_ok] at h
      obtain ⟨mid, hmid, h⟩ := h
      exact trans (step s a List.mem_cons_self mid hmid)
        (ih (fun s b hb => step s b (List.mem_cons_of_mem _ hb)) h)

/-- What no step of a fold breaks holds after it. -/
theorem foldlM_preserves {f : σ → α → Outcome σ} {P : σ → Prop} {items : List α}
    (step : ∀ s, ∀ a ∈ items, ∀ t, f s a = .ok t → P s → P t) {s t : σ}
    (h : items.foldlM f s = .ok t) : P s → P t :=
  foldlM_relates (R := fun s t => P s → P t) (fun _ => id) (fun first rest => rest ∘ first) step h

/-- A fold succeeds if each of its steps does. -/
theorem foldlM_total {f : σ → α → Outcome σ} {P : σ → Prop} {items : List α}
    (step : ∀ s, ∀ a ∈ items, P s → ∃ t, f s a = .ok t ∧ P t) {s : σ} (h : P s) :
    ∃ t, items.foldlM f s = .ok t ∧ P t := by
  induction items generalizing s with
  | nil => exact ⟨s, rfl, h⟩
  | cons a rest ih =>
      obtain ⟨mid, first, h⟩ := step s a List.mem_cons_self h
      obtain ⟨t, others, h⟩ := ih (fun s b hb => step s b (List.mem_cons_of_mem _ hb)) h
      exact ⟨t, by rw [List.foldlM_cons, bind_eq_ok]; exact ⟨mid, first, others⟩, h⟩

/-- What each step of a fold turns into the same for one step more, holds in the end for all of them. -/
theorem foldlM_counts {f : σ → α → Outcome σ} {P : Nat → σ → Prop} {items : List α}
    (step : ∀ i a s t, items[i]? = some a → f s a = .ok t → P i s → P (i + 1) t) {s t : σ}
    (h : items.foldlM f s = .ok t) (first : P 0 s) : P items.length t := by
  induction items generalizing s P with
  | nil =>
      cases h
      exact first
  | cons a rest ih =>
      obtain ⟨mid, now, h⟩ := bind_eq_ok.mp h
      exact ih (P := fun i => P (i + 1)) (fun i b s t found => step (i + 1) b s t found) h
        (step 0 a s mid rfl now first)

/-- A fold succeeds if no step fails after those before it. -/
theorem foldlM_of_steps {f : σ → α → Outcome σ} {items : List α} {s : σ}
    (step : ∀ i a mid, items[i]? = some a → (items.take i).foldlM f s = .ok mid →
      ∃ t, f mid a = .ok t) : ∃ t, items.foldlM f s = .ok t := by
  induction items generalizing s with
  | nil => exact ⟨s, rfl⟩
  | cons a rest ih =>
      obtain ⟨mid, first⟩ := step 0 a s rfl rfl
      obtain ⟨t, others⟩ := ih fun i b later found before =>
        step (i + 1) b later found (bind_eq_ok.mpr ⟨mid, first, before⟩)
      exact ⟨t, bind_eq_ok.mpr ⟨mid, first, others⟩⟩

/-- In a fold that succeeds, each step comes after those before it. -/
theorem foldlM_step {f : σ → α → Outcome σ} {items : List α} {s t : σ}
    (h : items.foldlM f s = .ok t) {i : Nat} {a : α} (found : items[i]? = some a) :
    ∃ mid next, (items.take i).foldlM f s = .ok mid ∧ f mid a = .ok next ∧
      (items.drop (i + 1)).foldlM f next = .ok t := by
  obtain ⟨within, rfl⟩ := List.getElem?_eq_some_iff.mp found
  rw [← List.take_append_drop i items, List.foldlM_append, List.drop_eq_getElem_cons within] at h
  obtain ⟨mid, before, h⟩ := bind_eq_ok.mp h
  obtain ⟨next, now, after⟩ := bind_eq_ok.mp h
  exact ⟨mid, next, before, now, after⟩

/-- A list of checks passes if each of them does. -/
theorem forM_eq_ok {f : α → Outcome Unit} {items : List α} {u : Unit} :
    items.forM f = .ok u ↔ ∀ a ∈ items, f a = .ok () := by
  induction items with
  | nil => simp [pure, Except.pure]
  | cons a rest ih =>
      have first : (a :: rest).forM f = (f a >>= fun _ => rest.forM f) := rfl
      rw [first, bind_eq_ok, List.forall_mem_cons, ← ih]
      exact ⟨fun ⟨_, now, later⟩ => ⟨now, later⟩, fun ⟨now, later⟩ => ⟨(), now, later⟩⟩

/-- Whatever it is that the operation fails for, it is one of these reasons. -/
def FailsOnly (R : RuleError → Prop) (x : Outcome α) : Prop := ∀ reason, x = .error reason → R reason

namespace FailsOnly

variable {R : RuleError → Prop} {x : Outcome α}

theorem of_total (h : ∃ a, x = .ok a) : x.FailsOnly R := by
  obtain ⟨a, rfl⟩ := h
  exact nofun

theorem bind {f : α → Outcome β} (first : x.FailsOnly R)
    (rest : ∀ a, x = .ok a → (f a).FailsOnly R) : (x >>= f).FailsOnly R := by
  intro reason failed
  obtain failed | ⟨a, done, failed⟩ := bind_eq_error.mp failed
  · exact first reason failed
  · exact rest a done reason failed

/-- What cannot fail once its check has passed fails as the check does. -/
theorem of_check {check : Outcome β} {rest : β → Outcome α} (checks : check.FailsOnly R)
    (total : ∀ b, check = .ok b → ∃ a, (check >>= rest) = .ok a) : (check >>= rest).FailsOnly R := by
  refine checks.bind fun b passed => ?_
  obtain ⟨a, done⟩ := total b passed
  rw [passed] at done
  exact of_total ⟨a, done⟩

theorem forM {f : α → Outcome Unit} {items : List α} (each : ∀ a ∈ items, (f a).FailsOnly R) :
    (items.forM f).FailsOnly R := by
  induction items with
  | nil => exact of_total ⟨_, rfl⟩
  | cons a rest ih =>
      exact (each a List.mem_cons_self).bind fun _ _ =>
        ih fun b member => each b (List.mem_cons_of_mem _ member)

theorem foldlM {f : σ → α → Outcome σ} {items : List α}
    (each : ∀ s, ∀ a ∈ items, (f s a).FailsOnly R) (s : σ) : (items.foldlM f s).FailsOnly R := by
  induction items generalizing s with
  | nil => exact of_total ⟨_, rfl⟩
  | cons a rest ih =>
      rw [List.foldlM_cons]
      exact (each s a List.mem_cons_self).bind fun mid _ =>
        ih (fun t b member => each t b (List.mem_cons_of_mem _ member)) mid

end FailsOnly

end CardGame.Outcome
