import CardGame.Table
import Mathlib.Data.List.Perm.Subperm
import Mathlib.Data.List.Sort

/-! # Entries of tables

A table lists exactly the pairs that it finds, each key once and in the order of the keys. Of two
lists in that order, one that holds no other entries is therefore a sublist.
-/

namespace CardGame

namespace Key

variable {κ α : Type} [Key κ]

/-- Entries in the order of their keys. -/
def Ordered (entries : List (κ × α)) : Prop := entries.Pairwise fun a b => Key.before a.1 b.1

theorem Ordered.nodup_keys {entries : List (κ × α)} (h : Ordered entries) :
    (entries.map (·.1)).Nodup := by
  rw [List.Nodup, List.pairwise_map]
  refine h.imp fun {a b} before same => ?_
  exact Key.irrefl b.1 (same ▸ before)

theorem Ordered.nodup {entries : List (κ × α)} (h : Ordered entries) : entries.Nodup :=
  List.Nodup.of_map _ h.nodup_keys

theorem Ordered.sublist_of_subset {part whole : List (κ × α)} (hp : Ordered part)
    (hw : Ordered whole) (h : part ⊆ whole) : part.Sublist whole := by
  have antisymm : Std.Antisymm fun a b : κ × α => Key.before a.1 b.1 :=
    ⟨fun a b hab hba => absurd (Key.trans hab hba) (Key.irrefl a.1)⟩
  exact List.sublist_of_subperm_of_pairwise (List.Nodup.subperm hp.nodup h) hp hw

/-- Of ordered entries, those with one key are the one that is found for it. -/
theorem Ordered.flatMap_ite [DecidableEq κ] {β : Type} {entries : List (κ × α)}
    (h : Ordered entries) (key : κ) (f : α → List β) :
    (entries.flatMap fun e => if e.1 = key then f e.2 else []) =
      ((entries.lookup key).map f).getD [] := by
  induction entries with
  | nil => rfl
  | cons entry rest ih =>
      have fresh := (List.nodup_cons.mp h.nodup_keys).1
      rw [List.flatMap_cons, ih (List.Pairwise.of_cons h), Table.lookup_cons_eq_ite]
      by_cases same : entry.1 = key
      · subst same
        have absent : rest.lookup entry.1 = none := by
          rw [List.lookup_eq_none_iff]
          intro other member
          have different : entry.1 ≠ other.1 :=
            fun same => fresh (List.mem_map.mpr ⟨other, member, same.symm⟩)
          simpa using different
        simp [absent]
      · rw [if_neg same, if_neg (Ne.symm same), List.nil_append]

end Key

namespace Table

variable {κ α : Type} [Key κ]

theorem ordered (t : Table κ α) : Key.Ordered t.entries := t.sorted

theorem mem_entries_iff [DecidableEq κ] {entries : List (κ × α)} (h : Key.Ordered entries)
    {key : κ} {value : α} : (key, value) ∈ entries ↔ entries.lookup key = some value := by
  induction entries with
  | nil => simp
  | cons entry rest ih =>
      obtain ⟨fresh, distinct⟩ := List.nodup_cons.mp h.nodup_keys
      rw [lookup_cons_eq_ite, List.mem_cons]
      by_cases same : key = entry.1
      · subst same
        have absent : (entry.1, value) ∉ rest := fun hr => fresh (List.mem_map.mpr ⟨_, hr, rfl⟩)
        simp [absent, Prod.ext_iff, eq_comm]
      · have other : (key, value) ≠ entry := fun eq => same (congrArg Prod.fst eq)
        simp [same, other, ih (List.Pairwise.of_cons h)]

theorem mem_entries [DecidableEq κ] {t : Table κ α} {key : κ} {value : α} :
    (key, value) ∈ t.entries ↔ t.get? key = some value :=
  mem_entries_iff t.ordered

/-- A key that comes after all others is listed last. -/
theorem entries_insert_last [DecidableEq κ] {t : Table κ α} {key : κ} (value : α)
    (last : ∀ other ∈ t.keys, Key.before other key) :
    (t.insert key value).entries = t.entries ++ [(key, value)] := by
  have placed {entries : List (κ × α)} (last : ∀ e ∈ entries, Key.before e.1 key) :
      place key value entries = entries ++ [(key, value)] := by
    induction entries with
    | nil => rfl
    | cons entry rest ih =>
        have before := last entry List.mem_cons_self
        have notAfter : ¬ Key.before key entry.1 := fun after =>
          Key.irrefl key (Key.trans after before)
        have different : key ≠ entry.1 := fun same => Key.irrefl key (by rwa [← same] at before)
        rw [place, if_neg notAfter, if_neg different,
          ih fun e listed => last e (List.mem_cons_of_mem _ listed), List.cons_append]
  exact placed fun e listed => last e.1 (List.mem_map.mpr ⟨e, listed, rfl⟩)

/-- Tables in which every key has the same value are equal. -/
theorem ext_get? [DecidableEq κ] {t u : Table κ α} (h : ∀ key, t.get? key = u.get? key) :
    t = u := by
  have sublist {t u : Table κ α} (h : ∀ key, t.get? key = u.get? key) :
      t.entries.Sublist u.entries :=
    t.ordered.sublist_of_subset u.ordered fun (key, value) listed =>
      mem_entries.mpr (h key ▸ mem_entries.mp listed)
  have entries : t.entries = u.entries := (sublist h).antisymm (sublist fun key => (h key).symm)
  cases t
  cases u
  simpa using entries

/-- Only what a change makes of the value that is there counts. -/
theorem update_eq_of_get? [DecidableEq κ] {t : Table κ α} {key : κ} {value : α}
    (found : t.get? key = some value) (f : α → α) :
    t.update key f = t.update key fun _ => f value := by
  unfold update mapWithKey
  simp only [mk.injEq]
  refine List.map_congr_left fun (other, content) listed => ?_
  by_cases same : other = key
  · subst same
    obtain rfl : content = value :=
      Option.some.inj ((mem_entries.mp listed).symm.trans found)
    rfl
  · simp [same]

theorem update_update [DecidableEq κ] (t : Table κ α) (key : κ) (f g : α → α) :
    (t.update key f).update key g = t.update key fun value => g (f value) := by
  unfold update mapWithKey
  simp only [mk.injEq, List.map_map]
  refine List.map_congr_left fun (other, content) _ => ?_
  by_cases same : other = key <;> simp [same]

theorem update_comm [DecidableEq κ] (t : Table κ α) (first second : κ) {f g : α → α}
    (comm : ∀ value, g (f value) = f (g value)) :
    (t.update first f).update second g = (t.update second g).update first f := by
  apply ext_get?
  intro key
  simp only [get?_update]
  split_ifs <;> simp only [Option.map_map, Function.comp_def, comm]

/-- A table made from a list in which the key decides the value. -/
theorem get?_ofList [DecidableEq κ] {entries : List (κ × α)} {f : κ → α}
    (h : ∀ e ∈ entries, e.2 = f e.1) (key : κ) :
    (ofList entries).get? key = if key ∈ entries.map (·.1) then some (f key) else none := by
  have added (t : Table κ α) (rest : List (κ × α)) (h : ∀ e ∈ rest, e.2 = f e.1) :
      (rest.foldl (fun t e => t.insert e.1 e.2) t).get? key =
        if key ∈ rest.map (·.1) then some (f key) else t.get? key := by
    induction rest generalizing t with
    | nil => simp
    | cons entry rest ih =>
        rw [List.foldl_cons, ih _ fun e he => h e (List.mem_cons_of_mem _ he), get?_insert,
          h entry List.mem_cons_self]
        by_cases same : key = entry.1 <;>
          simp only [List.map_cons, List.mem_cons, same, true_or, false_or, if_true, if_false,
            ite_self]
  exact added empty entries h

/-- A table made from a list has only entries of the list. -/
theorem mem_of_get?_ofList [DecidableEq κ] {entries : List (κ × α)} {key : κ} {value : α}
    (found : (ofList entries).get? key = some value) : (key, value) ∈ entries := by
  have added (t : Table κ α) (rest : List (κ × α))
      (found : (rest.foldl (fun t e => t.insert e.1 e.2) t).get? key = some value) :
      (key, value) ∈ rest ∨ t.get? key = some value := by
    induction rest generalizing t with
    | nil => exact .inr found
    | cons entry rest ih =>
        rcases ih _ found with later | earlier
        · exact .inl (List.mem_cons_of_mem _ later)
        · rw [get?_insert] at earlier
          split at earlier
          · rename_i same
            cases earlier
            exact .inl (same ▸ List.mem_cons_self)
          · exact .inr earlier
  exact (added empty entries found).resolve_right (by simp)

end Table

end CardGame
