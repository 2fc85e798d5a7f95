/-! # Tables with ordered keys

A table is a list of entries in strictly increasing key order, so equal contents are equal tables.
Updating a key that is absent changes nothing.
-/

namespace CardGame

/-- The strict total order in which a table lists its keys. -/
class Key (κ : Type) where
  before : κ → κ → Prop
  [decBefore : DecidableRel before]
  irrefl : ∀ a, ¬ before a a
  trans : ∀ {a b c}, before a b → before b c → before a c
  total : ∀ a b, before a b ∨ a = b ∨ before b a

instance {κ : Type} [Key κ] (a b : κ) : Decidable (Key.before a b) := Key.decBefore a b

instance : Key Nat where
  before := (· < ·)
  irrefl := Nat.lt_irrefl
  trans := Nat.lt_trans
  total := Nat.lt_trichotomy

/-- Texts are listed by code point, which is also the order of their UTF-8 bytes. -/
instance : Key String where
  before := (· < ·)
  irrefl := fun _ => Std.lt_irrefl
  trans := Std.lt_trans
  total := fun a b => by
    by_cases h : a < b
    · exact .inl h
    · by_cases h' : b < a
      · exact .inr (.inr h')
      · exact .inr (.inl (Std.le_antisymm (Std.not_lt.1 h') (Std.not_lt.1 h)))

/-- Entries sorted by key, at most one for each key. -/
structure Table (κ α : Type) [Key κ] where
  entries : List (κ × α)
  sorted : entries.Pairwise (fun a b => Key.before a.1 b.1)
  deriving DecidableEq, Repr

namespace Table

variable {κ α : Type} [Key κ]

def empty : Table κ α := ⟨[], .nil⟩

instance : Inhabited (Table κ α) := ⟨empty⟩

def keys (t : Table κ α) : List κ := t.entries.map (·.1)

def values (t : Table κ α) : List α := t.entries.map (·.2)

def size (t : Table κ α) : Nat := t.entries.length

def isEmpty (t : Table κ α) : Bool := t.entries.isEmpty

/-- Put an entry at its place, replacing the one with the same key. -/
def place [DecidableEq κ] (key : κ) (value : α) : List (κ × α) → List (κ × α)
  | [] => [(key, value)]
  | entry :: rest =>
    if Key.before key entry.1 then (key, value) :: entry :: rest
    else if key = entry.1 then (key, value) :: rest
    else entry :: place key value rest

theorem key_of_mem_place [DecidableEq κ] {key : κ} {value : α} {entries : List (κ × α)} {e : κ × α}
    (h : e ∈ place key value entries) : e = (key, value) ∨ e ∈ entries := by
  induction entries with
  | nil => simpa [place] using h
  | cons entry rest ih =>
    unfold place at h
    split at h
    · simpa using h
    · split at h
      · rcases List.mem_cons.1 h with h | h
        · exact .inl h
        · exact .inr (List.mem_cons_of_mem _ h)
      · rcases List.mem_cons.1 h with h | h
        · exact .inr (h ▸ List.mem_cons_self)
        · exact (ih h).imp id (List.mem_cons_of_mem _)

theorem place_sorted [DecidableEq κ] (key : κ) (value : α) {entries : List (κ × α)}
    (h : entries.Pairwise (fun a b => Key.before a.1 b.1)) :
    (place key value entries).Pairwise (fun a b => Key.before a.1 b.1) := by
  induction entries with
  | nil => simp [place]
  | cons entry rest ih =>
    obtain ⟨hall, hrest⟩ := List.pairwise_cons.1 h
    unfold place
    split
    · rename_i hlt
      refine List.pairwise_cons.2 ⟨fun e he => ?_, h⟩
      rcases List.mem_cons.1 he with rfl | he
      · exact hlt
      · exact Key.trans hlt (hall e he)
    · split
      · rename_i heq
        exact List.pairwise_cons.2 ⟨fun e he => heq ▸ hall e he, hrest⟩
      · rename_i hlt hne
        refine List.pairwise_cons.2 ⟨fun e he => ?_, ih hrest⟩
        rcases key_of_mem_place he with rfl | he
        · rcases Key.total key entry.1 with h | h | h
          · exact absurd h hlt
          · exact absurd h hne
          · exact h
        · exact hall e he

/-- Add an entry, replacing the one with the same key. -/
def insert [DecidableEq κ] (t : Table κ α) (key : κ) (value : α) : Table κ α :=
  ⟨place key value t.entries, place_sorted key value t.sorted⟩

def ofList [DecidableEq κ] (entries : List (κ × α)) : Table κ α :=
  entries.foldl (fun t e => t.insert e.1 e.2) empty

def get? [DecidableEq κ] (t : Table κ α) (key : κ) : Option α := t.entries.lookup key

def contains [DecidableEq κ] (t : Table κ α) (key : κ) : Bool := (t.get? key).isSome

def mapWithKey {β : Type} (t : Table κ α) (f : κ → α → β) : Table κ β where
  entries := t.entries.map (fun e => (e.1, f e.1 e.2))
  sorted := List.pairwise_map.2 t.sorted

def map {β : Type} (t : Table κ α) (f : α → β) : Table κ β := t.mapWithKey (fun _ => f)

/-- Change the value at one key, if it is there. -/
def update [DecidableEq κ] (t : Table κ α) (key : κ) (f : α → α) : Table κ α :=
  t.mapWithKey (fun k v => if k = key then f v else v)

omit [Key κ] in
theorem lookup_cons_eq_ite [DecidableEq κ] (key : κ) (entry : κ × α) (rest : List (κ × α)) :
    (entry :: rest).lookup key = if key = entry.1 then some entry.2 else rest.lookup key := by
  show (match key == entry.1 with | true => some entry.2 | false => rest.lookup key) = _
  by_cases h : key = entry.1
  · simp [h]
  · rw [beq_eq_false_iff_ne.2 h, if_neg h]

theorem lookup_place [DecidableEq κ] (key : κ) (value : α) (other : κ) (entries : List (κ × α)) :
    (place key value entries).lookup other =
      if other = key then some value else entries.lookup other := by
  induction entries with
  | nil => simp [place, lookup_cons_eq_ite]
  | cons entry rest ih =>
    unfold place
    split
    · exact lookup_cons_eq_ite ..
    · split
      · rename_i heq
        by_cases h : other = key <;> simp [lookup_cons_eq_ite, h, ← heq]
      · rename_i hne
        by_cases h : other = entry.1
        · have : other ≠ key := fun e => hne (e ▸ h)
          simp [lookup_cons_eq_ite, h, Ne.symm hne]
        · simp [lookup_cons_eq_ite, h, ih]

@[simp]
theorem get?_empty [DecidableEq κ] (key : κ) : (empty : Table κ α).get? key = none := rfl

@[simp]
theorem get?_insert [DecidableEq κ] (t : Table κ α) (key : κ) (value : α) (other : κ) :
    (t.insert key value).get? other = if other = key then some value else t.get? other :=
  lookup_place key value other t.entries

omit [Key κ] in
theorem lookup_map_entries [DecidableEq κ] {β : Type} (f : κ → α → β) (key : κ)
    (entries : List (κ × α)) :
    (entries.map fun e => (e.1, f e.1 e.2)).lookup key = (entries.lookup key).map (f key) := by
  induction entries with
  | nil => rfl
  | cons entry rest ih =>
    by_cases h : key = entry.1 <;> simp [lookup_cons_eq_ite, h, ih]

@[simp]
theorem get?_mapWithKey [DecidableEq κ] {β : Type} (t : Table κ α) (f : κ → α → β) (key : κ) :
    (t.mapWithKey f).get? key = (t.get? key).map (f key) :=
  lookup_map_entries f key t.entries

@[simp]
theorem get?_map [DecidableEq κ] {β : Type} (t : Table κ α) (f : α → β) (key : κ) :
    (t.map f).get? key = (t.get? key).map f :=
  get?_mapWithKey t (fun _ => f) key

@[simp]
theorem get?_update [DecidableEq κ] (t : Table κ α) (key : κ) (f : α → α) (other : κ) :
    (t.update key f).get? other = if other = key then (t.get? other).map f else t.get? other := by
  unfold update
  rw [get?_mapWithKey]
  by_cases h : other = key <;> simp [h]

end Table

end CardGame
