import CardGame.Proofs.Orderly
import CardGame.State.Derive

/-! # The empty table

Before any card is created, the zones of all players are there and empty, and the table is in order.
-/

namespace CardGame.State

/-- What the zones of an empty table are, by number. -/
def emptyZone (players : Nat) (zone : ZoneId) : Zone :=
  if zone = stackOf players then .empty .stack none
  else
    .empty (PlayerZones.kinds[zone % PlayerZones.count]?.getD .stack)
      (some (zone / PlayerZones.count))

theorem div_of_mem_ofSeat {seat zone : Nat} (member : zone ∈ (PlayerZones.ofSeat seat).all) :
    zone / PlayerZones.count = seat := by
  simp only [PlayerZones.all, PlayerZones.ofSeat, PlayerZones.count, List.mem_cons,
    List.not_mem_nil, or_false] at member ⊢
  rcases member with rfl | rfl | rfl | rfl | rfl <;> omega

theorem emptyZone_of_seat {players seat i : Nat} (seated : seat < players)
    (hi : i < PlayerZones.count) :
    emptyZone players (PlayerZones.count * seat + i) =
      .empty (PlayerZones.kinds[i]?.getD .stack) (some seat) := by
  have notStack : PlayerZones.count * seat + i ≠ stackOf players := by
    simp only [PlayerZones.count, stackOf] at hi ⊢
    omega
  rw [emptyZone, if_neg notStack, Nat.mul_add_mod, Nat.mod_eq_of_lt hi,
    Nat.mul_add_div (by decide), Nat.div_eq_of_lt hi, Nat.add_zero]

theorem eq_emptyZone {players seat : Nat} (seated : seat < players) {entry : ZoneId × Zone}
    (member : entry ∈ zonesOf seat) : entry.2 = emptyZone players entry.1 := by
  have zone (i : Nat) (hi : i < PlayerZones.count) := (emptyZone_of_seat seated hi).symm
  simp only [zonesOf, PlayerZones.all, PlayerZones.ofSeat, PlayerZones.kinds, List.map_cons,
    List.map_nil, List.zip_cons_cons, List.zip_nil_right, List.mem_cons, List.not_mem_nil,
    or_false] at member
  rcases member with rfl | rfl | rfl | rfl | rfl
  · exact zone 0 (by decide)
  · exact zone 1 (by decide)
  · exact zone 2 (by decide)
  · exact zone 3 (by decide)
  · exact zone 4 (by decide)

theorem zone?_initial {players : Nat} {life : Int} (zone : ZoneId) :
    (initial players life).zone? zone =
      if zone ∈ ((List.range players).flatMap fun seat => (PlayerZones.ofSeat seat).all) ++
          [stackOf players] then
        some (emptyZone players zone)
      else none := by
  have determined : ∀ entry ∈
      (List.range players).flatMap zonesOf ++ [(stackOf players, Zone.empty .stack none)],
      entry.2 = emptyZone players entry.1 := by
    intro entry member
    rcases List.mem_append.mp member with member | member
    · obtain ⟨seat, seated, member⟩ := List.mem_flatMap.mp member
      exact eq_emptyZone (List.mem_range.mp seated) member
    · rw [List.mem_singleton.mp member, emptyZone, if_pos rfl]
  have keys : (((List.range players).flatMap zonesOf ++
      [(stackOf players, Zone.empty .stack none)]).map (·.1)) =
      ((List.range players).flatMap fun seat => (PlayerZones.ofSeat seat).all) ++
        [stackOf players] := by
    rw [List.map_append, List.map_flatMap]
    rfl
  rw [← keys]
  exact Table.get?_ofList determined zone

theorem player?_initial {players : Nat} {life : Int} {seat : Seat} {p : Player}
    (h : (initial players life).player? seat = some p) :
    seat < players ∧ p = .initial seat life := by
  simp only [player?, initial, List.getElem?_map, Option.map_eq_some_iff] at h
  obtain ⟨other, found, rfl⟩ := h
  obtain ⟨seated, eq⟩ := List.getElem?_eq_some_iff.mp found
  rw [List.length_range] at seated
  rw [List.getElem_range] at eq
  exact ⟨seated, by rw [eq]⟩

theorem kindOfZone?_initial {players : Nat} {life : Int} {seat : Seat} (seated : seat < players) :
    (PlayerZones.ofSeat seat).all.map (initial players life).kindOfZone? =
      PlayerZones.kinds.map some := by
  have kind (i : Nat) (hi : i < PlayerZones.count)
      (member : PlayerZones.count * seat + i ∈ (PlayerZones.ofSeat seat).all) :
      (initial players life).kindOfZone? (PlayerZones.count * seat + i) =
        some (PlayerZones.kinds[i]?.getD .stack) := by
    have listed : PlayerZones.count * seat + i ∈
        ((List.range players).flatMap fun seat => (PlayerZones.ofSeat seat).all) ++
          [stackOf players] :=
      List.mem_append_left _ (List.mem_flatMap.mpr ⟨seat, List.mem_range.mpr seated, member⟩)
    rw [kindOfZone?, zone?_initial, if_pos listed, emptyZone_of_seat seated hi]
    rfl
  simp only [PlayerZones.all, PlayerZones.ofSeat, List.mem_cons] at kind ⊢
  simp only [List.map_cons, List.map_nil, PlayerZones.kinds, List.cons.injEq, and_true]
  refine ⟨kind 0 ?_ ?_, kind 1 ?_ ?_, kind 2 ?_ ?_, kind 3 ?_ ?_, kind 4 ?_ ?_⟩ <;>
    simp [PlayerZones.count]

theorem contents_initial {players : Nat} {life : Int} (zone : ZoneId) :
    (initial players life).contents zone = [] := by
  rw [contents, zone?_initial]
  split
  · unfold emptyZone
    split <;> rfl
  · rfl

theorem initial_orderly (players : Nat) (life : Int) : (initial players life).Orderly where
  keyed _ _ hc := nomatch hc
  zones hp := by
    obtain ⟨seated, rfl⟩ := player?_initial hp
    exact kindOfZone?_initial seated
  placed hc := nomatch hc
  owned hc := nomatch hc
  stack := by
    have listed : stackOf players ∈
        ((List.range players).flatMap fun seat => (PlayerZones.ofSeat seat).all) ++
          [stackOf players] := List.mem_append_right _ List.mem_cons_self
    show (initial players life).kindOfZone? (stackOf players) = some .stack
    rw [kindOfZone?, zone?_initial, if_pos listed, emptyZone, if_pos rfl]
    rfl
  apart hp hq mine yours := by
    obtain ⟨-, rfl⟩ := player?_initial hp
    obtain ⟨-, rfl⟩ := player?_initial hq
    exact (div_of_mem_ofSeat mine).symm.trans (div_of_mem_ofSeat yours)
  known member := by
    rw [contents_initial] at member
    cases member
  home hc := nomatch hc
  controlled hc := nomatch hc
  lasting hc := nomatch hc
  spell hc := nomatch hc

theorem derive_initial (players : Nat) (life : Int) :
    (initial players life).derive = initial players life := by
  have nothing : (initial players life).battlefield = [] := rfl
  have printed : (initial players life).strip = initial players life := rfl
  have statics : (initial players life).activeStatics = [] := by rw [activeStatics, nothing]; rfl
  rw [derive, printed, statics, applyStatics, List.foldl_nil, countCounters, permanents, nothing]
  rfl

end CardGame.State
