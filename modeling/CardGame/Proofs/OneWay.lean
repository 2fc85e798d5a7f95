import CardGame.Proofs.Run

/-! # One way through the zones

Cards go from the library to the hand, from there over the stack or at once onto a battlefield, and in
the end to the graveyard. Nothing leads back: libraries are only drawn from, nothing leaves a graveyard,
and exile stays empty.
-/

namespace CardGame

/-- How far a card has come. Nothing ever gets to exile. -/
def ZoneKind.stage : ZoneKind → Nat
  | library => 0
  | hand => 1
  | stack => 2
  | battlefield => 3
  | graveyard => 4
  | exile => 5

theorem Happening.stage_lt (happening : Happening) :
    happening.source.stage < happening.target.stage := by
  cases happening <;> simp [Happening.source, Happening.target, ZoneKind.stage]

/-- Nothing goes to a library. -/
theorem Happening.target_ne_library (happening : Happening) : happening.target ≠ .library := by
  cases happening <;> exact nofun

namespace State

variable {s t u : State}

/-- Exile is nobody's home. -/
theorem Orderly.exile_empty (h : s.Orderly) {zone : ZoneId}
    (exile : s.kindOfZone? zone = some .exile) : s.contents zone = [] := by
  refine List.eq_nil_iff_forall_not_mem.mpr fun id member => ?_
  obtain ⟨c, found, rfl⟩ := h.known member
  obtain ⟨p, owner⟩ := h.owned found
  have home := h.home found owner
  simp only [homes, List.mem_cons, List.not_mem_nil, or_false] at home
  rcases home with zone | zone | zone | zone | zone
  · simp [zone, h.hand owner] at exile
  · simp [zone, h.library owner] at exile
  · simp [zone, h.graveyard owner] at exile
  · simp [zone, h.battlefield owner] at exile
  · simp [zone, h.stack] at exile

/-- All that happens to a library is that its top card is drawn. -/
theorem Happens.library (h : s.Orderly) {happening : Happening} (happens : s.Happens happening t)
    {zone : ZoneId} (library : s.kindOfZone? zone = some .library) :
    t.contents zone <+: s.contents zone := by
  obtain ⟨c, c', passage, same, source, target⟩ := happens.passage h
  have elsewhere : zone ≠ c'.zone := fun here =>
    happening.target_ne_library (Option.some.inj (target.symm.trans (here ▸ library)))
  rw [same, contents_relocate s _ _ _ (Option.isSome_iff_exists.mpr ⟨_, target⟩), if_neg elsewhere,
    List.append_nil]
  split
  · rename_i left
    rw [← left, library, Option.some.injEq] at source
    cases happens with
    | draw drawn =>
        obtain ⟨p, -, top, -⟩ := draw_eq_some drawn
        obtain ⟨d, found, place⟩ := h.known (List.mem_of_getLast? top)
        cases found.symm.trans passage.found
        rw [← place, ← left] at top
        rw [Happening.card, h.erase_last top]
        exact List.dropLast_prefix _
    | play | cast | resolve | spend | die => cases source
  · exact List.prefix_rfl

theorem Happens.onward (h : s.Orderly) {happening : Happening} (happens : s.Happens happening t)
    {id : CardId} {kind : ZoneKind} (here : s.zoneKind? id = some kind) :
    ∃ kind', t.zoneKind? id = some kind' ∧ kind.stage ≤ kind'.stage := by
  have shifts := happens.shifts h
  by_cases moved : id = happening.card
  · subst moved
    cases here.symm.trans shifts.source
    exact ⟨_, shifts.target, happening.stage_lt.le⟩
  · exact ⟨kind, by rw [shifts.others moved, here], le_rfl⟩

namespace Course

variable {trace : List Happening}

theorem onward (course : Course s trace t) (h : s.Orderly) {id : CardId} {kind : ZoneKind}
    (here : s.zoneKind? id = some kind) :
    ∃ kind', t.zoneKind? id = some kind' ∧ kind.stage ≤ kind'.stage := by
  induction course generalizing kind with
  | done => exact ⟨kind, here, le_rfl⟩
  | still same _ ih => exact ih (h.congr same) (by rwa [zoneKind?_congr same])
  | next happens _ ih =>
      obtain ⟨between, there, first⟩ := happens.onward h here
      obtain ⟨last, there, rest⟩ := ih (happens.shifts h).orderly there
      exact ⟨last, there, first.trans rest⟩

/-- Players keep their zones. -/
theorem player? (course : Course s trace t) {seat : Seat} {p : Player}
    (seated : s.player? seat = some p) : ∃ q, t.player? seat = some q ∧ q.zones = p.zones := by
  induction course generalizing p with
  | done => exact ⟨p, seated, rfl⟩
  | still same _ ih =>
      obtain ⟨q, seated, zones⟩ := player?_congr same.symm seated
      obtain ⟨r, seated, rest⟩ := ih seated
      exact ⟨r, seated, rest.trans zones⟩
  | next happens _ ih => exact ih (by rwa [State.player?, happens.players])

theorem library (course : Course s trace t) (h : s.Orderly) {seat : Seat} {p : Player}
    (seated : s.player? seat = some p) :
    t.contents p.zones.library <+: s.contents p.zones.library := by
  induction course generalizing p with
  | done => exact List.prefix_rfl
  | still same _ ih =>
      obtain ⟨q, seated, zones⟩ := player?_congr same.symm seated
      have rest := ih (h.congr same) seated
      rwa [zones, contents_congr same] at rest
  | next happens _ ih =>
      have first := happens.library h (h.library seated)
      exact (ih (happens.shifts h).orderly (by rwa [State.player?, happens.players])).trans first

/-- A graveyard is the last place of a card, and it is always the same one. -/
theorem grave (course : Course s trace t) (h : s.Orderly) {id : CardId} {c : Card}
    (found : s.card? id = some c) (buried : s.kindOfZone? c.zone = some .graveyard) :
    ∃ d, t.card? id = some d ∧ d.zone = c.zone := by
  obtain ⟨d, known, -, owner⟩ := card?_of_identity (course.identity h) found
  have there := course.graveyard h ((zoneKind?_of_card? found).trans buried)
  rw [zoneKind?_of_card? known] at there
  obtain ⟨p, -, hp, -, -, -, grave, -⟩ := h.accounted.home found
  obtain ⟨q, -, hq, -, -, -, grave', -⟩ := (course.orderly h).accounted.home known
  obtain ⟨r, hr, zones⟩ := course.player? hp
  cases hr.symm.trans (owner ▸ hq)
  exact ⟨d, known, by rw [grave' there, zones, grave buried]⟩

end Course

/-- What has become of the cards since the first of the two states. -/
structure OneWay (s t : State) : Prop where
  /-- Every card is as far as it was or further. -/
  onward : ∀ {id}, (s.card? id).isSome → ∃ kind kind', s.zoneKind? id = some kind ∧
    t.zoneKind? id = some kind' ∧ kind.stage ≤ kind'.stage
  /-- A card in a graveyard is still there. -/
  buried : ∀ {id c}, s.card? id = some c → s.kindOfZone? c.zone = some .graveyard →
    ∃ d, t.card? id = some d ∧ d.zone = c.zone
  /-- A library is what it was, or a lower part of that. -/
  libraries : ∀ {seat p}, s.player? seat = some p →
    ∃ q, t.player? seat = some q ∧ q.zones = p.zones ∧
      t.contents q.zones.library <+: s.contents p.zones.library
  /-- Nothing is in exile. -/
  exile : ∀ {zone}, t.kindOfZone? zone = some .exile → t.contents zone = []

theorem Course.oneWay {trace : List Happening} (course : Course s trace t) (h : s.Orderly) :
    s.OneWay t where
  onward {id} known := by
    obtain ⟨c, found⟩ := Option.isSome_iff_exists.mp known
    obtain ⟨kind, inZone⟩ := h.housed.zoned found
    have here := (zoneKind?_of_card? found).trans inZone
    obtain ⟨kind', there, further⟩ := course.onward h here
    exact ⟨kind, kind', here, there, further⟩
  buried := course.grave h
  libraries seated := by
    obtain ⟨q, after, zones⟩ := course.player? seated
    exact ⟨q, after, zones, by rw [zones]; exact course.library h seated⟩
  exile := (course.orderly h).exile_empty

end State

namespace Match

/-- Along every run from a deal, wherever it stands, whatever operations follow take every card on its
    way from the library to the graveyard or leave it where it is. -/
theorem cards_go_one_way (config : Config) {generator : Generator} (catalog : Catalog)
    (registry : Registry) (decks : List (List DefinitionId)) (m : Match) (commands : List Command)
    (operations : List Operation)
    (started : start config catalog registry decks generator = .ok m) :
    (m.run commands).state.OneWay ((m.run commands).run (operations.map .call)).state := by
  have kept := (kept_start started).run commands
  obtain ⟨trace, -, course, -⟩ := kept.course_of_calls operations
  exact course.oneWay kept.present.orderly

/-- A land that dies as it enters goes from the hand to the graveyard in one operation. -/
theorem cards_go_one_way_mayflies :
    ∃ m, mayflies = .ok m ∧
      (m.run (toMain.map .call)).state.zoneKind? 1 = some .hand ∧
      ((m.run (toMain.map .call)).run ([.act 0 (.playLand 1)].map .call)).state.zoneKind? 1 =
        some .graveyard ∧
      (m.run (toMain.map .call)).state.OneWay
        ((m.run (toMain.map .call)).run ([.act 0 (.playLand 1)].map .call)).state := by
  have played : (do
      let m ← mayflies
      let next := (m.run (toMain.map .call)).run ([.act 0 (.playLand 1)].map .call)
      .ok ((m.run (toMain.map .call)).state.zoneKind? 1, next.state.zoneKind? 1) :
        Outcome (Option ZoneKind × Option ZoneKind)) = .ok (some .hand, some .graveyard) := by
    decide +kernel
  obtain ⟨m, started, played⟩ := Outcome.bind_eq_ok.mp played
  obtain ⟨before, after⟩ := Prod.mk.inj (Except.ok.inj played)
  exact ⟨m, started, before, after,
    cards_go_one_way _ _ _ _ m (toMain.map .call) [.act 0 (.playLand 1)] started⟩

end Match

end CardGame
