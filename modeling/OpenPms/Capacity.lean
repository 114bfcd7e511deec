import OpenPms.Runs

/-!
Changes of capacity. The total of a row from today on is the number of rooms of its
type, so adding rooms and days never makes a day oversold, and taking a room away
does so exactly where no room was left.
-/
namespace OpenPms

open KeyedTable Transaction Prog Hotel

/-- No row from today on has more rooms booked and blocked than its total. -/
def NotOversold (h : Hotel) : Prop :=
  ∀ rt d c, h.today ≤ d → h.ledger.row rt d = some c →
    c.bookedRooms + c.blockedRooms ≤ c.totalRooms

/-- On every row of the type from today on a room is left. -/
def HasSpare (h : Hotel) (rt : UUID) : Prop :=
  ∀ d c, h.today ≤ d → h.ledger.row rt d = some c →
    c.bookedRooms + c.blockedRooms + 1 ≤ c.totalRooms

/-- The totals from today on change by an amount that depends on the type alone. -/
def TotalsShift (h h' : Hotel) (δ : UUID → ℤ) : Prop :=
  h'.today = h.today ∧ ∀ rt d, h.today ≤ d → h'.ledger.row rt d =
    (h.ledger.row rt d).map fun c => { c with totalRooms := c.totalRooms + δ rt }

theorem notOversold_iff_of_totals {h h' : Hotel} {δ : UUID → ℤ} (hshift : TotalsShift h h' δ) :
    NotOversold h' ↔ ∀ rt d c, h.today ≤ d → h.ledger.row rt d = some c →
      c.bookedRooms + c.blockedRooms ≤ c.totalRooms + δ rt := by
  obtain ⟨htoday, hrow⟩ := hshift
  constructor
  · intro hns rt d c hd hc
    have hc' : h'.ledger.row rt d = some { c with totalRooms := c.totalRooms + δ rt } := by
      rw [hrow rt d hd, hc]
      rfl
    exact hns rt d _ (by rw [htoday]; exact hd) hc'
  · intro hall rt d c' hd hc'
    rw [htoday] at hd
    rw [hrow rt d hd] at hc'
    obtain ⟨c, hc, hcc⟩ := Option.map_eq_some_iff.mp hc'
    rw [← hcc]
    exact hall rt d c hd hc

/-- A recount after a change of the rooms of one type. -/
theorem totalsShift_recount {h : Hotel} {rooms : Table Room.id} {rt₀ : UUID} {n : ℤ}
    (hc : Counted h)
    (hcount : (({ h with rooms := rooms } : Hotel).roomCount rt₀ : ℤ) = h.roomCount rt₀ + n) :
    TotalsShift h (recount { h with rooms := rooms } rt₀) fun rt => if rt = rt₀ then n else 0 := by
  refine ⟨rfl, ?_⟩
  intro rt d hd
  simp only [recount, Ledger.setTotal, Ledger.adjust_row]
  cases hrow : h.ledger.row rt d with
  | none => rfl
  | some c =>
    have htotal := hc rt d c hd hrow
    by_cases hrt : rt = rt₀
    · subst hrt
      simp [hd, hcount, htotal]
    · simp [hrt]

theorem TotalsShift.recount {h h₁ : Hotel} {δ : UUID → ℤ} {rt₀ : UUID} {n : ℤ}
    (hshift : TotalsShift h h₁ δ) (hc : Counted h)
    (hcount : (h₁.roomCount rt₀ : ℤ) = h.roomCount rt₀ + n) :
    TotalsShift h (h₁.recount rt₀) fun rt => if rt = rt₀ then n else δ rt := by
  obtain ⟨htoday, hrow⟩ := hshift
  refine ⟨htoday, ?_⟩
  intro rt d hd
  simp only [Hotel.recount, Ledger.setTotal, Ledger.adjust_row, htoday, hrow rt d hd]
  cases hr : h.ledger.row rt d with
  | none => rfl
  | some c =>
    have htotal := hc rt d c hd hr
    by_cases hrt : rt = rt₀
    · subst hrt
      simp [hd, hcount, htotal]
    · simp [hrt]

theorem NotOversold.supply {h h' : Hotel} (hns : NotOversold h) (hc : Counted h)
    (hsupply : Supply h h') : NotOversold h' := by
  cases hsupply with
  | @addRoom r hfresh hnew =>
    have hcount : (({ h with rooms := h.rooms.insert r } : Hotel).roomCount r.roomTypeId : ℤ) =
        h.roomCount r.roomTypeId + 1 := by
      rw [roomCount_insert rfl hfresh]
      simp [Room.counts, hnew]
    refine (notOversold_iff_of_totals (totalsShift_recount hc hcount)).mpr ?_
    intro rt d c hd hrow
    have hle := hns rt d c hd hrow
    split <;> omega
  | editRoom rid name status => exact hns
  | seed rt₀ days =>
    intro rt d c' hd hc'
    simp only [Ledger.upsert_row] at hc'
    split at hc'
    · next hkey =>
      cases hrow : h.ledger.row rt d with
      | none =>
        rw [hrow] at hc'
        cases hc'
        change (0 : ℤ) + 0 ≤ _
        simp
      | some c =>
        have hle := hns rt d c hd hrow
        have htotal := hc rt d c hd hrow
        rw [hrow] at hc'
        cases hc'
        rw [← hkey.1]
        simpa [← htotal] using hle
    · exact hns rt d c' hd hc'

/-- A row of the new ledger fits by itself, or because an old one did. -/
theorem NotOversold.of_rows {h h' : Hotel} (hns : NotOversold h) (htoday : h.today ≤ h'.today)
    (hrow : ∀ rt d c', h'.ledger.row rt d = some c' →
      c'.bookedRooms + c'.blockedRooms ≤ c'.totalRooms ∨ ∃ c, h.ledger.row rt d = some c ∧
        c'.bookedRooms ≤ c.bookedRooms ∧ c'.blockedRooms = c.blockedRooms ∧
        c'.totalRooms = c.totalRooms) : NotOversold h' := by
  intro rt d c' hd hc'
  rcases hrow rt d c' hc' with hfits | ⟨c, hc, hbooked, hblocked, htotal⟩
  · exact hfits
  · have hle := hns rt d c (htoday.trans hd) hc
    omega

theorem Ledger.row_shift_cases {l : Ledger} {rt₀ rt : UUID} {nights : List ℤ} {n d : ℤ}
    {c' : Counts} (h : (l.shift rt₀ nights n).row rt d = some c') : ∃ c, l.row rt d = some c ∧
      (rt = rt₀ ∧ d ∈ nights ∧ c' = { c with bookedRooms := c.bookedRooms + n } ∨ c' = c) := by
  rw [Ledger.shift, Ledger.adjust_row] at h
  obtain ⟨c, hc, hcc⟩ := Option.map_eq_some_iff.mp h
  refine ⟨c, hc, ?_⟩
  split at hcc
  · next hkey => exact .inl ⟨hkey.1, hkey.2, hcc.symm⟩
  · exact .inr hcc.symm

/-- A release leaves each counter where it was or lower. -/
theorem Ledger.row_release {l : Ledger} {rt₀ rt : UUID} {nights : List ℤ} {d : ℤ} {c' : Counts}
    (h : (l.shift rt₀ nights (-1)).row rt d = some c') : ∃ c, l.row rt d = some c ∧
      c'.bookedRooms ≤ c.bookedRooms ∧ c'.blockedRooms = c.blockedRooms ∧
      c'.totalRooms = c.totalRooms := by
  obtain ⟨c, hc, ⟨-, -, hcc⟩ | hcc⟩ := Ledger.row_shift_cases h
  · refine ⟨c, hc, ?_⟩
    rw [hcc]
    exact ⟨by simp, rfl, rfl⟩
  · exact ⟨c, hc, by rw [hcc], by rw [hcc], by rw [hcc]⟩

/-- A claimed row fits, the others are as before. -/
theorem Ledger.row_claim {l : Ledger} {rt₀ rt : UUID} {nights : List ℤ} {d : ℤ} {c' : Counts}
    (hopen : l.Open rt₀ nights 1) (h : (l.shift rt₀ nights 1).row rt d = some c') :
    c'.bookedRooms + c'.blockedRooms ≤ c'.totalRooms ∨ l.row rt d = some c' := by
  obtain ⟨c, hc, ⟨hrt, hd, hcc⟩ | hcc⟩ := Ledger.row_shift_cases h
  · left
    obtain ⟨c₀, hc₀, hle⟩ := hopen d hd
    rw [← hrt, hc] at hc₀
    cases hc₀
    rw [Counts.available] at hle
    rw [hcc]
    change c.bookedRooms + 1 + c.blockedRooms ≤ c.totalRooms
    omega
  · right
    rw [hc, hcc]

/-- Nothing but taking a room away makes a day oversold. -/
theorem NotOversold.step {h h' : Hotel} (hns : NotOversold h) (hc : Counted h)
    (hstep : Step h h') : NotOversold h' := by
  have hsame : ∀ {rt d c'}, h.ledger.row rt d = some c' → ∃ c, h.ledger.row rt d = some c ∧
      c'.bookedRooms ≤ c.bookedRooms ∧ c'.blockedRooms = c.blockedRooms ∧
      c'.totalRooms = c.totalRooms := fun hrow => ⟨_, hrow, le_refl _, rfl, rfl⟩
  cases hstep with
  | sale hsale =>
    cases hsale with
    | book stay _ _ _ _ hopen =>
      refine hns.of_rows (le_refl _) ?_
      intro rt d c' hc'
      rcases Ledger.row_claim hopen hc' with hfits | hold
      · exact .inl hfits
      · exact .inr (hsame hold)
    | assign _ _ _ => exact hns
  | rebook stay _ _ _ _ _ hopen =>
    refine hns.of_rows (le_refl _) ?_
    intro rt d c' hc'
    rcases Ledger.row_claim hopen hc' with hfits | hold
    · exact .inl hfits
    · exact .inr (Ledger.row_release hold)
  | release _ _ _ _ _ =>
    exact hns.of_rows (le_refl _) fun rt d c' hc' => .inr (Ledger.row_release hc')
  | remove _ _ _ _ =>
    exact hns.of_rows (le_refl _) fun rt d c' hc' => .inr (Ledger.row_release hc')
  | supply hsupply => exact hns.supply hc hsupply
  | block rt₀ days n hroom =>
    refine hns.of_rows (le_refl _) ?_
    intro rt d c' hc'
    rw [Ledger.adjust_row] at hc'
    obtain ⟨c, hrow, hcc⟩ := Option.map_eq_some_iff.mp hc'
    split at hcc
    · next hkey =>
      left
      obtain ⟨c₀, hc₀, hle⟩ := hroom d hkey.2
      rw [← hkey.1, hrow] at hc₀
      cases hc₀
      rw [← hcc]
      change c.bookedRooms + n ≤ c.totalRooms
      omega
    · right
      rw [← hcc]
      exact hsame hrow
  | tick day hle => exact hns.of_rows hle fun rt d c' hc' => .inr (hsame hc')
  | _ => exact hns

theorem NotOversold.steps {h h' : Hotel} (hns : NotOversold h) (hc : Counted h)
    (hsteps : Steps h h') : NotOversold h' := by
  have hstep : ∀ {h h' : Hotel}, NotOversold h ∧ Counted h → Step h h' →
      NotOversold h' ∧ Counted h' := fun hI hs => ⟨hI.1.step hI.2 hs, hI.2.step hs⟩
  have hboth : NotOversold h' ∧ Counted h' := steps_invariant hstep ⟨hns, hc⟩ hsteps
  exact hboth.1

/-- One room less of its type. -/
theorem roomCount_remove {h : Hotel} {r : Room} {f : Room → Room} (hf : ∀ r, (f r).id = r.id)
    (hfind : h.rooms.find r.id = some r) (hlive : r.deleted = false)
    (hgone : (f r).counts r.roomTypeId = 0) :
    ((({ h with rooms := h.rooms.update r.id f hf } : Hotel).roomCount r.roomTypeId : ℕ) : ℤ) =
      h.roomCount r.roomTypeId + -1 := by
  have hsum := roomCount_update f hf hfind r.roomTypeId
  have hone : r.counts r.roomTypeId = 1 := by simp [Room.counts, hlive]
  omega

theorem notOversold_iff_spare {h h' : Hotel} {δ : UUID → ℤ} {rt₀ : UUID}
    (hns : NotOversold h) (hshift : TotalsShift h h' δ) (hδ : δ rt₀ = -1)
    (hother : ∀ rt, rt ≠ rt₀ → 0 ≤ δ rt) : NotOversold h' ↔ HasSpare h rt₀ := by
  rw [notOversold_iff_of_totals hshift]
  constructor
  · intro hall d c hd hrow
    have hle := hall rt₀ d c hd hrow
    omega
  · intro hspare rt d c hd hrow
    by_cases hrt : rt = rt₀
    · subst hrt
      have hle := hspare d c hd hrow
      omega
    · have hle := hns rt d c hd hrow
      have hpos := hother rt hrt
      omega

theorem notOversold_removeRoom {h : Hotel} {r : Room} (hns : NotOversold h) (hc : Counted h)
    (hfind : h.rooms.find r.id = some r) (hlive : r.deleted = false) :
    NotOversold (h.removeRoom r) ↔ HasSpare h r.roomTypeId := by
  have hcount := roomCount_remove (f := fun r => { r with deleted := true }) (fun _ => rfl) hfind
    hlive (by simp [Room.counts])
  refine notOversold_iff_spare hns (totalsShift_recount hc hcount) (by simp) ?_
  intro rt hne
  simp [hne]

theorem notOversold_moveRoom {h : Hotel} {r : Room} {rt : UUID} (name status : String)
    (hns : NotOversold h) (hc : Counted h) (hfind : h.rooms.find r.id = some r)
    (hlive : r.deleted = false) (hne : rt ≠ r.roomTypeId) :
    NotOversold (h.moveRoom r rt name status) ↔ HasSpare h r.roomTypeId := by
  have hcount := roomCount_remove
    (f := fun r => { r with roomTypeId := rt, name := name, status := status }) (fun _ => rfl)
    hfind hlive (by simp [Room.counts, hne])
  have hplus := roomCount_update
    (fun r => { r with roomTypeId := rt, name := name, status := status }) (fun _ => rfl) hfind rt
  have hold : r.counts rt = 0 := by simp [Room.counts, hne.symm]
  have hnew : ({ r with roomTypeId := rt, name := name, status := status } : Room).counts rt = 1 := by
    simp [Room.counts, hlive]
  have hmore : ((recount { h with
      rooms := h.rooms.update r.id
        (fun r => { r with roomTypeId := rt, name := name, status := status }) fun _ => rfl }
      r.roomTypeId).roomCount rt : ℤ) = h.roomCount rt + 1 := by
    rw [roomCount_recount]
    omega
  refine notOversold_iff_spare hns ((totalsShift_recount hc hcount).recount hc hmore) ?_ ?_
  · simp [hne.symm]
  · intro rt' hrt'
    by_cases heq : rt' = rt
    · simp [heq]
    · simp [heq, hrt']

/-! The operations -/

/-- The operations that change rooms or seed days. -/
def Op.ChangesCapacity : Op → Prop
  | .createRoom _ _ _ _ => True
  | .createRoomsBulk _ _ _ _ => True
  | .patchRoom _ _ _ _ => True
  | .softDeleteRoom _ => True
  | .bulkSeed _ => True
  | .extendLedger _ => True
  | _ => False

/-- The operation asks to take the room away from its type. -/
def Op.TakesRoom (op : Op) (db : Db) (r : Room) : Prop :=
  op.RemovesRoom db r ∨ ∃ rt, op.MovesRoom db r rt

section Operations
variable {db db' : Db} {op : Op}

theorem Op.ChangesCapacity.api (h : op.ChangesCapacity) : op.Api := by
  cases op with
  | ingest env link revisionFlat => exact h
  | _ => trivial

theorem Op.Took.takes {r : Room} (h : op.Took db db' r) : op.TakesRoom db r := by
  cases h with
  | removed hop _ _ _ => exact .inl hop
  | moved rt _ _ hop _ _ => exact .inr ⟨rt, hop⟩

/-- A request to take a room away that returns has done so. -/
theorem Op.TakesRoom.took {r : Room} {u : Unit} (h : op.TakesRoom db r)
    (hexec : op.prog.exec db = (.ok u, db')) : op.Took db db' r := by
  rcases h with ⟨rfl, hfind⟩ | ⟨rt, name, status, rfl, hfind, hne⟩
  · obtain ⟨r', hfind', hlive, hunused, hhotel⟩ := softDeleteRoom_removes hexec
    cases hfind.symm.trans hfind'
    exact .removed ⟨rfl, hfind⟩ hlive hunused hhotel
  · obtain ⟨r', hfind', hlive, hcases⟩ := patchRoom_cases hexec
    cases hfind.symm.trans hfind'
    rcases hcases with ⟨hsame, -⟩ | ⟨-, name', status', hhotel⟩
    · exact absurd hsame hne
    · exact .moved rt name' status' ⟨name, status, rfl, hfind, hne⟩ hlive hhotel

theorem Op.Took.notOversold_iff {r : Room} (h : op.Took db db' r) (hns : NotOversold db.hotel)
    (hc : Counted db.hotel) : NotOversold db'.hotel ↔ HasSpare db.hotel r.roomTypeId := by
  cases h with
  | removed hop hlive _ hhotel =>
    rw [hhotel]
    exact notOversold_removeRoom hns hc hop.2 hlive
  | moved rt name status hop hlive hhotel =>
    obtain ⟨_, _, -, hfind, hne⟩ := hop
    rw [hhotel]
    exact notOversold_moveRoom name status hns hc hfind hlive hne

/-- An operation of the API makes no day oversold exactly when the type of a room that
it takes away has one to spare on every row from today on. -/
theorem api_not_oversold {u : Unit} (hshape : Shaped db.hotel) (hc : Counted db.hotel)
    (hns : NotOversold db.hotel) (hapi : op.Api) (hexec : op.prog.exec db = (.ok u, db')) :
    NotOversold db'.hotel ↔ ∀ r, op.TakesRoom db r → HasSpare db.hotel r.roomTypeId := by
  constructor
  · intro hns' r htakes
    exact ((htakes.took hexec).notOversold_iff hns hc).mp hns'
  · intro hspare
    rcases op.api_refines hapi hshape hexec with hsteps | ⟨r, htook⟩
    · exact hns.steps hc hsteps
    · exact (htook.notOversold_iff hns hc).mpr (hspare r htook.takes)

end Operations

theorem capacity_change_not_oversold {db db' : Db} {op : Op} (h : Reachable anyOp db)
    (hns : NotOversold db.hotel) (hop : op.ChangesCapacity)
    (hexec : op.prog.exec db = (.ok (), db')) :
    NotOversold db'.hotel ↔ ∀ r, op.TakesRoom db r → HasSpare db.hotel r.roomTypeId :=
  api_not_oversold h.shaped h.counted hns hop.api hexec

/-- Runs of the API that take no room away. -/
def keepsRooms (op : Op) (_ : Db) : Prop := op.Api ∧ ∀ db r, ¬ op.TakesRoom db r

theorem Reachable.notOversold {db : Db} (h : Reachable keepsRooms db) : NotOversold db.hotel := by
  refine h.invariant ?_ ?_
  · intro today rt d c _ hc
    cases hc
  · intro op db db' hreach hadm hns hexec
    refine (api_not_oversold hreach.shaped hreach.counted hns hadm.1 hexec).mpr ?_
    intro r htakes
    exact absurd htakes (hadm.2 db r)

theorem oversold_of_row {db : Db} {rt : UUID} {d : ℤ} {c : Counts} (hd : db.today ≤ d)
    (hrow : db.ledger.row rt d = some c) (hgt : c.totalRooms < c.bookedRooms + c.blockedRooms) :
    ¬ NotOversold db.hotel := by
  intro hns
  have hle := hns rt d c hd hrow
  omega

/-- Two rooms of one type; on the third day one is sold, without a room, and the other
one is blocked. -/
def Demo.full : Db :=
  run (.empty 0) (openHotel ++ [bookStay, .assignBookingRoom 1000 none,
    .createRoom (env 0 0 101) 10 "102" "available", .override ⟨10, 3, 3, 1, by decide, by decide⟩])

theorem Demo.full_reachable : Reachable keepsRooms Demo.full := by
  refine reachable_run (.empty 0) ?_
  intro op hop db
  simp only [Demo.openHotel, List.cons_append, List.nil_append, List.mem_cons,
    List.not_mem_nil, or_false] at hop
  rcases hop with rfl | rfl | rfl | rfl | rfl | rfl | rfl
  all_goals
    refine ⟨trivial, ?_⟩
    rintro db r (⟨hop, -⟩ | ⟨rt, name, status, hop, -⟩) <;> cases hop

/-- One more room keeps the days within their totals. -/
theorem capacity_change_demo :
    NotOversold ((Op.createRoom (Demo.env 0 0 102) 10 "103" "available").prog.transact
      Demo.full).hotel := by
  have hreach : Reachable anyOp Demo.full := Demo.full_reachable.mono fun _ _ _ => trivial
  have hok : ((Op.createRoom (Demo.env 0 0 102) 10 "103" "available").prog.exec Demo.full).1 =
      .ok () := by decide +kernel
  have hexec := exec_eq_transact hok
  refine (capacity_change_not_oversold hreach Demo.full_reachable.notOversold (by trivial)
    hexec).mpr ?_
  rintro r (⟨hop, -⟩ | ⟨rt, name, status, hop, -⟩) <;> cases hop

/-- Deleting one of the two rooms: no line is assigned to it, so it is allowed. -/
theorem soft_delete_oversells :
    Reachable anyOp Demo.full ∧ NotOversold Demo.full.hotel ∧
      ((Op.softDeleteRoom 100).prog.exec Demo.full).1 = .ok () ∧
      ¬ NotOversold ((Op.softDeleteRoom 100).prog.transact Demo.full).hotel := by
  have hrow : ((Op.softDeleteRoom 100).prog.transact Demo.full).ledger.row 10 3 =
      some ⟨1, 1, 1⟩ := by decide +kernel
  have htoday : ((Op.softDeleteRoom 100).prog.transact Demo.full).today ≤ 3 := by decide +kernel
  exact ⟨Demo.full_reachable.mono fun _ _ _ => trivial, Demo.full_reachable.notOversold,
    by decide +kernel, oversold_of_row htoday hrow (by decide)⟩

end OpenPms
