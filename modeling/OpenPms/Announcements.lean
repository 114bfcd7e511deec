import OpenPms.RatesAdmin
import OpenPms.Release
import OpenPms.Statements
import OpenPms.TotalRooms

/-!
Which requests tell the channel manager that the availability has changed. Pushing is left
to each route; the ledger is changed by the services below them.
-/
namespace OpenPms

open KeyedTable Transaction Prog Hotel

/-- What is sold of a night; nothing without a ledger row. -/
def Hotel.availableRooms (h : Hotel) (rt : UUID) (d : ℤ) : ℤ :=
  (h.ledger.row rt d).elim 0 fun c => c.totalRooms - c.bookedRooms - c.blockedRooms

/-- The push covers the room type and the date. -/
def Ari.Push.Covers (rt : UUID) (d : ℤ) : Ari.Push → Prop
  | .availability _ rt' dates => rt' = rt ∧ d ∈ dates
  | _ => False

/-- The requests and the task whose ledger changes are in question, and one route that
pushes. -/
inductive LedgerRequest where
  | postBooking (env : Env) (body : BookingCreateRequest)
  | deleteBookingById (bid : UUID)
  | nightAudit (env : Env) (order : RowOrder) (propertyId : UUID) (todayLocal : ℤ)
  | postRoom (env : Env) (rt : UUID) (name status : String)
  | postRoomsBulk (env : Env) (rt : UUID) (items : List RoomBulkCreateItem)
      (onConflict : OnConflict)
  | patchRoomById (rid : UUID) (name status : Option String) (roomTypeId : Option UUID)
  | deleteRoom (rid : UUID)
  | putAvailabilityLedgerSeed (body : BulkAvailabilityLedgerSeedRequest)

/-- The route with the pushes that it schedules. -/
def LedgerRequest.prog : LedgerRequest → Tx (List Ari.Push)
  | postBooking env body => do
    let _ ← createBooking env body
    let nights ← stayNights body.checkIn body.checkOut
    pure (Ari.scheduled (.availability body.propertyId body.roomTypeId) nights)
  | deleteBookingById bid => do
    let _ ← deleteBooking bid
    pure []
  | nightAudit env order propertyId todayLocal => do
    let _ ← autoNoShowConfirmedPastCheckin env order propertyId todayLocal
    pure []
  | postRoom env rt name status => do
    let _ ← createRoom env rt name status
    pure []
  | postRoomsBulk env rt items onConflict => do
    let _ ← createRoomsBulk env rt items onConflict
    pure []
  | patchRoomById rid name status roomTypeId => do
    patchRoom rid name status roomTypeId
    pure []
  | deleteRoom rid => do
    softDeleteRoom rid
    pure []
  | putAvailabilityLedgerSeed body => do
    let _ ← bulkSeedAvailabilityLedger body
    pure []

/-- Every night from today on whose availability has changed is covered by a push. -/
def Announced (h h' : Hotel) (pushes : List Ari.Push) : Prop :=
  ∀ rt d, h.today ≤ d → h'.availableRooms rt d ≠ h.availableRooms rt d →
    ∃ push ∈ pushes, push.Covers rt d

/-! Recounts -/

/-- Totals may change, the other counters and the day do not. -/
structure Recounted (h h' : Hotel) : Prop where
  today : h'.today = h.today
  counters : ∀ rt d, (h'.ledger.row rt d).map (fun c => (c.bookedRooms, c.blockedRooms)) =
    (h.ledger.row rt d).map fun c => (c.bookedRooms, c.blockedRooms)

theorem Recounted.trans {h h' h'' : Hotel} (hr : Recounted h h') (hr' : Recounted h' h'') :
    Recounted h h'' :=
  ⟨hr'.today.trans hr.today, fun rt d => (hr'.counters rt d).trans (hr.counters rt d)⟩

theorem recounted_self (h : Hotel) (rt : UUID) : Recounted h (h.recount rt) := by
  refine ⟨rfl, fun r d => ?_⟩
  simp only [recount, Ledger.setTotal, Ledger.adjust_row, Option.map_map]
  congr 1
  funext c
  simp only [Function.comp_apply]
  split <;> rfl

theorem recounted_recount (h : Hotel) (rooms : Table Room.id) (rt : UUID) :
    Recounted h (recount { h with rooms := rooms } rt) :=
  have hself := recounted_self { h with rooms := rooms } rt
  ⟨hself.today, hself.counters⟩

/-- Under a recount a night changes with the number of rooms of its type. -/
theorem Recounted.changed_iff {h h' : Hotel} (hr : Recounted h h') (hc : Counted h)
    (hc' : Counted h') {rt : UUID} {d : ℤ} (hd : h.today ≤ d) :
    h'.availableRooms rt d ≠ h.availableRooms rt d ↔
      (h.ledger.row rt d).isSome ∧ h'.roomCount rt ≠ h.roomCount rt := by
  have hcounters := hr.counters rt d
  unfold Hotel.availableRooms
  cases hrow : h.ledger.row rt d with
  | none =>
    rw [hrow, Option.map_none, Option.map_eq_none_iff] at hcounters
    simp [hcounters]
  | some c =>
    rw [hrow, Option.map_some] at hcounters
    obtain ⟨c', hrow', heq⟩ := Option.map_eq_some_iff.mp hcounters
    obtain ⟨hbooked, hblocked⟩ := Prod.mk.inj heq
    have htotal := hc rt d c hd hrow
    have htotal' := hc' rt d c' (hr.today ▸ hd) hrow'
    rw [hrow']
    simp only [Option.elim_some, Option.isSome_some, true_and, ne_eq]
    rw [htotal, htotal', hbooked, hblocked]
    omega

/-! Rooms -/

/-- The type has ledger rows from today on. -/
def Hotel.HasDays (h : Hotel) (rt : UUID) : Prop :=
  ∃ d, h.today ≤ d ∧ (h.ledger.row rt d).isSome

/-- No push is needed exactly when no availability has changed. -/
theorem announced_nil {h h' : Hotel} : Announced h h' [] ↔
    ∀ rt d, h.today ≤ d → h'.availableRooms rt d = h.availableRooms rt d := by
  constructor
  · intro hall rt d hd
    by_contra hne
    obtain ⟨push, hpush, -⟩ := hall rt d hd hne
    exact absurd hpush List.not_mem_nil
  · exact fun hsame rt d hd hne => absurd (hsame rt d hd) hne

/-- A recount goes unannounced exactly when a type with days has another number of rooms. -/
theorem Recounted.announced_iff {h h' : Hotel} (hr : Recounted h h') (hc : Counted h)
    (hc' : Counted h') :
    Announced h h' [] ↔ ¬ ∃ rt, h'.roomCount rt ≠ h.roomCount rt ∧ h.HasDays rt := by
  rw [announced_nil]
  constructor
  · rintro hsame ⟨rt, hcount, d, hd, hrow⟩
    exact (hr.changed_iff hc hc' hd).mpr ⟨hrow, hcount⟩ (hsame rt d hd)
  · intro hnone rt d hd
    by_contra hne
    obtain ⟨hrow, hcount⟩ := (hr.changed_iff hc hc' hd).mp hne
    exact hnone ⟨rt, hcount, d, hd, hrow⟩

section Rooms
variable {db db' : Db}

theorem createRoom_adds {env : Env} {rt : UUID} {name status : String} {r : Room}
    (h : (createRoom env rt name status).exec db = (.ok r, db')) :
    r.roomTypeId = rt ∧ r.deleted = false ∧ db.rooms.find r.id = none ∧
      db'.hotel = recount { db.hotel with rooms := db.rooms.insert r } rt := by
  simp only [createRoom, exec_bind_ok, exec_recalculate, exec_pure, Prod.mk.injEq,
    Except.ok.injEq] at h
  obtain ⟨_, _, hst, _, _, hreq, _, _, hflush, _, _, ⟨-, rfl⟩, rfl, rfl⟩ := h
  have hdb₁ := exec_roomStatus_ok hst
  have hdb₂ := exec_requireRoomType_ok hreq
  subst hdb₁ hdb₂
  obtain ⟨hfresh, rfl⟩ := exec_flushRoom_ok hflush
  exact ⟨rfl, rfl, hfresh, rfl⟩

theorem postRoom_announced {env : Env} {rt : UUID} {name status : String} {r : Room}
    (hc : Counted db.hotel) (h : (createRoom env rt name status).exec db = (.ok r, db')) :
    Announced db.hotel db'.hotel [] ↔ ¬ db.hotel.HasDays rt := by
  obtain ⟨hrt, hlive, hfresh, hhotel⟩ := createRoom_adds h
  have hcount : ∀ x, db'.hotel.roomCount x = db.hotel.roomCount x + r.counts x := by
    intro x
    rw [hhotel]
    exact roomCount_insert rfl hfresh x
  have hc' : Counted db'.hotel := by
    rw [hhotel]
    refine hc.recount_of_rooms fun x hne => ?_
    refine (roomCount_insert (h := db.hotel) rfl hfresh x).trans ?_
    simp [Room.counts, hrt, hne.symm]
  have hr : Recounted db.hotel db'.hotel := hhotel ▸ recounted_recount _ _ _
  rw [hr.announced_iff hc hc', not_iff_not]
  constructor
  · rintro ⟨x, hne, hdays⟩
    rw [hcount] at hne
    by_cases hx : x = rt
    · exact hx ▸ hdays
    · exact absurd (by simp [Room.counts, hrt, Ne.symm hx]) hne
  · intro hdays
    refine ⟨rt, ?_, hdays⟩
    rw [hcount]
    simp [Room.counts, hrt, hlive]

/-- The rooms of a batch are inserted one after the other. -/
theorem exec_flushRooms_ok {rt : UUID} {rooms : List Room} {u : Unit}
    (hrooms : ∀ r ∈ rooms, r.roomTypeId = rt ∧ r.deleted = false)
    (h : (forEach rooms flushRoom).exec db = (.ok u, db')) :
    ∃ table, db' = { db with rooms := table } ∧ ∀ x,
      ({ db.hotel with rooms := table } : Hotel).roomCount x =
        db.hotel.roomCount x + if x = rt then rooms.length else 0 := by
  induction rooms generalizing db with
  | nil =>
    cases h
    refine ⟨_, rfl, fun x => ?_⟩
    rw [List.length_nil, ite_self, add_zero]
    rfl
  | cons r rest ih =>
    obtain ⟨_, db₁, hflush, hrest⟩ := exec_bind_ok.mp h
    obtain ⟨hfresh, rfl⟩ := exec_flushRoom_ok hflush
    obtain ⟨hrt, hlive⟩ := hrooms r (List.mem_cons_self ..)
    obtain ⟨table, rfl, hcount⟩ := ih (fun r' hr' => hrooms r' (List.mem_cons_of_mem _ hr')) hrest
    refine ⟨table, rfl, fun x => ?_⟩
    have hinsert : ({ db.hotel with rooms := db.rooms.insert r } : Hotel).roomCount x =
        db.hotel.roomCount x + r.counts x := roomCount_insert rfl hfresh x
    refine (hcount x).trans ?_
    show ({ db.hotel with rooms := db.rooms.insert r } : Hotel).roomCount x + _ = _
    rw [hinsert, List.length_cons]
    by_cases hx : x = rt
    · simp only [Room.counts, hrt, hlive, hx, and_self, if_true]
      omega
    · simp [Room.counts, hrt, hx, Ne.symm hx]

/-- A name of the batch that no room of the type has leads to a room. -/
theorem planBulkRooms_created {env : Env} {rt : UUID} {mode : OnConflict} {existing : List String}
    {items : List RoomBulkCreateItem} {r : List Room × List String}
    (h : (planBulkRooms env rt mode existing items).exec db = (.ok r, db')) :
    r.1 = [] ↔ ∀ item ∈ items, Text.strip item.name ∈ existing := by
  induction items generalizing r db' with
  | nil =>
    cases h
    simp
  | cons item rest ih =>
    unfold planBulkRooms at h
    simp only at h
    split at h
    · next hold =>
      simp only [exec_bind_ok, exec_raiseIf_ok, exec_pure, Prod.mk.injEq, Except.ok.injEq] at h
      obtain ⟨_, _, ⟨-, rfl⟩, _, _, hrest, rfl, -⟩ := h
      have hiff := ih hrest
      simp [hiff, hold]
    · next hnew =>
      simp only [exec_bind_ok, exec_pure, Prod.mk.injEq, Except.ok.injEq] at h
      obtain ⟨_, _, -, rfl, -⟩ := h
      simp [hnew]

theorem postRoomsBulk_announced {env : Env} {rt : UUID} {items : List RoomBulkCreateItem}
    {mode : OnConflict} {r : List Room × List String} (hc : Counted db.hotel)
    (h : (createRoomsBulk env rt items mode).exec db = (.ok r, db')) :
    Announced db.hotel db'.hotel [] ↔
      ¬ ((∃ item ∈ items, ∀ room ∈ db.rooms.rows, room.roomTypeId = rt → room.deleted = false →
          room.name ≠ Text.strip item.name) ∧ db.hotel.HasDays rt) := by
  simp only [createRoomsBulk, exec_bind_ok, exec_select, Prod.mk.injEq, Except.ok.injEq] at h
  obtain ⟨_, _, hreq, _, _, hcheck, existing, _, ⟨hexisting, rfl⟩, ⟨created, skipped⟩, _, hplan,
    h⟩ := h
  have hdb₁ := exec_requireRoomType_ok hreq
  have hdb₂ := exec_checkBulkItems_ok hcheck
  subst hdb₁ hdb₂
  obtain ⟨rfl, hall⟩ := exec_planBulkRooms_ok hplan
  have hnames : (∃ item ∈ items, ∀ room ∈ db.rooms.rows, room.roomTypeId = rt →
      room.deleted = false → room.name ≠ Text.strip item.name) ↔ created ≠ [] := by
    rw [ne_eq, planBulkRooms_created hplan, ← hexisting]
    simp only [List.mem_map, List.mem_filter, Bool.and_eq_true, decide_eq_true_eq,
      Bool.not_eq_true', not_forall, not_exists, not_and, exists_prop, and_imp]
  rw [hnames]
  by_cases hnil : created = []
  · rw [if_pos hnil] at h
    cases h
    exact iff_of_true (announced_nil.mpr fun _ _ _ => rfl) fun hand => hand.1 hnil
  · rw [if_neg hnil] at h
    simp only [exec_bind_ok, exec_recalculate, exec_pure, Prod.mk.injEq] at h
    obtain ⟨_, db₁, hflush, _, _, ⟨-, rfl⟩, -, rfl⟩ := h
    obtain ⟨table, rfl, hcount⟩ := exec_flushRooms_ok hall hflush
    have hc' : Counted (recount { db.hotel with rooms := table } rt) :=
      hc.recount_of_rooms fun x hne => by rw [hcount x, if_neg hne, add_zero]
    have hr := recounted_recount db.hotel table rt
    refine (hr.announced_iff hc hc').trans (not_congr ⟨?_, ?_⟩)
    · rintro ⟨x, hne, hdays⟩
      rw [roomCount_recount, hcount] at hne
      by_cases hx : x = rt
      · exact ⟨hnil, hx ▸ hdays⟩
      · simp [hx] at hne
    · rintro ⟨-, hdays⟩
      have hpos := List.length_pos_iff.mpr hnil
      refine ⟨rt, ?_, hdays⟩
      rw [roomCount_recount, hcount, if_pos rfl]
      show db.hotel.roomCount rt + created.length ≠ db.hotel.roomCount rt
      omega

/-- A removed room is one less of its type. -/
theorem deleteRoom_announced {rid : UUID} {u : Unit} (hc : Counted db.hotel)
    (h : (softDeleteRoom rid).exec db = (.ok u, db')) :
    Announced db.hotel db'.hotel [] ↔
      ¬ ∃ r, db.rooms.find rid = some r ∧ db.hotel.HasDays r.roomTypeId := by
  obtain ⟨r, hfind, hlive, hunused, hhotel⟩ := softDeleteRoom_removes h
  obtain ⟨-, rfl⟩ := Table.find_eq_some.mp hfind
  have hcount : ∀ x, (db.hotel.removeRoom r).roomCount x + r.counts x = db.hotel.roomCount x := by
    intro x
    have hsum := roomCount_update (h := db.hotel) (fun r => { r with deleted := true })
      (fun _ => rfl) hfind x
    rw [removeRoom, roomCount_recount]
    simpa [Room.counts] using hsum
  have hc' : Counted (db.hotel.removeRoom r) := hc.take (.remove hfind hlive hunused)
  have hr : Recounted db.hotel (db.hotel.removeRoom r) := recounted_recount _ _ _
  rw [hhotel, hr.announced_iff hc hc', not_iff_not]
  constructor
  · rintro ⟨x, hne, hdays⟩
    refine ⟨r, hfind, ?_⟩
    by_cases hx : r.roomTypeId = x
    · exact hx ▸ hdays
    · have hsum := hcount x
      simp only [Room.counts, hx, false_and, if_false, add_zero] at hsum
      exact absurd hsum hne
  · rintro ⟨r', hfind', hdays⟩
    cases hfind.symm.trans hfind'
    refine ⟨r.roomTypeId, ?_, hdays⟩
    have hsum := hcount r.roomTypeId
    simp only [Room.counts, hlive, and_self, if_true] at hsum
    omega

/-- A moved room is one less of its old type and one more of its new type. -/
theorem patchRoom_announced {rid : UUID} {name status : Option String} {newType : Option UUID}
    {u : Unit} (hc : Counted db.hotel)
    (h : (patchRoom rid name status newType).exec db = (.ok u, db')) :
    Announced db.hotel db'.hotel [] ↔ ¬ ∃ r rt, db.rooms.find rid = some r ∧ newType = some rt ∧
      rt ≠ r.roomTypeId ∧ (db.hotel.HasDays r.roomTypeId ∨ db.hotel.HasDays rt) := by
  obtain ⟨r, hfind, hlive, ⟨hsame, name', status', hhotel⟩ | ⟨hne, name', status', hhotel⟩⟩ :=
    patchRoom_cases h
  · rw [hhotel]
    refine iff_of_true (announced_nil.mpr fun _ _ _ => rfl) ?_
    rintro ⟨r', rt, hfind', rfl, hne, -⟩
    cases hfind.symm.trans hfind'
    exact hne hsame
  · obtain ⟨-, rfl⟩ := Table.find_eq_some.mp hfind
    cases newType with
    | none => exact absurd rfl hne
    | some rt =>
      have hne : rt ≠ r.roomTypeId := hne
      have hcount : ∀ x, (db.hotel.moveRoom r rt name' status').roomCount x + r.counts x =
          db.hotel.roomCount x + if x = rt then 1 else 0 := by
        intro x
        have hsum := roomCount_update (h := db.hotel)
          (fun r => { r with roomTypeId := rt, name := name', status := status' }) (fun _ => rfl)
          hfind x
        rw [moveRoom, roomCount_recount, roomCount_recount]
        simpa [Room.counts, hlive, eq_comm] using hsum
      have hc' : Counted (db.hotel.moveRoom r rt name' status') :=
        hc.take (.move rt name' status' hfind hlive hne)
      have hr : Recounted db.hotel (db.hotel.moveRoom r rt name' status') :=
        (recounted_recount db.hotel _ r.roomTypeId).trans (recounted_self _ rt)
      rw [hhotel]
      show Announced _ (db.hotel.moveRoom r rt name' status') [] ↔ _
      rw [hr.announced_iff hc hc', not_iff_not]
      constructor
      · rintro ⟨x, hchanged, hdays⟩
        refine ⟨r, rt, hfind, rfl, hne, ?_⟩
        by_cases hold : r.roomTypeId = x
        · exact .inl (hold ▸ hdays)
        · by_cases hx : x = rt
          · exact .inr (hx ▸ hdays)
          · have hsum := hcount x
            simp only [Room.counts, hold, hx, false_and, if_false, add_zero] at hsum
            exact absurd hsum hchanged
      · rintro ⟨r', rt', hfind', hrt', -, hdays⟩
        cases hfind.symm.trans hfind'
        cases hrt'
        rcases hdays with hdays | hdays
        · refine ⟨r.roomTypeId, ?_, hdays⟩
          have hsum := hcount r.roomTypeId
          simp only [Room.counts, hlive, and_self, if_true, if_neg (Ne.symm hne), add_zero] at hsum
          omega
        · refine ⟨rt, ?_, hdays⟩
          have hsum := hcount rt
          simp only [Room.counts, Ne.symm hne, false_and, if_false, if_true, add_zero] at hsum
          omega

end Rooms

/-! Seeds -/

section Seed
variable {db db' : Db}

/-- Rows of one count per type: a seeded day gets it, and keeps its other counters. -/
theorem seedAll_row (total : UUID → ℤ) {rows : List SeedRow}
    (htotals : ∀ row ∈ rows, row.totalRooms = total row.roomTypeId) (l : Ledger) (rt : UUID)
    (d : ℤ) : (l.seedAll rows).row rt d =
      if ∃ row ∈ rows, row.roomTypeId = rt ∧ row.date = d then
        some ((l.row rt d).elim ⟨total rt, 0, 0⟩ fun c => { c with totalRooms := total rt })
      else l.row rt d := by
  induction rows generalizing l with
  | nil => simp [Ledger.seedAll]
  | cons row rest ih =>
    have htotal := htotals row (List.mem_cons_self ..)
    have hrest := ih (fun row hrow => htotals row (List.mem_cons_of_mem _ hrow))
      (l.upsert row.roomTypeId [row.date] ⟨row.totalRooms, 0, 0⟩
        fun c => { c with totalRooms := row.totalRooms })
    refine hrest.trans ?_
    rw [Ledger.upsert_row]
    by_cases hkey : row.roomTypeId = rt ∧ row.date = d
    · obtain ⟨rfl, rfl⟩ := hkey
      rw [htotal]
      cases l.row row.roomTypeId row.date <;> simp
    · have hkey' : ¬ (rt = row.roomTypeId ∧ d ∈ [row.date]) := by
        rw [List.mem_singleton]
        exact fun h => hkey ⟨h.1.symm, h.2.symm⟩
      simp only [hkey', if_false, List.exists_mem_cons_iff, hkey, false_or]

theorem exec_seedRows_keys {segments : List AvailabilityLedgerSeedSegment} {rows : List SeedRow}
    (h : (seedRows segments).exec db = (.ok rows, db')) (rt : UUID) (d : ℤ) :
    (∃ row ∈ rows, row.roomTypeId = rt ∧ row.date = d) ↔
      ∃ seg ∈ segments, seg.roomTypeId = rt ∧ seg.startDate ≤ d ∧ d ≤ seg.endDate := by
  induction segments generalizing rows db' with
  | nil =>
    cases h
    simp
  | cons seg rest ih =>
    simp only [seedRows, exec_bind_ok, exec_select, exec_raiseIf_ok, exec_pure, Prod.mk.injEq,
      Except.ok.injEq] at h
    obtain ⟨_, _, ⟨rfl, rfl⟩, _, _, ⟨-, rfl⟩, _, _, ⟨rfl, rfl⟩, _, _, ⟨-, rfl⟩, more, _, hmore,
      rfl, -⟩ := h
    have hrest := ih hmore
    rw [List.exists_mem_cons_iff, ← hrest]
    constructor
    · rintro ⟨row, hrow, hkey⟩
      rcases List.mem_append.mp hrow with hseg | hold
      · obtain ⟨x, hx, rfl⟩ := List.mem_map.mp hseg
        rw [iterInclusiveDates, mem_daysBetween] at hx
        obtain ⟨hrt, hdate⟩ := hkey
        have hxd : x = d := hdate
        exact .inl ⟨hrt, by omega, by omega⟩
      · exact .inr ⟨row, hold, hkey⟩
    · rintro (⟨hrt, hstart, hend⟩ | ⟨row, hrow, hkey⟩)
      · refine ⟨_, List.mem_append_left _ (List.mem_map_of_mem ?_), hrt, rfl⟩
        rw [iterInclusiveDates, mem_daysBetween]
        omega
      · exact ⟨row, List.mem_append_right _ hrow, hkey⟩

/-- The days of a seed that had no row yet become available. -/
theorem seed_announced {body : BulkAvailabilityLedgerSeedRequest} {n : ℕ} (hc : Counted db.hotel)
    (h : (bulkSeedAvailabilityLedger body).exec db = (.ok n, db')) :
    Announced db.hotel db'.hotel [] ↔
      ¬ ∃ seg ∈ body.segments, db.hotel.roomCount seg.roomTypeId ≠ 0 ∧
        ∃ d, seg.startDate ≤ d ∧ d ≤ seg.endDate ∧ db.today ≤ d ∧
          db.ledger.row seg.roomTypeId d = none := by
  simp only [bulkSeedAvailabilityLedger, exec_bind_ok, exec_modify, exec_pure,
    Prod.mk.injEq] at h
  obtain ⟨rows, _, hrows, _, _, ⟨-, rfl⟩, -, rfl⟩ := h
  obtain ⟨rfl, htotals⟩ := exec_seedRows_ok hrows
  have hkeys := exec_seedRows_keys hrows
  rw [upsertSeedRows_eq, announced_nil]
  have hrow := seedAll_row (fun rt => (db.hotel.roomCount rt : ℤ)) htotals db.ledger
  have hnew : ∀ rt d, db.today ≤ d →
      (Hotel.availableRooms { db.hotel with ledger := db.ledger.seedAll rows } rt d =
          db.hotel.availableRooms rt d ↔
        ¬ ((∃ seg ∈ body.segments, seg.roomTypeId = rt ∧ seg.startDate ≤ d ∧ d ≤ seg.endDate) ∧
          db.ledger.row rt d = none ∧ db.hotel.roomCount rt ≠ 0)) := by
    intro rt d hd
    unfold Hotel.availableRooms
    show ((db.ledger.seedAll rows).row rt d).elim 0 _ = (db.ledger.row rt d).elim 0 _ ↔ _
    rw [hrow, ← hkeys rt d]
    by_cases hseg : ∃ row ∈ rows, row.roomTypeId = rt ∧ row.date = d
    · rw [if_pos hseg]
      cases hday : db.ledger.row rt d with
      | none => simp [hseg]
      | some c =>
        have htotal : c.totalRooms = db.hotel.roomCount rt := hc rt d c hd hday
        simp [htotal]
    · simp [hseg]
  constructor
  · rintro hsame ⟨seg, hseg, hcount, d, hstart, hend, hd, hday⟩
    exact (hnew _ d hd).mp (hsame _ d hd) ⟨⟨seg, hseg, rfl, hstart, hend⟩, hday, hcount⟩
  · intro hnone rt d hd
    refine (hnew rt d hd).mpr ?_
    rintro ⟨⟨seg, hseg, rfl, hstart, hend⟩, hday, hcount⟩
    exact hnone ⟨seg, hseg, hcount, d, hstart, hend, hd, hday⟩

end Seed

/-! Bookings -/

theorem availableRooms_shift (h h' : Hotel) {rt : UUID} {nights : List ℤ} {n : ℤ}
    (hledger : h'.ledger = h.ledger.shift rt nights n) (r : UUID) (d : ℤ) :
    h'.availableRooms r d = if r = rt ∧ d ∈ nights ∧ (h.ledger.row r d).isSome then
      h.availableRooms r d - n else h.availableRooms r d := by
  unfold Hotel.availableRooms
  rw [hledger, Ledger.shift, Ledger.adjust_row]
  cases h.ledger.row r d with
  | none => simp
  | some c =>
    by_cases hkey : r = rt ∧ d ∈ nights
    · simp only [hkey, and_self, if_true, Option.map_some, Option.elim_some, Option.isSome_some]
      omega
    · have hkey' : ¬ (r = rt ∧ d ∈ nights ∧ (some c).isSome = true) := fun hall =>
        hkey ⟨hall.1, hall.2.1⟩
      simp only [hkey, hkey', if_false, Option.map_some, Option.elim_some]

section Bookings
variable {db db' : Db}

/-- Nights are released: all of them change. -/
theorem changed_of_release (h h' : Hotel) {b : Booking} {rt : UUID}
    (hrt : lineRoomTypes b.lines = [rt]) (hrel : h.ledger.Releasable rt b.nights)
    (hledger : h'.ledger = h.ledger.shift rt b.nights (-1)) (r : UUID) (d : ℤ) :
    h.availableRooms r d ≤ h'.availableRooms r d ∧
      (h'.availableRooms r d ≠ h.availableRooms r d ↔
        lineRoomTypes b.lines = [r] ∧ d ∈ b.nights) := by
  rw [availableRooms_shift _ _ hledger, hrt]
  by_cases hkey : r = rt ∧ d ∈ b.nights
  · obtain ⟨rfl, hd⟩ := hkey
    obtain ⟨c, hc, -⟩ := hrel d hd
    simp [hd, hc]
  · have hnot : ¬ ([rt] = [r] ∧ d ∈ b.nights) := by
      rintro ⟨heq, hd⟩
      exact hkey ⟨(List.singleton_inj.mp heq).symm, hd⟩
    have hnot' : ¬ (r = rt ∧ d ∈ b.nights ∧ (h.ledger.row r d).isSome) :=
      fun hall => hkey ⟨hall.1, hall.2.1⟩
    rw [if_neg hnot']
    exact ⟨le_refl _, iff_of_false (fun hne => hne rfl) hnot⟩

theorem deleteBooking_announced {bid : UUID} {r : Booking} (hshape : Shaped db.hotel)
    (h : (deleteBooking bid).exec db = (.ok r, db')) :
    Announced db.hotel db'.hotel [] ↔
      ¬ ∃ b, db.bookings.find bid = some b ∧ b.status.Active ∧ ∃ d ∈ b.nights, db.today ≤ d := by
  simp only [deleteBooking, exec_bind_ok, exec_select, Prod.mk.injEq, Except.ok.injEq] at h
  obtain ⟨found, _, ⟨hfound, rfl⟩, h⟩ := h
  split at h
  · cases h
  · next b =>
    obtain ⟨hmem, rfl⟩ := Table.find_eq_some.mp hfound
    simp only [exec_bind_ok, exec_raiseIf_ok, exec_runIf_ok, exec_pure, Prod.mk.injEq] at h
    obtain ⟨_, _, ⟨-, rfl⟩, _, db₁, hrel, _, db₂, herase, -, hdb⟩ := h
    subst hdb
    have hledger : db₂.hotel.ledger = db₁.ledger := by
      rw [hotel_eraseBooking herase]
      rfl
    rw [announced_nil]
    rcases hrel with ⟨hactive, hrel⟩ | ⟨hinactive, rfl⟩
    · obtain ⟨rt, hrt⟩ := (hshape b hmem).lineRoomTypes
      obtain ⟨hreleasable, rfl⟩ := (exec_release_ok hrt).mp hrel
      have hchanged := changed_of_release db.hotel db₂.hotel hrt hreleasable hledger
      constructor
      · rintro hsame ⟨b', hb', -, d, hd, htoday⟩
        cases hfound.symm.trans hb'
        exact (hchanged rt d).2.mpr ⟨hrt, hd⟩ (hsame rt d htoday)
      · intro hnone rt' d htoday
        by_contra hne
        exact hnone ⟨b, hfound, hactive, d, ((hchanged rt' d).2.mp hne).2, htoday⟩
    · refine iff_of_true (fun rt d _ => ?_) ?_
      · unfold Hotel.availableRooms
        rw [hledger]
        rfl
      · rintro ⟨b', hb', hactive, -⟩
        cases hfound.symm.trans hb'
        exact hinactive hactive

/-- A confirmed booking that the audit comes upon is marked, or ends it. -/
theorem exec_markNoShow_marks {env : Env} {b : Booking} {n : ℕ} (hshape : Shaped db.hotel)
    (hfind : db.bookings.find b.id = some b) (hconf : b.status = .confirmed)
    (h : (markNoShow env b.id).exec db = (.ok n, db')) :
    ∃ rt, lineRoomTypes b.lines = [rt] ∧ db.ledger.Releasable rt b.nights ∧
      db' = (db.setLedger (db.ledger.shift rt b.nights (-1))).updateBooking b.id
        (setStatus .noShow) (id_setStatus _) := by
  obtain ⟨rt, hrt⟩ := (hshape b (Table.find_eq_some.mp hfind).1).lineRoomTypes
  refine ⟨rt, hrt, ?_⟩
  rw [markNoShow, exec_tryCatch,
    exec_bind_congr (exec_patchNoShow asksNoShow_noShowRequest hfind hconf), bind_assoc] at h
  split at h
  · next hexec =>
    cases h
    obtain ⟨_, _, hrel, hrest⟩ := exec_bind_ok.mp hexec
    obtain ⟨hreleasable, rfl⟩ := (exec_release_ok hrt).mp hrel
    simp only [exec_bind_ok, exec_updateBookingRow_ok] at hrest
    obtain ⟨_, _, ⟨_, _, ⟨-, rfl⟩, _, _, hnotes, hnone⟩, hret⟩ := hrest
    cases hnotes
    cases hnone
    cases hret
    exact ⟨hreleasable, rfl⟩
  · next e db₁ hexec =>
    split at h
    · exfalso
      rcases exec_bind_error.mp hexec with hrel | ⟨_, db₁, -, hrest⟩
      · rcases exec_release_error hrel with ⟨_, he⟩ | ⟨_, he⟩ <;> cases he
      · rw [bind_assoc] at hrest
        rcases exec_bind_error.mp hrest with hupd | ⟨_, _, -, hret⟩
        · cases (exec_updateBookingRow_error hupd).1
        · cases hret
    · cases h

/-- The audit marks the bookings one after the other, and a night only becomes freer. -/
theorem markNoShows_changed {env : Env} {ids : List UUID} {n : ℕ} (hshape : Shaped db.hotel)
    (hnd : ids.Nodup) (hconf : AllConfirmed db ids)
    (h : (markNoShows env ids).exec db = (.ok n, db')) (rt : UUID) (d : ℤ) :
    db.hotel.availableRooms rt d ≤ db'.hotel.availableRooms rt d ∧
      (db'.hotel.availableRooms rt d ≠ db.hotel.availableRooms rt d ↔
        ∃ id ∈ ids, ∃ b, db.bookings.find id = some b ∧ lineRoomTypes b.lines = [rt] ∧
          d ∈ b.nights) := by
  induction ids generalizing db n with
  | nil =>
    cases h
    simp
  | cons bid rest ih =>
    obtain ⟨hfresh, hrestnd⟩ := List.nodup_cons.mp hnd
    obtain ⟨b, hfind, hbconf⟩ := hconf bid (List.mem_cons_self ..)
    obtain ⟨hmem, rfl⟩ := Table.find_eq_some.mp hfind
    simp only [markNoShows, exec_bind_ok, exec_pure, Prod.mk.injEq] at h
    obtain ⟨_, db₁, hmark, _, db₂, hrest, -, hdb⟩ := h
    subst hdb
    have hsteps := markNoShow_steps hshape hmark
    obtain ⟨rt₀, hrt₀, hrel, hdb₁⟩ := exec_markNoShow_marks hshape hfind hbconf hmark
    have hsame : ∀ id ∈ rest, db₁.bookings.find id = db.bookings.find id := by
      intro id hid
      have hne : id ≠ b.id := fun heq => hfresh (heq ▸ hid)
      rw [hdb₁, Db.updateBooking, Table.find_update_of_ne hne]
      rfl
    have hledger : db₁.hotel.ledger = db.hotel.ledger.shift rt₀ b.nights (-1) := by
      rw [hdb₁]
      rfl
    obtain ⟨hle, hfirst⟩ := changed_of_release db.hotel db₁.hotel hrt₀ hrel hledger rt d
    obtain ⟨hle', hlater⟩ := ih (steps_invariant Shaped.step hshape hsteps) hrestnd
      (fun id hid => by rw [hsame id hid]; exact hconf id (List.mem_cons_of_mem _ hid)) hrest
    refine ⟨hle.trans hle', ?_⟩
    have hsplit : db₂.hotel.availableRooms rt d ≠ db.hotel.availableRooms rt d ↔
        db₁.hotel.availableRooms rt d ≠ db.hotel.availableRooms rt d ∨
          db₂.hotel.availableRooms rt d ≠ db₁.hotel.availableRooms rt d := by
      omega
    rw [hsplit, hfirst, hlater, List.exists_mem_cons_iff]
    refine or_congr ⟨fun hnight => ⟨b, hfind, hnight⟩, ?_⟩ ?_
    · rintro ⟨b', hb', hnight⟩
      cases hfind.symm.trans hb'
      exact hnight
    · exact exists_congr fun id => and_congr_right fun hid => by rw [hsame id hid]

theorem nightAudit_announced {env : Env} {order : RowOrder} {propertyId : UUID} {todayLocal : ℤ}
    {n : ℕ} (hshape : Shaped db.hotel)
    (h : (autoNoShowConfirmedPastCheckin env order propertyId todayLocal).exec db =
      (.ok n, db')) :
    Announced db.hotel db'.hotel [] ↔
      ¬ ∃ id ∈ overdueConfirmed propertyId todayLocal db, ∃ b, db.bookings.find id = some b ∧
        ∃ d ∈ b.nights, db.today ≤ d := by
  simp only [autoNoShowConfirmedPastCheckin, exec_bind_ok, exec_select, Prod.mk.injEq,
    Except.ok.injEq] at h
  obtain ⟨ids, _, ⟨hids, rfl⟩, h⟩ := h
  have hperm := order.perm (overdueConfirmed propertyId todayLocal db)
  rw [hids] at hperm
  have hconf : AllConfirmed db ids := fun id hid => mem_overdueConfirmed (hperm.mem_iff.mp hid)
  have hchanged := markNoShows_changed hshape (hperm.nodup_iff.mpr nodup_overdueConfirmed) hconf h
  rw [announced_nil]
  constructor
  · rintro hsame ⟨id, hid, b, hfind, d, hd, htoday⟩
    obtain ⟨rt, hrt⟩ := (hshape b (Table.find_eq_some.mp hfind).1).lineRoomTypes
    exact (hchanged rt d).2.mpr ⟨id, hperm.mem_iff.mpr hid, b, hfind, hrt, hd⟩ (hsame rt d htoday)
  · intro hnone rt d htoday
    by_contra hne
    obtain ⟨id, hid, b, hfind, -, hd⟩ := (hchanged rt d).2.mp hne
    exact hnone ⟨id, hperm.mem_iff.mp hid, b, hfind, d, hd, htoday⟩

/-- A new booking takes one room of each of its nights. -/
theorem createBooking_claims {env : Env} {body : BookingCreateRequest} {r : BookingCreateResponse}
    (h : (createBooking env body).exec db = (.ok r, db')) :
    ∃ nights, iterStayNights body.checkIn body.checkOut = .ok nights ∧
      db'.ledger = db.ledger.shift body.roomTypeId nights 1 := by
  have hplain : ∀ {α : Type} {p : Tx α}, Writes PlainWrite p →
      Keeps (fun db : Db => db.ledger) p := fun hp => hp.keeps fun _ hf => hf.ledger
  have hrows : ∀ {α : Type} {p : Tx α}, Writes InsertWrite p →
      Keeps (fun db : Db => db.ledger) p := fun hp => hp.keeps fun _ hf => hf.ledger
  unfold createBooking at h
  obtain ⟨nights, db₁, hstay, hrest⟩ := exec_bind_ok.mp h
  obtain ⟨hnights, rfl⟩ := exec_stayNights_ok.mp hstay
  refine ⟨nights, hnights, ?_⟩
  refine (?_ : Relates (fun db : Db => db.ledger)
    (fun l l' => l' = l.shift body.roomTypeId nights 1) _) db r db' hrest
  refine relates_keeps_bind (keeps_select _) fun _ => ?_
  refine relates_keeps_bind (keeps_raiseIf _) fun _ => ?_
  refine relates_keeps_bind (keeps_bind (keeps_select _) fun _ => keeps_raiseIf _) fun _ => ?_
  refine relates_keeps_bind (keeps_bind (keeps_select _) fun _ => keeps_raiseIf _) fun _ => ?_
  refine relates_keeps_bind (hplain plain_sumRates) fun _ => ?_
  refine relates_bind_keeps ?_ fun _ => keeps_bind (hplain plain_getOrCreateGuest) fun _ =>
    keeps_bind (hrows inserts_insertBooking) fun _ => keeps_pure _
  intro db u db' hclaim
  rw [(exec_claim_ok hclaim).2]
  rfl

theorem postBooking_announced {env : Env} {body : BookingCreateRequest} {r : BookingCreateResponse}
    {nights : List ℤ} (h : (createBooking env body).exec db = (.ok r, db'))
    (hnights : iterStayNights body.checkIn body.checkOut = .ok nights) :
    Announced db.hotel db'.hotel
      (Ari.scheduled (.availability body.propertyId body.roomTypeId) nights) := by
  obtain ⟨nights', hnights', hledger⟩ := createBooking_claims h
  cases hnights.symm.trans hnights'
  intro rt d _ hne
  rw [availableRooms_shift db.hotel db'.hotel hledger] at hne
  split at hne
  · next hkey =>
    obtain ⟨rfl, hd, -⟩ := hkey
    unfold Ari.scheduled
    rw [if_neg (List.ne_nil_of_mem hd)]
    exact ⟨_, List.mem_singleton.mpr rfl, rfl, mem_sortedDates.mpr hd⟩
  · exact absurd rfl hne

end Bookings

/-! All requests -/

/-- What the request finds, when it changes a night from today on: a booking that holds
such a night, a type with ledger rows whose rooms it counts anew, or a day to seed. -/
def LedgerRequest.Disturbs (db : Db) : LedgerRequest → Prop
  | postBooking _ _ => False
  | deleteBookingById bid =>
    ∃ b, db.bookings.find bid = some b ∧ b.status.Active ∧ ∃ d ∈ b.nights, db.today ≤ d
  | nightAudit _ _ propertyId todayLocal =>
    ∃ id ∈ overdueConfirmed propertyId todayLocal db, ∃ b, db.bookings.find id = some b ∧
      ∃ d ∈ b.nights, db.today ≤ d
  | postRoom _ rt _ _ => db.hotel.HasDays rt
  | postRoomsBulk _ rt items _ =>
    (∃ item ∈ items, ∀ room ∈ db.rooms.rows, room.roomTypeId = rt → room.deleted = false →
      room.name ≠ Text.strip item.name) ∧ db.hotel.HasDays rt
  | patchRoomById rid _ _ roomTypeId =>
    ∃ r rt, db.rooms.find rid = some r ∧ roomTypeId = some rt ∧ rt ≠ r.roomTypeId ∧
      (db.hotel.HasDays r.roomTypeId ∨ db.hotel.HasDays rt)
  | deleteRoom rid => ∃ r, db.rooms.find rid = some r ∧ db.hotel.HasDays r.roomTypeId
  | putAvailabilityLedgerSeed body =>
    ∃ seg ∈ body.segments, db.hotel.roomCount seg.roomTypeId ≠ 0 ∧
      ∃ d, seg.startDate ≤ d ∧ d ≤ seg.endDate ∧ db.today ≤ d ∧
        db.ledger.row seg.roomTypeId d = none

/-- A committed request has announced every change exactly when it found nothing to
change, or is a new booking. -/
theorem availability_announced_iff {db db' : Db} (h : Reachable anyOp db) {req : LedgerRequest}
    {pushes : List Ari.Push} (hexec : req.prog.exec db = (.ok pushes, db')) :
    Announced db.hotel db'.hotel pushes ↔ ¬ req.Disturbs db := by
  have hshape := h.shaped
  have hc := h.counted
  cases req with
  | postBooking env body =>
    simp only [LedgerRequest.prog, exec_bind_ok, exec_stayNights_ok, exec_pure, Prod.mk.injEq,
      Except.ok.injEq] at hexec
    obtain ⟨r, _, hcreate, nights, _, ⟨hnights, rfl⟩, rfl, rfl⟩ := hexec
    exact iff_of_true (postBooking_announced hcreate hnights) id
  | deleteBookingById bid =>
    obtain ⟨r, _, hdelete, hret⟩ := exec_bind_ok.mp hexec
    cases hret
    exact deleteBooking_announced hshape hdelete
  | nightAudit env order propertyId todayLocal =>
    obtain ⟨n, _, haudit, hret⟩ := exec_bind_ok.mp hexec
    cases hret
    exact nightAudit_announced hshape haudit
  | postRoom env rt name status =>
    obtain ⟨r, _, hroom, hret⟩ := exec_bind_ok.mp hexec
    cases hret
    exact postRoom_announced hc hroom
  | postRoomsBulk env rt items onConflict =>
    obtain ⟨r, _, hrooms, hret⟩ := exec_bind_ok.mp hexec
    cases hret
    exact postRoomsBulk_announced hc hrooms
  | patchRoomById rid name status roomTypeId =>
    obtain ⟨_, _, hpatch, hret⟩ := exec_bind_ok.mp hexec
    cases hret
    exact patchRoom_announced hc hpatch
  | deleteRoom rid =>
    obtain ⟨_, _, hdelete, hret⟩ := exec_bind_ok.mp hexec
    cases hret
    exact deleteRoom_announced hc hdelete
  | putAvailabilityLedgerSeed body =>
    obtain ⟨n, _, hseed, hret⟩ := exec_bind_ok.mp hexec
    cases hret
    exact seed_announced hc hseed

theorem exec_of_fst {α : Type} {p : Tx α} {db : Db} {x : Except Err α} (h : (p.exec db).1 = x) :
    p.exec db = (x, (p.exec db).2) := Prod.ext h rfl

namespace Demo

def smallHotel : Db := run (.empty 0) openHotel

theorem smallHotel_reachable : Reachable anyOp smallHotel :=
  reachable_run (.empty 0) fun _ _ _ => trivial

def firstBooking : LedgerRequest := .postBooking (env 1000 0 0) stay

def secondRoom : LedgerRequest := .postRoom (env 0 0 101) 10 "102" "available"

end Demo

theorem availability_announced_iff_demo :
    Announced Demo.smallHotel.hotel (Demo.firstBooking.prog.exec Demo.smallHotel).2.hotel
      [.availability 1 10 [3]] :=
  have hok : (Demo.firstBooking.prog.exec Demo.smallHotel).1 = .ok [.availability 1 10 [3]] := by
    decide +kernel
  (availability_announced_iff Demo.smallHotel_reachable (exec_of_fst hok)).mpr id

/-- A second room is there from today on, and nothing is pushed. -/
theorem room_unannounced : Reachable anyOp Demo.smallHotel ∧
    (Demo.secondRoom.prog.exec Demo.smallHotel).1 = .ok [] ∧
    ¬ Announced Demo.smallHotel.hotel (Demo.secondRoom.prog.exec Demo.smallHotel).2.hotel [] := by
  refine ⟨Demo.smallHotel_reachable, by decide +kernel, fun hannounced => ?_⟩
  have hchanged : (Demo.secondRoom.prog.exec Demo.smallHotel).2.hotel.availableRooms 10 3 ≠
      Demo.smallHotel.hotel.availableRooms 10 3 := by
    decide +kernel
  obtain ⟨push, hpush, -⟩ := hannounced 10 3 (by decide +kernel) hchanged
  exact absurd hpush List.not_mem_nil

end OpenPms
