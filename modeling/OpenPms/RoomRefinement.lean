import OpenPms.Inventory
import OpenPms.RoomService

/-!
The room, room type, seeding and override services refine the hotel's actions. A
change of room type is the one request that is not a sequence of steps.
-/
namespace OpenPms

open KeyedTable Transaction Prog Hotel

section Requests
variable {db db' : Db}

/-! Seeding -/

/-- Where no row exists yet, what happens to existing rows is immaterial. -/
theorem Ledger.upsert_refresh {l : Ledger} {rt : UUID} {days : List ℤ} {fresh : Counts}
    {f g : Counts → Counts} (h : ∀ d ∈ days, l.row rt d = none) :
    l.upsert rt days fresh f = l.upsert rt days fresh g := by
  apply Ledger.ext_row
  intro r d
  simp only [Ledger.upsert_row]
  by_cases hkey : r = rt ∧ d ∈ days
  · simp only [hkey, and_self, if_true]
    rw [h d hkey.2]
    rfl
  · simp [hkey]

theorem seed_supply {rt : UUID} {days : List ℤ} {total : ℤ}
    (htotal : total = countRoomsForRoomType rt db)
    (hnone : ∀ d ∈ days, db.ledger.row rt d = none) :
    Supply db.hotel { db.hotel with ledger := db.ledger.upsert rt days ⟨total, 0, 0⟩ id } := by
  rw [htotal, Ledger.upsert_refresh hnone]
  exact .seed rt days

/-- A seed that returns has added days without rows. -/
theorem exec_seedYearForward_ok {rt : UUID} {total : ℤ} {start : Option ℤ} {horizon : ℕ}
    {u : Unit}
    (h : (seedEmptyAvailabilityLedgerYearForward rt total start horizon).exec db = (.ok u, db')) :
    (∀ d ∈ daysBetween (start.getD db.today) (start.getD db.today + horizon),
      db.ledger.row rt d = none) ∧
    db' = { db with
      ledger := db.ledger.upsert rt
        (daysBetween (start.getD db.today) (start.getD db.today + horizon)) ⟨total, 0, 0⟩ id } := by
  simp only [seedEmptyAvailabilityLedgerYearForward, exec_bind_ok, exec_select, exec_raiseIf_ok,
    exec_modify, Prod.mk.injEq, Except.ok.injEq] at h
  obtain ⟨_, _, ⟨rfl, rfl⟩, _, _, ⟨-, rfl⟩, _, _, ⟨rfl, rfl⟩, _, _, ⟨hclash, rfl⟩, -, rfl⟩ := h
  refine ⟨fun d hd => ?_, rfl⟩
  have hnot : ¬ (db.ledger.row rt d).isSome := by
    intro hsome
    apply hclash
    rw [List.any_eq_true]
    exact ⟨d, hd, hsome⟩
  simpa using hnot

theorem seedYearForward_supply {rt : UUID} {total : ℤ} {start : Option ℤ} {horizon : ℕ} {u : Unit}
    (htotal : total = countRoomsForRoomType rt db)
    (h : (seedEmptyAvailabilityLedgerYearForward rt total start horizon).exec db = (.ok u, db')) :
    Supply db.hotel db'.hotel ∧ db'.rooms = db.rooms := by
  obtain ⟨hfree, rfl⟩ := exec_seedYearForward_ok h
  exact ⟨seed_supply htotal hfree, rfl⟩

theorem extendRoomType_supply {rt : UUID} {extra n : ℕ}
    (h : (extendRoomType rt extra).exec db = (.ok n, db')) :
    Supply db.hotel db'.hotel ∧ db'.rooms = db.rooms := by
  simp only [extendRoomType, exec_bind_ok, exec_select, Prod.mk.injEq, Except.ok.injEq] at h
  obtain ⟨maxDate, _, ⟨hmax, rfl⟩, _, _, ⟨rfl, rfl⟩, h⟩ := h
  cases maxDate with
  | none =>
    simp only [exec_bind_ok, exec_pure, Prod.mk.injEq] at h
    obtain ⟨_, _, hseed, -, rfl⟩ := h
    exact seedYearForward_supply rfl hseed
  | some last =>
    simp only [exec_bind_ok, exec_raiseIf_ok, exec_select, exec_modify, exec_pure,
      Prod.mk.injEq] at h
    obtain ⟨_, _, ⟨-, rfl⟩, _, _, ⟨-, rfl⟩, _, _, ⟨-, rfl⟩, -, rfl⟩ := h
    refine ⟨seed_supply rfl ?_, rfl⟩
    intro d hd
    have hlt : last < d := by
      have hmem := mem_daysBetween.mp hd
      omega
    cases hrow : db.ledger.row rt d with
    | none => rfl
    | some c =>
      obtain ⟨m, hm, hle⟩ := db.ledger.le_maxDate rt d (by rw [hrow]; rfl)
      rw [hmax] at hm
      cases hm
      omega

theorem extendRoomTypes_supplies {extra n : ℕ} {types : List RoomType}
    (h : (extendRoomTypes extra types).exec db = (.ok n, db')) :
    Supplies db.hotel db'.hotel := by
  induction types generalizing db n with
  | nil =>
    cases h
    exact .refl
  | cons t rest ih =>
    simp only [extendRoomTypes, exec_bind_ok, exec_pure, Prod.mk.injEq] at h
    obtain ⟨_, _, hext, _, _, hrest, -, rfl⟩ := h
    exact .head (extendRoomType_supply hext).1 (ih hrest)

theorem extendLedger_supplies {extra : ℤ} {n : ℕ}
    (h : (extendAvailabilityLedgerDays extra).exec db = (.ok n, db')) :
    Supplies db.hotel db'.hotel := by
  unfold extendAvailabilityLedgerDays at h
  split at h
  · cases h
    exact .refl
  · simp only [exec_bind_ok, exec_select, Prod.mk.injEq, Except.ok.injEq] at h
    obtain ⟨_, _, ⟨rfl, rfl⟩, h⟩ := h
    exact extendRoomTypes_supplies h

theorem exec_seedRows_ok {segments : List AvailabilityLedgerSeedSegment} {rows : List SeedRow}
    (h : (seedRows segments).exec db = (.ok rows, db')) :
    db = db' ∧ ∀ row ∈ rows, row.totalRooms = countRoomsForRoomType row.roomTypeId db := by
  induction segments generalizing rows with
  | nil =>
    cases h
    exact ⟨rfl, by simp⟩
  | cons seg rest ih =>
    simp only [seedRows, exec_bind_ok, exec_select, exec_raiseIf_ok, exec_pure, Prod.mk.injEq,
      Except.ok.injEq] at h
    obtain ⟨_, _, ⟨rfl, rfl⟩, _, _, ⟨-, rfl⟩, _, _, ⟨rfl, rfl⟩, _, _, ⟨-, rfl⟩, more, _, hmore, rfl,
      rfl⟩ := h
    obtain ⟨rfl, htotals⟩ := ih hmore
    refine ⟨rfl, ?_⟩
    intro row hrow
    rcases List.mem_append.mp hrow with hseg | hrest
    · obtain ⟨d, -, hd⟩ := List.mem_map.mp hseg
      rw [← hd]
    · exact htotals row hrest

theorem upsertSeedRows_supplies {rows : List SeedRow}
    (htotals : ∀ row ∈ rows, row.totalRooms = countRoomsForRoomType row.roomTypeId db) :
    Supplies db.hotel (rows.foldl (fun db row => upsertSeedRow row db) db).hotel := by
  induction rows generalizing db with
  | nil => exact .refl
  | cons row rest ih =>
    have hstep : Supply db.hotel (upsertSeedRow row db).hotel := by
      unfold upsertSeedRow
      rw [htotals row (List.mem_cons_self ..)]
      exact .seed row.roomTypeId [row.date]
    refine .head hstep (ih ?_)
    intro row' hrow'
    exact htotals row' (List.mem_cons_of_mem _ hrow')

theorem bulkSeed_supplies {body : BulkAvailabilityLedgerSeedRequest} {n : ℕ}
    (h : (bulkSeedAvailabilityLedger body).exec db = (.ok n, db')) :
    Supplies db.hotel db'.hotel := by
  simp only [bulkSeedAvailabilityLedger, exec_bind_ok, exec_modify, exec_pure,
    Prod.mk.injEq] at h
  obtain ⟨rows, _, hrows, _, _, ⟨-, rfl⟩, -, rfl⟩ := h
  obtain ⟨rfl, htotals⟩ := exec_seedRows_ok hrows
  exact upsertSeedRows_supplies htotals

/-! The block override -/

/-- Each row is checked against the version it was locked at; blocks on other days
change neither its total nor its booked counter. -/
theorem overrideRows_steps {rows : List AvailabilityLedger} (rt : UUID) {n : ℕ} {u : Unit}
    (hrows : ∀ row ∈ rows, row.roomTypeId = rt ∧ ∃ c, db.ledger.row rt row.date = some c ∧
      c.totalRooms = row.counts.totalRooms ∧ c.bookedRooms = row.counts.bookedRooms)
    (h : (forEach rows fun row => do
      let maxBlock := row.counts.totalRooms - row.counts.bookedRooms
      raiseIf (maxBlock < n) (.availabilityOverride row.date maxBlock 409)
      modify fun db => db.setBlocked row.roomTypeId row.date n : Tx Unit).exec db = (.ok u, db')) :
    Steps db.hotel db'.hotel := by
  induction rows generalizing db with
  | nil =>
    cases h
    exact .refl
  | cons row rest ih =>
    simp only [forEach, exec_bind_ok, exec_raiseIf_ok, exec_modify, Prod.mk.injEq] at h
    obtain ⟨_, _, ⟨_, _, ⟨hmax, rfl⟩, -, rfl⟩, h⟩ := h
    obtain ⟨hrt, c, hc, htot, hbooked⟩ := hrows row (List.mem_cons_self ..)
    have hblock : Step db.hotel (db.setBlocked row.roomTypeId row.date n).hotel := by
      have hstep := Step.block (h := db.hotel) rt [row.date] n (by
        intro d hd
        rw [List.mem_singleton] at hd
        refine ⟨c, hd ▸ hc, ?_⟩
        omega)
      simp only [List.mem_singleton] at hstep
      rw [hrt]
      exact hstep
    refine .head hblock (ih ?_ h)
    intro row' hrow'
    obtain ⟨hrt', c', hc', htot', hbooked'⟩ := hrows row' (List.mem_cons_of_mem _ hrow')
    refine ⟨hrt', ?_⟩
    simp only [Db.setBlocked, Ledger.adjust_row, hc', Option.map_some, Option.some.injEq,
      exists_eq_left']
    split
    · exact ⟨htot', hbooked'⟩
    · exact ⟨htot', hbooked'⟩

theorem override_steps {body : AvailabilityOverridePutRequest} {r : ℕ × UUID × List ℤ}
    (h : (applyBlockedRoomsOverride body).exec db = (.ok r, db')) :
    Steps db.hotel db'.hotel := by
  unfold applyBlockedRoomsOverride at h
  obtain ⟨_, _, hday, h⟩ := exec_bind_ok.mp h
  obtain ⟨-, rfl⟩ := exec_raiseIf_ok.mp hday
  simp only at h
  split at h
  · cases h
    exact .refl
  · simp only [exec_bind_ok, exec_selectLedgerForUpdate, exec_raiseIf_ok, exec_pure,
      Prod.mk.injEq, Except.ok.injEq] at h
    obtain ⟨_, _, ⟨rfl, rfl⟩, _, _, ⟨-, rfl⟩, _, _, hloop, -, rfl⟩ := h
    refine overrideRows_steps body.roomTypeId ?_ hloop
    intro row hrow
    obtain ⟨hrt, -, hc⟩ := mem_selectLedger.mp hrow
    exact ⟨hrt, row.counts, hc, rfl, rfl⟩

/-! Rooms -/

/-- An UPDATE that runs alone sees every row. -/
theorem setTotalOf_self (l : Ledger) (rt : UUID) (start total : ℤ) :
    l.setTotalOf l rt start total = l.setTotal rt start total := by
  apply Ledger.ext_row
  intro r d
  simp only [Ledger.setTotalOf, Ledger.setTotal, Ledger.adjust_row]
  cases hrow : l.row r d with
  | none => rfl
  | some c => simp

theorem exec_recalculate (rt : UUID) (db : Db) :
    (recalculateLedgerTotalRooms rt none).exec db =
      (.ok (), db.setLedger (db.ledger.setTotal rt db.today (countRoomsForRoomType rt db))) := by
  have hset := setTotalOf_self db.ledger rt db.today (countRoomsForRoomType rt db)
  simp only [recalculateLedgerTotalRooms, exec_bind, exec_select, exec_modify, Option.getD_none,
    hset]
  rfl

theorem exec_roomStatus_ok {status st : String}
    (h : (roomStatus status).exec db = (.ok st, db')) : db = db' := by
  simp only [roomStatus, exec_bind_ok, exec_raiseIf_ok, exec_pure, Prod.mk.injEq] at h
  obtain ⟨_, _, ⟨-, rfl⟩, -, rfl⟩ := h
  rfl

theorem exec_requireRoomType_ok {rt : UUID} {u : Unit}
    (h : (requireRoomType rt).exec db = (.ok u, db')) : db = db' := by
  simp only [requireRoomType, exec_bind_ok, exec_select, exec_raiseIf_ok, Prod.mk.injEq,
    Except.ok.injEq] at h
  obtain ⟨_, _, ⟨rfl, rfl⟩, -, rfl⟩ := h
  rfl

theorem exec_flushRoom_ok {room : Room} {u : Unit}
    (h : (flushRoom room).exec db = (.ok u, db')) :
    db.rooms.find room.id = none ∧ db' = { db with rooms := db.rooms.insert room } := by
  simp only [flushRoom, exec_bind_ok, exec_select, exec_raiseIf_ok, exec_modify, Prod.mk.injEq,
    Except.ok.injEq, not_not] at h
  obtain ⟨_, _, ⟨rfl, rfl⟩, _, _, ⟨hfresh, rfl⟩, -, rfl⟩ := h
  exact ⟨hfresh, rfl⟩

theorem createRoom_supplies {env : Env} {rt : UUID} {name status : String} {r : Room}
    (h : (createRoom env rt name status).exec db = (.ok r, db')) :
    Supplies db.hotel db'.hotel := by
  simp only [createRoom, exec_bind_ok, exec_recalculate, exec_pure, Prod.mk.injEq] at h
  obtain ⟨_, _, hst, _, _, hreq, _, _, hflush, _, _, ⟨-, rfl⟩, -, rfl⟩ := h
  have hdb₁ := exec_roomStatus_ok hst
  have hdb₂ := exec_requireRoomType_ok hreq
  subst hdb₁ hdb₂
  obtain ⟨hfresh, rfl⟩ := exec_flushRoom_ok hflush
  exact .single (.addRoom hfresh rfl)

theorem Ledger.setTotal_setTotal (l : Ledger) (rt : UUID) (start total total' : ℤ) :
    (l.setTotal rt start total).setTotal rt start total' = l.setTotal rt start total' := by
  apply Ledger.ext_row
  intro r d
  simp only [Ledger.setTotal, Ledger.adjust_row, Option.map_map]
  congr 1
  funext c
  by_cases hkey : r = rt ∧ start ≤ d
  · simp [hkey]
  · simp [hkey]

theorem recount_recount {h : Hotel} {rooms : Table Room.id} (rt : UUID) :
    recount { h.recount rt with rooms := rooms } rt = recount { h with rooms := rooms } rt := by
  unfold recount
  rw [Ledger.setTotal_setTotal]
  rfl

/-- A batch of inserts under one recount: each room is added and counted. -/
theorem flushRooms_supplies {rt : UUID} {rooms : List Room} {u : Unit}
    (hrooms : ∀ r ∈ rooms, r.roomTypeId = rt ∧ r.deleted = false)
    (h : (forEach rooms flushRoom).exec db = (.ok u, db')) :
    Supplies (db.hotel.recount rt) (db'.hotel.recount rt) := by
  induction rooms generalizing db with
  | nil =>
    cases h
    exact .refl
  | cons r rest ih =>
    obtain ⟨_, db₁, hflush, hrest⟩ := exec_bind_ok.mp h
    obtain ⟨hfresh, rfl⟩ := exec_flushRoom_ok hflush
    obtain ⟨hrt, hnew⟩ := hrooms r (List.mem_cons_self ..)
    have hstep := Supply.addRoom (h := db.hotel.recount rt) hfresh hnew
    rw [hrt, recount_recount] at hstep
    refine .head hstep (ih ?_ hrest)
    intro r' hr'
    exact hrooms r' (List.mem_cons_of_mem _ hr')

theorem exec_checkBulkItems_ok {seen : List String} {items : List RoomBulkCreateItem} {u : Unit}
    (h : (checkBulkItems seen items).exec db = (.ok u, db')) : db = db' := by
  induction items generalizing seen db with
  | nil =>
    cases h
    rfl
  | cons item rest ih =>
    simp only [checkBulkItems, exec_bind_ok, exec_raiseIf_ok] at h
    obtain ⟨_, _, ⟨-, rfl⟩, _, _, hst, hrest⟩ := h
    have hdb := exec_roomStatus_ok hst
    subst hdb
    exact ih hrest

theorem exec_planBulkRooms_ok {env : Env} {rt : UUID} {mode : OnConflict}
    {existing : List String} {items : List RoomBulkCreateItem} {r : List Room × List String}
    (h : (planBulkRooms env rt mode existing items).exec db = (.ok r, db')) :
    db = db' ∧ ∀ room ∈ r.1, room.roomTypeId = rt ∧ room.deleted = false := by
  induction items generalizing existing r with
  | nil =>
    cases h
    exact ⟨rfl, by simp⟩
  | cons item rest ih =>
    unfold planBulkRooms at h
    simp only at h
    split at h
    · simp only [exec_bind_ok, exec_raiseIf_ok, exec_pure, Prod.mk.injEq, Except.ok.injEq] at h
      obtain ⟨_, _, ⟨-, rfl⟩, _, _, hrest, rfl, rfl⟩ := h
      obtain ⟨hdb, hall⟩ := ih hrest
      exact ⟨hdb, hall⟩
    · simp only [exec_bind_ok, exec_pure, Prod.mk.injEq, Except.ok.injEq] at h
      obtain ⟨_, _, hrest, rfl, rfl⟩ := h
      obtain ⟨hdb, hall⟩ := ih hrest
      refine ⟨hdb, ?_⟩
      intro room hroom
      rcases List.mem_cons.mp hroom with hnew | hold
      · rw [hnew]
        exact ⟨rfl, rfl⟩
      · exact hall room hold

theorem createRoomsBulk_supplies {env : Env} {rt : UUID} {items : List RoomBulkCreateItem}
    {mode : OnConflict} {r : List Room × List String}
    (h : (createRoomsBulk env rt items mode).exec db = (.ok r, db')) :
    Supplies db.hotel db'.hotel := by
  simp only [createRoomsBulk, exec_bind_ok, exec_select, Prod.mk.injEq, Except.ok.injEq] at h
  obtain ⟨_, _, hreq, _, _, hcheck, _, _, ⟨rfl, rfl⟩, ⟨created, skipped⟩, _, hplan, h⟩ := h
  have hdb₁ := exec_requireRoomType_ok hreq
  have hdb₂ := exec_checkBulkItems_ok hcheck
  subst hdb₁ hdb₂
  obtain ⟨rfl, hall⟩ := exec_planBulkRooms_ok hplan
  cases created with
  | nil =>
    cases h
    exact .refl
  | cons room rest =>
    rw [ite_cond_eq_false _ _ (eq_false (List.cons_ne_nil room rest))] at h
    simp only [exec_bind_ok, exec_recalculate, exec_pure, Prod.mk.injEq] at h
    obtain ⟨_, db₁, hflush, _, _, ⟨-, rfl⟩, -, rfl⟩ := h
    obtain ⟨_, db₂, hfirst, hrest⟩ := exec_bind_ok.mp hflush
    obtain ⟨hfresh, rfl⟩ := exec_flushRoom_ok hfirst
    obtain ⟨hrt, hnew⟩ := hall room (List.mem_cons_self ..)
    have hstep := Supply.addRoom (h := db.hotel) hfresh hnew
    rw [hrt] at hstep
    refine .head hstep (flushRooms_supplies ?_ hrest)
    intro r hr
    exact hall r (List.mem_cons_of_mem _ hr)

theorem patchedColumns_self (r : Room) (newType : UUID) (name status : String) :
    patchedColumns r newType name status r =
      { r with roomTypeId := newType, name := name, status := status } := by
  unfold patchedColumns
  congr 1
  · split
    · next h => exact h.symm
    · rfl
  · split
    · next h => exact h.symm
    · rfl
  · split
    · next h => exact h.symm
    · rfl

/-- A patched room keeps its type, or moves to another one. -/
theorem patchRoom_cases {rid : UUID} {name status : Option String} {newType : Option UUID}
    {u : Unit} (h : (patchRoom rid name status newType).exec db = (.ok u, db')) :
    ∃ r, db.rooms.find rid = some r ∧ r.deleted = false ∧
      (newType.getD r.roomTypeId = r.roomTypeId ∧ (∃ name' status', db'.hotel = { db.hotel with
          rooms := db.hotel.rooms.update r.id (fun r => { r with name := name', status := status' })
            fun _ => rfl }) ∨
        newType.getD r.roomTypeId ≠ r.roomTypeId ∧ ∃ name' status',
          db'.hotel = db.hotel.moveRoom r (newType.getD r.roomTypeId) name' status') := by
  simp only [patchRoom, exec_bind_ok, exec_select, Prod.mk.injEq, Except.ok.injEq] at h
  obtain ⟨found, _, ⟨hfound, rfl⟩, h⟩ := h
  split at h
  · cases h
  · next r =>
    simp only [exec_bind_ok, exec_raiseIf_ok, exec_runIf_ok] at h
    obtain ⟨_, _, ⟨hlive, rfl⟩, _, db₁, hreq, st, db₂, hst, _, db₃, hupd, hrecount⟩ := h
    have hdb₁ : db = db₁ := by
      rcases hreq with ⟨-, hreq⟩ | ⟨-, hreq⟩
      · exact exec_requireRoomType_ok hreq
      · exact hreq
    subst hdb₁
    have hdb₂ : db = db₂ := by
      cases status with
      | none =>
        cases hst
        rfl
      | some s => exact exec_roomStatus_ok (show (roomStatus s).exec db = _ from hst)
    subst hdb₂
    cases hupd
    have hid : r.id = rid := (Table.find_eq_some.mp hfound).2
    subst hid
    have hone : ∀ f g : Room → Room, ∀ hf hg, f r = g r →
        db.rooms.update r.id f hf = db.rooms.update r.id g hg := by
      intro f g hf hg hfg
      apply Table.update_congr
      intro v hv
      cases hfound.symm.trans hv
      exact hfg
    refine ⟨r, hfound, by simpa using hlive, ?_⟩
    rcases hrecount with ⟨hne, hrecount⟩ | ⟨heq, hrecount⟩
    · right
      refine ⟨hne, (name.map Text.strip).getD r.name, st, ?_⟩
      simp only [recalculateMove, exec_bind_ok, exec_recalculate, Prod.mk.injEq] at hrecount
      obtain ⟨_, _, ⟨-, rfl⟩, -, rfl⟩ := hrecount
      have hrooms := hone
        (patchedColumns r (newType.getD r.roomTypeId) ((name.map Text.strip).getD r.name) st)
        (fun x => { x with
          roomTypeId := newType.getD r.roomTypeId, name := (name.map Text.strip).getD r.name,
          status := st }) (id_patchedColumns _ _ _ _) (fun _ => rfl) (patchedColumns_self _ _ _ _)
      exact congrArg (fun rooms => recount (recount { db.hotel with rooms := rooms } r.roomTypeId)
        (newType.getD r.roomTypeId)) hrooms
    · left
      have hsame : newType.getD r.roomTypeId = r.roomTypeId := not_not.mp heq
      refine ⟨hsame, (name.map Text.strip).getD r.name, st, ?_⟩
      subst hrecount
      have hrooms := hone
        (patchedColumns r (newType.getD r.roomTypeId) ((name.map Text.strip).getD r.name) st)
        (fun x => { x with name := (name.map Text.strip).getD r.name, status := st })
        (id_patchedColumns _ _ _ _) (fun _ => rfl) (by rw [patchedColumns_self, hsame])
      exact congrArg (fun rooms => { db.hotel with rooms := rooms }) hrooms

theorem softDeleteRoom_removes {rid : UUID} {u : Unit}
    (h : (softDeleteRoom rid).exec db = (.ok u, db')) :
    ∃ r, db.rooms.find rid = some r ∧ r.deleted = false ∧ db.hotel.Unused rid ∧
      db'.hotel = db.hotel.removeRoom r := by
  simp only [softDeleteRoom, exec_bind_ok, exec_select, Prod.mk.injEq, Except.ok.injEq] at h
  obtain ⟨found, _, ⟨hfound, rfl⟩, h⟩ := h
  split at h
  · cases h
  · next r =>
    simp only [exec_bind_ok, exec_raiseIf_ok, exec_select, updateRoom, exec_modify,
      exec_recalculate, Prod.mk.injEq, Except.ok.injEq] at h
    obtain ⟨_, _, ⟨hlive, rfl⟩, _, _, ⟨rfl, rfl⟩, _, _, ⟨hconf, rfl⟩, _, _, ⟨-, rfl⟩, -, rfl⟩ := h
    have hid : r.id = rid := (Table.find_eq_some.mp hfound).2
    subst hid
    refine ⟨r, hfound, by simpa using hlive, ?_, rfl⟩
    intro b hb hblive ln hln hroom
    by_contra hdate
    apply hconf
    rw [decide_eq_true_eq]
    exact ⟨b, hb, hblive, ln, hln, hroom, not_lt.mp hdate⟩

/-! Room types -/

theorem createRoomType_steps {env : Env} {data : RoomTypeCreate} {t : RoomType}
    (h : (createRoomType env data).exec db = (.ok t, db')) :
    Steps db.hotel db'.hotel := by
  simp only [createRoomType, exec_bind_ok, exec_select, exec_raiseIf_ok, exec_modify, exec_pure,
    Prod.mk.injEq, Except.ok.injEq, not_not] at h
  obtain ⟨_, _, ⟨rfl, rfl⟩, _, _, ⟨-, rfl⟩, _, _, ⟨rfl, rfl⟩, _, _, ⟨hfresh, rfl⟩, _, _, ⟨-, rfl⟩,
    _, _, ⟨rfl, rfl⟩, _, _, hseed, -, rfl⟩ := h
  obtain ⟨hstep, -⟩ := seedYearForward_supply rfl hseed
  have hnew := Step.addRoomType (h := db.hotel) (t := ⟨env.roomTypeId, data.propertyId,
    Text.strip data.name, data.baseOccupancy, data.maxOccupancy, false⟩) hfresh
  exact .tail (.single hnew) (.supply hstep)

theorem updateRoomType_step {rt : UUID} {f : RoomType → RoomType} {hf : ∀ t, (f t).id = t.id}
    {u : Unit} (h : (updateRoomType rt f hf).exec db = (.ok u, db'))
    (hproperty : ∀ t, (f t).propertyId = t.propertyId) : Step db.hotel db'.hotel := by
  cases h
  exact .editRoomType rt f hf hproperty

theorem exec_requireRoomTypeForWrite_ok {rt : UUID} {t : RoomType}
    (h : (requireRoomTypeForWrite rt).exec db = (.ok t, db')) : db = db' := by
  simp only [requireRoomTypeForWrite, exec_bind_ok, exec_select, Prod.mk.injEq,
    Except.ok.injEq] at h
  obtain ⟨_, _, ⟨rfl, rfl⟩, h⟩ := h
  split at h
  · cases h
  · simp only [exec_bind_ok, exec_raiseIf_ok, exec_pure, Prod.mk.injEq] at h
    obtain ⟨_, _, ⟨-, rfl⟩, -, rfl⟩ := h
    rfl

theorem exec_patchedOccupancy_ok {old n : ℤ} {field : Option (Option ℤ)}
    (h : (patchedOccupancy old field).exec db = (.ok n, db')) : db = db' := by
  rcases field with _ | _ | n' <;> cases h
  · rfl
  · rfl

theorem patchRoomType_steps {rt : UUID} {body : RoomTypePatch} {u : Unit}
    (h : (patchRoomType rt body).exec db = (.ok u, db')) :
    Steps db.hotel db'.hotel := by
  simp only [patchRoomType, exec_bind_ok, exec_raiseIf_ok] at h
  obtain ⟨_, _, hreq, _, _, hbase, _, _, hmax, _, _, ⟨-, rfl⟩, h⟩ := h
  have hdb₁ := exec_requireRoomTypeForWrite_ok hreq
  have hdb₂ := exec_patchedOccupancy_ok hbase
  have hdb₃ := exec_patchedOccupancy_ok hmax
  subst hdb₁ hdb₂ hdb₃
  exact .single (updateRoomType_step h fun _ => rfl)

theorem softDeleteRoomType_steps {rt : UUID} {u : Unit}
    (h : (softDeleteRoomType rt).exec db = (.ok u, db')) :
    Steps db.hotel db'.hotel := by
  simp only [softDeleteRoomType, exec_bind_ok] at h
  obtain ⟨_, _, hreq, h⟩ := h
  have hdb := exec_requireRoomTypeForWrite_ok hreq
  subst hdb
  exact .single (updateRoomType_step h fun _ => rfl)

end Requests

end OpenPms
