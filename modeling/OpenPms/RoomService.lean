import OpenPms.AvailabilityLock

/-!
Rooms, room types and the capacity side of the ledger: recounting the total of a
room type, seeding and extending its days, and the manual block override.
-/
namespace OpenPms

open Transaction Prog

/-! Capacity of a room type -/

def countRoomsForRoomType (rt : UUID) (db : Db) : ℕ :=
  (db.rooms.rows.filter fun r => r.roomTypeId = rt && !r.deleted).length

/-- Set the total of the rows of `rt` from `start` on. -/
def Ledger.setTotal (l : Ledger) (rt : UUID) (start total : ℤ) : Ledger :=
  l.adjust fun r d c => if r = rt ∧ start ≤ d then { c with totalRooms := total } else c

/-- The same for the rows that are in `seen`. -/
def Ledger.setTotalOf (l seen : Ledger) (rt : UUID) (start total : ℤ) : Ledger :=
  l.adjust fun r d c =>
    if r = rt ∧ start ≤ d ∧ (seen.row r d).isSome then { c with totalRooms := total } else c

/-- The UPDATE writes the rows that its statement sees. That it waits for rows which are
locked is left out: waiting rules out some of the interleavings. -/
def recalculateLedgerTotalRooms (rt : UUID) (fromDate : Option ℤ) : Tx Unit := do
  let start ← select fun db => fromDate.getD db.today
  let total ← select (countRoomsForRoomType rt)
  let seen ← select fun db => db.ledger
  modify fun db => { db with ledger := db.ledger.setTotalOf seen rt start total }

/-- Adding days to a date fails beyond the last one. -/
def seedEmptyAvailabilityLedgerYearForward (rt : UUID) (totalRooms : ℤ)
    (startDate : Option ℤ) (horizonDays : ℕ) : Tx Unit := do
  let start ← select fun db => startDate.getD db.today
  raiseIf (dateMax + 1 < start + horizonDays) .overflowError
  let days := daysBetween start (start + horizonDays)
  let clash ← select fun db => days.any fun d => (db.ledger.row rt d).isSome
  raiseIf (clash = true) .integrityError
  modify fun db => { db with ledger := db.ledger.upsert rt days ⟨totalRooms, 0, 0⟩ id }

/-- The days after the last one, or the first days of an empty ledger. -/
def extendRoomType (rt : UUID) (extraDays : ℕ) : Tx ℕ := do
  let maxDate ← select fun db => db.ledger.maxDate rt
  let totalRooms ← select fun db => (countRoomsForRoomType rt db : ℤ)
  match maxDate with
  | none => do
    seedEmptyAvailabilityLedgerYearForward rt totalRooms none extraDays
    pure extraDays
  | some last => do
    raiseIf (dateMax < last + extraDays) .overflowError
    let days := daysBetween (last + 1) (last + 1 + extraDays)
    let inserted ← select fun db => (days.filter fun d => db.ledger.row rt d = none).length
    modify fun db => { db with ledger := db.ledger.upsert rt days ⟨totalRooms, 0, 0⟩ id }
    pure inserted

def extendRoomTypes (extraDays : ℕ) : List RoomType → Tx ℕ
  | [] => pure 0
  | rt :: rest => do
    let inserted ← extendRoomType rt.id extraDays
    let more ← extendRoomTypes extraDays rest
    pure (inserted + more)

/-- Every room type of the tenant, deleted ones included. -/
def extendAvailabilityLedgerDays (extraDays : ℤ) : Tx ℕ :=
  if extraDays < 1 then pure 0
  else do
    let roomTypes ← select fun db => db.roomTypes.rows
    extendRoomTypes extraDays.toNat roomTypes

structure AvailabilityLedgerSeedSegment where
  roomTypeId : UUID
  startDate : ℤ
  endDate : ℤ
  start_le : startDate ≤ endDate

def AvailabilityLedgerSeedSegment.span (seg : AvailabilityLedgerSeedSegment) : ℤ :=
  seg.endDate - seg.startDate + 1

structure BulkAvailabilityLedgerSeedRequest where
  segments : List AvailabilityLedgerSeedSegment
  segments_ne : segments ≠ []
  total_span_le : (segments.map (·.span)).sum ≤ 366

structure SeedRow where
  roomTypeId : UUID
  date : ℤ
  totalRooms : ℤ

/-- The loop over the days of a segment also computes the day after them. -/
def seedRows : List AvailabilityLedgerSeedSegment → Tx (List SeedRow)
  | [] => pure []
  | seg :: rest => do
    let found ← select fun db => db.roomTypes.find seg.roomTypeId
    raiseIf (found = none) (.ledgerSeed "room_type not found" 404)
    let totalRooms ← select fun db => (countRoomsForRoomType seg.roomTypeId db : ℤ)
    raiseIf (dateMax ≤ seg.endDate) .overflowError
    let more ← seedRows rest
    pure ((iterInclusiveDates seg.startDate seg.endDate).map
      (fun d => ⟨seg.roomTypeId, d, totalRooms⟩) ++ more)

/-- INSERT ... ON CONFLICT DO UPDATE of the total; a later row of a key wins. -/
def upsertSeedRow (row : SeedRow) (db : Db) : Db :=
  { db with
    ledger := db.ledger.upsert row.roomTypeId [row.date] ⟨row.totalRooms, 0, 0⟩
      (fun c => { c with totalRooms := row.totalRooms }) }

def bulkSeedAvailabilityLedger (body : BulkAvailabilityLedgerSeedRequest) : Tx ℕ := do
  let rows ← seedRows body.segments
  modify fun db => rows.foldl (fun db row => upsertSeedRow row db) db
  pure (rows.map fun row => (row.roomTypeId, row.date)).dedup.length

/-! The block override -/

structure AvailabilityOverridePutRequest where
  roomTypeId : UUID
  startDate : ℤ
  endDate : ℤ
  blockedRooms : ℕ
  start_le : startDate ≤ endDate
  span_le : endDate - startDate + 1 ≤ 366

def Db.setBlocked (db : Db) (rt : UUID) (d n : ℤ) : Db :=
  { db with ledger := db.ledger.adjust fun r x c =>
      if r = rt ∧ x = d then { c with blockedRooms := n } else c }

/-- The loop over the days also computes the day after the last. -/
def applyBlockedRoomsOverride (body : AvailabilityOverridePutRequest) :
    Tx (ℕ × UUID × List ℤ) := do
  raiseIf (dateMax ≤ body.endDate) .overflowError
  let dates := iterInclusiveDates body.startDate body.endDate
  if dates = [] then pure (0, body.roomTypeId, [])
  else do
    let rows ← selectLedgerForUpdate body.roomTypeId dates
    raiseIf (rows.length ≠ dates.length) (.ledgerNotSeeded
      "availability ledger must be seeded for every date in the override range")
    forEach rows fun row => do
      let maxBlock := row.counts.totalRooms - row.counts.bookedRooms
      raiseIf (maxBlock < body.blockedRooms) (.availabilityOverride row.date maxBlock 409)
      modify fun db => db.setBlocked row.roomTypeId row.date body.blockedRooms
    pure (rows.length, body.roomTypeId, dates)

/-! Rooms -/

def validRoomStatuses : List String := ["available", "maintenance", "out_of_order"]

/-- The status as stored, or the 422 answer. -/
def roomStatus (status : String) : Tx String := do
  let st := Text.lower (Text.strip status)
  raiseIf (st ∉ validRoomStatuses)
    (.roomService "status must be one of: available, maintenance, out_of_order" 422)
  pure st

def requireRoomType (rt : UUID) : Tx Unit := do
  let found ← select fun db => db.roomTypes.rows.find? fun t => t.id = rt && !t.deleted
  raiseIf (found = none) (.roomService "room type not found" 404)

def flushRoom (room : Room) : Tx Unit := do
  let clash ← select fun db => db.rooms.find room.id
  raiseIf (clash ≠ none) .integrityError
  modify fun db => { db with rooms := db.rooms.insert room }

def createRoom (env : Env) (rt : UUID) (name status : String) : Tx Room := do
  let st ← roomStatus status
  requireRoomType rt
  let room : Room := ⟨env.roomId 0, rt, Text.strip name, st, false, "clean"⟩
  flushRoom room
  recalculateLedgerTotalRooms rt none
  pure room

structure RoomBulkCreateItem where
  name : String
  status : String

inductive OnConflict where
  | skip
  | fail
  deriving DecidableEq

def checkBulkItems (seen : List String) : List RoomBulkCreateItem → Tx Unit
  | [] => pure ()
  | item :: rest => do
    raiseIf (Text.strip item.name ∈ seen) (.roomService "duplicate room name in batch" 422)
    let _ ← roomStatus item.status
    checkBulkItems (Text.strip item.name :: seen) rest

/-- The rooms to insert and the names skipped. -/
def planBulkRooms (env : Env) (rt : UUID) (onConflict : OnConflict) (existing : List String) :
    List RoomBulkCreateItem → Tx (List Room × List String)
  | [] => pure ([], [])
  | item :: rest => do
    let name := Text.strip item.name
    if name ∈ existing then do
      raiseIf (onConflict = .fail) (.roomService ("room name already exists: " ++ name) 409)
      let (created, skipped) ← planBulkRooms env rt onConflict existing rest
      pure (created, name :: skipped)
    else do
      let (created, skipped) ← planBulkRooms env rt onConflict (name :: existing) rest
      let st := Text.lower (Text.strip item.status)
      pure (⟨env.roomId rest.length, rt, name, st, false, "clean"⟩ :: created, skipped)

/-- One recount for the whole batch; none when every name was skipped. -/
def createRoomsBulk (env : Env) (rt : UUID) (items : List RoomBulkCreateItem)
    (onConflict : OnConflict) : Tx (List Room × List String) := do
  requireRoomType rt
  checkBulkItems [] items
  let existing ← select fun db =>
    (db.rooms.rows.filter fun r => r.roomTypeId = rt && !r.deleted).map (·.name)
  let (created, skipped) ← planBulkRooms env rt onConflict existing items
  if created = [] then pure ([], skipped)
  else do
    forEach created flushRoom
    recalculateLedgerTotalRooms rt none
    pure (created, skipped)

def updateRoom (rid : UUID) (f : Room → Room) (hf : ∀ r, (f r).id = r.id) : Tx Unit :=
  modify fun db => { db with rooms := db.rooms.update rid f hf }

def patchedRoomStatus (old : String) : Option String → Tx String
  | none => pure old
  | some s => roomStatus s

def recalculateMove (oldType newType : UUID) : Tx Unit := do
  recalculateLedgerTotalRooms oldType none
  recalculateLedgerTotalRooms newType none

/-- The flush writes the columns that have changed since the room was loaded. -/
def patchedColumns (loaded : Room) (newType : UUID) (name status : String) (r : Room) : Room :=
  { r with
    roomTypeId := if newType = loaded.roomTypeId then r.roomTypeId else newType
    name := if name = loaded.name then r.name else name
    status := if status = loaded.status then r.status else status }

theorem id_patchedColumns (loaded : Room) (newType : UUID) (name status : String) (r : Room) :
    (patchedColumns loaded newType name status r).id = r.id := rfl

/-- The new status is checked after the type and the name are set; the error rolls
both back. A move recounts both room types and looks at no booking. -/
def patchRoom (rid : UUID) (name status : Option String) (roomTypeId : Option UUID) :
    Tx Unit := do
  let found ← select fun db => db.rooms.find rid
  match found with
  | none => raise (.roomService "room not found" 404)
  | some room => do
    raiseIf (room.deleted = true) (.roomService "room not found" 404)
    let newType := roomTypeId.getD room.roomTypeId
    runIf (newType ≠ room.roomTypeId) (requireRoomType newType)
    let st ← patchedRoomStatus room.status status
    let newName := (name.map Text.strip).getD room.name
    updateRoom rid (patchedColumns room newType newName st) (id_patchedColumns room newType newName st)
    runIf (newType ≠ room.roomTypeId) (recalculateMove room.roomTypeId newType)

/-- A line from today on of a pending, confirmed or checked-in booking has the room. -/
def RoomInUse (db : Db) (room : UUID) : Prop :=
  ∃ b ∈ db.bookings.rows, b.status.Live ∧
    ∃ ln ∈ b.lines, ln.roomId = some room ∧ db.today ≤ ln.date

instance (db : Db) (room : UUID) : Decidable (RoomInUse db room) :=
  inferInstanceAs (Decidable (∃ b ∈ db.bookings.rows, _))

theorem id_deleteRoom (r : Room) : ({ r with deleted := true } : Room).id = r.id := rfl

def softDeleteRoom (rid : UUID) : Tx Unit := do
  let found ← select fun db => db.rooms.find rid
  match found with
  | none => raise (.roomService "room not found" 404)
  | some room => do
    raiseIf (room.deleted = true) (.roomService "room not found" 404)
    let conflict ← select fun db => decide (RoomInUse db rid)
    raiseIf (conflict = true)
      (.roomService "cannot delete room with future booking lines in active statuses" 409)
    updateRoom rid (fun r => { r with deleted := true }) id_deleteRoom
    recalculateLedgerTotalRooms room.roomTypeId none

/-! Room types -/

structure RoomTypeCreate where
  propertyId : UUID
  name : String
  baseOccupancy : ℤ
  maxOccupancy : ℤ
  base_pos : 1 ≤ baseOccupancy
  base_le : baseOccupancy ≤ maxOccupancy

def createRoomType (env : Env) (data : RoomTypeCreate) : Tx RoomType := do
  let prop ← select fun db => decide (data.propertyId ∈ db.properties)
  raiseIf (prop = false) (.valueError "property not found")
  let rt : RoomType := ⟨env.roomTypeId, data.propertyId, Text.strip data.name,
    data.baseOccupancy, data.maxOccupancy, false⟩
  let clash ← select fun db => db.roomTypes.find rt.id
  raiseIf (clash ≠ none) .integrityError
  modify fun db => { db with roomTypes := db.roomTypes.insert rt }
  let totalRooms ← select fun db => (countRoomsForRoomType rt.id db : ℤ)
  seedEmptyAvailabilityLedgerYearForward rt.id totalRooms none 365
  pure rt

def updateRoomType (rt : UUID) (f : RoomType → RoomType) (hf : ∀ t, (f t).id = t.id) : Tx Unit :=
  modify fun db => { db with roomTypes := db.roomTypes.update rt f hf }

def requireRoomTypeForWrite (rt : UUID) : Tx RoomType := do
  let found ← select fun db => db.roomTypes.find rt
  match found with
  | none => raise (.valueError "room type not found")
  | some t => do
    raiseIf (t.deleted = true) (.valueError "room type not found")
    pure t

/-- Each field is absent, null or set; a null occupancy is the TypeError of `int`. -/
structure RoomTypePatch where
  name : Option (Option String) := none
  baseOccupancy : Option (Option ℤ) := none
  maxOccupancy : Option (Option ℤ) := none

def patchedOccupancy (old : ℤ) : Option (Option ℤ) → Tx ℤ
  | none => pure old
  | some none => raise .typeError
  | some (some n) => pure n

def patchRoomType (rt : UUID) (body : RoomTypePatch) : Tx Unit := do
  let t ← requireRoomTypeForWrite rt
  let name := match body.name with
    | none => t.name
    | some none => "None"
    | some (some s) => Text.strip s
  let base ← patchedOccupancy t.baseOccupancy body.baseOccupancy
  let max ← patchedOccupancy t.maxOccupancy body.maxOccupancy
  raiseIf (max < base) (.valueError "max_occupancy must be >= base_occupancy")
  updateRoomType rt (fun t => { t with
    name := name, baseOccupancy := base, maxOccupancy := max }) fun _ => rfl

/-- Rooms, bookings and ledger rows of the type are left as they are. -/
def softDeleteRoomType (rt : UUID) : Tx Unit := do
  let _ ← requireRoomTypeForWrite rt
  updateRoomType rt (fun t => { t with deleted := true }) fun _ => rfl

end OpenPms
