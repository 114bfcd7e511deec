import OpenPms.MigrationClient

/-!
The stages of the migration and its runs. The audit log, which nothing reads, is left out;
batches only group its progress lines. The counters of a stage stand in the report from
its first statement on. A handler for `Exception` sees every error here, since a run that
is killed raises none.
-/
namespace OpenPms.Migration

open Transaction Prog

inductive OnConflict where
  | skip
  | update
  | fail
  deriving DecidableEq

/-- `runId` is what `compute_run_id` makes of the property and the input files; it is
`none` when there is no state store. A dry run has no client. -/
structure MigrationPipeline (σ : Type) where
  adapter : SourceAdapter
  client : Api σ
  propertyId : UUID
  dryRun : Bool
  onConflict : OnConflict
  defaultNightRate : ℚ
  runId : Option String
  resume : Bool
  precheckBookings : Bool

/-! Texts -/

/-- `name.strip().lower()` -/
def nameKey (name : String) : String := Text.lower (Text.strip name)

def upperCase (s : String) : String := String.ofList (s.toList.map Char.toUpper)

def isWordChar (c : Char) : Bool :=
  ('a' ≤ c && c ≤ 'z') || ('A' ≤ c && c ≤ 'Z') || ('0' ≤ c && c ≤ '9') || c == '_' || c == '-'

/-- Each run of other characters becomes one dash. -/
def dashRuns : Bool → List Char → List Char
  | _, [] => []
  | inRun, c :: rest =>
    if isWordChar c then c :: dashRuns false rest
    else if inRun then dashRuns true rest
    else '-' :: dashRuns true rest

def safeEmailForGuest (g : GuestRecord) : String :=
  let email := Text.strip (g.email.getD "")
  if email = "" then
    "noemail-" ++ String.ofList (dashRuns false g.externalId.toList) ++ "@migrate.openpms.local"
  else Text.lower email

def isSyntheticGuestEmail (email : String) : Bool :=
  "@migrate.openpms.local".toList.isSuffixOf (nameKey email).toList

def safePhone (g : GuestRecord) : String :=
  let phone := Text.strip (g.phone.getD "")
  if phone = "" then "+10000000000" else phone

def guestPatchPayload (g : GuestRecord) : GuestPatch where
  phone := if safePhone g = "+10000000000" then none else some (safePhone g)
  notes := g.notes.filter (· ≠ "")
  nationality := (g.nationality.filter fun n => (Text.strip n).length = 2).map
    fun n => upperCase (Text.strip n)
  vipStatus := g.vipStatus

def guestBody (g : GuestRecord) : GuestBody where
  firstName := g.firstName
  lastName := g.lastName
  email := safeEmailForGuest g
  phone := safePhone g
  notes := g.notes
  vipStatus := g.vipStatus
  nationality := (g.nationality.filter fun n => n.length = 2).map upperCase

/-! Grouping -/

/-- Slices of `n` elements. -/
def slices {α : Type} (n : ℕ) (items : List α) : List (List α) :=
  (List.range ((items.length + n - 1) / n)).map fun i => (items.drop (n * i)).take n

/-- The keys in the order of their first elements, each with its elements. -/
def groupBy {α : Type} (key : α → String) (items : List α) : List (String × List α) :=
  (items.map key).eraseDups.map fun k => (k, items.filter fun a => key a = k)

/-- Arrivals and departures in the order of `events.sort`. -/
def stayEvents (intervals : List (ℤ × ℤ)) : List (ℤ × ℤ) :=
  (intervals.flatMap fun i => [(i.1, 1), (i.2, -1)]).insertionSort
    fun a b => a.1 < b.1 ∨ a.1 = b.1 ∧ a.2 ≤ b.2

/-- The rooms in use and the most so far. -/
def sweep (acc : ℤ × ℤ) (event : ℤ × ℤ) : ℤ × ℤ :=
  (acc.1 + event.2, max acc.2 (acc.1 + event.2))

def maxParallelRoomsByType (bookings : List BookingRecord) : List (String × ℕ) :=
  (groupBy (·.roomTypeName) (bookings.filter fun b => b.status ≠ .cancelled)).map fun group =>
    let intervals := group.2.map fun b => (b.checkIn, b.checkOut)
    (group.1, (max 1 ((stayEvents intervals).foldl sweep (0, 0)).2).toNat)

/-- The guests that are posted, and how many share the email of an earlier one. -/
def dropSeenEmails (seen : List String) : List GuestRecord → List GuestRecord × ℕ
  | [] => ([], 0)
  | g :: rest =>
    let key := nameKey (safeEmailForGuest g)
    if isSyntheticGuestEmail (safeEmailForGuest g) then
      let (out, dups) := dropSeenEmails seen rest
      (g :: out, dups)
    else if key ∈ seen then
      let (out, dups) := dropSeenEmails seen rest
      (out, dups + 1)
    else
      let (out, dups) := dropSeenEmails (key :: seen) rest
      (g :: out, dups)

def dedupeGuestsByEmail (guests : List GuestRecord) : List GuestRecord × ℕ :=
  dropSeenEmails [] (guests.insertionSort fun a b => a.externalId ≤ b.externalId)

/-- From the first arrival to the last night, and at least one day. -/
def stayWindow : List BookingRecord → Option (ℤ × ℤ)
  | [] => none
  | b :: rest =>
    let first := rest.foldl (fun d r => min d r.checkIn) b.checkIn
    let last := rest.foldl (fun d r => max d (r.checkOut - 1)) (b.checkOut - 1)
    some (first, max first last)

/-- Pieces of at most 90 days, of which `fuel` is more than enough. -/
def dateChunks : ℕ → ℤ → ℤ → List (ℤ × ℤ)
  | 0, _, _ => []
  | fuel + 1, start, stop =>
    if stop < start then []
    else (start, min (start + 89) stop) :: dateChunks fuel (min (start + 89) stop + 1) stop

def iterDateChunks (start stop : ℤ) : List (ℤ × ℤ) :=
  dateChunks (stop - start + 1).toNat start stop

namespace MigrationPipeline

variable {σ : Type} (p : MigrationPipeline σ)

/-! Report and state -/

def setStats (g : Stage) (stats : StageStats) : Cli σ Unit :=
  modify fun w => { w with report := w.report.setStats g stats }

def count (g : Stage) (f : StageStats → StageStats) : Cli σ Unit :=
  modify fun w => { w with report := w.report.count g f }

/-- Counts `n` errors and reports one. -/
def fault (g : Stage) (n : ℕ) (entity ref : String) (message : Message) : Cli σ Unit :=
  modify fun w => { w with
    report := (w.report.count g fun s => { s with errors := s.errors + n }).addError
      ⟨entity, ref, message⟩ }

/-- Nothing is stored without a run id. -/
def store (f : String → StateStore → StateStore) : Cli σ Unit :=
  match p.runId with
  | none => pure ()
  | some run => modify fun w => { w with store := f run w.store }

theorem exec_store (f : String → StateStore → StateStore) (w : World σ) :
    ∃ w', (p.store f).exec w = (.ok (), w') ∧ w'.report = w.report := by
  unfold store
  split
  · exact ⟨w, rfl, rfl⟩
  · exact ⟨_, rfl, rfl⟩

def markProcessed (entity : Entity) (externalId : String) (id : Option IdText)
    (result : Outcome) : Cli σ Unit :=
  p.store fun run st => st.markProcessed run entity externalId ⟨id, result⟩

def putMapping (kind : MappingKind) (name : String) (id : IdText) : Cli σ Unit :=
  p.store fun run st => st.putMapping run kind name id

def processedSkip (entity : Entity) (externalId : String) : Cli σ Bool :=
  match p.runId with
  | none => pure false
  | some run => select fun w => w.store.isProcessed run entity externalId

/-! Room types and rate plans -/

/-- The last row of a name wins. -/
def idsByName (rows : List NamedRow) (key : String) : Option UUID :=
  (rows.reverse.find? fun r => nameKey r.name = key).map (·.id)

def roomTypeMap : Cli σ (String → Option UUID) := do
  let existing ← call p.client (.listRoomTypes p.propertyId)
  pure (idsByName existing)

def ratePlanMap : Cli σ (String → Option UUID) := do
  let rows ← call p.client (.listRatePlans p.propertyId)
  pure (idsByName rows)

def persistRoomType (name : String) (id : UUID) (result : Outcome) : Cli σ Unit := do
  p.putMapping .roomTypeName name (.uuid id)
  p.markProcessed .roomType (nameKey name) (some (.uuid id)) result

def persistRatePlan (name : String) (id : UUID) (result : Outcome) : Cli σ Unit := do
  p.putMapping .ratePlanName name (.uuid id)
  p.markProcessed .ratePlan (nameKey name) (some (.uuid id)) result

/-- Returns the map with the new name. -/
def migrateRoomType (byName : String → Option UUID) (rt : RoomTypeRecord) :
    Cli σ (String → Option UUID) :=
  match byName (nameKey rt.name) with
  | some id => do
    count .roomTypes fun s => { s with existed := s.existed + 1 }
    p.persistRoomType rt.name id .existed
    pure byName
  | none =>
    (do
      let id ← call p.client (.createRoomType p.propertyId rt)
      count .roomTypes fun s => { s with created := s.created + 1 }
      p.persistRoomType rt.name id .created
      pure fun key => if key = nameKey rt.name then some id else byName key).tryCatch fun e => do
        fault .roomTypes 1 "room_type" rt.name (.exception e)
        pure byName

def migrateRoomTypes (byName : String → Option UUID) : List RoomTypeRecord → Cli σ Unit
  | [] => pure ()
  | rt :: rest => do
    let byName ← p.migrateRoomType byName rt
    migrateRoomTypes byName rest

def stageRoomTypes : Cli σ Unit := do
  setStats .roomTypes { total := p.adapter.extractRoomTypes.length }
  let byName ← p.roomTypeMap
  p.migrateRoomTypes byName p.adapter.extractRoomTypes

def migrateRatePlan (byName : String → Option UUID) (rp : RatePlanRecord) :
    Cli σ (String → Option UUID) :=
  match byName (nameKey rp.name) with
  | some id => do
    count .ratePlans fun s => { s with existed := s.existed + 1 }
    p.persistRatePlan rp.name id .existed
    pure byName
  | none =>
    (do
      let policy := if rp.cancellationPolicy = "" then "standard" else rp.cancellationPolicy
      let id ← call p.client (.createRatePlan p.propertyId rp.name policy)
      count .ratePlans fun s => { s with created := s.created + 1 }
      p.persistRatePlan rp.name id .created
      pure fun key => if key = nameKey rp.name then some id else byName key).tryCatch fun e => do
        fault .ratePlans 1 "rate_plan" rp.name (.exception e)
        pure byName

def migrateRatePlans (byName : String → Option UUID) : List RatePlanRecord → Cli σ Unit
  | [] => pure ()
  | rp :: rest => do
    let byName ← p.migrateRatePlan byName rp
    migrateRatePlans byName rest

def stageRatePlans : Cli σ Unit := do
  setStats .ratePlans { total := p.adapter.extractRatePlans.length }
  let byName ← p.ratePlanMap
  p.migrateRatePlans byName p.adapter.extractRatePlans

/-! Rooms -/

def bulkRooms (rt : UUID) (chunk : List RoomItem) : Cli σ Unit :=
  (do
    let (created, skipped) ← call p.client (.bulkCreateRooms rt chunk)
    count .rooms fun s => { s with
      created := s.created + created, skipped := s.skipped + skipped }).tryCatch fun e =>
    fault .rooms chunk.length "room_bulk" (toString rt) (.exception e)

def bulkRoomsOfType (rt : UUID) (items : List RoomItem) : Cli σ Unit := do
  count .rooms fun s => { s with total := s.total + items.length }
  forEach (slices 200 items) (p.bulkRooms rt)

/-- The rooms of the source whose room type has the key. -/
def sourceRooms (ids : String → Option UUID) (group : String × List RoomRecord) : Cli σ Unit :=
  match ids group.1 with
  | none => forEach group.2 fun r => fault .rooms 1 "room" r.name (.roomTypeNotFound group.1)
  | some rt => p.bulkRoomsOfType rt (group.2.map fun r => ⟨r.name, r.status⟩)

/-- The rooms that a room type of the bookings needs. -/
def synthesizedRooms (ids : String → Option UUID) (need : String × ℕ) : Cli σ Unit :=
  match ids (nameKey need.1) with
  | none => fault .rooms need.2 "room" need.1 .roomTypeMissing
  | some rt => p.bulkRoomsOfType rt ((List.range need.2).map fun i =>
    ⟨"Migrated-" ++ need.1 ++ "-" ++ toString (i + 1), "available"⟩)

def stageRooms : Cli σ Unit := do
  setStats .rooms {}
  let ids ← p.roomTypeMap
  if p.adapter.extractRooms ≠ [] then
    forEach (groupBy (fun r => nameKey r.roomTypeName) p.adapter.extractRooms) (p.sourceRooms ids)
  else forEach (maxParallelRoomsByType p.adapter.extractBookings) (p.synthesizedRooms ids)

/-! Rates and availability -/

def putRates (rt rp : UUID) (chunk : ℤ × ℤ) : Cli σ Unit :=
  (do
    let n ← call p.client (.bulkPutRates rt rp chunk.1 chunk.2 p.defaultNightRate)
    count .rates fun s => { s with created := s.created + n }).tryCatch fun e =>
    fault .rates 1 "rates" (toString rt ++ "/" ++ toString rp) (.exception e)

/-- A set of pairs; its order is that of the bookings here. -/
def ratePairs (roomTypes ratePlans : String → Option UUID) (bookings : List BookingRecord) :
    List (UUID × UUID) :=
  (bookings.filterMap fun b =>
    match roomTypes (nameKey b.roomTypeName), ratePlans (nameKey b.ratePlanName) with
    | some rt, some rp => some (rt, rp)
    | _, _ => none).eraseDups

def stageRates : Cli σ Unit := do
  setStats .rates {}
  match stayWindow p.adapter.extractBookings with
  | none => pure ()
  | some (first, last) => do
    let roomTypes ← p.roomTypeMap
    let ratePlans ← p.ratePlanMap
    let pairs := ratePairs roomTypes ratePlans p.adapter.extractBookings
    forEach pairs fun pair => forEach (iterDateChunks first last) (p.putRates pair.1 pair.2)
    count .rates fun s => { s with total := pairs.length }

def seedAvailability (rt : UUID) (chunk : ℤ × ℤ) : Cli σ Unit :=
  (do
    let n ← call p.client (.seedAvailability rt chunk.1 chunk.2)
    count .availability fun s => { s with created := s.created + n }).tryCatch fun e =>
    fault .availability 1 "availability" (toString rt) (.exception e)

def stageAvailability : Cli σ Unit := do
  setStats .availability {}
  match stayWindow p.adapter.extractBookings with
  | none => pure ()
  | some (first, last) => do
    let roomTypes ← p.roomTypeMap
    let ids := (p.adapter.extractBookings.filterMap fun b =>
      roomTypes (nameKey b.roomTypeName)).eraseDups
    forEach ids fun rt => forEach (iterDateChunks first last) (p.seedAvailability rt)
    count .availability fun s => { s with total := ids.length }

/-! Guests -/

/-- `UUID(text)` -/
def uuidOf : IdText → Cli σ UUID
  | .uuid id => pure id
  | .other _ => raise .malformed

/-- The first listed guest with the email; an item without an id is a `KeyError`. -/
def firstWithEmail (email : String) (items : List GuestItem) : Cli σ (Option IdText) :=
  match items.find? fun item => nameKey item.email = email with
  | none => pure none
  | some item => match item.id with
    | none => raise .malformed
    | some id => do
      p.putMapping .guestEmail email id
      pure (some id)

def mappedGuest (email : String) : Cli σ (Option IdText) :=
  match p.runId with
  | none => pure none
  | some run => select fun w => w.store.mappings run .guestEmail email

theorem exec_mappedGuest (email : String) (w : World σ) :
    (p.mappedGuest email).exec w =
      (.ok (p.runId.bind fun run => w.store.mappings run .guestEmail email), w) := by
  unfold mappedGuest
  cases p.runId with
  | none => rfl
  | some run => rfl

/-- An id whose text is empty counts as none. -/
def guestLookupOpenpms (email : String) : Cli σ (Option IdText) := do
  let mapped ← p.mappedGuest email
  match mapped.filter (· ≠ .other "") with
  | some id => pure (some id)
  | none => do
    let items ← call p.client (.listGuests email)
    let found ← p.firstWithEmail email items
    pure (found.filter (· ≠ .other ""))

def skipGuest (g : GuestRecord) (id : Option IdText) : Cli σ Unit := do
  count .guests fun s => { s with skipped := s.skipped + 1 }
  p.markProcessed .guest g.externalId id .skipped

def updateGuest (g : GuestRecord) (id : IdText) : Cli σ Unit := do
  let uuid ← uuidOf id
  let _ ← call p.client (.patchGuest uuid (guestPatchPayload g))
  count .guests fun s => { s with updated := s.updated + 1 }
  p.markProcessed .guest g.externalId (some id) .updated

def finalizeGuestExisting (g : GuestRecord) (id : IdText) : Cli σ Unit :=
  match p.onConflict with
  | .fail => raise (.onConflictFail (.guestMatches g.externalId id))
  | .skip => do
    count .guests fun s => { s with existed := s.existed + 1 }
    p.markProcessed .guest g.externalId (some id) .existed
  | .update => p.updateGuest g id

def handleGuestPostConflict (g : GuestRecord) : Cli σ Unit := do
  let found ← p.guestLookupOpenpms (safeEmailForGuest g)
  match found with
  | none => p.skipGuest g none
  | some id => match p.onConflict with
    | .fail => raise (.onConflictFail (.guestEmail g.externalId))
    | .skip => p.skipGuest g (some id)
    | .update => p.updateGuest g id

def postGuest (g : GuestRecord) (body : GuestBody) : Cli σ Unit := do
  let id ← call p.client (.createGuest body)
  count .guests fun s => { s with created := s.created + 1 }
  match id with
  | none => raise .malformed
  | some id => do
    p.markProcessed .guest g.externalId (some id) .created
    if isSyntheticGuestEmail body.email then pure ()
    else p.putMapping .guestEmail body.email id

def guestFault (g : GuestRecord) (e : Exn) : Cli σ Unit :=
  fault .guests 1 "guest" g.externalId (.exception e)

/-- A body that the server finds invalid is posted again without its nationality. -/
def createGuest (g : GuestRecord) : Cli σ Unit :=
  (p.postGuest g (guestBody g)).tryCatch fun e =>
    match e with
    | .conflict _ => p.handleGuestPostConflict g
    | .validation _ =>
      (p.postGuest g { guestBody g with nationality := none }).tryCatch fun e =>
        match e with
        | .conflict _ => p.handleGuestPostConflict g
        | e => guestFault g e
    | e => guestFault g e

/-- Only a real email is looked up first. -/
def migrateGuest (g : GuestRecord) : Cli σ Unit := do
  let done ← p.processedSkip .guest g.externalId
  if done then count .guests fun s => { s with skipped := s.skipped + 1 }
  else if isSyntheticGuestEmail (safeEmailForGuest g) then p.createGuest g
  else do
    let existing ← p.guestLookupOpenpms (safeEmailForGuest g)
    match existing with
    | some id => p.finalizeGuestExisting g id
    | none => p.createGuest g

def stageGuests : Cli σ Unit := do
  let (guests, dups) := dedupeGuestsByEmail p.adapter.extractGuests
  setStats .guests { total := p.adapter.extractGuests.length, skipped := dups }
  forEach guests p.migrateGuest

/-! Bookings -/

def bookingFault (b : BookingRecord) (message : Message) : Cli σ Unit :=
  fault .bookings 1 "booking" b.externalId message

def missingTypeOrPlan (b : BookingRecord) : Cli σ Unit :=
  bookingFault b (.noRoomTypeOrRatePlan (nameKey b.roomTypeName) (nameKey b.ratePlanName))

/-- A patch that fails is only logged. -/
def syncBookingLifecycleStatus (id : UUID) (current : String) (target : BookingStatus) :
    Cli σ Unit :=
  if target.text = current then pure ()
  else (patchBooking p.client id target).tryCatch fun _ => pure ()

inductive Reason where
  | precheck
  | conflict
  deriving DecidableEq

def Reason.text : Reason → String
  | precheck => "precheck"
  | conflict => "409"

/-- Counts the booking and records it. -/
def bookingDone (b : BookingRecord) (id : Option UUID) (f : StageStats → StageStats)
    (result : Outcome) : Cli σ Unit := do
  count .bookings f
  p.markProcessed .booking b.externalId (id.map .uuid) result

def handleBookingFoundExisting (b : BookingRecord) (row : BookingItem) (reason : Reason) :
    Cli σ Unit :=
  match row.id with
  | none => raise .malformed
  | some id => match p.onConflict with
    | .fail => raise (.onConflictFail (.booking b.externalId reason.text))
    | .skip => match reason with
      | .precheck => p.bookingDone b id (fun s => { s with existed := s.existed + 1 }) .existed
      | .conflict => p.bookingDone b id (fun s => { s with skipped := s.skipped + 1 }) .skipped
    | .update => do
      p.syncBookingLifecycleStatus id row.status b.status
      p.bookingDone b id (fun s => { s with updated := s.updated + 1 }) .updated

def bookingBody (rt rp : UUID) (b : BookingRecord) : BookingBody where
  propertyId := p.propertyId
  roomTypeId := rt
  ratePlanId := rp
  checkIn := b.checkIn
  checkOut := b.checkOut
  guest := { b.guest with email := Text.lower (Text.strip b.guest.email) }
  source := Text.take 64 (if b.source = "" then "migration" else b.source)
  externalBookingId := Text.take 128 b.externalId

/-- The booking is recorded before its status is set. -/
def createBooking (b : BookingRecord) (rt rp : UUID) : Cli σ Unit := do
  let out ← call p.client (.createBooking (p.bookingBody rt rp b))
  count .bookings fun s => { s with created := s.created + 1 }
  match out with
  | none => raise .malformed
  | some id => do
    p.markProcessed .booking b.externalId (some (.uuid id)) .created
    if b.status = .pending ∨ b.status = .confirmed then pure ()
    else p.syncBookingLifecycleStatus id BookingStatus.confirmed.text b.status

/-- Every 409 is taken for a duplicate external id. -/
def handleBookingConflict (b : BookingRecord) : Cli σ Unit := do
  let row ← getBookingByExternalId p.client b.externalId
  match row with
  | some row => p.handleBookingFoundExisting b row .conflict
  | none => p.bookingDone b none (fun s => { s with skipped := s.skipped + 1 }) .skipped

def tryCreateBooking (b : BookingRecord) (rt rp : UUID) : Cli σ Unit :=
  (p.createBooking b rt rp).tryCatch fun e =>
    match e with
    | .conflict _ => p.handleBookingConflict b
    | e => raise e

/-- What goes wrong with one booking is reported, and the stage goes on. -/
def createOrReport (b : BookingRecord) (rt rp : UUID) : Cli σ Unit :=
  (p.tryCreateBooking b rt rp).tryCatch fun e =>
    match e with
    | .onConflictFail why => raise (.onConflictFail why)
    | e => bookingFault b (.exception e)

def migrateBooking (roomTypes ratePlans : String → Option UUID) (b : BookingRecord) :
    Cli σ Unit := do
  let done ← p.processedSkip .booking b.externalId
  if done then count .bookings fun s => { s with skipped := s.skipped + 1 }
  else match roomTypes (nameKey b.roomTypeName), ratePlans (nameKey b.ratePlanName) with
    | some rt, some rp =>
      if p.precheckBookings then do
        let row ← getBookingByExternalId p.client b.externalId
        match row with
        | some row => p.handleBookingFoundExisting b row .precheck
        | none => p.createOrReport b rt rp
      else p.createOrReport b rt rp
    | _, _ => missingTypeOrPlan b

def stageBookings : Cli σ Unit := do
  setStats .bookings { total := p.adapter.extractBookings.length }
  let roomTypes ← p.roomTypeMap
  let ratePlans ← p.ratePlanMap
  forEach p.adapter.extractBookings (p.migrateBooking roomTypes ratePlans)

def stageVerify : Cli σ Unit := do
  setStats .verify { total := 1 }
  match p.adapter.extractBookings with
  | [] => count .verify fun s => { s with skipped := 1 }
  | b :: rest =>
    let first := rest.foldl (fun d r => min d r.checkIn) b.checkIn
    let last := rest.foldl (fun d r => max d r.checkOut) b.checkOut
    (do
      let _ ← call p.client (.listBookingsWindow p.propertyId first last)
      count .verify fun s => { s with created := 1 }).tryCatch fun e =>
        modify fun w => { w with
          report := (w.report.count .verify fun s => { s with errors := 1 }).addError
            ⟨"verify", "list_bookings", .exception e⟩ }

/-! Runs -/

/-- A stage that the state file has as done is not run again. -/
def maybeSkipStage (g : Stage) : Cli σ Bool :=
  match p.runId with
  | none => pure false
  | some run =>
    if p.resume then do
      let row ← select fun w => w.store.stages run g
      match row with
      | some ⟨.done, some stats⟩ => do
        setStats g stats
        pure true
      | _ => pure false
    else pure false

def beginStage (g : Stage) : Cli σ Unit :=
  p.store fun run st => st.setStageStatus run g ⟨.running, none⟩

/-- The counters are stored with the status. -/
def endStage (g : Stage) (status : StageStatus) : Cli σ Unit := do
  let stats ← select fun w => w.report.stages g
  p.store fun run st => st.setStageStatus run g ⟨status, stats⟩

/-- A stage ends as done however many of its records were reported. -/
def runStage (g : Stage) (stage : Cli σ Unit) : Cli σ Unit := do
  let skipped ← p.maybeSkipStage g
  if skipped then pure ()
  else do
    p.beginStage g
    stage.tryCatch fun e => do
      p.endStage g .failed
      raise e
    p.endStage g .done

def stageRunners : List (Stage × Cli σ Unit) :=
  [(.roomTypes, p.stageRoomTypes), (.rooms, p.stageRooms), (.ratePlans, p.stageRatePlans),
    (.rates, p.stageRates), (.availability, p.stageAvailability), (.guests, p.stageGuests),
    (.bookings, p.stageBookings), (.verify, p.stageVerify)]

def setFinalStatus (status : FinalStatus) : Cli σ Unit :=
  modify fun w => { w with report := { w.report with finalStatus := status } }

def dryRunStats : Cli σ Unit := do
  let needRooms := maxParallelRoomsByType p.adapter.extractBookings
  let rooms := if p.adapter.extractRooms = [] then (needRooms.map (·.2)).sum
    else p.adapter.extractRooms.length
  let (kept, dups) := dedupeGuestsByEmail p.adapter.extractGuests
  let all := fun (n : ℕ) => ({ total := n, created := n } : StageStats)
  setStats .roomTypes (all p.adapter.extractRoomTypes.length)
  setStats .rooms (all rooms)
  setStats .ratePlans (all p.adapter.extractRatePlans.length)
  setStats .rates (all 1)
  setStats .availability (all 1)
  setStats .guests
    { total := p.adapter.extractGuests.length, created := kept.length, skipped := dups }
  setStats .bookings (all p.adapter.extractBookings.length)
  setStats .verify { total := 1, skipped := 1 }

def runStages : Cli σ Unit := do
  forEach p.stageRunners fun runner => p.runStage runner.1 runner.2
  let errors ← select fun w => w.report.errors
  setFinalStatus (if errors = [] then .success else .partly)

/-- The report of a dry run keeps the status that a new report has. -/
def run : Cli σ Unit :=
  if p.adapter.validate.ok = false then do
    forEach p.adapter.validate.issues fun issue =>
      modify fun w => { w with report := w.report.addError ⟨"validation", "adapter", .issue issue⟩ }
    setFinalStatus .failed
  else if p.dryRun then p.dryRunStats
  else p.runStages.tryCatch fun e => do
    modify fun w => { w with report := w.report.addError ⟨"pipeline", "run", .exception e⟩ }
    setFinalStatus .failed

/-- A new pipeline has a new report. -/
def start (s : σ) (st : StateStore) : World σ := ⟨s, st, {}, []⟩

end MigrationPipeline

end OpenPms.Migration
