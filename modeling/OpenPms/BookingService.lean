import OpenPms.AvailabilityLock
import OpenPms.Charges

/-!
Create, assign, patch and delete a booking. Each definition follows one function of
the service, statement by statement. The session runs with autoflush off: a column
set on an object is in the transaction's own view at once, but a SELECT of columns
sees it only after a flush; where this matters the definitions say so.
-/
namespace OpenPms

open Transaction Prog

structure GuestPayload where
  firstName : String
  lastName : String
  email : String
  phone : String
  passportData : Option String

def GuestPayload.toGuest (p : GuestPayload) (id : UUID) : Guest where
  id := id
  firstName := Text.strip p.firstName
  lastName := Text.strip p.lastName
  email := Text.lower (Text.strip p.email)
  phone := Text.strip p.phone
  passportData := (p.passportData.filter (· ≠ "")).map Text.strip
  notes := none

def findGuestByEmail (email : String) (db : Db) : Option Guest :=
  db.guests.rows.find? fun g => g.email = email

/-- INSERT of a guest in a savepoint; `false` when a unique constraint refuses it. That
`begin_nested` itself flushes before the savepoint is not modelled: a refusal there would
undo the transaction. -/
def flushGuest (guest : Guest) : Tx Bool := do
  let clash ← select fun db =>
    (findGuestByEmail guest.email db).isSome || (db.guests.find guest.id).isSome
  if clash then pure false
  else do
    modify fun db => { db with guests := db.guests.insert guest }
    pure true

/-- The guest, and whether an existing one was matched by email. -/
def getOrCreateGuestForBooking (env : Env) (payload : GuestPayload) (forceNewGuest : Bool) :
    Tx (Guest × Bool) := do
  let guest := payload.toGuest env.guestId
  if forceNewGuest then do
    let inserted ← flushGuest guest
    raiseIf (inserted = false) .guestConflict
    pure (guest, false)
  else do
    let existing ← select (findGuestByEmail guest.email)
    match existing with
    | some g => pure (g, true)
    | none => do
      let inserted ← flushGuest guest
      if inserted then pure (guest, false)
      else do
        let again ← select (findGuestByEmail guest.email)
        match again with
        | some g => pure (g, true)
        | none => raise (.invalidBookingContext "could not create or resolve guest by email")

def requireRoomTypeOnProperty (propertyId rt : UUID) : Tx Unit := do
  let found ← select fun db =>
    db.roomTypes.rows.find? fun t => t.id = rt && t.propertyId = propertyId && !t.deleted
  raiseIf (found = none) (.invalidBookingContext "room_type not found for this property")

def requireRatePlanOnProperty (propertyId ratePlan : UUID) : Tx Unit := do
  let found ← select fun db =>
    db.ratePlans.find? fun p => p.id = ratePlan && p.propertyId = propertyId
  raiseIf (found = none) (.invalidBookingContext "rate_plan not found for this property")

/-! Rows of bookings and booking_lines -/

def setStatus (s : BookingStatus) (b : Booking) : Booking := { b with status := s }

def setNotes (notes : Option String) (b : Booking) : Booking := { b with notes := notes }

def setTotal (total : Money) (b : Booking) : Booking := { b with totalAmount := total }

def setRoom (room : Option UUID) (b : Booking) : Booking :=
  { b with lines := b.lines.map fun ln => { ln with roomId := room } }

/-- INSERT of a booking without lines. -/
def flushBooking (b : Booking) : Tx Unit := do
  raiseIf (b.totalAmount.fits = false) .dataError
  let clash ← select fun db => db.bookings.find b.id
  raiseIf (clash ≠ none) .integrityError
  modify fun db => { db with bookings := db.bookings.insert b }

def addLines (lines : List BookingLine) (b : Booking) : Booking :=
  { b with lines := b.lines ++ lines }

def clearLines (b : Booking) : Booking := { b with lines := [] }

theorem id_addLines (lines : List BookingLine) (b : Booking) : (addLines lines b).id = b.id := rfl

theorem id_clearLines (b : Booking) : (clearLines b).id = b.id := rfl

theorem id_setStatus (s : BookingStatus) (b : Booking) : (setStatus s b).id = b.id := rfl

theorem id_setNotes (notes : Option String) (b : Booking) : (setNotes notes b).id = b.id := rfl

theorem id_setRoom (room : Option UUID) (b : Booking) : (setRoom room b).id = b.id := rfl

theorem id_setTotal (total : Money) (b : Booking) : (setTotal total b).id = b.id := rfl

def newLines (rt : UUID) (perNight : List (ℤ × Money)) : List BookingLine :=
  perNight.map fun np => ⟨np.1, rt, none, np.2⟩

/-- INSERT of lines; the foreign key needs the booking to be there still. -/
def flushLines (bid : UUID) (lines : List BookingLine) : Tx Unit := do
  raiseIf (∃ ln ∈ lines, ln.priceForDate.fits = false) .dataError
  let booking ← select fun db => db.bookings.find bid
  raiseIf (booking = none) .integrityError
  modify fun db => db.updateBooking bid (addLines lines) (id_addLines lines)

def deleteLines (bid : UUID) : Tx Unit :=
  modify fun db => db.updateBooking bid clearLines id_clearLines

/-- UPDATE of one booking row: it takes the row's lock and must match a row. -/
def updateBookingRow (bid : UUID) (f : Booking → Booking) (hf : ∀ b, (f b).id = b.id) :
    Tx Unit := do
  acquire (.booking bid)
  let booking ← select fun db => db.bookings.find bid
  raiseIf (booking = none) .staleData
  modify fun db => db.updateBooking bid f hf

/-! Rooms -/

/-- An active booking other than `exclude` has the room on one of the nights. -/
def RoomTaken (db : Db) (room : UUID) (nights : List ℤ) (exclude : UUID) : Prop :=
  ∃ b ∈ db.bookings.rows, b.id ≠ exclude ∧ b.status.Active ∧
    ∃ ln ∈ b.lines, ln.roomId = some room ∧ ln.date ∈ nights

instance (db : Db) (room : UUID) (nights : List ℤ) (exclude : UUID) :
    Decidable (RoomTaken db room nights exclude) :=
  inferInstanceAs (Decidable (∃ b ∈ db.bookings.rows, _))

def assertNoRoomConflict (room : UUID) (nights : List ℤ) (exclude : UUID) : Tx Unit :=
  if nights = [] then pure ()
  else do
    let clash ← select fun db => decide (RoomTaken db room nights exclude)
    raiseIf (clash = true) (.assignBookingRoom
      "room is already used by another active booking on overlapping nights" 409)

/-- Rooms of the type on the property, by name. -/
def candidateRooms (propertyId rt : UUID) (db : Db) : List Room :=
  (db.rooms.rows.filter fun r => r.roomTypeId = rt && !r.deleted &&
    db.roomTypes.rows.any fun t => t.id = r.roomTypeId && t.propertyId = propertyId).insertionSort
    fun a b => a.name ≤ b.name

def firstFreeRoom (nights : List ℤ) (exclude : UUID) : List Room → Tx (Option UUID)
  | [] => pure none
  | room :: rest =>
    (do
      assertNoRoomConflict room.id nights exclude
      pure (some room.id)).tryCatch fun e =>
        match e with
        | .assignBookingRoom _ _ => firstFreeRoom nights exclude rest
        | e => raise e

def pickFirstFreeRoomForStay (propertyId rt : UUID) (nights : List ℤ) (exclude : UUID) :
    Tx (Option UUID) :=
  if sortedDates nights = [] then pure none
  else do
    let rooms ← select (candidateRooms propertyId rt)
    firstFreeRoom (sortedDates nights) exclude rooms

def setLineRooms (bid : UUID) (room : Option UUID) : Tx Unit :=
  modify fun db => db.updateBooking bid (setRoom room) (id_setRoom room)

def lineRoomTypes (lines : List BookingLine) : List UUID := (lines.map (·.roomTypeId)).dedup

/-- The requested room must be of the lines' type, on the booking's property and free. -/
def assignRoomOfType (bid : UUID) (booking : Booking) (lineRoomType : UUID) :
    Option UUID → Tx Unit
  | none => setLineRooms bid none
  | some rid => do
    let room ← select fun db => db.rooms.rows.find? fun r => r.id = rid && !r.deleted
    match room with
    | none => raise (.assignBookingRoom "room not found" 404)
    | some room => do
      raiseIf (room.roomTypeId ≠ lineRoomType)
        (.assignBookingRoom "room category does not match booking" 409)
      let rt ← select fun db =>
        db.roomTypes.rows.find? fun t => t.id = room.roomTypeId && !t.deleted
      raiseIf (∀ t, rt = some t → t.propertyId ≠ booking.propertyId)
        (.assignBookingRoom "room is not on the same property as the booking" 409)
      assertNoRoomConflict rid (sortedDates (booking.lines.map (·.date))) bid
      setLineRooms bid (some rid)

def assignBookingRoom (bid : UUID) (roomId : Option UUID) : Tx Unit := do
  let found ← select fun db => db.bookings.find bid
  match found with
  | none => raise (.assignBookingRoom "booking not found" 404)
  | some booking => do
    raiseIf (¬ booking.status.Active)
      (.assignBookingRoom "cannot assign room on an inactive booking" 409)
    raiseIf (booking.lines = []) (.assignBookingRoom "booking has no lines" 400)
    match lineRoomTypes booking.lines with
    | [lineRoomType] => assignRoomOfType bid booking lineRoomType roomId
    | _ => raise (.assignBookingRoom "booking lines must share a single room type" 409)

/-- The room that was picked for a new booking, if any. -/
def assignPicked (bid : UUID) : Option UUID → Tx Unit
  | some room => assignBookingRoom bid (some room)
  | none => pure ()

/-- Silent when the booking has no lines or lines of several room types. -/
def releaseBookingInventory (lines : List BookingLine) : Tx Unit :=
  match lineRoomTypes lines with
  | [rt] => do
    let rows ← lockAndValidateAvailability rt (lines.map (·.date)) 0
    decrementBookedRooms rows 1
  | _ => pure ()

/-! Create -/

inductive InitialStatus where
  | pending
  | confirmed
  deriving DecidableEq

def InitialStatus.status : InitialStatus → BookingStatus
  | pending => .pending
  | confirmed => .confirmed

theorem InitialStatus.active (s : InitialStatus) : s.status.Active := by
  cases s <;> decide

/-- The request schema has validated the stay dates. -/
structure BookingCreateRequest where
  propertyId : UUID
  roomTypeId : UUID
  ratePlanId : UUID
  checkIn : ℤ
  checkOut : ℤ
  guest : GuestPayload
  status : InitialStatus
  source : String
  forceNewGuest : Bool
  externalBookingId : Option String
  checkIn_lt : checkIn < checkOut
  span_le : checkOut - checkIn ≤ maxStayNights

structure BookingCreateResponse where
  bookingId : UUID
  guestId : UUID
  totalAmount : Money
  nights : List (ℤ × Money)
  guestMerged : Bool

/-- The id as stored: stripped, cut to the column, absent when blank. -/
def externalRef (external : Option String) : Option String :=
  match external with
  | none => none
  | some s => if Text.strip s = "" then none else some (Text.take 128 (Text.strip s))

/-- The rows of a new booking with its room charge and taxes. -/
def insertRows (env : Env) (b : Booking) (rt : UUID) (perNight : List (ℤ × Money))
    (description : String) : Tx Unit := do
  flushBooking b
  flushLines b.id (newLines rt perNight)
  modify fun db => { db with folio := db.folio ++ [
    { id := env.folioId 0, bookingId := b.id, transactionType := .charge,
      amount := b.totalAmount, paymentMethod := none, description := some description,
      category := "room_charge" }] }
  let roomCharge ← replaceCountryPackTaxCharges env b.id b.propertyId b.totalAmount
  updateFolioChargeAmount b.id roomCharge

/-- The rows, then the automatic pick of a room: the statements that creation and the
ingest of a new revision share. -/
def insertBooking (env : Env) (b : Booking) (rt : UUID) (perNight : List (ℤ × Money))
    (description : String) : Tx Unit := do
  insertRows env b rt perNight description
  let picked ← pickFirstFreeRoomForStay b.propertyId rt (perNight.map (·.1)) b.id
  assignPicked b.id picked

def createBooking (env : Env) (body : BookingCreateRequest) : Tx BookingCreateResponse := do
  let nights ← stayNights body.checkIn body.checkOut
  let extRef := externalRef body.externalBookingId
  let dup ← select fun db =>
    db.bookings.rows.any fun b => extRef.isSome && b.externalBookingId = extRef
  raiseIf (dup = true) .duplicateExternalBooking
  requireRoomTypeOnProperty body.propertyId body.roomTypeId
  requireRatePlanOnProperty body.propertyId body.ratePlanId
  let (total, perNight) ←
    sumRatesForStay body.roomTypeId body.ratePlanId body.checkIn body.checkOut
  claimAvailabilityForNewBooking body.roomTypeId nights 1
  let (guest, guestMerged) ← getOrCreateGuestForBooking env body.guest body.forceNewGuest
  insertBooking env
    { id := env.bookingId, propertyId := body.propertyId, guestId := guest.id,
      ratePlanId := some body.ratePlanId, externalBookingId := extRef,
      status := body.status.status, source := Text.strip body.source, totalAmount := total,
      notes := none, lines := [] }
    body.roomTypeId perNight "Room charge (stay)"
  pure ⟨env.bookingId, guest.id, total, perNight, guestMerged⟩

/-! Patch -/

/-- Each field is absent, null or set. -/
structure BookingPatchRequest where
  roomId : Option (Option UUID) := none
  status : Option (Option String) := none
  checkIn : Option (Option ℤ) := none
  checkOut : Option (Option ℤ) := none
  cancellationReason : Option (Option String) := none
  notes : Option (Option String) := none
  deriving DecidableEq

def notesColumn (notes : Option String) : Option String :=
  notes.bind fun s => if Text.strip s = "" then none else some (Text.take 8000 (Text.strip s))

theorem id_setNotesColumn (notes : Option String) (b : Booking) :
    (setNotes (notesColumn notes) b).id = b.id :=
  id_setNotes _ b

/-- The column takes no NUL character. -/
def notesStorable (notes : Option (Option String)) : Bool :=
  notes.all fun n => (notesColumn n).all fun s => s.toList.all fun c => c.toNat ≠ 0

/-- Set on the object first and written by the last flush, if it is a change. What is stored
has no NUL character, so that the check may come first. -/
def patchNotes (booking : Booking) (notes : Option (Option String)) : Tx Unit := do
  raiseIf (notesStorable notes = false) .dataError
  match notes with
  | none => pure ()
  | some notes =>
    if notesColumn notes = booking.notes then pure ()
    else updateBookingRow booking.id (setNotes (notesColumn notes)) (id_setNotesColumn notes)

/-- The text of `str(data["status"])`. -/
def statusText : Option String → String
  | none => "None"
  | some s => s

def checkTransition (old : BookingStatus) (target : String) : Tx Unit :=
  ofExcept ((validateStatusTransition old.text target).mapError
    fun e => .patchBooking (.transition e) 409)

def cancels (body : BookingPatchRequest) : Bool :=
  match body.status with
  | some (some s) => normalizeBookingStatus s = BookingStatus.cancelled.text
  | _ => false

def patchCancel (booking : Booking) : Tx Unit :=
  if booking.status ≠ .cancelled then do
    checkTransition booking.status BookingStatus.cancelled.text
    releaseBookingInventory booking.lines
    updateBookingRow booking.id (setStatus .cancelled) (id_setStatus _)
  else pure ()

def checkRequestedTransition (old : BookingStatus) : Option (Option String) → Tx Unit
  | none => pure ()
  | some s => checkTransition old (statusText s)

def checkInactive (booking : Booking) (body : BookingPatchRequest) : Tx Unit :=
  if booking.status.Active then pure ()
  else do
    checkRequestedTransition booking.status body.status
    raiseIf (body.checkIn ≠ none ∨ body.checkOut ≠ none ∨ body.roomId ≠ none)
      (.patchBooking (.text "cannot change stay dates or room on an inactive booking") 409)

/-- First night and the day after the last one. -/
def stayBounds (lines : List BookingLine) : ℤ × ℤ :=
  match lines.map (·.date) with
  | [] => (0, 0)
  | d :: rest => (rest.foldl min d, rest.foldl max d + 1)

def unifiedRoomId (lines : List BookingLine) : Option UUID :=
  match (lines.filterMap (·.roomId)).dedup with
  | [room] => some room
  | _ => none

/-- What the later parts of a patch see of the date change: the loaded lines (`none`
once they are expired), the rooms that a SELECT of line columns returns, and a room
charge that is set on the object but not flushed. -/
structure PatchLines where
  loaded : Option (List BookingLine)
  flushedRooms : List UUID
  roomCharge : Option Money

def PatchLines.ofBooking (booking : Booking) : PatchLines :=
  ⟨some booking.lines, booking.lines.filterMap (·.roomId), none⟩

/-- UPDATE of the total, when it is a change. A stored total fits its column. -/
def updateTotal (booking : Booking) (total : Money) : Tx Unit := do
  raiseIf (total.fits = false) .dataError
  if total = booking.totalAmount then pure ()
  else updateBookingRow booking.id (setTotal total) (id_setTotal total)

/-- The first flush also writes the notes, which are set on the object already. -/
def rebuildLines (env : Env) (booking : Booking) (rt : UUID) (total : Money)
    (perNight : List (ℤ × Money)) (notes : Option (Option String)) : Tx Money := do
  deleteLines booking.id
  raiseIf (notesStorable notes = false) .dataError
  updateTotal booking total
  flushLines booking.id (newLines rt perNight)
  updateFolioChargeAmount booking.id total
  replaceCountryPackTaxCharges env booking.id booking.propertyId total

/-- A room that all lines agree on is kept unless the request names one. -/
def priorRoomToRestore (booking : Booking) (body : BookingPatchRequest) : Option UUID :=
  if body.roomId = none then unifiedRoomId booking.lines else none

def restoreRoom (bid : UUID) (roomCharge : Money) : Option UUID → Tx PatchLines
  | none => pure ⟨none, [], some roomCharge⟩
  | some room => do
    assignBookingRoom bid (some room)
    let reloaded ← select fun db => (db.bookings.find bid).map (·.lines)
    pure ⟨reloaded, [], some roomCharge⟩

/-- The old nights are given back before the new ones are claimed. -/
def rebookNights (env : Env) (booking : Booking) (ratePlan rt : UUID) (newCi newCo : ℤ)
    (notes : Option (Option String)) : Tx Money := do
  let oldRows ← lockAndValidateAvailability rt (sortedDates (booking.lines.map (·.date))) 0
  decrementBookedRooms oldRows 1
  let (total, perNight) ← (sumRatesForStay rt ratePlan newCi newCo).tryCatch fun e =>
    match e with
    | .missingRates dates => raise (.patchBooking (.missingRates dates) 422)
    | e => raise e
  let newNights ← stayNights newCi newCo
  let newRows ← lockAndValidateAvailability rt newNights 1
  incrementBookedRooms newRows 1
  rebuildLines env booking rt total perNight notes

def changeDates (env : Env) (booking : Booking) (body : BookingPatchRequest)
    (newCi newCo : ℤ) : Tx PatchLines :=
  match booking.ratePlanId with
  | none => raise (.patchBooking
      (.text "booking has no stored rate_plan_id; cannot repricing on date change") 422)
  | some ratePlan =>
    match lineRoomTypes booking.lines with
    | [rt] => do
      let roomCharge ← rebookNights env booking ratePlan rt newCi newCo body.notes
      restoreRoom booking.id roomCharge (priorRoomToRestore booking body)
    | _ => raise (.patchBooking (.text "booking lines must share a single room type") 409)

def patchDates (env : Env) (booking : Booking) (body : BookingPatchRequest) : Tx PatchLines :=
  if body.checkIn = none ∧ body.checkOut = none then pure (.ofBooking booking)
  else do
    raiseIf (booking.lines = []) (.patchBooking (.text "booking has no lines") 409)
    let bounds := stayBounds booking.lines
    match body.checkIn.getD (some bounds.1), body.checkOut.getD (some bounds.2) with
    | some newCi, some newCo => do
      raiseIf (newCo ≤ newCi) (.patchBooking (.text "check_out must be after check_in") 422)
      raiseIf ((maxStayNights : ℤ) < newCo - newCi)
        (.patchBooking (.text "stay cannot exceed 365 nights") 422)
      if newCi ≠ bounds.1 ∨ newCo ≠ bounds.2 then changeDates env booking body newCi newCo
      else pure (.ofBooking booking)
    | _, _ => raise .typeError

/-- Assigning loads the lines again when they are expired. -/
def patchRoomAssignment (bid : UUID) (body : BookingPatchRequest) (pl : PatchLines) : Tx PatchLines :=
  match body.roomId with
  | none => pure pl
  | some room => do
    assignBookingRoom bid room
    match pl.loaded with
    | some _ => pure pl
    | none => do
      let reloaded ← select fun db => (db.bookings.find bid).map (·.lines)
      pure { pl with loaded := reloaded }

def checkinRequirements (env : Env) (booking : Booking) : Tx Unit := do
  let guest ← select fun db => db.guests.find booking.guestId
  match guest with
  | none => raise (.patchBooking (.text "guest not found") 404)
  | some g =>
    let messages := env.checkinMessages booking.propertyId g
    raiseIf (messages ≠ []) (.patchBooking (.text ("; ".intercalate messages)) 400)

/-- Expired lines cannot be loaded again outside of a query. -/
def releaseLoaded : Option (List BookingLine) → Tx Unit
  | none => raise .missingGreenlet
  | some lines => releaseBookingInventory lines

/-- The status after the patch. -/
def patchStatus (env : Env) (booking : Booking) (body : BookingPatchRequest)
    (pl : PatchLines) : Tx BookingStatus :=
  match body.status with
  | none => pure booking.status
  | some s => do
    let newText := normalizeBookingStatus (statusText s)
    checkTransition booking.status newText
    let new := (BookingStatus.ofText newText).getD booking.status
    runIf (new = .checkedIn ∧ booking.status ≠ .checkedIn) (checkinRequirements env booking)
    runIf (new = .noShow ∧ booking.status = .confirmed) (releaseLoaded pl.loaded)
    runIf (new ≠ booking.status)
      (updateBookingRow booking.id (setStatus new) (id_setStatus new))
    pure new

def markRoomDirty (rooms : List UUID) (r : Room) : Room :=
  if r.id ∈ rooms ∧ r.deleted = false then { r with housekeepingStatus := "dirty" } else r

theorem id_markRoomDirty (rooms : List UUID) (r : Room) : (markRoomDirty rooms r).id = r.id := by
  unfold markRoomDirty
  split <;> rfl

def markAssignedRoomsDirtyOnCheckout (rooms : List UUID) : Tx Unit :=
  modify fun db =>
    { db with rooms := db.rooms.updateAll (markRoomDirty rooms) (id_markRoomDirty rooms) }

def checkoutWarning (booking : Booking) (status : BookingStatus) (pl : PatchLines) :
    Tx (Option Money) :=
  if status = .checkedOut ∧ booking.status ≠ .checkedOut then do
    markAssignedRoomsDirtyOnCheckout pl.flushedRooms
    let balance ← select (computeFolioBalance booking.id)
    pure (if balance ≠ 0 then some balance else none)
  else pure none

/-- The commit flushes a room charge that a date change has set. -/
def flushRoomCharge (bid : UUID) : Option Money → Tx Unit
  | none => pure ()
  | some amount => updateFolioChargeAmount bid amount

/-- A non-zero folio balance when the booking is checked out. -/
def patchBooking (env : Env) (bid : UUID) (body : BookingPatchRequest) : Tx (Option Money) :=
  if body = {} then pure none
  else do
    let found ← select fun db => db.bookings.find bid
    match found with
    | none => raise (.patchBooking (.text "booking not found") 404)
    | some booking => do
      if { body with notes := none } = ({} : BookingPatchRequest) then do
        patchNotes booking body.notes
        pure none
      else if cancels body then do
        patchCancel booking
        patchNotes booking body.notes
        pure none
      else do
        checkInactive booking body
        let pl ← patchDates env booking body
        let pl ← patchRoomAssignment bid body pl
        let status ← patchStatus env booking body pl
        let warning ← checkoutWarning booking status pl
        flushRoomCharge bid pl.roomCharge
        patchNotes booking body.notes
        pure warning

/-! Delete -/

/-- Rows that refer to the booking go or lose their reference, then its lines and the
booking itself go. -/
def eraseBooking (bid : UUID) : Tx Unit := do
  modify fun db => { db with
    stripeCharges := db.stripeCharges.filter fun c => c.bookingId ≠ bid
    stripePaymentMethods := db.stripePaymentMethods.map fun r =>
      if r.bookingId = some bid then { r with bookingId := none } else r
    emailLogs := db.emailLogs.map fun r =>
      if r.bookingId = some bid then { r with bookingId := none } else r
    revisions := db.revisions.updateAll (fun r =>
      if r.openpmsBookingId = some bid then { r with openpmsBookingId := none } else r)
      (fun r => by split <;> rfl)
    folio := db.folio.filter fun ft => ft.bookingId ≠ bid }
  deleteLines bid
  acquire (.booking bid)
  modify fun db => { db with bookings := db.bookings.erase bid }

/-- Returns the booking as it was; an inactive one has released its nights already. -/
def deleteBooking (bid : UUID) : Tx Booking := do
  let found ← select fun db => db.bookings.find bid
  match found with
  | none => raise (.deleteBooking "booking not found" 404)
  | some booking => do
    raiseIf (booking.status = .checkedIn ∨ booking.status = .checkedOut)
      (.deleteBooking "cannot delete booking after check-in or check-out" 409)
    runIf booking.status.Active (releaseBookingInventory booking.lines)
    eraseBooking bid
    pure booking

/-! The no-show part of the night audit: one transaction for a property that patches every
overdue confirmed booking and goes on after a refused patch only -/

/-- The order in which the database answers a query without ORDER BY. -/
structure RowOrder where
  arrange : List UUID → List UUID
  perm : ∀ l, (arrange l).Perm l

/-- Confirmed bookings of the property whose first night is before the local day. -/
def overdueConfirmed (propertyId : UUID) (todayLocal : ℤ) (db : Db) : List UUID :=
  (db.bookings.rows.filter fun b => b.propertyId = propertyId && b.status = .confirmed &&
    b.lines.any fun ln => ln.date < todayLocal).map (·.id)

def noShowRequest : BookingPatchRequest := { status := some (some "no_show") }

/-- Only the service's own refusal is logged and passed over. -/
def markNoShow (env : Env) (bid : UUID) : Tx ℕ :=
  (do
    let _ ← patchBooking env bid noShowRequest
    pure 1).tryCatch fun e =>
      match e with
      | .patchBooking _ _ => pure 0
      | e => raise e

def markNoShows (env : Env) : List UUID → Tx ℕ
  | [] => pure 0
  | bid :: rest => do
    let marked ← markNoShow env bid
    let more ← markNoShows env rest
    pure (marked + more)

def autoNoShowConfirmedPastCheckin (env : Env) (order : RowOrder) (propertyId : UUID)
    (todayLocal : ℤ) : Tx ℕ := do
  let bookingIds ← select fun db => order.arrange (overdueConfirmed propertyId todayLocal db)
  markNoShows env bookingIds

end OpenPms
