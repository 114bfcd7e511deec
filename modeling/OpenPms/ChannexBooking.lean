import OpenPms.BookingService
import Mathlib.Algebra.Order.Floor.Ring
import Mathlib.Data.Rat.Floor

/-!
Ingest of Channex booking revisions. Errors that the try block handles leave the
ledger writes made before them in the session, and the final flush commits these
together with the error on the revision row. Every other error reaches the caller,
whose transaction rolls back.
-/
namespace OpenPms

open Transaction Prog

/-! The payload -/

def parseIsoDate : DateText → Option ℤ
  | .empty => none
  | .text parsed => parsed

/-- Python's `value or default` on an optional text. -/
def orText (value : Option String) (default : String) : String :=
  match value with
  | none => default
  | some s => if s = "" then default else s

/-- Python's `text or None`. -/
def nonEmpty (s : String) : Option String := if s = "" then none else some s

def roundHalfEven (q : ℚ) : ℤ :=
  let rest := q - ⌊q⌋
  if rest < 1 / 2 then ⌊q⌋
  else if 1 / 2 < rest then ⌊q⌋ + 1
  else if ⌊q⌋ % 2 = 0 then ⌊q⌋ else ⌊q⌋ + 1

/-- Quantized to cents; the decimal context has 28 digits. -/
def decimalAmount : RawAmount → Except Err Money
  | .blank => .ok 0
  | .malformed => .error .invalidOperation
  | .nan => .ok ⊤
  | .number q =>
    let cents := roundHalfEven (q * 100)
    if 10 ^ 28 ≤ cents.natAbs then .error .invalidOperation else .ok (cents : ℤ)

/-- An even split, rounded towards zero; the last night takes what is left. -/
def nightlyPricesFromTotal (total : Money) (nights : List ℤ) : List (ℤ × Money) :=
  match nights.getLast?, total with
  | none, _ => []
  | some _, ⊤ => nights.map fun d => (d, ⊤)
  | some lastDay, (cents : ℤ) =>
    let unit := cents.tdiv nights.length
    let firstSum := unit * (nights.length - 1)
    nights.dropLast.map (fun d => (d, ((unit : ℤ) : Money))) ++
      [(lastDay, ((cents - firstSum : ℤ) : Money))]

/-- A blank address or phone number fails the guest schema. -/
def guestPayloadFromChannex (payload : ChannexBookingRevisionPayload) (fallbackKey : String) :
    Except Err GuestPayload :=
  let c := payload.customer
  let first := orText (c.bind (·.name)) "Guest"
  let last := orText (c.bind (·.surname)) "Channex"
  let mailRaw := orText (c.bind (·.mail)) ("channex-" ++ fallbackKey ++ "@guests.openpms.invalid")
  let mail := Text.take 320 (Text.lower (Text.strip mailRaw))
  let phone := Text.take 64 (Text.strip (orText (c.bind (·.phone)) "+10000000000"))
  if mail = "" ∨ phone = "" then .error .validationError
  else .ok ⟨Text.take 255 first, Text.take 255 last, mail, phone, none⟩

def sourceChannel (payload : ChannexBookingRevisionPayload) : String :=
  let ch := Text.take 40 (Text.strip (orText payload.channelId "ota"))
  Text.take 64 ("channex:" ++ ch)

/-- The dates of the first room when both are given, else those of the revision. -/
def checkInOut (payload : ChannexBookingRevisionPayload) : Option ℤ × Option ℤ :=
  match payload.rooms.head? with
  | some ⟨_, _, .text ci, .text co⟩ => (ci, co)
  | _ => (parseIsoDate payload.arrivalDate, parseIsoDate payload.departureDate)

/-! The revision row -/

def resolveRoomAndRateMaps (linkId : UUID) (cxRoomTypeId cxRatePlanId : String) :
    Tx (Option (ChannexRoomTypeMap × ChannexRatePlanMap)) := do
  let rtm ← select fun db => db.roomTypeMaps.find? fun m =>
    m.propertyLinkId = linkId && m.channexRoomTypeId = Text.strip cxRoomTypeId
  match rtm with
  | none => pure none
  | some rtm => do
    let rpm ← select fun db => db.ratePlanMaps.find? fun m =>
      m.roomTypeMapId = rtm.id && m.channexRatePlanId = Text.strip cxRatePlanId
    pure (rpm.map fun rpm => (rtm, rpm))

def updateRevision (rid : String) (f : ChannexBookingRevision → ChannexBookingRevision)
    (hf : ∀ r, (f r).channexRevisionId = r.channexRevisionId) : Tx Unit :=
  modify fun db => { db with revisions := db.revisions.update rid f hf }

def failRevision (rid : String) (e : RevisionError) : Tx Unit :=
  updateRevision rid (fun r => { r with processingStatus := .error, errorMessage := some e })
    fun _ => rfl

def finishRevision (rid : String) (bid : UUID) : Tx Unit :=
  updateRevision rid (fun r => { r with
    openpmsBookingId := some bid, processingStatus := .done, errorMessage := none })
    fun _ => rfl

/-- `false` for a revision that is done or being processed. The two identifiers and the
texts must fit their columns, also when the row exists. The INSERT does nothing when the key
exists, be it with another tenant, whose row the SELECT does not find, and waits for a
transaction that is inserting it. `loaded` is the row as the session has loaded it before:
the SELECT does not refresh it. -/
def claimRevisionRow (env : Env) (loaded : Option ChannexBookingRevision)
    (link : ChannexPropertyLink) (rid : String) (payload : ChannexBookingRevisionPayload) :
    Tx Bool := do
  let cxBookingId := Text.strip (orText payload.bookingId "")
  raiseIf (36 < rid.length ∨ 36 < cxBookingId.length ∨ payload.storable = false) .dataError
  raiseIf (env.foreignRevision rid = true)
    (.runtimeError "channex_booking_revision insert failed")
  let present ← select fun db => (db.revisions.find rid).isSome
  runIf (present = false) (acquire (.revision rid))
  let existing ← select fun db => db.revisions.find rid
  match existing with
  | none => do
    raiseIf (present = true) (.runtimeError "channex_booking_revision insert failed")
    let row : ChannexBookingRevision :=
      { channexRevisionId := rid, propertyLinkId := link.id,
        channexBookingId := nonEmpty cxBookingId,
        status := nonEmpty (Text.take 20 (orText payload.status "")),
        channelCode := nonEmpty (Text.take 50 (orText payload.channelId "")),
        payload := payload, processingStatus := .processing, openpmsBookingId := none,
        errorMessage := none }
    modify fun db => { db with revisions := db.revisions.insert row }
    pure true
  | some row =>
    match ((loaded.filter fun l => l.channexRevisionId = rid).getD row).processingStatus with
    | .done => pure false
    | .processing => pure false
    | .pending => pure true
    | .error => do
      acquire (.revision rid)
      updateRevision rid (fun r => { r with
        processingStatus := .processing, errorMessage := none, payload := payload }) fun _ => rfl
      pure true

structure ChannexIngestResult where
  skipIdempotent : Bool
  scheduleAvailabilityPush : Bool
  propertyId : UUID
  roomTypeId : Option UUID
  dateStrs : List ℤ
  success : Bool
  emailConfirmationBookingId : Option UUID
  emailCancellationBookingId : Option UUID

def ingestFailed (link : ChannexPropertyLink) (rt : Option UUID) : ChannexIngestResult :=
  ⟨false, false, link.propertyId, rt, [], false, none, none⟩

def ingestSkipped (link : ChannexPropertyLink) : ChannexIngestResult :=
  ⟨true, false, link.propertyId, none, [], true, none, none⟩

/-! The branches -/

/-- What the branches use of a revision that has passed the checks. -/
structure Revision where
  id : String
  external : String
  link : ChannexPropertyLink
  roomTypeId : UUID
  ratePlanId : UUID
  nights : List ℤ
  total : Money
  perNight : List (ℤ × Money)
  source : String
  guest : GuestPayload
  notes : Option String

namespace Revision

def failed (rev : Revision) : ChannexIngestResult := ingestFailed rev.link (some rev.roomTypeId)

def applied (rev : Revision) (dates : List ℤ) (confirmed cancelled : Option UUID) :
    ChannexIngestResult :=
  ⟨false, true, rev.link.propertyId, some rev.roomTypeId, sortedDates dates, true,
    confirmed, cancelled⟩

end Revision

def findByExternal (external : String) (db : Db) : Option Booking :=
  db.bookings.rows.find? fun b => b.externalBookingId = some external

/-- Any status but cancelled is released, no_show included. -/
def ingestCancelled (rev : Revision) : Tx ChannexIngestResult := do
  let found ← select (findByExternal rev.external)
  match found with
  | none => do
    failRevision rev.id (.noBooking rev.external)
    pure rev.failed
  | some booking =>
    if booking.status ≠ .cancelled then do
      releaseBookingInventory booking.lines
      updateBookingRow booking.id (setStatus .cancelled) (id_setStatus _)
      finishRevision rev.id booking.id
      let released := if (lineRoomTypes booking.lines).length = 1
        then booking.lines.map (·.date) else []
      pure (rev.applied released none (some booking.id))
    else do
      finishRevision rev.id booking.id
      pure (rev.applied [] none none)

def truncatedNotes (notes : Option String) : Option String :=
  (notes.bind nonEmpty).map (Text.take 2000)

/-- The guest takes the names of the revision; the email must stay unique. -/
def updateGuest (gid : UUID) (payload : GuestPayload) (notes : Option String) : Tx Unit := do
  let guest ← select fun db => db.guests.find gid
  match guest with
  | none => pure ()
  | some _ => do
    let email := Text.lower (Text.strip payload.email)
    let clash ← select fun db => db.guests.rows.any fun g => g.id ≠ gid && g.email = email
    raiseIf (clash = true) .integrityError
    let renamed (g : Guest) : Guest :=
      { g with firstName := payload.firstName, lastName := payload.lastName, email := email,
               phone := payload.phone, notes := (truncatedNotes notes).orElse (fun _ => g.notes) }
    modify fun db => { db with guests := db.guests.update gid renamed (fun _ => rfl) }

/-- UPDATE of rate plan and total, when one of them is a change. A stored total fits its
column. -/
def updatePlanAndTotal (booking : Booking) (ratePlan : UUID) (total : Money) : Tx Unit := do
  raiseIf (total.fits = false) .dataError
  if booking.ratePlanId = some ratePlan ∧ booking.totalAmount = total then pure ()
  else
    updateBookingRow booking.id
      (fun b => { b with ratePlanId := some ratePlan, totalAmount := total }) fun _ => rfl

/-- The status of the booking is not looked at: its old nights are released and the
new ones claimed, whether it holds inventory or not. -/
def ingestModified (env : Env) (rev : Revision) : Tx ChannexIngestResult := do
  let found ← select (findByExternal rev.external)
  match found with
  | none => do
    failRevision rev.id (.noBooking rev.external)
    pure rev.failed
  | some booking =>
    match lineRoomTypes booking.lines with
    | [oldRoomType] => do
      let oldNights := sortedDates (booking.lines.map (·.date))
      let oldRows ← lockAndValidateAvailability oldRoomType oldNights 0
      decrementBookedRooms oldRows 1
      let newRows ← lockAndValidateAvailability rev.roomTypeId rev.nights 1
      incrementBookedRooms newRows 1
      deleteLines booking.id
      updatePlanAndTotal booking rev.ratePlanId rev.total
      flushLines booking.id (newLines rev.roomTypeId rev.perNight)
      let roomCharge ←
        replaceCountryPackTaxCharges env booking.id booking.propertyId rev.total
      updateFolioChargeAmount booking.id roomCharge
      updateGuest booking.guestId rev.guest rev.notes
      finishRevision rev.id booking.id
      pure (rev.applied (oldNights ++ rev.nights) none none)
    | _ => do
      failRevision rev.id .mixedRoomTypes
      pure rev.failed

/-- A repeated external id is answered with the booking that has it. -/
def ingestNew (env : Env) (rev : Revision) : Tx ChannexIngestResult := do
  let existing ← select (findByExternal rev.external)
  match existing with
  | some booking => do
    finishRevision rev.id booking.id
    pure ⟨false, false, rev.link.propertyId, some rev.roomTypeId, [], true, none, none⟩
  | none => do
    let rows ← lockAndValidateAvailability rev.roomTypeId rev.nights 1
    incrementBookedRooms rows 1
    let (guest, _) ← getOrCreateGuestForBooking env rev.guest false
    let noted (g : Guest) : Guest :=
      { g with notes := g.notes.orElse (fun _ => truncatedNotes rev.notes) }
    modify fun db => { db with guests := db.guests.update guest.id noted (fun _ => rfl) }
    insertBooking env
      { id := env.bookingId, propertyId := rev.link.propertyId, guestId := guest.id,
        ratePlanId := some rev.ratePlanId,
        externalBookingId := some (Text.take 128 rev.external), status := .confirmed,
        source := rev.source, totalAmount := rev.total, notes := none, lines := [] }
      rev.roomTypeId rev.perNight "Room charge (Channex OTA)"
    finishRevision rev.id env.bookingId
    pure (rev.applied rev.nights (some env.bookingId) none)

/-- An integrity error has rolled the session back, so its handler's flush raises. -/
def handleIngestError (rev : Revision) : Err → Tx ChannexIngestResult
  | .insufficientInventory message => do
    failRevision rev.id (.overbooking message)
    pure rev.failed
  | .ledgerNotSeeded message => do
    failRevision rev.id (.ledgerNotSeeded message)
    pure rev.failed
  | .invalidBookingContext message => do
    failRevision rev.id (.guestCreation message)
    pure rev.failed
  | .integrityError => raise .pendingRollback
  | e => raise e

inductive RevisionKind where
  | cancelled
  | modified
  | new
  deriving DecidableEq

/-- Unknown statuses are treated as new. -/
def revisionKind (payload : ChannexBookingRevisionPayload) : RevisionKind :=
  let status := Text.lower (Text.strip (orText payload.status ""))
  if status = "cancelled" then .cancelled
  else if status = "modified" then .modified
  else .new

def applyRevision (env : Env) (kind : RevisionKind) (rev : Revision) : Tx ChannexIngestResult :=
  (match kind with
    | .cancelled => ingestCancelled rev
    | .modified => ingestModified env rev
    | .new => ingestNew env rev).tryCatch (handleIngestError rev)

/-- The checks between the mapping of the room and the branches. -/
def ingestMapped (env : Env) (link : ChannexPropertyLink) (rid : String)
    (payload : ChannexBookingRevisionPayload) (roomTypeId ratePlanId : UUID) :
    Tx ChannexIngestResult :=
  let external := orText (some (Text.strip (orText payload.bookingId ""))) rid
  let failed := ingestFailed link (some roomTypeId)
  match checkInOut payload with
  | (some checkIn, some checkOut) =>
    if checkOut ≤ checkIn then do
      failRevision rid .invalidDates
      pure failed
    else do
      let nights ← stayNights checkIn checkOut
      if nights = [] then do
        failRevision rid .emptyNights
        pure failed
      else do
        let total ← ofExcept (decimalAmount payload.amount)
        let guest ← ofExcept (guestPayloadFromChannex payload external)
        applyRevision env (revisionKind payload)
          { id := rid, external := external, link := link, roomTypeId := roomTypeId,
            ratePlanId := ratePlanId, nights := nights, total := total,
            perNight := nightlyPricesFromTotal total nights, source := sourceChannel payload,
            guest := guest, notes := payload.notes }
  | _ => do
    failRevision rid .invalidDates
    pure failed

/-- The mapped room and rate plan of the first room, when it names both. -/
def roomAndRateIds (payload : ChannexBookingRevisionPayload) : Option (String × String) := do
  let room0 ← payload.rooms.head?
  let roomTypeId ← room0.roomTypeId.bind nonEmpty
  let ratePlanId ← room0.ratePlanId.bind nonEmpty
  pure (roomTypeId, ratePlanId)

/-- What follows the claim of the revision row. -/
def ingestClaimed (env : Env) (link : ChannexPropertyLink)
    (payload : ChannexBookingRevisionPayload) : Tx ChannexIngestResult :=
  let rid := Text.strip payload.id
  match roomAndRateIds payload with
  | none => do
    failRevision rid .missingRoom
    pure (ingestFailed link none)
  | some (cxRoomType, cxRatePlan) => do
    let maps ← resolveRoomAndRateMaps link.id cxRoomType cxRatePlan
    match maps with
    | none => do
      failRevision rid (.unknownMaps cxRoomType cxRatePlan)
      pure (ingestFailed link none)
    | some (rtm, rpm) => ingestMapped env link rid payload rtm.roomTypeId rpm.ratePlanId

/-- The flat revision is `none` when it does not validate against the schema. -/
def ingestInSession (loaded : Option ChannexBookingRevision) (env : Env)
    (link : ChannexPropertyLink) (revisionFlat : Option ChannexBookingRevisionPayload) :
    Tx ChannexIngestResult :=
  match revisionFlat with
  | none => pure (ingestFailed link none)
  | some payload =>
    let rid := Text.strip payload.id
    if rid = "" then pure (ingestFailed link none)
    else do
      let claimed ← claimRevisionRow env loaded link rid payload
      if claimed = false then pure (ingestSkipped link) else ingestClaimed env link payload

/-- The webhook's session has loaded no revision before. -/
def ingestChannexBooking (env : Env) (link : ChannexPropertyLink)
    (revisionFlat : Option ChannexBookingRevisionPayload) : Tx ChannexIngestResult :=
  ingestInSession none env link revisionFlat

/-! The workers that ingest booking revisions: one for each logged webhook, and one for each
retry of a stored revision. Both ingest in one transaction and acknowledge the revision to
Channex after its commit. -/

/-- An inbound webhook: its event, the id of its inner payload and its property. -/
structure ChannexWebhookLog where
  event : String
  revisionId : Option String
  propertyId : String

def bookingWebhookEvents : List String :=
  ["booking", "booking_new", "booking_modification", "booking_mod", "booking_cancel",
    "booking_cancelled", "booking_cancellation"]

/-- `fetch` is the answer of Channex for a revision: absent when the request fails, and
absent inside when the answer does not validate. -/
structure WebhookDelivery where
  env : Env
  log : Option ChannexWebhookLog
  link : String → Option ChannexPropertyLink
  fetch : String → Option (Option ChannexBookingRevisionPayload)

structure RetryDelivery where
  env : Env
  revisionId : String
  link : UUID → Option ChannexPropertyLink

/-- The variables that a worker carries out of its transaction. -/
structure WorkerResult where
  ackRevisionId : Option String
  ingestOut : Option ChannexIngestResult

def WorkerResult.nothing : WorkerResult := ⟨none, none⟩

def processWebhook (d : WebhookDelivery) : Tx WorkerResult :=
  match d.log with
  | none => pure .nothing
  | some wl =>
    match (nonEmpty (Text.strip wl.propertyId)).bind d.link,
      (wl.revisionId.map Text.strip).bind nonEmpty with
    | some link, some revisionId =>
      if Text.lower wl.event ∈ bookingWebhookEvents then
        match d.fetch revisionId with
        | none => pure .nothing
        | some revFlat => do
          let out ← ingestChannexBooking d.env link revFlat
          pure ⟨some revisionId, some out⟩
      else pure .nothing
    | _, _ => pure .nothing

/-- The session loads the row first, so the claim sees it as it was loaded. -/
def retryBookingRevision (d : RetryDelivery) : Tx WorkerResult := do
  let rev ← select fun db => db.revisions.find d.revisionId
  match rev with
  | none => pure .nothing
  | some row =>
    if row.processingStatus ≠ .error then pure .nothing
    else
      match d.link row.propertyLinkId with
      | none => pure .nothing
      | some link => do
        let out ← ingestInSession (some row) d.env link (some row.payload)
        pure ⟨some row.channexRevisionId, some out⟩

/-- The revision that a worker acknowledges after its commit, unless the link is gone. -/
def WorkerResult.acknowledges (r : WorkerResult) : Option String :=
  match r.ingestOut with
  | none => r.ackRevisionId.bind nonEmpty
  | some out => if out.success = false then none else r.ackRevisionId.bind nonEmpty

inductive Worker where
  | webhook (d : WebhookDelivery)
  | retry (d : RetryDelivery)

def Worker.program : Worker → Tx WorkerResult
  | .webhook d => processWebhook d
  | .retry d => retryBookingRevision d

/-- Channex answers with the revision that was asked for. -/
def Worker.FetchesById : Worker → Prop
  | .webhook d => ∀ rid payload, d.fetch rid = some (some payload) → Text.strip payload.id = rid
  | .retry _ => True

end OpenPms
