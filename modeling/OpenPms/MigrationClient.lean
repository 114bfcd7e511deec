import Mathlib.Data.Rat.Defs
import OpenPms.BookingStatus
import OpenPms.Lib.Crash

/-!
What the migration works on: the normalized records, the report of a run, the state file
and the client of the OpenPMS API with its retries. The server is a function of its own
state, so that nothing is assumed of its answers here.
-/
namespace OpenPms.Migration

open Transaction Prog

/-! Records -/

structure GuestRecord where
  externalId : String
  firstName : String
  lastName : String
  email : Option String
  phone : Option String
  nationality : Option String
  notes : Option String
  vipStatus : Bool

structure BookingGuestSnapshot where
  firstName : String
  lastName : String
  email : String
  phone : String

structure BookingRecord where
  externalId : String
  checkIn : ℤ
  checkOut : ℤ
  roomTypeName : String
  ratePlanName : String
  guest : BookingGuestSnapshot
  status : BookingStatus
  source : String

structure RoomTypeRecord where
  name : String
  baseOccupancy : ℤ
  maxOccupancy : ℤ

structure RoomRecord where
  roomTypeName : String
  name : String
  status : String

structure RatePlanRecord where
  name : String
  cancellationPolicy : String

structure ValidationResult where
  ok : Bool
  issues : List String

/-- What the methods of the adapter return. -/
structure SourceAdapter where
  validate : ValidationResult
  extractGuests : List GuestRecord
  extractRoomTypes : List RoomTypeRecord
  extractRooms : List RoomRecord
  extractRatePlans : List RatePlanRecord
  extractBookings : List BookingRecord

/-! Requests and answers -/

structure GuestBody where
  firstName : String
  lastName : String
  email : String
  phone : String
  notes : Option String
  vipStatus : Bool
  nationality : Option String

/-- The keys that are set. -/
structure GuestPatch where
  phone : Option String
  notes : Option String
  nationality : Option String
  vipStatus : Bool

/-- Every body has the status "confirmed" and force_new_guest false. -/
structure BookingBody where
  propertyId : UUID
  roomTypeId : UUID
  ratePlanId : UUID
  checkIn : ℤ
  checkOut : ℤ
  guest : BookingGuestSnapshot
  source : String
  externalBookingId : String

structure RoomItem where
  name : String
  status : String
  deriving DecidableEq

structure NamedRow where
  id : UUID
  name : String

/-- The text of an id in an answer, which need not be that of a UUID. -/
inductive IdText where
  | uuid (id : UUID)
  | other (text : String)
  deriving DecidableEq

structure GuestItem where
  email : String
  id : Option IdText

structure BookingItem where
  id : Option UUID
  status : String

/-- Rooms are posted with on_conflict "skip"; guests are listed ten at a time. -/
inductive Request where
  | listRoomTypes (propertyId : UUID)
  | createRoomType (propertyId : UUID) (rt : RoomTypeRecord)
  | bulkCreateRooms (roomTypeId : UUID) (rooms : List RoomItem)
  | listRatePlans (propertyId : UUID)
  | createRatePlan (propertyId : UUID) (name cancellationPolicy : String)
  | bulkPutRates (roomTypeId ratePlanId : UUID) (startDate endDate : ℤ) (price : ℚ)
  | seedAvailability (roomTypeId : UUID) (startDate endDate : ℤ)
  | listGuests (q : String)
  | createGuest (body : GuestBody)
  | patchGuest (id : UUID) (body : GuestPatch)
  | createBooking (body : BookingBody)
  | listBookings (externalBookingId : String)
  | listBookingsWindow (propertyId : UUID) (startDate endDate : ℤ)
  | patchBooking (id : UUID) (status : BookingStatus)

/-- What the client's callers read of a successful answer. An id that the caller looks up
only later may be missing; an item without any key is `none`. -/
abbrev Answer : Request → Type
  | .listRoomTypes _ | .listRatePlans _ => List NamedRow
  | .createRoomType .. | .createRatePlan .. => UUID
  | .bulkCreateRooms .. => ℕ × ℕ
  | .bulkPutRates .. | .seedAvailability .. => ℕ
  | .listGuests _ => List GuestItem
  | .createGuest _ => Option IdText
  | .patchGuest .. | .listBookingsWindow .. | .patchBooking .. => Unit
  | .createBooking _ => Option UUID
  | .listBookings _ => List (Option BookingItem)

/-- `json` is `none` when the text is not what the caller can read. -/
inductive Reply (β : Type) where
  | transportError
  | otherError
  | response (status : ℕ) (text : String) (json : Option β)

def Reply.status {β : Type} : Reply β → Option ℕ
  | .response code _ _ => some code
  | _ => none

/-- The server and what lies between it and the client. -/
abbrev Api (σ : Type) := (q : Request) → σ → Reply (Answer q) × σ

/-! Errors -/

inductive Duplicate where
  | guestMatches (externalId : String) (openpmsId : IdText)
  | guestEmail (externalId : String)
  | booking (externalId reason : String)
  deriving DecidableEq

/-- The exceptions that a stage can meet. -/
inductive Exn where
  | rateLimit
  | conflict (text : String)
  | validation (text : String)
  | httpStatus (code : ℕ)
  | transport
  | request
  | malformed
  | onConflictFail (why : Duplicate)
  deriving DecidableEq

/-- The texts of the report's errors, by what they are built from. -/
inductive Message where
  | exception (e : Exn)
  | issue (text : String)
  | roomTypeNotFound (key : String)
  | roomTypeMissing
  | noRoomTypeOrRatePlan (roomType ratePlan : String)
  deriving DecidableEq

/-! The report -/

inductive Stage where
  | roomTypes
  | rooms
  | ratePlans
  | rates
  | availability
  | guests
  | bookings
  | verify
  deriving DecidableEq

structure StageStats where
  total : ℕ := 0
  created : ℕ := 0
  updated : ℕ := 0
  skipped : ℕ := 0
  existed : ℕ := 0
  errors : ℕ := 0
  deriving DecidableEq

inductive FinalStatus where
  | success
  | partly
  | failed
  deriving DecidableEq

structure ReportError where
  entity : String
  ref : String
  message : Message
  deriving DecidableEq

structure MigrationReport where
  finalStatus : FinalStatus := .success
  stages : Stage → Option StageStats := fun _ => none
  errors : List ReportError := []

namespace MigrationReport

def setStats (r : MigrationReport) (g : Stage) (stats : StageStats) : MigrationReport :=
  { r with stages := fun h => if h = g then some stats else r.stages h }

/-- The counters of a stage are one object that the report refers to. -/
def count (r : MigrationReport) (g : Stage) (f : StageStats → StageStats) : MigrationReport :=
  { r with stages := fun h => if h = g then (r.stages h).map f else r.stages h }

def addError (r : MigrationReport) (e : ReportError) : MigrationReport :=
  { r with errors := r.errors ++ [e] }

end MigrationReport

/-! The state file -/

inductive StageStatus where
  | running
  | done
  | failed
  deriving DecidableEq

structure StageRow where
  status : StageStatus
  stats : Option StageStats

inductive Entity where
  | roomType
  | ratePlan
  | guest
  | booking
  deriving DecidableEq

inductive Outcome where
  | created
  | existed
  | skipped
  | updated
  deriving DecidableEq

/-- An empty id is `none`. -/
structure ProcessedRow where
  openpmsId : Option IdText
  result : Outcome

inductive MappingKind where
  | roomTypeName
  | ratePlanName
  | guestEmail
  deriving DecidableEq

/-- The tables stages, processed and mappings, by their primary keys. -/
structure StateStore where
  stages : String → Stage → Option StageRow
  processed : String → Entity → String → Option ProcessedRow
  mappings : String → MappingKind → String → Option IdText

namespace StateStore

def empty : StateStore := ⟨fun _ _ => none, fun _ _ _ => none, fun _ _ _ => none⟩

def setStageStatus (st : StateStore) (run : String) (g : Stage) (row : StageRow) : StateStore :=
  { st with stages := fun r h => if r = run ∧ h = g then some row else st.stages r h }

def markProcessed (st : StateStore) (run : String) (entity : Entity) (externalId : String)
    (row : ProcessedRow) : StateStore :=
  { st with processed := fun r e x =>
      if r = run ∧ e = entity ∧ x = externalId then some row else st.processed r e x }

def putMapping (st : StateStore) (run : String) (kind : MappingKind) (name : String)
    (id : IdText) : StateStore :=
  { st with mappings := fun r k n =>
      if r = run ∧ k = kind ∧ n = name then some id else st.mappings r k n }

def isProcessed (st : StateStore) (run : String) (entity : Entity) (externalId : String) : Bool :=
  (st.processed run entity externalId).isSome

end StateStore

/-! The client -/

/-- A request that was sent, with the status code that came back, if any did. -/
structure Exchange where
  request : Request
  status : Option ℕ

/-- `log` lists the requests that were sent, the newest first; the code does not read it. -/
structure World (σ : Type) where
  server : σ
  store : StateStore
  report : MigrationReport
  log : List Exchange

abbrev Cli (σ : Type) := Prog (World σ) Empty Exn

variable {σ : Type}

/-- The request is sent once. -/
def send (api : Api σ) (q : Request) : Cli σ (Reply (Answer q)) :=
  read fun w =>
    let reply := (api q w.server).1
    write (fun w => { w with
      server := (api q w.server).2
      log := ⟨q, (api q w.server).1.status⟩ :: w.log }) (ret reply)

/-- The exception that an answer raises, or its body. -/
def Reply.result {β : Type} : Reply β → Except Exn (Option β)
  | .transportError => .error .transport
  | .otherError => .error .request
  | .response code text json =>
    if code = 429 then .error .rateLimit
    else if code = 409 then .error (.conflict text)
    else if code = 422 then .error (.validation text)
    else if 200 ≤ code ∧ code < 300 then .ok json
    else .error (.httpStatus code)

def Exn.isRetryable : Exn → Bool
  | .transport | .rateLimit => true
  | .httpStatus code => 500 ≤ code
  | _ => false

/-- One attempt and at most `n` more. -/
def attempts (api : Api σ) (q : Request) : ℕ → Cli σ (Option (Answer q))
  | 0 => do
    let reply ← send api q
    ofExcept reply.result
  | n + 1 => do
    let reply ← send api q
    match reply.result with
    | .ok json => pure json
    | .error e => if e.isRetryable then attempts api q n else raise e

/-- Five attempts in all. -/
def request (api : Api σ) (q : Request) : Cli σ (Option (Answer q)) := attempts api q 4

/-- The request and the body of its answer. -/
def call (api : Api σ) (q : Request) : Cli σ (Answer q) := do
  let json ← request api q
  match json with
  | some answer => pure answer
  | none => raise .malformed

def getBookingByExternalId (api : Api σ) (externalId : String) : Cli σ (Option BookingItem) :=
  let ext := Text.take 128 (Text.strip externalId)
  if ext = "" then pure none
  else do
    let items ← call api (.listBookings ext)
    pure (items.head?.getD none)

/-- The body of the answer is not read. -/
def patchBooking (api : Api σ) (id : UUID) (status : BookingStatus) : Cli σ Unit := do
  let _ ← request api (.patchBooking id status)

/-! What a call leaves -/

/-- The report stays as it is, and a request is sent. -/
structure Sends (q : Request) (w w' : World σ) : Prop where
  report : w'.report = w.report
  log : w.log <:+ w'.log
  sent : ∃ status, ⟨q, status⟩ ∈ w'.log

theorem sends_attempts (api : Api σ) (q : Request) (n : ℕ) (w : World σ) :
    Sends q w ((attempts api q n).exec w).2 := by
  have hsend (w : World σ) : ∃ reply w', (send api q).exec w = (.ok reply, w') ∧ Sends q w w' :=
    ⟨_, _, rfl, rfl, List.suffix_cons _ _, _, List.mem_cons_self⟩
  induction n generalizing w with
  | zero =>
    obtain ⟨reply, w', hexec, hsent⟩ := hsend w
    rw [attempts, exec_bind, hexec]
    have hkept : Keeps (fun w => w) (ofExcept reply.result : Cli σ (Option (Answer q))) :=
      keeps_ofExcept reply.result
    have hlast : ((ofExcept reply.result : Cli σ (Option (Answer q))).exec w').2 = w' := hkept w'
    simp only [hlast]
    exact hsent
  | succ n ih =>
    obtain ⟨reply, w', hexec, hsent⟩ := hsend w
    rw [attempts, exec_bind, hexec]
    simp only
    split
    · exact hsent
    · split
      · have hrest := ih w'
        exact ⟨hrest.report.trans hsent.report, hsent.log.trans hrest.log, hrest.sent⟩
      · exact hsent

theorem sends_call (api : Api σ) (q : Request) (w : World σ) :
    Sends q w ((call api q).exec w).2 := by
  have hrequest := sends_attempts api q 4 w
  have hsame : ((call api q).exec w).2 = ((attempts api q 4).exec w).2 := by
    rw [call, exec_bind, request]
    rcases (attempts api q 4).exec w with ⟨e | json, w'⟩
    · rfl
    · cases json <;> rfl
  rw [hsame]
  exact hrequest

end OpenPms.Migration
