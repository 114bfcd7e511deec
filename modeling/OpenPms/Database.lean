import OpenPms.BookingStatus
import OpenPms.TaxEngine
import OpenPms.Lib.KeyedTable
import OpenPms.Lib.Transaction

/-!
The rows of one tenant. Every query of the services filters by tenant_id, and row
level security hides the other tenants, so one tenant is one database here.
A booking carries its lines, as the relationship Booking.lines does. The ledger has
at most one row for a room type and day, so it is a partial map on these keys.
-/
namespace OpenPms

open KeyedTable Transaction

structure RoomType where
  id : UUID
  propertyId : UUID
  name : String
  baseOccupancy : ℤ
  maxOccupancy : ℤ
  deleted : Bool
  deriving DecidableEq

structure Room where
  id : UUID
  roomTypeId : UUID
  name : String
  status : String
  deleted : Bool
  housekeepingStatus : String
  deriving DecidableEq

structure RatePlan where
  id : UUID
  propertyId : UUID
  deriving DecidableEq

structure Guest where
  id : UUID
  firstName : String
  lastName : String
  email : String
  phone : String
  passportData : Option String
  notes : Option String
  deriving DecidableEq

structure BookingLine where
  date : ℤ
  roomTypeId : UUID
  roomId : Option UUID
  priceForDate : Money
  deriving DecidableEq

structure Booking where
  id : UUID
  propertyId : UUID
  guestId : UUID
  ratePlanId : Option UUID
  externalBookingId : Option String
  status : BookingStatus
  source : String
  totalAmount : Money
  notes : Option String
  lines : List BookingLine
  deriving DecidableEq

inductive FolioType where
  | charge
  | payment
  deriving DecidableEq

structure FolioTransaction where
  id : UUID
  bookingId : UUID
  transactionType : FolioType
  amount : Money
  paymentMethod : Option String
  description : Option String
  category : String
  deriving DecidableEq

structure StripeCharge where
  id : UUID
  bookingId : UUID
  deriving DecidableEq

/-- Rows that outlive their booking: the reference is set to null on deletion. -/
structure BookingReference where
  id : UUID
  bookingId : Option UUID
  deriving DecidableEq

structure ChannexPropertyLink where
  id : UUID
  propertyId : UUID
  deriving DecidableEq

structure ChannexRoomTypeMap where
  id : UUID
  propertyLinkId : UUID
  roomTypeId : UUID
  channexRoomTypeId : String
  deriving DecidableEq

structure ChannexRatePlanMap where
  id : UUID
  roomTypeMapId : UUID
  ratePlanId : UUID
  channexRatePlanId : String
  deriving DecidableEq

/-- A date field: absent or empty, or a text with what `date.fromisoformat` makes of
its first ten characters. -/
inductive DateText where
  | empty
  | text (parsed : Option ℤ)
  deriving DecidableEq

/-- The amount field: absent or blank, a text without a value in cents (malformed,
infinite or a signalling NaN), a NaN, or a number. -/
inductive RawAmount where
  | blank
  | malformed
  | nan
  | number (q : ℚ)
  deriving DecidableEq

structure ChannexRevisionCustomer where
  name : Option String
  surname : Option String
  mail : Option String
  phone : Option String
  deriving DecidableEq

structure ChannexRevisionRoom where
  roomTypeId : Option String
  ratePlanId : Option String
  checkinDate : DateText
  checkoutDate : DateText
  deriving DecidableEq

/-- `storable` says that the columns take its texts: none has a NUL character. -/
structure ChannexBookingRevisionPayload where
  id : String
  bookingId : Option String
  status : Option String
  arrivalDate : DateText
  departureDate : DateText
  amount : RawAmount
  customer : Option ChannexRevisionCustomer
  rooms : List ChannexRevisionRoom
  notes : Option String
  channelId : Option String
  storable : Bool := true
  deriving DecidableEq

inductive ProcessingStatus where
  | pending
  | processing
  | done
  | error
  deriving DecidableEq

/-- Why a revision was not applied; the stored messages are built from these data. -/
inductive RevisionError where
  | missingRoom
  | unknownMaps (roomTypeId ratePlanId : String)
  | invalidDates
  | emptyNights
  | noBooking (external : String)
  | mixedRoomTypes
  | overbooking (message : String)
  | ledgerNotSeeded (message : String)
  | guestCreation (message : String)
  deriving DecidableEq

structure ChannexBookingRevision where
  channexRevisionId : String
  propertyLinkId : UUID
  channexBookingId : Option String
  status : Option String
  channelCode : Option String
  payload : ChannexBookingRevisionPayload
  processingStatus : ProcessingStatus
  openpmsBookingId : Option UUID
  errorMessage : Option RevisionError
  deriving DecidableEq

/-! The availability ledger -/

structure Counts where
  totalRooms : ℤ
  bookedRooms : ℤ
  blockedRooms : ℤ
  deriving DecidableEq

/-- The row map together with the largest day of each room type. -/
structure Ledger where
  row : UUID → ℤ → Option Counts
  maxDate : UUID → Option ℤ
  le_maxDate : ∀ rt d, (row rt d).isSome → ∃ m, maxDate rt = some m ∧ d ≤ m
  row_maxDate : ∀ rt m, maxDate rt = some m → (row rt m).isSome

namespace Ledger

def empty : Ledger := ⟨fun _ _ => none, fun _ => none, by simp, by simp⟩

/-- The days that have a row determine the largest one. -/
theorem maxDate_eq {l l' : Ledger} {rt : UUID}
    (h : ∀ d, (l'.row rt d).isSome = (l.row rt d).isSome) : l'.maxDate rt = l.maxDate rt := by
  cases hm : l.maxDate rt with
  | none =>
    cases hm' : l'.maxDate rt with
    | none => rfl
    | some m' =>
      have hsome := h m' ▸ l'.row_maxDate rt m' hm'
      obtain ⟨m, hmax, -⟩ := l.le_maxDate rt m' hsome
      rw [hm] at hmax
      cases hmax
  | some m =>
    have hsome := (h m).symm ▸ l.row_maxDate rt m hm
    obtain ⟨m', hmax', hle⟩ := l'.le_maxDate rt m hsome
    have hsome' := h m' ▸ l'.row_maxDate rt m' hmax'
    obtain ⟨m₁, hmax, hle'⟩ := l.le_maxDate rt m' hsome'
    rw [hm] at hmax
    cases hmax
    rw [hmax', le_antisymm hle' hle]

/-- The rows determine the ledger. -/
theorem ext_row {l l' : Ledger} (h : ∀ rt d, l.row rt d = l'.row rt d) : l = l' := by
  have hrow : l.row = l'.row := funext fun rt => funext fun d => h rt d
  have hmax : l.maxDate = l'.maxDate :=
    funext fun rt => maxDate_eq fun d => by rw [h rt d]
  obtain ⟨_, _, _, _⟩ := l
  obtain ⟨_, _, _, _⟩ := l'
  subst hrow hmax
  rfl

/-- UPDATE of existing rows. -/
def adjust (l : Ledger) (f : UUID → ℤ → Counts → Counts) : Ledger where
  row rt d := (l.row rt d).map (f rt d)
  maxDate := l.maxDate
  le_maxDate rt d h := l.le_maxDate rt d (by simpa using h)
  row_maxDate rt m h := by simpa using l.row_maxDate rt m h

/-- The larger of a day and those of a list. -/
def latest : Option ℤ → List ℤ → Option ℤ
  | m, [] => m
  | m, d :: rest => latest (some (m.elim d (max · d))) rest

theorem le_latest (m : Option ℤ) (dates : List ℤ) :
    (∀ y, m = some y → ∃ x, latest m dates = some x ∧ y ≤ x) ∧
      ∀ d ∈ dates, ∃ x, latest m dates = some x ∧ d ≤ x := by
  induction dates generalizing m with
  | nil =>
    constructor
    · intro y hy
      exact ⟨y, hy, le_refl y⟩
    · simp
  | cons d rest ih =>
    obtain ⟨hacc, hrest⟩ := ih (some (m.elim d (max · d)))
    obtain ⟨x, hx, hle⟩ := hacc _ rfl
    constructor
    · rintro y rfl
      exact ⟨x, hx, (le_max_left y d).trans hle⟩
    · intro e he
      rcases List.mem_cons.mp he with rfl | he
      · refine ⟨x, hx, le_trans ?_ hle⟩
        cases m with
        | none => exact le_refl e
        | some y => exact le_max_right y e
      · exact hrest e he

theorem latest_mem {m : Option ℤ} {dates : List ℤ} {x : ℤ} (h : latest m dates = some x) :
    m = some x ∨ x ∈ dates := by
  induction dates generalizing m with
  | nil => exact .inl h
  | cons d rest ih =>
    rcases ih h with hx | hx
    · have hcases : m = some x ∨ x = d := by
        cases m with
        | none => exact .inr (Option.some.inj hx).symm
        | some y =>
          have hmax : max y d = x := Option.some.inj hx
          rcases le_total y d with hyd | hyd
          · exact .inr (by rw [← hmax, max_eq_right hyd])
          · exact .inl (by rw [← hmax, max_eq_left hyd])
      rcases hcases with hm | rfl
      · exact .inl hm
      · exact .inr (List.mem_cons_self ..)
    · exact .inr (List.mem_cons_of_mem _ hx)

/-- INSERT a row for each day, with `refresh` applied where one exists already. -/
def upsert (l : Ledger) (rt : UUID) (dates : List ℤ) (fresh : Counts)
    (refresh : Counts → Counts) : Ledger where
  row r d := if r = rt ∧ d ∈ dates then some ((l.row r d).elim fresh refresh) else l.row r d
  maxDate r := if r = rt then latest (l.maxDate r) dates else l.maxDate r
  le_maxDate r d h := by
    by_cases hr : r = rt
    · subst hr
      obtain ⟨hacc, hdates⟩ := le_latest (l.maxDate r) dates
      by_cases hd : d ∈ dates
      · simpa using hdates d hd
      · obtain ⟨m, hm, hle⟩ := l.le_maxDate r d (by simpa [hd] using h)
        obtain ⟨x, hx, hmx⟩ := hacc m hm
        exact ⟨x, by simpa using hx, hle.trans hmx⟩
    · simpa [hr] using l.le_maxDate r d (by simpa [hr] using h)
  row_maxDate r m h := by
    by_cases hr : r = rt
    · subst hr
      by_cases hd : m ∈ dates
      · simp [hd]
      · rcases latest_mem (by simpa using h) with hm | hm
        · simpa [hd] using l.row_maxDate r m hm
        · exact absurd hm hd
    · simpa [hr] using l.row_maxDate r m (by simpa [hr] using h)

@[simp] theorem adjust_row (l : Ledger) (f : UUID → ℤ → Counts → Counts) (rt : UUID) (d : ℤ) :
    (l.adjust f).row rt d = (l.row rt d).map (f rt d) := rfl

@[simp] theorem upsert_row (l : Ledger) (rt : UUID) (dates : List ℤ) (fresh : Counts)
    (refresh : Counts → Counts) (r : UUID) (d : ℤ) :
    (l.upsert rt dates fresh refresh).row r d =
      if r = rt ∧ d ∈ dates then some ((l.row r d).elim fresh refresh) else l.row r d := rfl

end Ledger

/-! The database, its errors and its transactions -/

/-- `today` is the current UTC day of the server's clock. -/
structure Db where
  today : ℤ
  properties : List UUID
  roomTypes : Table RoomType.id
  rooms : Table Room.id
  ratePlans : List RatePlan
  rates : UUID → UUID → ℤ → Option Money
  guests : Table Guest.id
  bookings : Table Booking.id
  ledger : Ledger
  folio : List FolioTransaction
  stripeCharges : List StripeCharge
  stripePaymentMethods : List BookingReference
  emailLogs : List BookingReference
  roomTypeMaps : List ChannexRoomTypeMap
  ratePlanMaps : List ChannexRatePlanMap
  revisions : Table ChannexBookingRevision.channexRevisionId

/-- A tenant before its first request. -/
def Db.empty (today : ℤ) : Db where
  today := today
  properties := []
  roomTypes := .empty
  rooms := .empty
  ratePlans := []
  rates := fun _ _ _ => none
  guests := .empty
  bookings := .empty
  ledger := .empty
  folio := []
  stripeCharges := []
  stripePaymentMethods := []
  emailLogs := []
  roomTypeMaps := []
  ratePlanMaps := []
  revisions := .empty

inductive Detail where
  | text (message : String)
  | transition (e : TransitionError)
  | missingRates (dates : List ℤ)
  deriving DecidableEq

/-- The exceptions of the services, with the data that their messages are built
from, and those of the libraries that can reach a caller. -/
inductive Err where
  | ledgerNotSeeded (message : String)
  | insufficientInventory (message : String)
  | missingRates (dates : List ℤ)
  | invalidBookingContext (message : String)
  | duplicateExternalBooking
  | guestConflict
  | assignBookingRoom (detail : String) (statusCode : ℕ)
  | patchBooking (detail : Detail) (statusCode : ℕ)
  | deleteBooking (detail : String) (statusCode : ℕ)
  | folio (detail : String) (statusCode : ℕ)
  | roomService (detail : String) (statusCode : ℕ)
  | ledgerSeed (detail : String) (statusCode : ℕ)
  | availabilityOverride (date : ℤ) (maxBlock : ℤ) (statusCode : ℕ)
  | valueError (message : String)
  | runtimeError (message : String)
  | typeError
  | validationError
  | invalidOperation
  | divisionByZero
  | decimalOverflow
  | overflowError
  | missingGreenlet
  | staleData
  | dataError
  | integrityError
  | pendingRollback
  deriving DecidableEq

/-- Rows that transactions lock. -/
inductive RowKey where
  | ledger (roomTypeId : UUID) (date : ℤ)
  | booking (id : UUID)
  | revision (id : String)
  deriving DecidableEq

abbrev Tx := Prog Db RowKey Err

/-- What a request gets from outside the modelled tables: the identifiers drawn for
new rows, the stored tax rules of the property's country pack, when it has one, with the
mode of its tax configuration (exclusive when it has none), the check-in requirements of
its extensions, and which revision ids other tenants have used. -/
structure Env where
  bookingId : UUID
  guestId : UUID
  folioId : ℕ → UUID
  roomTypeId : UUID
  roomId : ℕ → UUID
  countryPack : UUID → Option (Tax.Json × Tax.TaxMode)
  checkinMessages : UUID → Guest → List String
  foreignRevision : String → Bool

namespace Db

def updateBooking (db : Db) (bid : UUID) (f : Booking → Booking)
    (hf : ∀ b, (f b).id = b.id) : Db :=
  { db with bookings := db.bookings.update bid f hf }

def setLedger (db : Db) (l : Ledger) : Db := { db with ledger := l }

@[simp] theorem setLedger_ledger (db : Db) (l : Ledger) : (db.setLedger l).ledger = l := rfl

@[simp] theorem setLedger_bookings (db : Db) (l : Ledger) :
    (db.setLedger l).bookings = db.bookings := rfl

theorem setLedger_setLedger (db : Db) (l l' : Ledger) :
    (db.setLedger l).setLedger l' = db.setLedger l' := rfl

def setBooked (db : Db) (rt : UUID) (d : ℤ) (n : ℤ) : Db :=
  { db with ledger := db.ledger.adjust fun r x c =>
      if r = rt ∧ x = d then { c with bookedRooms := n } else c }

end Db

end OpenPms
