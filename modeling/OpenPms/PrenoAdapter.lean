import OpenPms.MigrationEmails

/-!
The adapter for the exports of Preno: bookings, and rooms with the label of their type. The
label of a booking's type is cut at its first comma and goes through the aliases, the label
of a room's type does not.
-/
namespace OpenPms.Migration

/-! Rows of the exports -/

/-- The columns that are read of a bookings export; an optional one that a file does not
have is `none`. -/
structure PrenoBooking where
  bookingId : String
  checkinDate : String
  checkoutDate : String
  roomTypes : String
  ratePlans : String
  firstName : Option String
  lastName : Option String
  source : Option String
  status : Option String

structure PrenoRoom where
  name : String
  roomType : String

/-- `toDatetime` is `pd.to_datetime` with errors coerced, as the day it falls on. -/
structure PrenoAdapter where
  toDatetime : String → Option ℤ
  includeCancelled : Bool
  bookings : List PrenoBooking
  rooms : List PrenoRoom

/-! Labels -/

def roomTypeAliases : List (String × String) :=
  [("garden bungalow", "Garden"), ("beachfront bungalow", "Bungalow")]

def normalizeRoomTypeName (name : String) : String :=
  (roomTypeAliases.lookup (nameKey name)).getD (Text.strip name)

/-- `label.split(",")[0]` -/
def firstPart (label : String) : String := String.ofList (label.toList.takeWhile (· ≠ ','))

def prenoStatuses : List (String × BookingStatus) :=
  [("confirmed", .confirmed), ("checked in", .checkedIn), ("checked out", .checkedOut),
    ("cancelled", .cancelled), ("canceled", .cancelled), ("no show", .noShow),
    ("no-show", .noShow)]

def prenoStatus (raw : Option String) : BookingStatus :=
  (prenoStatuses.lookup (nameKey (raw.getD ""))).getD .confirmed

/-- A stripped name, or what stands for a missing one. -/
def nameOr (fallback : String) (name : Option String) : String :=
  let stripped := Text.strip (name.getD "")
  if stripped = "" then fallback else stripped

namespace PrenoAdapter

variable (a : PrenoAdapter)

/-! Extraction -/

/-- The rows with stripped ids, of which the first row of each id is kept. -/
def dropDuplicates (seen : List String) : List PrenoBooking → List PrenoBooking
  | [] => []
  | row :: rest =>
    let id := Text.strip row.bookingId
    if id ∈ seen then dropDuplicates seen rest
    else { row with bookingId := id } :: dropDuplicates (id :: seen) rest

/-- The record of a row, unless the row is left out. -/
def extractBooking (row : PrenoBooking) : Option BookingRecord :=
  let ext := Text.strip row.bookingId
  if ext = "" then none
  else
    let status := prenoStatus row.status
    if status = .cancelled ∧ a.includeCancelled = false then none
    else match a.toDatetime row.checkinDate, a.toDatetime row.checkoutDate with
      | some checkIn, some checkOut =>
        if checkOut ≤ checkIn then none
        else
          let rtName := normalizeRoomTypeName (firstPart row.roomTypes)
          let rpName := Text.strip (firstPart row.ratePlans)
          if rtName = "" ∨ rpName = "" then none
          else some
            { externalId := ext
              checkIn := checkIn
              checkOut := checkOut
              roomTypeName := rtName
              ratePlanName := rpName
              guest :=
                { firstName := nameOr "Guest" row.firstName
                  lastName := nameOr "Unknown" row.lastName
                  email := placeholder ext
                  phone := "+10000000000" }
              status := status
              source := Text.take 64 ((row.source.map Text.strip).getD "direct") }
      | _, _ => none

def extractBookings : List BookingRecord := (dropDuplicates [] a.bookings).filterMap a.extractBooking

/-- The sorted names of a set. -/
def sortedNames (names : List String) : List String :=
  names.eraseDups.insertionSort (· ≤ ·)

def extractRoomTypes : List RoomTypeRecord :=
  (sortedNames (a.extractBookings.map fun b => normalizeRoomTypeName b.roomTypeName)).map
    fun name => ⟨name, 2, 4⟩

def extractRatePlans : List RatePlanRecord :=
  (sortedNames (a.extractBookings.map (·.ratePlanName))).map fun name => ⟨name, "standard"⟩

def extractRoom (row : PrenoRoom) : Option RoomRecord :=
  let name := Text.strip row.name
  let roomType := Text.strip row.roomType
  if name ≠ "" ∧ roomType ≠ "" then some ⟨roomType, name, "available"⟩ else none

def extractRooms : List RoomRecord := a.rooms.filterMap extractRoom

theorem of_extractBooking {row : PrenoBooking} {b : BookingRecord}
    (h : a.extractBooking row = some b) :
    b.externalId = Text.strip row.bookingId ∧
      b.roomTypeName = normalizeRoomTypeName (firstPart row.roomTypes) ∧
      b.guest.email = placeholder b.externalId := by
  simp only [extractBooking, Option.ite_none_left_eq_some] at h
  obtain ⟨-, -, h⟩ := h
  split at h
  · simp only [Option.ite_none_left_eq_some, Option.some.injEq] at h
    obtain ⟨-, -, hb⟩ := h
    simp only [← hb, and_self]
  · exact absurd h (by simp)

/-! Ids -/

end PrenoAdapter

end OpenPms.Migration
