import OpenPms.BookingService
import OpenPms.RoomService
import Mathlib.Logic.Relation

/-!
What the services are for, as a transition system on the part of the database that
rooms, bookings and the ledger make up. Each step is one complete business action:
the ledger moves together with the lines that justify it. The services refine
sequences of these steps; the invariants are proved of the steps.
-/
namespace OpenPms

open KeyedTable

structure Hotel where
  today : ℤ
  roomTypes : Table RoomType.id
  rooms : Table Room.id
  bookings : Table Booking.id
  ledger : Ledger

def Db.hotel (db : Db) : Hotel := ⟨db.today, db.roomTypes, db.rooms, db.bookings, db.ledger⟩

/-- A priced stay: the nights of one half-open interval, in order, with prices. -/
structure PricedStay where
  roomTypeId : UUID
  checkIn : ℤ
  checkOut : ℤ
  perNight : List (ℤ × Money)
  checkIn_lt : checkIn < checkOut
  span_le : checkOut - checkIn ≤ maxStayNights
  perNight_fst : perNight.map (·.1) = daysBetween checkIn checkOut

namespace PricedStay

def nights (stay : PricedStay) : List ℤ := daysBetween stay.checkIn stay.checkOut

def lines (stay : PricedStay) : List BookingLine := newLines stay.roomTypeId stay.perNight

def total (stay : PricedStay) : Money := (stay.perNight.map (·.2)).sum

end PricedStay

def Booking.nights (b : Booking) : List ℤ := b.lines.map (·.date)

/-- The days of `dates` have rows with at least `n` rooms available. -/
def Ledger.Open (l : Ledger) (rt : UUID) (dates : List ℤ) (n : ℤ) : Prop :=
  ∀ d ∈ dates, ∃ c, l.row rt d = some c ∧ n ≤ c.available

/-- The row may be released: it exists, is not oversold and counts a booking. -/
def Ledger.Releasable (l : Ledger) (rt : UUID) (dates : List ℤ) : Prop :=
  ∀ d ∈ dates, ∃ c, l.row rt d = some c ∧ 0 ≤ c.available ∧ 1 ≤ c.bookedRooms

/-- The same rows with the same totals and blocks; the booked counters may differ. -/
def Ledger.SameCapacity (l l' : Ledger) : Prop :=
  ∀ rt d, (l'.row rt d).map (fun c => (c.totalRooms, c.blockedRooms)) =
    (l.row rt d).map fun c => (c.totalRooms, c.blockedRooms)

namespace Hotel

def roomCount (h : Hotel) (rt : UUID) : ℕ :=
  (h.rooms.rows.filter fun r => r.roomTypeId = rt && !r.deleted).length

/-- Rows of `rt` from today on get the number of its rooms as their total. -/
def recount (h : Hotel) (rt : UUID) : Hotel :=
  { h with ledger := h.ledger.setTotal rt h.today (h.roomCount rt) }

def setLines (stay : PricedStay) (ratePlan : Option UUID) (b : Booking) : Booking :=
  { b with lines := stay.lines, totalAmount := stay.total, ratePlanId := ratePlan }

theorem id_setLines (stay : PricedStay) (ratePlan : Option UUID) (b : Booking) :
    (setLines stay ratePlan b).id = b.id := rfl

/-- The room suits the booking and is free on its nights. -/
structure Assignable (h : Hotel) (b : Booking) (room : UUID) : Prop where
  row : ∃ r t, h.rooms.find room = some r ∧ r.deleted = false ∧
    lineRoomTypes b.lines = [r.roomTypeId] ∧
    h.roomTypes.find r.roomTypeId = some t ∧ t.propertyId = b.propertyId
  free : ∀ b' ∈ h.bookings.rows, b'.id ≠ b.id → b'.status.Active →
    ∀ ln ∈ b'.lines, ln.roomId = some room → ln.date ∉ b.nights

/-- No line from today on of a pending, confirmed or checked-in booking has the room. -/
def Unused (h : Hotel) (room : UUID) : Prop :=
  ∀ b ∈ h.bookings.rows, b.status.Live → ∀ ln ∈ b.lines, ln.roomId = some room →
    ln.date < h.today

/-- Rooms and days are added, or a room is renamed; nothing is taken away. -/
inductive Supply : Hotel → Hotel → Prop
  | addRoom {h : Hotel} {r : Room} (hfresh : h.rooms.find r.id = none)
      (hnew : r.deleted = false) :
      Supply h (recount { h with rooms := h.rooms.insert r } r.roomTypeId)
  | editRoom {h : Hotel} (rid : UUID) (name status : String) :
      Supply h { h with
        rooms := h.rooms.update rid (fun r => { r with name := name, status := status })
          fun _ => rfl }
  | seed {h : Hotel} (rt : UUID) (days : List ℤ) :
      Supply h { h with
        ledger := h.ledger.upsert rt days ⟨h.roomCount rt, 0, 0⟩
          fun c => { c with totalRooms := h.roomCount rt } }

/-- A stay is sold, and its booking gets a room. -/
inductive Sale : Hotel → Hotel → Prop
  | book {h : Hotel} {b : Booking} (stay : PricedStay)
      (hfresh : h.bookings.find b.id = none) (hactive : b.status.Active)
      (hlines : b.lines = stay.lines) (htotal : b.totalAmount = stay.total)
      (hopen : h.ledger.Open stay.roomTypeId stay.nights 1) :
      Sale h { h with
        bookings := h.bookings.insert b
        ledger := h.ledger.shift stay.roomTypeId stay.nights 1 }
  | assign {h : Hotel} {b : Booking} {room : UUID}
      (hfind : h.bookings.find b.id = some b) (hactive : b.status.Active)
      (hroom : h.Assignable b room) :
      Sale h { h with bookings := h.bookings.update b.id (setRoom (some room)) (id_setRoom _) }

/-- Actions that keep the ledger equal to the active lines. -/
inductive Step : Hotel → Hotel → Prop
  | sale {h h' : Hotel} (hsale : Sale h h') : Step h h'
  | rebook {h : Hotel} {b : Booking} {rt : UUID} (stay : PricedStay) (ratePlan : Option UUID)
      (hfind : h.bookings.find b.id = some b) (hactive : b.status.Active)
      (hrt : lineRoomTypes b.lines = [rt]) (hrel : h.ledger.Releasable rt b.nights)
      (hopen : (h.ledger.shift rt b.nights (-1)).Open stay.roomTypeId stay.nights 1) :
      Step h { h with
        bookings := h.bookings.update b.id (setLines stay ratePlan) (id_setLines stay ratePlan)
        ledger := (h.ledger.shift rt b.nights (-1)).shift stay.roomTypeId stay.nights 1 }
  | unassign {h : Hotel} {b : Booking}
      (hfind : h.bookings.find b.id = some b) (hactive : b.status.Active) :
      Step h { h with bookings := h.bookings.update b.id (setRoom none) (id_setRoom _) }
  | advance {h : Hotel} {b : Booking} {s : BookingStatus}
      (hfind : h.bookings.find b.id = some b) (hactive : s.Active)
      (hallowed : s ∈ b.status.allowed) :
      Step h { h with bookings := h.bookings.update b.id (setStatus s) (id_setStatus s) }
  | release {h : Hotel} {b : Booking} {s : BookingStatus} {rt : UUID}
      (hfind : h.bookings.find b.id = some b) (hactive : b.status.Active)
      (hinactive : ¬ s.Active) (hrt : lineRoomTypes b.lines = [rt])
      (hrel : h.ledger.Releasable rt b.nights) :
      Step h { h with
        bookings := h.bookings.update b.id (setStatus s) (id_setStatus s)
        ledger := h.ledger.shift rt b.nights (-1) }
  | annotate {h : Hotel} {b : Booking} (notes : Option String)
      (hfind : h.bookings.find b.id = some b) :
      Step h { h with bookings := h.bookings.update b.id (setNotes notes) (id_setNotes notes) }
  | remove {h : Hotel} {b : Booking} {rt : UUID}
      (hfind : h.bookings.find b.id = some b) (hactive : b.status.Active)
      (hrt : lineRoomTypes b.lines = [rt]) (hrel : h.ledger.Releasable rt b.nights) :
      Step h { h with
        bookings := h.bookings.erase b.id
        ledger := h.ledger.shift rt b.nights (-1) }
  | removeInactive {h : Hotel} {b : Booking}
      (hfind : h.bookings.find b.id = some b) (hinactive : ¬ b.status.Active) :
      Step h { h with bookings := h.bookings.erase b.id }
  | soil {h : Hotel} (rooms : List UUID) :
      Step h { h with rooms := h.rooms.updateAll (markRoomDirty rooms) (id_markRoomDirty rooms) }
  | supply {h h' : Hotel} (hsupply : Supply h h') : Step h h'
  | addRoomType {h : Hotel} {t : RoomType} (hfresh : h.roomTypes.find t.id = none) :
      Step h { h with roomTypes := h.roomTypes.insert t }
  | editRoomType {h : Hotel} (rt : UUID) (f : RoomType → RoomType)
      (hid : ∀ t, (f t).id = t.id) (hproperty : ∀ t, (f t).propertyId = t.propertyId) :
      Step h { h with roomTypes := h.roomTypes.update rt f hid }
  | block {h : Hotel} (rt : UUID) (days : List ℤ) (n : ℤ)
      (hroom : ∀ d ∈ days, ∃ c, h.ledger.row rt d = some c ∧
        n ≤ c.totalRooms - c.bookedRooms) :
      Step h { h with
        ledger := h.ledger.adjust fun r d c =>
          if r = rt ∧ d ∈ days then { c with blockedRooms := n } else c }
  | tick {h : Hotel} (day : ℤ) (hle : h.today ≤ day) : Step h { h with today := day }

/-- The room is soft-deleted and its type recounted. -/
def removeRoom (h : Hotel) (r : Room) : Hotel :=
  recount { h with
    rooms := h.rooms.update r.id (fun r => { r with deleted := true }) id_deleteRoom }
    r.roomTypeId

/-- The room takes another type and both types are recounted. -/
def moveRoom (h : Hotel) (r : Room) (rt : UUID) (name status : String) : Hotel :=
  recount (recount { h with
    rooms := h.rooms.update r.id
      (fun r => { r with roomTypeId := rt, name := name, status := status }) fun _ => rfl }
    r.roomTypeId) rt

/-- A room leaves its type. Only the removal looks at the bookings. -/
inductive Take : Hotel → Hotel → Prop
  | remove {h : Hotel} {r : Room} (hfind : h.rooms.find r.id = some r)
      (hlive : r.deleted = false) (hunused : h.Unused r.id) : Take h (h.removeRoom r)
  | move {h : Hotel} {r : Room} (rt : UUID) (name status : String)
      (hfind : h.rooms.find r.id = some r) (hlive : r.deleted = false)
      (hne : rt ≠ r.roomTypeId) : Take h (h.moveRoom r rt name status)

/-- What an OTA revision can do besides: it moves the ledger for a booking that holds
nothing, and a failed one can leave counters behind. -/
inductive Drift : Hotel → Hotel → Prop
  | cancelAgain {h : Hotel} {b : Booking} {l : Ledger}
      (hfind : h.bookings.find b.id = some b) (hinactive : ¬ b.status.Active)
      (hledger : h.ledger.SameCapacity l) :
      Drift h { h with
        bookings := h.bookings.update b.id (setStatus .cancelled) (id_setStatus _)
        ledger := l }
  | rebookInactive {h : Hotel} {b : Booking} {l : Ledger} (stay : PricedStay)
      (ratePlan : Option UUID)
      (hfind : h.bookings.find b.id = some b) (hinactive : ¬ b.status.Active)
      (hledger : h.ledger.SameCapacity l) :
      Drift h { h with
        bookings := h.bookings.update b.id (setLines stay ratePlan) (id_setLines stay ratePlan)
        ledger := l }
  | counters {h : Hotel} {l : Ledger}
      (hledger : h.ledger.SameCapacity l) :
      Drift h { h with ledger := l }

/-- An action of the desk, or one that only a revision takes. -/
def Change (h h' : Hotel) : Prop := Step h h' ∨ Drift h h'

/-! Finite sequences -/

abbrev Supplies : Hotel → Hotel → Prop := Relation.ReflTransGen Supply

abbrev Sales : Hotel → Hotel → Prop := Relation.ReflTransGen Sale

abbrev Steps : Hotel → Hotel → Prop := Relation.ReflTransGen Step

abbrev Changes : Hotel → Hotel → Prop := Relation.ReflTransGen Change

theorem Supplies.steps {h h' : Hotel} (hsupplies : Supplies h h') : Steps h h' := by
  have hmono : Supplies ≤ Steps := Relation.ReflTransGen.mono fun _ _ hs => Step.supply hs
  exact hmono h h' hsupplies

theorem Sales.steps {h h' : Hotel} (hsales : Sales h h') : Steps h h' := by
  have hmono : Sales ≤ Steps := Relation.ReflTransGen.mono fun _ _ hs => Step.sale hs
  exact hmono h h' hsales

theorem Steps.changes {h h' : Hotel} (hsteps : Steps h h') : Changes h h' := by
  have hmono : Steps ≤ Changes := Relation.ReflTransGen.mono fun _ _ hs => Or.inl hs
  exact hmono h h' hsteps

/-- What each action keeps, a sequence of them keeps. -/
theorem steps_invariant {I : Hotel → Prop} (hstep : ∀ {h h'}, I h → Step h h' → I h')
    {h h' : Hotel} (hI : I h) (hsteps : Steps h h') : I h' := by
  induction hsteps with
  | refl => exact hI
  | tail _ hs ih => exact hstep ih hs

theorem changes_invariant {I : Hotel → Prop} (hstep : ∀ {h h'}, I h → Step h h' → I h')
    (hdrift : ∀ {h h'}, I h → Drift h h' → I h') {h h' : Hotel} (hI : I h)
    (hchanges : Changes h h') : I h' := by
  induction hchanges with
  | refl => exact hI
  | tail _ hchange ih =>
    rcases hchange with hs | hd
    · exact hstep ih hs
    · exact hdrift ih hd

end Hotel

end OpenPms
