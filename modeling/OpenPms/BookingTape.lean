import OpenPms.DateChange
import OpenPms.Lib.Sorting

/-!
The booking tape. Its rows are made by SQL: the lines of a booking are grouped into its
dates, room type and room, joined with the booking and its guest, filtered by a window of
nights and returned in pages. What the rows mean rests on the shape of the bookings.
-/
namespace OpenPms

open KeyedTable Transaction Prog Hotel Paging

/-! The queries -/

/-- The row that line_agg has for the lines of a booking. -/
structure LineAgg where
  checkInDate : ℤ
  checkOutDate : ℤ
  rtCnt : ℕ
  rtMin : UUID
  rmCnt : ℕ
  rmVal : Option UUID

/-- A booking without lines is in no group. -/
def lineAgg : List BookingLine → Option LineAgg
  | [] => none
  | ln :: rest => some
    { checkInDate := (stayBounds (ln :: rest)).1
      checkOutDate := (stayBounds (ln :: rest)).2
      rtCnt := (lineRoomTypes (ln :: rest)).length
      rtMin := (rest.map (·.roomTypeId)).foldl min ln.roomTypeId
      rmCnt := ((ln :: rest).filterMap (·.roomId)).dedup.length
      rmVal := ((ln :: rest).filterMap (·.roomId)).max? }

structure GuestTapeRead where
  id : UUID
  firstName : String
  lastName : String
  deriving DecidableEq

structure BookingTapeRead where
  id : UUID
  propertyId : UUID
  guestId : UUID
  externalBookingId : Option String
  status : BookingStatus
  source : String
  totalAmount : Money
  guest : GuestTapeRead
  checkInDate : ℤ
  checkOutDate : ℤ
  roomId : Option UUID
  roomTypeId : Option UUID
  notes : Option String
  deriving DecidableEq

/-- The joined row of a booking. -/
def bookingTapeRow (db : Db) (agg : Option LineAgg) (b : Booking) : Option BookingTapeRead :=
  agg.bind fun la => (db.guests.find b.guestId).map fun g =>
    { id := b.id, propertyId := b.propertyId, guestId := b.guestId,
      externalBookingId := b.externalBookingId.bind nonEmpty, status := b.status,
      source := b.source, totalAmount := b.totalAmount,
      guest := ⟨g.id, g.firstName, g.lastName⟩, checkInDate := la.checkInDate,
      checkOutDate := la.checkOutDate, roomId := if la.rmCnt = 1 then la.rmVal else none,
      roomTypeId := if la.rtCnt = 1 then some la.rtMin else none,
      notes := b.notes.bind nonEmpty }

structure TapeQuery where
  propertyId : UUID
  startDate : ℤ
  endDate : ℤ
  statusFilter : Option String

namespace TapeQuery
variable (q : TapeQuery)

/-- A night of the booking is in the window. -/
def Touches (b : Booking) : Prop := ∃ ln ∈ b.lines, q.startDate ≤ ln.date ∧ ln.date ≤ q.endDate

instance (b : Booking) : Decidable (q.Touches b) :=
  inferInstanceAs (Decidable (∃ ln ∈ b.lines, _))

/-- The WHERE clause. -/
def Where (b : Booking) : Prop :=
  b.propertyId = q.propertyId ∧ q.Touches b ∧ ∀ status ∈ q.statusFilter, b.status.text = status

instance (b : Booking) : Decidable (q.Where b) :=
  inferInstanceAs (Decidable (_ ∧ _ ∧ _))

/-- line_agg over all lines of the bookings that have one in the window. -/
def lineAggInWindow (b : Booking) : Option LineAgg := if q.Touches b then lineAgg b.lines else none

def rows (db : Db) : List BookingTapeRead :=
  ((db.bookings.rows.filter fun b => q.Where b).filterMap fun b =>
    bookingTapeRow db (q.lineAggInWindow b) b).insertionSort fun r r' => r.id ≤ r'.id

end TapeQuery

/-- A page, and the number of bookings on all pages. -/
def listBookingsEnriched (q : TapeQuery) (limit offset : ℕ) (db : Db) :
    List BookingTapeRead × ℕ :=
  (page (q.rows db) limit offset, (db.bookings.rows.filter fun b => q.Where b).length)

def getBookingTape (bid : UUID) (db : Db) : Option BookingTapeRead :=
  (db.bookings.find bid).bind fun b => bookingTapeRow db (lineAgg b.lines) b

/-! What a row shows -/

/-- The row shows the stay, the room type and the room of all lines, and their total. -/
structure BookingTapeRead.Shows (row : BookingTapeRead) (db : Db) (b : Booking) : Prop where
  booking : row.id = b.id ∧ row.propertyId = b.propertyId ∧ row.status = b.status
  nonempty : row.checkInDate < row.checkOutDate
  stay : ∀ d, d ∈ b.nights ↔ row.checkInDate ≤ d ∧ d < row.checkOutDate
  roomType : ∀ ln ∈ b.lines, row.roomTypeId = some ln.roomTypeId
  room : ∀ ln ∈ b.lines, row.roomId = ln.roomId
  total : row.totalAmount = (b.lines.map (·.priceForDate)).sum
  guest : ∃ g, db.guests.find b.guestId = some g ∧
    row.guest = ⟨g.id, g.firstName, g.lastName⟩

section Aggregates
variable {lines : List BookingLine}

theorem foldl_min_const {x : ℕ} {xs : List ℕ} (h : ∀ y ∈ xs, y = x) : xs.foldl min x = x := by
  induction xs with
  | nil => rfl
  | cons y rest ih =>
    rw [List.foldl_cons, h y (List.mem_cons_self ..), min_self]
    exact ih fun z hz => h z (List.mem_cons_of_mem _ hz)

theorem dedup_replicate_succ (n : ℕ) (a : UUID) : (List.replicate (n + 1) a).dedup = [a] :=
  List.replicate_dedup (Nat.succ_ne_zero n)

/-- The rooms of lines that all have the same room, or none. -/
theorem rooms_of_same {room : Option UUID} (h : ∀ ln ∈ lines, ln.roomId = room) :
    lines.filterMap (·.roomId) = room.elim [] (List.replicate lines.length) := by
  induction lines with
  | nil => cases room <;> rfl
  | cons ln rest ih =>
    have hrest := ih fun x hx => h x (List.mem_cons_of_mem _ hx)
    have hln := h ln (List.mem_cons_self ..)
    cases room with
    | none => simp [hln, hrest]
    | some r => simp [hln, hrest, List.replicate_succ]

theorem max?_replicate_succ (n a : ℕ) : (List.replicate (n + 1) a).max? = some a := by
  rw [List.max?_replicate]
  simp

end Aggregates

section Rows
variable {db : Db} {b : Booking}

/-- The row of a booking with the shape of a stay shows it. -/
theorem shows_of_shape (hshape : b.Shape) {g : Guest} (hguest : db.guests.find b.guestId = some g) :
    ∃ row, bookingTapeRow db (lineAgg b.lines) b = some row ∧ row.Shows db b := by
  obtain ⟨rt, hrt⟩ := hshape.roomType
  obtain ⟨room, hroom⟩ := hshape.room
  have hbounds := fun d => hshape.mem_nights_iff d
  obtain ⟨hall, -, -⟩ := stayBounds_spec hshape.lines_ne_nil
  have hsingle := lineRoomTypes_eq_single hshape.lines_ne_nil hrt
  cases hlines : b.lines with
  | nil => exact absurd hlines hshape.lines_ne_nil
  | cons ln rest =>
    rw [hlines] at hrt hroom hbounds hall hsingle
    have hmin : (rest.map (·.roomTypeId)).foldl min ln.roomTypeId = rt := by
      rw [hrt ln (List.mem_cons_self ..)]
      refine foldl_min_const fun y hy => ?_
      obtain ⟨x, hx, rfl⟩ := List.mem_map.mp hy
      exact hrt x (List.mem_cons_of_mem _ hx)
    have hval : (if ((ln :: rest).filterMap (·.roomId)).dedup.length = 1 then
        ((ln :: rest).filterMap (·.roomId)).max? else none) = room := by
      cases room with
      | none =>
        rw [show (ln :: rest).filterMap (·.roomId) = [] from rooms_of_same hroom]
        rfl
      | some r =>
        have hrooms : (ln :: rest).filterMap (·.roomId) = List.replicate (rest.length + 1) r :=
          rooms_of_same hroom
        rw [hrooms, max?_replicate_succ]
        exact if_pos (congrArg List.length (dedup_replicate_succ rest.length r))
    refine ⟨_, by rw [bookingTapeRow, hguest]; rfl, ⟨rfl, rfl, rfl⟩, ?_, hbounds, ?_, ?_, ?_, ?_⟩
    · have hfirst := hall ln (List.mem_cons_self ..)
      exact lt_of_le_of_lt hfirst.1 hfirst.2
    · intro x hx
      rw [hlines] at hx
      change (if (lineRoomTypes (ln :: rest)).length = 1 then _ else none) = _
      rw [hsingle, if_pos List.length_singleton, hmin, hrt x hx]
    · intro x hx
      rw [hlines] at hx
      exact hval.trans (hroom x hx).symm
    · exact hshape.total
    · exact ⟨g, hguest, rfl⟩

end Rows

/-! What the tape shows -/

/-- Every booking refers to a guest, as the foreign key of the table has it. -/
def GuestsKnown (db : Db) : Prop := ∀ b ∈ db.bookings.rows, (db.guests.find b.guestId).isSome

section Tape
variable {db : Db} {q : TapeQuery}

/-- For an interval a night in the window is an overlap of the two. -/
theorem touches_iff {b : Booking} (hwindow : q.startDate ≤ q.endDate) {ci co : ℤ} (hlt : ci < co)
    (hnights : ∀ d, d ∈ b.nights ↔ ci ≤ d ∧ d < co) :
    q.Touches b ↔ ci ≤ q.endDate ∧ q.startDate < co := by
  constructor
  · rintro ⟨ln, hln, hstart, hend⟩
    have hnight := (hnights ln.date).mp (mem_nights.mpr ⟨ln, hln, rfl⟩)
    omega
  · rintro ⟨hend, hstart⟩
    have hnight := (hnights (max ci q.startDate)).mpr (by omega)
    obtain ⟨ln, hln, hdate⟩ := mem_nights.mp hnight
    exact ⟨ln, hln, by omega, by omega⟩

theorem mem_tapeRows {row : BookingTapeRead} : row ∈ q.rows db ↔
    ∃ b ∈ db.bookings.rows, q.Where b ∧ bookingTapeRow db (lineAgg b.lines) b = some row := by
  simp only [TapeQuery.rows, List.mem_insertionSort, List.mem_filterMap, List.mem_filter,
    decide_eq_true_eq, and_assoc]
  constructor
  · rintro ⟨b, hb, hwhere, hrow⟩
    rw [TapeQuery.lineAggInWindow, if_pos hwhere.2.1] at hrow
    exact ⟨b, hb, hwhere, hrow⟩
  · rintro ⟨b, hb, hwhere, hrow⟩
    refine ⟨b, hb, hwhere, ?_⟩
    rw [TapeQuery.lineAggInWindow, if_pos hwhere.2.1]
    exact hrow

/-- When every booking has its row, the rows have the identifiers of the filtered bookings. -/
theorem map_id_tapeRows {bookings : List Booking}
    (hrow : ∀ b ∈ bookings, ∃ row, bookingTapeRow db (q.lineAggInWindow b) b = some row ∧
      row.id = b.id) :
    (bookings.filterMap fun b => bookingTapeRow db (q.lineAggInWindow b) b).map (·.id) =
      bookings.map (·.id) := by
  induction bookings with
  | nil => rfl
  | cons b rest ih =>
    obtain ⟨row, hb, hid⟩ := hrow b (List.mem_cons_self ..)
    have hrest := ih fun x hx => hrow x (List.mem_cons_of_mem _ hx)
    simp only [List.filterMap_cons, hb, List.map_cons, hid, hrest]

/-- The tape of a window in a state. -/
structure Tape (db : Db) (q : TapeQuery) (rows : List BookingTapeRead) : Prop where
  /-- In the order of the identifiers, so no booking has two rows. -/
  sorted : rows.Pairwise fun row row' => row.id < row'.id
  sound : ∀ row ∈ rows, ∃ b ∈ db.bookings.rows, row.Shows db b ∧ b.propertyId = q.propertyId ∧
    (∀ status ∈ q.statusFilter, b.status.text = status) ∧
    row.checkInDate ≤ q.endDate ∧ q.startDate < row.checkOutDate
  complete : ∀ b ∈ db.bookings.rows, ∀ ci co, ci < co → b.nights = daysBetween ci co →
    b.propertyId = q.propertyId → (∀ status ∈ q.statusFilter, b.status.text = status) →
    ci ≤ q.endDate → q.startDate < co → ∃ row ∈ rows, row.Shows db b
  /-- The page is cut from these rows, and the total is their number. -/
  pages : ∀ limit offset, listBookingsEnriched q limit offset db =
    (page rows limit offset, rows.length)
  single : ∀ row ∈ rows, getBookingTape row.id db = some row

/-- In every state of every run the tape shows exactly the bookings whose stay overlaps the
window, each once, with its whole stay, its room type, its room and its total. -/
theorem tape_shows_stays (h : Reachable anyOp db) (hguests : GuestsKnown db)
    (hwindow : q.startDate ≤ q.endDate) :
    ∃ rows, Tape db q rows ∧ ∀ limit n, rows.length ≤ n * limit →
      ((List.range n).map fun k => (listBookingsEnriched q limit (k * limit) db).1).flatten =
        rows := by
  have hshows : ∀ b ∈ db.bookings.rows,
      ∃ row, bookingTapeRow db (lineAgg b.lines) b = some row ∧ row.Shows db b := by
    intro b hb
    obtain ⟨g, hg⟩ := Option.isSome_iff_exists.mp (hguests b hb)
    exact shows_of_shape (h.shaped b hb) hg
  have hids : ((db.bookings.rows.filter fun b => q.Where b).filterMap fun b =>
      bookingTapeRow db (q.lineAggInWindow b) b).map (·.id) =
        (db.bookings.rows.filter fun b => q.Where b).map (·.id) := by
    refine map_id_tapeRows fun b hb => ?_
    obtain ⟨hmem, hwhere⟩ := List.mem_filter.mp hb
    obtain ⟨row, hrow, hshow⟩ := hshows b hmem
    rw [TapeQuery.lineAggInWindow, if_pos (of_decide_eq_true hwhere).2.1]
    exact ⟨row, hrow, hshow.booking.1⟩
  have hnodup : ((db.bookings.rows.filter fun b => q.Where b).map (·.id)).Nodup :=
    (List.filter_sublist.map _).nodup db.bookings.nodup
  have htotal : (db.bookings.rows.filter fun b => q.Where b).length = (q.rows db).length := by
    rw [TapeQuery.rows, List.length_insertionSort]
    simpa using (congrArg List.length hids).symm
  have hpages : ∀ limit offset, listBookingsEnriched q limit offset db =
      (page (q.rows db) limit offset, (q.rows db).length) := by
    intro limit offset
    rw [listBookingsEnriched, htotal]
  refine ⟨q.rows db, ⟨?_, ?_, ?_, hpages, ?_⟩, ?_⟩
  · exact Sorting.pairwise_lt (hids ▸ hnodup)
  · intro row hrow
    obtain ⟨b, hb, hwhere, hagg⟩ := mem_tapeRows.mp hrow
    obtain ⟨row', hagg', hshow⟩ := hshows b hb
    cases hagg.symm.trans hagg'
    exact ⟨b, hb, hshow, hwhere.1, hwhere.2.2,
      (touches_iff hwindow hshow.nonempty hshow.stay).mp hwhere.2.1⟩
  · intro b hb ci co hlt hnights hproperty hstatus hend hstart
    obtain ⟨row, hagg, hshow⟩ := hshows b hb
    have hdays : ∀ d, d ∈ b.nights ↔ ci ≤ d ∧ d < co := by
      intro d
      rw [hnights, mem_daysBetween]
    refine ⟨row, mem_tapeRows.mpr ⟨b, hb, ⟨hproperty, ?_, hstatus⟩, hagg⟩, hshow⟩
    exact (touches_iff hwindow hlt hdays).mpr ⟨hend, hstart⟩
  · intro row hrow
    obtain ⟨b, hb, -, hagg⟩ := mem_tapeRows.mp hrow
    obtain ⟨row', hagg', hshow⟩ := hshows b hb
    cases hagg.symm.trans hagg'
    rw [getBookingTape, hshow.booking.1, Table.find_of_mem hb]
    exact hagg
  · intro limit n hn
    have hfirst : (fun k => (listBookingsEnriched q limit (k * limit) db).1) =
        fun k => page (q.rows db) limit (k * limit) :=
      funext fun k => congrArg Prod.fst (hpages limit (k * limit))
    rw [hfirst]
    exact flatten_pages_of_le hn

end Tape

/-- The small hotel with its booking from day 3 to day 4, asked for days 2 to 3. -/
theorem tape_shows_stays_demo : ∃ rows,
    Tape (run (.empty 0) (Demo.openHotel ++ [Demo.bookStay])) ⟨1, 2, 3, some "confirmed"⟩ rows ∧
      rows.map (fun row => (row.id, row.checkInDate, row.checkOutDate, row.roomId)) =
        [(1000, 3, 4, some 100)] := by
  have hguests : GuestsKnown (run (.empty 0) (Demo.openHotel ++ [Demo.bookStay])) := by
    unfold GuestsKnown
    decide +kernel
  have hreach : Reachable anyOp (run (.empty 0) (Demo.openHotel ++ [Demo.bookStay])) :=
    reachable_run (.empty 0) fun _ _ _ => trivial
  have hwindow : (2 : ℤ) ≤ 3 := by decide
  obtain ⟨rows, htape, hpages⟩ := tape_shows_stays (q := ⟨1, 2, 3, some "confirmed"⟩) hreach
    hguests hwindow
  have hrows : ((listBookingsEnriched ⟨1, 2, 3, some "confirmed"⟩ 100 0
      (run (.empty 0) (Demo.openHotel ++ [Demo.bookStay]))).1.map fun row =>
        (row.id, row.checkInDate, row.checkOutDate, row.roomId)) = [(1000, 3, 4, some 100)] ∧
      (listBookingsEnriched ⟨1, 2, 3, some "confirmed"⟩ 100 0
        (run (.empty 0) (Demo.openHotel ++ [Demo.bookStay]))).2 = 1 := by
    decide +kernel
  rw [htape.pages] at hrows
  have hall : page rows 100 0 = rows := by
    rw [page, List.drop_zero, List.take_of_length_le (by omega)]
  rw [hall] at hrows
  exact ⟨rows, htape, hrows.1⟩

end OpenPms
