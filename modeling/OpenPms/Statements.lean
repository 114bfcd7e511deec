import OpenPms.ChannexBooking
import OpenPms.Lib.Interleaving

/-!
What the statements of the services write. Each of them writes one table, so what is
said about another table is carried through it.
-/
namespace OpenPms

open Transaction Prog

/-- Which bookings there are, and under which external ids. -/
def Db.externals (db : Db) : List (UUID × Option String) :=
  db.bookings.rows.map fun b => (b.id, b.externalBookingId)

/-- What the folio of a booking is posted for, and by which external id. -/
structure Account where
  propertyId : UUID
  total : Money
  external : Option String
  deriving DecidableEq

def Booking.account (b : Booking) : Account := ⟨b.propertyId, b.totalAmount, b.externalBookingId⟩

structure Books where
  folio : List FolioTransaction
  account : UUID → Option Account

def Db.books (db : Db) : Books := ⟨db.folio, fun bid => (db.bookings.find bid).map (·.account)⟩

/-- What the services of bookings and revisions only read: which rooms there are, of which
type, and the maps of the channel. -/
def Db.fixtures (db : Db) :
    List (UUID × UUID) × List ChannexRoomTypeMap × List ChannexRatePlanMap :=
  (db.rooms.rows.map fun r => (r.id, r.roomTypeId), db.roomTypeMaps, db.ratePlanMaps)

/-- A write of other rows than those of the ledger and the revisions, under which every
booking keeps its external id. -/
structure RowWrite (f : Db → Db) : Prop where
  ledger : ∀ db, (f db).ledger = db.ledger
  revisions : ∀ db, (f db).revisions = db.revisions
  externals : ∀ db, (f db).externals = db.externals
  fixtures : ∀ db, (f db).fixtures = db.fixtures

/-- A write of rows under which every booking keeps its account. -/
structure PlainWrite (f : Db → Db) : Prop extends RowWrite f where
  books : ∀ db, (f db).books = db.books

/-- A write that may insert bookings. -/
structure InsertWrite (f : Db → Db) : Prop where
  ledger : ∀ db, (f db).ledger = db.ledger
  revisions : ∀ db, (f db).revisions = db.revisions
  fixtures : ∀ db, (f db).fixtures = db.fixtures

/-- A write of revision rows. -/
structure RevisionWrite (f : Db → Db) : Prop where
  ledger : ∀ db, (f db).ledger = db.ledger
  externals : ∀ db, (f db).externals = db.externals
  books : ∀ db, (f db).books = db.books
  fixtures : ∀ db, (f db).fixtures = db.fixtures

/-- A write of ledger rows. -/
structure LedgerWrite (f : Db → Db) : Prop where
  revisions : ∀ db, (f db).revisions = db.revisions
  externals : ∀ db, (f db).externals = db.externals
  books : ∀ db, (f db).books = db.books
  fixtures : ∀ db, (f db).fixtures = db.fixtures

theorem RowWrite.insert {f : Db → Db} (h : RowWrite f) : InsertWrite f :=
  ⟨h.ledger, h.revisions, h.fixtures⟩

theorem rowWrite_updateBooking {bid : UUID} {f : Booking → Booking} {hf : ∀ b, (f b).id = b.id}
    (hext : ∀ b, (f b).externalBookingId = b.externalBookingId) :
    RowWrite fun db => db.updateBooking bid f hf := by
  refine ⟨fun _ => rfl, fun _ => rfl, fun db => ?_, fun _ => rfl⟩
  unfold Db.externals Db.updateBooking KeyedTable.Table.update
  rw [List.map_map]
  apply List.map_congr_left
  intro b _
  by_cases hb : b.id = bid
  · simp [hb, hf, hext]
  · simp [hb]

theorem plainWrite_updateBooking {bid : UUID} {f : Booking → Booking}
    {hf : ∀ b, (f b).id = b.id} (haccount : ∀ b, (f b).account = b.account) :
    PlainWrite fun db => db.updateBooking bid f hf := by
  refine ⟨rowWrite_updateBooking fun b => congrArg Account.external (haccount b), fun db => ?_⟩
  refine congrArg (Books.mk db.folio) (funext fun id => ?_)
  show ((db.bookings.update bid f hf).find id).map _ = (db.bookings.find id).map _
  by_cases hid : id = bid
  · subst hid
    rw [KeyedTable.Table.find_update_self, Option.map_map]
    exact congrArg (Option.map · _) (funext haccount)
  · rw [KeyedTable.Table.find_update_of_ne hid]

theorem keeps_plain {α : Type} {p : Tx α} (h : Writes PlainWrite p) : Keeps Db.books p :=
  h.keeps fun _ hf => hf.books

theorem keeps_counts {α : Type} {p : Tx α} (h : Writes LedgerWrite p) : Keeps Db.books p :=
  h.keeps fun _ hf => hf.books

theorem keeps_marks {α : Type} {p : Tx α} (h : Writes RevisionWrite p) : Keeps Db.books p :=
  h.keeps fun _ hf => hf.books

theorem rows_of_plain {α : Type} {p : Tx α} (h : Writes PlainWrite p) : Writes RowWrite p :=
  h.mono fun _ hf => hf.toRowWrite

/-! Rows of bookings -/

theorem rows_updateBookingRow {bid : UUID} {f : Booking → Booking}
    {hf : ∀ b, (f b).id = b.id} (hext : ∀ b, (f b).externalBookingId = b.externalBookingId) :
    Writes RowWrite (updateBookingRow bid f hf) :=
  writes_bind (writes_acquire _) fun _ => writes_bind (writes_select _) fun _ =>
    writes_bind (writes_raiseIf _) fun _ => writes_modify (rowWrite_updateBooking hext)

theorem plain_updateBookingRow {bid : UUID} {f : Booking → Booking}
    {hf : ∀ b, (f b).id = b.id} (haccount : ∀ b, (f b).account = b.account) :
    Writes PlainWrite (updateBookingRow bid f hf) :=
  writes_bind (writes_acquire _) fun _ => writes_bind (writes_select _) fun _ =>
    writes_bind (writes_raiseIf _) fun _ => writes_modify (plainWrite_updateBooking haccount)

theorem plain_setStatus {bid : UUID} {status : BookingStatus} :
    Writes PlainWrite (updateBookingRow bid (setStatus status) (id_setStatus status)) :=
  plain_updateBookingRow fun _ => rfl

theorem inserts_flushBooking {b : Booking} : Writes InsertWrite (flushBooking b) :=
  writes_bind (writes_raiseIf _) fun _ => writes_bind (writes_select _) fun _ =>
    writes_bind (writes_raiseIf _) fun _ => writes_modify ⟨fun _ => rfl, fun _ => rfl, fun _ => rfl⟩

theorem plain_flushLines {bid : UUID} {lines : List BookingLine} :
    Writes PlainWrite (flushLines bid lines) :=
  writes_bind (writes_raiseIf _) fun _ => writes_bind (writes_select _) fun _ =>
    writes_bind (writes_raiseIf _) fun _ => writes_modify (plainWrite_updateBooking fun _ => rfl)

theorem plain_deleteLines {bid : UUID} :
    Writes PlainWrite (deleteLines bid) :=
  writes_modify (plainWrite_updateBooking fun _ => rfl)

theorem plain_patchNotes {b : Booking} {notes : Option (Option String)} :
    Writes PlainWrite (patchNotes b notes) := by
  refine writes_bind (writes_raiseIf _) fun _ => ?_
  split
  · exact writes_pure _
  · split
    · exact writes_pure _
    · exact plain_updateBookingRow fun _ => rfl

/-! Prices and folio -/

theorem plain_markDirty {rooms : List UUID} :
    Writes PlainWrite (markAssignedRoomsDirtyOnCheckout rooms) := by
  refine writes_modify ⟨⟨fun _ => rfl, fun _ => rfl, fun _ => rfl, fun db => ?_⟩, fun _ => rfl⟩
  refine congrArg (fun rooms => (rooms, db.roomTypeMaps, db.ratePlanMaps)) ?_
  show (db.rooms.rows.map (markRoomDirty rooms)).map _ = _
  rw [List.map_map]
  apply List.map_congr_left
  intro r _
  unfold markRoomDirty
  simp only [Function.comp_apply]
  split <;> rfl

theorem plain_sumRates {rt ratePlan : UUID} {checkIn checkOut : ℤ} :
    Writes PlainWrite (sumRatesForStay rt ratePlan checkIn checkOut) :=
  writes_bind (writes_ofExcept _) fun _ => writes_bind (writes_select _) fun _ =>
    writes_bind (writes_raiseIf _) fun _ => writes_pure _

theorem rows_folioCharge {bid : UUID} {amount : Money} :
    Writes RowWrite (updateFolioChargeAmount bid amount) :=
  writes_bind (writes_select _) fun _ => writes_bind (writes_raiseIf _) fun _ =>
    writes_modify ⟨fun _ => rfl, fun _ => rfl, fun _ => rfl, fun _ => rfl⟩

theorem rows_replaceTaxes {env : Env} {bid propertyId : UUID} {base : Money} :
    Writes RowWrite (replaceCountryPackTaxCharges env bid propertyId base) := by
  refine writes_bind (writes_bind (writes_select _) fun _ => writes_raiseIf _) fun _ =>
    writes_bind (writes_modify ⟨fun _ => rfl, fun _ => rfl, fun _ => rfl, fun _ => rfl⟩) fun _ =>
      writes_bind (writes_ofExcept _) fun posting => ?_
  cases posting with
  | none => exact writes_pure _
  | some q =>
    exact writes_bind (writes_raiseIf _) fun _ =>
      writes_bind (writes_modify ⟨fun _ => rfl, fun _ => rfl, fun _ => rfl, fun _ => rfl⟩) fun _ =>
        writes_pure _

theorem rows_rebuildLines {env : Env} {b : Booking} {rt : UUID} {total : Money}
    {perNight : List (ℤ × Money)} {notes : Option (Option String)} :
    Writes RowWrite (rebuildLines env b rt total perNight notes) := by
  have htotal : Writes RowWrite (updateTotal b total) := by
    refine writes_bind (writes_raiseIf _) fun _ => ?_
    split
    · exact writes_pure _
    · exact rows_updateBookingRow fun _ => rfl
  exact writes_bind (rows_of_plain plain_deleteLines) fun _ =>
    writes_bind (writes_raiseIf _) fun _ =>
    writes_bind htotal fun _ => writes_bind (rows_of_plain plain_flushLines) fun _ =>
      writes_bind rows_folioCharge fun _ => rows_replaceTaxes

theorem rows_flushRoomCharge {bid : UUID} {amount : Option Money} :
    Writes RowWrite (flushRoomCharge bid amount) := by
  unfold flushRoomCharge
  split
  · exact writes_pure _
  · exact rows_folioCharge

/-! Guests -/

theorem plain_flushGuest {guest : Guest} :
    Writes PlainWrite (flushGuest guest) := by
  refine writes_bind (writes_select _) fun clash => ?_
  split
  · exact writes_pure _
  · refine writes_bind (writes_modify ?_) fun _ => writes_pure _
    exact ⟨⟨fun _ => rfl, fun _ => rfl, fun _ => rfl, fun _ => rfl⟩, fun _ => rfl⟩

theorem plain_getOrCreateGuest {env : Env} {payload : GuestPayload}
    {force : Bool} : Writes PlainWrite (getOrCreateGuestForBooking env payload force) := by
  unfold getOrCreateGuestForBooking
  split
  · exact writes_bind plain_flushGuest fun _ => writes_bind (writes_raiseIf _) fun _ =>
      writes_pure _
  · refine writes_bind (writes_select _) fun existing => ?_
    split
    · exact writes_pure _
    · refine writes_bind plain_flushGuest fun inserted => ?_
      split
      · exact writes_pure _
      · refine writes_bind (writes_select _) fun again => ?_
        split
        · exact writes_pure _
        · exact writes_raise _

theorem plain_updateGuest {gid : UUID} {payload : GuestPayload}
    {notes : Option String} : Writes PlainWrite (updateGuest gid payload notes) := by
  refine writes_bind (writes_select _) fun guest => ?_
  split
  · exact writes_pure _
  · exact writes_bind (writes_select _) fun _ => writes_bind (writes_raiseIf _) fun _ =>
      writes_modify ⟨⟨fun _ => rfl, fun _ => rfl, fun _ => rfl, fun _ => rfl⟩, fun _ => rfl⟩

/-! Rooms -/

theorem plain_noRoomConflict {room : UUID} {nights : List ℤ} {exclude : UUID} :
    Writes PlainWrite (assertNoRoomConflict room nights exclude) := by
  unfold assertNoRoomConflict
  split
  · exact writes_pure _
  · exact writes_bind (writes_select _) fun _ => writes_raiseIf _

theorem plain_firstFreeRoom {nights : List ℤ} {exclude : UUID}
    {rooms : List Room} : Writes PlainWrite (firstFreeRoom nights exclude rooms) := by
  induction rooms with
  | nil => exact writes_pure _
  | cons room rest ih =>
    refine writes_tryCatch (writes_bind plain_noRoomConflict fun _ => writes_pure _) fun e => ?_
    split
    · exact ih
    · exact writes_raise _

theorem plain_pickFirstFreeRoom {propertyId rt : UUID} {nights : List ℤ}
    {exclude : UUID} : Writes PlainWrite (pickFirstFreeRoomForStay propertyId rt nights exclude) := by
  unfold pickFirstFreeRoomForStay
  split
  · exact writes_pure _
  · exact writes_bind (writes_select _) fun _ => plain_firstFreeRoom

theorem plain_assignBookingRoom {bid : UUID} {roomId : Option UUID} :
    Writes PlainWrite (assignBookingRoom bid roomId) := by
  refine writes_bind (writes_select _) fun found => ?_
  split
  · exact writes_raise _
  · refine writes_bind (writes_raiseIf _) fun _ => writes_bind (writes_raiseIf _) fun _ => ?_
    split
    · unfold assignRoomOfType
      split
      · exact writes_modify (plainWrite_updateBooking fun _ => rfl)
      · refine writes_bind (writes_select _) fun room => ?_
        split
        · exact writes_raise _
        · exact writes_bind (writes_raiseIf _) fun _ => writes_bind (writes_select _) fun _ =>
            writes_bind (writes_raiseIf _) fun _ => writes_bind plain_noRoomConflict fun _ =>
              writes_modify (plainWrite_updateBooking fun _ => rfl)
    · exact writes_raise _

/-! New bookings -/

theorem inserts_insertRows {env : Env} {b : Booking} {rt : UUID} {perNight : List (ℤ × Money)}
    {description : String} : Writes InsertWrite (insertRows env b rt perNight description) := by
  have hrows : ∀ {α : Type} {p : Tx α}, Writes RowWrite p → Writes InsertWrite p :=
    fun h => h.mono fun _ => RowWrite.insert
  exact writes_bind inserts_flushBooking fun _ =>
    writes_bind (hrows (rows_of_plain plain_flushLines)) fun _ =>
      writes_bind (writes_modify ⟨fun _ => rfl, fun _ => rfl, fun _ => rfl⟩) fun _ =>
        writes_bind (hrows rows_replaceTaxes) fun _ => hrows rows_folioCharge

theorem plain_assignPicked {bid : UUID} {picked : Option UUID} :
    Writes PlainWrite (assignPicked bid picked) := by
  unfold assignPicked
  split
  · exact plain_assignBookingRoom
  · exact writes_pure _

theorem inserts_insertBooking {env : Env} {b : Booking} {rt : UUID}
    {perNight : List (ℤ × Money)} {description : String} :
    Writes InsertWrite (insertBooking env b rt perNight description) :=
  writes_bind inserts_insertRows fun _ =>
    (writes_bind (rows_of_plain plain_pickFirstFreeRoom) fun _ =>
      rows_of_plain plain_assignPicked).mono fun _ => RowWrite.insert

/-! Revisions -/

theorem marks_updateRevision {rid : String}
    {f : ChannexBookingRevision → ChannexBookingRevision}
    {hf : ∀ r, (f r).channexRevisionId = r.channexRevisionId} :
    Writes RevisionWrite (updateRevision rid f hf) :=
  writes_modify ⟨fun _ => rfl, fun _ => rfl, fun _ => rfl, fun _ => rfl⟩

theorem marks_failRevision {rid : String} {e : RevisionError}
    {r : ChannexIngestResult} :
    Writes RevisionWrite (failRevision rid e >>= fun _ => (pure r : Tx ChannexIngestResult)) :=
  writes_bind marks_updateRevision fun _ => writes_pure _

theorem marks_claimRevisionRow {env : Env} {loaded : Option ChannexBookingRevision}
    {link : ChannexPropertyLink} {rid : String} {payload : ChannexBookingRevisionPayload} :
    Writes RevisionWrite (claimRevisionRow env loaded link rid payload) := by
  refine writes_bind (writes_raiseIf _) fun _ => writes_bind (writes_raiseIf _) fun _ =>
    writes_bind (writes_select _) fun present => writes_bind (writes_runIf (writes_acquire _))
      fun _ => writes_bind (writes_select _) fun existing => ?_
  split
  · exact writes_bind (writes_raiseIf _) fun _ =>
      writes_bind (writes_modify ⟨fun _ => rfl, fun _ => rfl, fun _ => rfl, fun _ => rfl⟩) fun _ =>
        writes_pure _
  · split
    · exact writes_pure _
    · exact writes_pure _
    · exact writes_pure _
    · exact writes_bind (writes_acquire _) fun _ => writes_bind marks_updateRevision fun _ =>
        writes_pure _

theorem plain_resolveMaps {linkId : UUID} {cxRoomType cxRatePlan : String} :
    Writes PlainWrite (resolveRoomAndRateMaps linkId cxRoomType cxRatePlan) := by
  refine writes_bind (writes_select _) fun rtm => ?_
  split
  · exact writes_pure _
  · exact writes_bind (writes_select _) fun _ => writes_pure _

theorem rows_updatePlanAndTotal {b : Booking} {ratePlan : UUID}
    {total : Money} : Writes RowWrite (updatePlanAndTotal b ratePlan total) := by
  refine writes_bind (writes_raiseIf _) fun _ => ?_
  split
  · exact writes_pure _
  · exact rows_updateBookingRow fun _ => rfl

theorem marks_handleIngestError {rev : Revision} (e : Err) :
    Writes RevisionWrite (handleIngestError rev e) := by
  unfold handleIngestError
  split
  · exact marks_failRevision
  · exact marks_failRevision
  · exact marks_failRevision
  · exact writes_raise _
  · exact writes_raise _

/-! The ledger -/

theorem ledgerWrite_setBooked {rt : UUID} {d n : ℤ} : LedgerWrite fun db => db.setBooked rt d n :=
  ⟨fun _ => rfl, fun _ => rfl, fun _ => rfl, fun _ => rfl⟩

theorem counts_lockAndValidate {rt : UUID} {nights : List ℤ} {n : ℤ} :
    Writes LedgerWrite (lockAndValidateAvailability rt nights n) := by
  unfold lockAndValidateAvailability
  split
  · exact writes_pure _
  · exact writes_bind (writes_bind (writes_select _) fun _ =>
      writes_bind (writes_forEach fun _ => writes_acquire _) fun _ => writes_select _) fun _ =>
        writes_bind (writes_raiseIf _) fun _ => writes_bind (writes_raiseIf _) fun _ =>
          writes_pure _

theorem counts_increment {rows : List AvailabilityLedger} {n : ℤ} :
    Writes LedgerWrite (incrementBookedRooms rows n) :=
  writes_forEach fun _ => writes_modify ledgerWrite_setBooked

theorem counts_decrement {rows : List AvailabilityLedger} {n : ℤ} :
    Writes LedgerWrite (decrementBookedRooms rows n) :=
  writes_forEach fun _ => writes_bind (writes_modify ledgerWrite_setBooked) fun _ =>
    writes_raiseIf _

theorem counts_release {lines : List BookingLine} :
    Writes LedgerWrite (releaseBookingInventory lines) := by
  unfold releaseBookingInventory
  split
  · exact writes_bind counts_lockAndValidate fun _ => counts_decrement
  · exact writes_pure _

theorem counts_claim {rt : UUID} {nights : List ℤ} {n : ℤ} :
    Writes LedgerWrite (claimAvailabilityForNewBooking rt nights n) := by
  unfold claimAvailabilityForNewBooking
  split
  · exact writes_pure _
  · exact writes_bind (writes_raiseIf _) fun _ => writes_bind (writes_select _) fun _ =>
      writes_bind (writes_raiseIf _) fun _ => writes_bind (writes_bind (writes_select _) fun _ =>
        writes_bind (writes_forEach fun _ => writes_acquire _) fun _ => writes_select _) fun _ =>
          writes_bind counts_increment fun _ => writes_raiseIf _

end OpenPms
