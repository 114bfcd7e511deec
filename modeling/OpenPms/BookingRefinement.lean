import OpenPms.Inventory
import OpenPms.BookingService

/-!
The booking services refine the hotel's actions: a request that returns has carried
out a sequence of them. Requests on shaped bookings only: the release of a booking
with several room types would be silent.
-/
namespace OpenPms

open KeyedTable Transaction Prog Hotel

section Requests
variable {db db' : Db}

/-! Statements that leave the hotel alone -/

theorem hotel_flushGuest {guest : Guest} {r : Bool}
    (h : (flushGuest guest).exec db = (.ok r, db')) : db'.hotel = db.hotel := by
  simp only [flushGuest, exec_bind_ok, exec_select, Prod.mk.injEq, Except.ok.injEq] at h
  obtain ⟨_, _, ⟨rfl, rfl⟩, h⟩ := h
  split at h
  · cases h
    rfl
  · simp only [exec_bind_ok, exec_modify, Prod.mk.injEq] at h
    obtain ⟨_, _, ⟨-, rfl⟩, h⟩ := h
    cases h
    rfl

theorem hotel_getOrCreateGuest {env : Env} {payload : GuestPayload} {force : Bool}
    {r : Guest × Bool}
    (h : (getOrCreateGuestForBooking env payload force).exec db = (.ok r, db')) :
    db'.hotel = db.hotel := by
  unfold getOrCreateGuestForBooking at h
  split at h
  · simp only [exec_bind_ok, exec_raiseIf_ok] at h
    obtain ⟨_, _, hflush, _, _, ⟨-, rfl⟩, h⟩ := h
    cases h
    exact hotel_flushGuest hflush
  · simp only [exec_bind_ok, exec_select, Prod.mk.injEq, Except.ok.injEq] at h
    obtain ⟨_, _, ⟨rfl, rfl⟩, h⟩ := h
    split at h
    · cases h
      rfl
    · obtain ⟨inserted, db₁, hflush, h⟩ := exec_bind_ok.mp h
      rw [← hotel_flushGuest hflush]
      split at h
      · cases h
        rfl
      · simp only [exec_bind_ok, exec_select, Prod.mk.injEq, Except.ok.injEq] at h
        obtain ⟨_, _, ⟨rfl, rfl⟩, h⟩ := h
        split at h
        · cases h
          rfl
        · cases h

theorem exec_requireRoomTypeOnProperty_ok {propertyId rt : UUID} {u : Unit}
    (h : (requireRoomTypeOnProperty propertyId rt).exec db = (.ok u, db')) : db = db' := by
  simp only [requireRoomTypeOnProperty, exec_bind_ok, exec_select, exec_raiseIf_ok,
    Prod.mk.injEq, Except.ok.injEq] at h
  obtain ⟨_, _, ⟨rfl, rfl⟩, -, rfl⟩ := h
  rfl

theorem exec_requireRatePlanOnProperty_ok {propertyId ratePlan : UUID} {u : Unit}
    (h : (requireRatePlanOnProperty propertyId ratePlan).exec db = (.ok u, db')) : db = db' := by
  simp only [requireRatePlanOnProperty, exec_bind_ok, exec_select, exec_raiseIf_ok,
    Prod.mk.injEq, Except.ok.injEq] at h
  obtain ⟨_, _, ⟨rfl, rfl⟩, -, rfl⟩ := h
  rfl

theorem hotel_replaceTaxes {env : Env} {bid propertyId : UUID} {base amount : Money}
    (h : (replaceCountryPackTaxCharges env bid propertyId base).exec db = (.ok amount, db')) :
    db'.hotel = db.hotel := by
  obtain ⟨folio, hdb⟩ := exec_replaceTaxes_ok h
  rw [hdb]
  rfl

/-- Looking for a free room writes nothing. -/
theorem exec_firstFreeRoom_ok {nights : List ℤ} {exclude : UUID} {rooms : List Room}
    {r : Option UUID} (h : (firstFreeRoom nights exclude rooms).exec db = (.ok r, db')) :
    db = db' := by
  induction rooms with
  | nil =>
    cases h
    rfl
  | cons room rest ih =>
    rw [firstFreeRoom, exec_tryCatch] at h
    split at h
    · next hexec =>
      simp only [assertNoRoomConflict] at hexec
      split at hexec
      · cases h
        cases hexec
        rfl
      · simp only [exec_bind_ok, exec_select, exec_raiseIf_ok, Prod.mk.injEq,
          Except.ok.injEq] at hexec
        obtain ⟨_, _, ⟨_, _, ⟨rfl, rfl⟩, -, rfl⟩, hexec⟩ := hexec
        cases h
        cases hexec
        rfl
    · next e s₁ hexec =>
      have hs₁ : db = s₁ := by
        simp only [assertNoRoomConflict] at hexec
        split at hexec
        · cases hexec
        · simp only [exec_bind_error, exec_bind_ok, exec_select, exec_raiseIf_ok,
            exec_raiseIf_error, Prod.mk.injEq, Except.ok.injEq, reduceCtorEq, false_and,
            false_or, exec_pure, and_false, exists_false, or_false] at hexec
          obtain ⟨_, _, ⟨rfl, rfl⟩, -, -, rfl⟩ := hexec
          rfl
      subst hs₁
      split at h
      · exact ih h
      · cases h

theorem exec_pickFirstFreeRoom_ok {propertyId rt : UUID} {nights : List ℤ} {exclude : UUID}
    {r : Option UUID}
    (h : (pickFirstFreeRoomForStay propertyId rt nights exclude).exec db = (.ok r, db')) :
    db = db' := by
  unfold pickFirstFreeRoomForStay at h
  split at h
  · cases h
    rfl
  · simp only [exec_bind_ok, exec_select, Prod.mk.injEq, Except.ok.injEq] at h
    obtain ⟨_, _, ⟨rfl, rfl⟩, h⟩ := h
    exact exec_firstFreeRoom_ok h

/-! Statements on bookings -/

theorem exec_flushBooking_ok {b : Booking} {u : Unit}
    (h : (flushBooking b).exec db = (.ok u, db')) :
    db.bookings.find b.id = none ∧ db' = { db with bookings := db.bookings.insert b } := by
  simp only [flushBooking, exec_bind_ok, exec_select, exec_raiseIf_ok, exec_modify,
    Prod.mk.injEq, Except.ok.injEq, not_not] at h
  obtain ⟨_, _, ⟨-, rfl⟩, _, _, ⟨rfl, rfl⟩, _, _, ⟨hfresh, rfl⟩, -, rfl⟩ := h
  exact ⟨hfresh, rfl⟩

theorem exec_flushLines_ok {bid : UUID} {lines : List BookingLine} {u : Unit}
    (h : (flushLines bid lines).exec db = (.ok u, db')) :
    (∃ b, db.bookings.find bid = some b) ∧
      db' = db.updateBooking bid (addLines lines) (id_addLines lines) := by
  simp only [flushLines, exec_bind_ok, exec_select, exec_raiseIf_ok, exec_modify,
    Prod.mk.injEq, Except.ok.injEq] at h
  obtain ⟨_, _, ⟨-, rfl⟩, _, _, ⟨rfl, rfl⟩, _, _, ⟨hfound, rfl⟩, -, rfl⟩ := h
  exact ⟨Option.ne_none_iff_exists'.mp hfound, rfl⟩

theorem exec_updateBookingRow_ok {bid : UUID} {f : Booking → Booking}
    {hf : ∀ b, (f b).id = b.id} {u : Unit} :
    (updateBookingRow bid f hf).exec db = (.ok u, db') ↔
      (∃ b, db.bookings.find bid = some b) ∧ db' = db.updateBooking bid f hf := by
  simp only [updateBookingRow, exec_bind_ok, exec_acquire, exec_select, exec_raiseIf_ok,
    exec_modify, Prod.mk.injEq, Except.ok.injEq]
  constructor
  · intro h
    obtain ⟨_, _, ⟨-, rfl⟩, _, _, ⟨rfl, rfl⟩, _, _, ⟨hfound, rfl⟩, -, rfl⟩ := h
    exact ⟨Option.ne_none_iff_exists'.mp hfound, rfl⟩
  · intro h
    obtain ⟨hfound, rfl⟩ := h
    exact ⟨(), db, ⟨trivial, rfl⟩, _, db, ⟨rfl, rfl⟩, (), db,
      ⟨Option.ne_none_iff_exists'.mpr hfound, rfl⟩, trivial, rfl⟩

theorem exec_assertNoRoomConflict_ok {room : UUID} {nights : List ℤ} {exclude : UUID} {u : Unit}
    (h : (assertNoRoomConflict room nights exclude).exec db = (.ok u, db')) :
    db = db' ∧ (nights ≠ [] → ¬ RoomTaken db room nights exclude) := by
  unfold assertNoRoomConflict at h
  split at h
  · next hnil =>
    cases h
    exact ⟨rfl, fun hne => absurd hnil hne⟩
  · simp only [exec_bind_ok, exec_select, exec_raiseIf_ok, Prod.mk.injEq, Except.ok.injEq] at h
    obtain ⟨_, _, ⟨rfl, rfl⟩, hclash, rfl⟩ := h
    exact ⟨rfl, fun _ htaken => hclash (by simpa using htaken)⟩

/-- A room that passes every check of the assignment suits the booking and is free. -/
theorem assignable_of_checks {b : Booking} {r : Room} {t : RoomType} {rid : UUID}
    (hroom : db.rooms.rows.find? (fun r => r.id = rid && !r.deleted) = some r)
    (htype : lineRoomTypes b.lines = [r.roomTypeId])
    (hrt : db.roomTypes.rows.find? (fun t => t.id = r.roomTypeId && !t.deleted) = some t)
    (hprop : t.propertyId = b.propertyId)
    (hfree : sortedDates b.nights ≠ [] → ¬ RoomTaken db rid (sortedDates b.nights) b.id) :
    db.hotel.Assignable b rid := by
  have hr : r ∈ db.rooms.rows ∧ r.id = rid ∧ r.deleted = false :=
    ⟨List.mem_of_find?_eq_some hroom, by simpa using List.find?_some hroom⟩
  have ht : t ∈ db.roomTypes.rows ∧ t.id = r.roomTypeId ∧ t.deleted = false :=
    ⟨List.mem_of_find?_eq_some hrt, by simpa using List.find?_some hrt⟩
  refine ⟨⟨r, t, Table.find_eq_some.mpr ⟨hr.1, hr.2.1⟩, hr.2.2, htype,
    Table.find_eq_some.mpr ⟨ht.1, ht.2.1⟩, hprop⟩, ?_⟩
  intro b' hb' hid hactive ln hln hlnroom hdate
  have hmem : ln.date ∈ sortedDates b.nights := mem_sortedDates.mpr hdate
  apply hfree (List.ne_nil_of_mem hmem)
  exact ⟨b', hb', hid, hactive, ln, hln, hlnroom, hmem⟩

/-- Assigning sets the room of every line, after the checks of a room that is given. -/
theorem exec_assignBookingRoom_ok {bid : UUID} {roomId : Option UUID} {u : Unit}
    (h : (assignBookingRoom bid roomId).exec db = (.ok u, db')) :
    ∃ b, db.bookings.find bid = some b ∧ b.status.Active ∧
      (∀ rid, roomId = some rid → db.hotel.Assignable b rid) ∧
      db' = db.updateBooking bid (setRoom roomId) (id_setRoom _) := by
  simp only [assignBookingRoom, exec_bind_ok, exec_select, Prod.mk.injEq, Except.ok.injEq] at h
  obtain ⟨found, _, ⟨hfound, rfl⟩, h⟩ := h
  cases hb : found with
  | none =>
    rw [hb] at h
    cases h
  | some b =>
    rw [hb] at h hfound
    simp only [exec_bind_ok, exec_raiseIf_ok, not_not] at h
    obtain ⟨_, _, ⟨hactive, rfl⟩, _, _, ⟨-, rfl⟩, h⟩ := h
    have hid : b.id = bid := (Table.find_eq_some.mp hfound).2
    refine ⟨b, hfound, hactive, ?_⟩
    split at h
    · next rt hsingle =>
      cases roomId with
      | none =>
        cases h
        exact ⟨fun rid hrid => (by cases hrid), rfl⟩
      | some rid =>
        simp only [assignRoomOfType, exec_bind_ok, exec_select, Prod.mk.injEq,
          Except.ok.injEq] at h
        obtain ⟨room, _, ⟨hroom, rfl⟩, h⟩ := h
        cases hr : room with
        | none =>
          rw [hr] at h
          cases h
        | some r =>
          rw [hr] at h hroom
          simp only [exec_bind_ok, exec_raiseIf_ok, exec_select, Prod.mk.injEq,
            Except.ok.injEq, not_not] at h
          obtain ⟨_, _, ⟨htype, rfl⟩, rtRow, _, ⟨hrt, rfl⟩, _, _, ⟨hprop, rfl⟩, _, _, hconf,
            h⟩ := h
          obtain ⟨rfl, hfree⟩ := exec_assertNoRoomConflict_ok hconf
          cases h
          refine ⟨?_, rfl⟩
          intro rid' hrid'
          cases hrid'
          push Not at hprop
          obtain ⟨t, ht, hp⟩ := hprop
          rw [ht] at hrt
          rw [← hid] at hfree
          exact assignable_of_checks hroom (htype ▸ hsingle) hrt hp hfree
    · cases h

theorem assignBookingRoom_sale {bid room : UUID} {u : Unit}
    (h : (assignBookingRoom bid (some room)).exec db = (.ok u, db')) :
    Sale db.hotel db'.hotel := by
  obtain ⟨b, hfind, hactive, hassign, rfl⟩ := exec_assignBookingRoom_ok h
  obtain ⟨-, hid⟩ := Table.find_eq_some.mp hfind
  subst hid
  exact .assign hfind hactive (hassign room rfl)

theorem assignBookingRoom_step {bid : UUID} {roomId : Option UUID} {u : Unit}
    (h : (assignBookingRoom bid roomId).exec db = (.ok u, db')) : Step db.hotel db'.hotel := by
  cases roomId with
  | none =>
    obtain ⟨b, hfind, hactive, -, rfl⟩ := exec_assignBookingRoom_ok h
    obtain ⟨-, hid⟩ := Table.find_eq_some.mp hfind
    subst hid
    exact .unassign hfind hactive
  | some rid => exact .sale (assignBookingRoom_sale h)

/-- With one room type the release is the decrement of the nights. -/
theorem exec_release_ok {lines : List BookingLine} {rt : UUID} {u : Unit}
    (hrt : lineRoomTypes lines = [rt]) :
    (releaseBookingInventory lines).exec db = (.ok u, db') ↔
      db.ledger.Releasable rt (lines.map (·.date)) ∧
        db' = db.setLedger (db.ledger.shift rt (lines.map (·.date)) (-1)) := by
  unfold releaseBookingInventory
  rw [hrt]
  exact exec_lock_decrement_ok

/-! Create -/

/-- The booking row and its lines, inserted one after the other, are one insertion. -/
theorem insert_lines {b : Booking} {lines : List BookingLine}
    (hfresh : db.bookings.find b.id = none) (hb : b.lines = []) :
    (db.bookings.insert b).update b.id (addLines lines) (id_addLines lines) =
      db.bookings.insert { b with lines := lines } := by
  rw [Table.update_insert hfresh, addLines, hb, List.nil_append]

theorem exec_pickAndAssign_ok {propertyId rt : UUID} {nights : List ℤ} {bid : UUID}
    {picked : Option UUID} {db₁ : Db} {u : Unit}
    (hpick : (pickFirstFreeRoomForStay propertyId rt nights bid).exec db = (.ok picked, db₁))
    (h : (assignPicked bid picked).exec db₁ = (.ok u, db')) : Sales db.hotel db'.hotel := by
  have hsame := exec_pickFirstFreeRoom_ok hpick
  subst hsame
  cases picked with
  | none =>
    cases h
    exact .refl
  | some room =>
    have hassign : (assignBookingRoom bid (some room)).exec db = (.ok u, db') := h
    exact .single (assignBookingRoom_sale hassign)

/-- The hotel after the inserts of a new booking, whatever else was written. -/
theorem hotel_insert_lines (db₀ : Db) {b : Booking} {lines : List BookingLine} {l : Ledger}
    (hdb : db.hotel = { db₀.hotel with ledger := l })
    (hfresh : db.bookings.find b.id = none) (hb : b.lines = []) :
    (({ db with bookings := db.bookings.insert b } : Db).updateBooking b.id
      (addLines lines) (id_addLines lines)).hotel =
        { db₀.hotel with bookings := db₀.bookings.insert { b with lines := lines }, ledger := l } := by
  have hbookings : db.bookings = db₀.bookings := congrArg Hotel.bookings hdb
  calc
    _ = { db.hotel with bookings := db.bookings.insert { b with lines := lines } } :=
      congrArg (fun t => { db.hotel with bookings := t }) (insert_lines hfresh hb)
    _ = _ := by rw [hdb, hbookings]

/-- New rows on claimed nights are one booking. `db₀` is the state before the claim. -/
theorem insertRows_sale {env : Env} {b : Booking} {rt : UUID} {perNight : List (ℤ × Money)}
    {description : String} {u : Unit} (db₀ : Db) (stay : PricedStay)
    (hrt : stay.roomTypeId = rt) (hper : stay.perNight = perNight)
    (htotal : b.totalAmount = stay.total) (hactive : b.status.Active) (hlines : b.lines = [])
    (hopen : db₀.ledger.Open rt stay.nights 1)
    (hdb : db.hotel = { db₀.hotel with ledger := db₀.ledger.shift rt stay.nights 1 })
    (h : (insertRows env b rt perNight description).exec db = (.ok u, db')) :
    Sale db₀.hotel db'.hotel := by
  simp only [insertRows, exec_bind_ok, exec_modify, exec_updateFolioCharge_ok, Prod.mk.injEq] at h
  obtain ⟨_, _, hbooking, _, _, hflush, _, _, ⟨-, rfl⟩, _, db₁, htax, -, rfl⟩ := h
  obtain ⟨hfresh, rfl⟩ := exec_flushBooking_ok hbooking
  obtain ⟨-, rfl⟩ := exec_flushLines_ok hflush
  subst hrt hper
  have hfinal := (hotel_replaceTaxes htax).trans (hotel_insert_lines db₀ hdb hfresh hlines)
  rw [show db.bookings = db₀.bookings from congrArg Hotel.bookings hdb] at hfresh
  change Sale db₀.hotel db₁.hotel
  rw [hfinal]
  exact .book stay hfresh hactive rfl htotal hopen

/-- The booking is booked, and assigned a room when one is free. -/
theorem insertBooking_sales {env : Env} {b : Booking} {rt : UUID} {perNight : List (ℤ × Money)}
    {description : String} {u : Unit} (db₀ : Db) (stay : PricedStay)
    (hrt : stay.roomTypeId = rt) (hper : stay.perNight = perNight)
    (htotal : b.totalAmount = stay.total) (hactive : b.status.Active) (hlines : b.lines = [])
    (hopen : db₀.ledger.Open rt stay.nights 1)
    (hdb : db.hotel = { db₀.hotel with ledger := db₀.ledger.shift rt stay.nights 1 })
    (h : (insertBooking env b rt perNight description).exec db = (.ok u, db')) :
    Sales db₀.hotel db'.hotel := by
  simp only [insertBooking, exec_bind_ok] at h
  obtain ⟨_, _, hrows, _, _, hpick, hassign⟩ := h
  have hsale := insertRows_sale db₀ stay hrt hper htotal hactive hlines hopen hdb hrows
  exact .head hsale (exec_pickAndAssign_ok hpick hassign)

theorem createBooking_sales {env : Env} {body : BookingCreateRequest}
    {r : BookingCreateResponse} (h : (createBooking env body).exec db = (.ok r, db')) :
    Sales db.hotel db'.hotel := by
  simp only [createBooking, exec_bind_ok, exec_stayNights_ok, exec_select, exec_raiseIf_ok,
    exec_pure, Prod.mk.injEq, Except.ok.injEq] at h
  obtain ⟨nights, _, ⟨hnights, rfl⟩, _, _, ⟨rfl, rfl⟩, _, _, ⟨-, rfl⟩, _, db₁, hreq₁, _, db₂,
    hreq₂, ⟨total, perNight⟩, db₃, hsum, _, db₄, hclaim, ⟨guest, merged⟩, db₅, hguest, _, db₆,
    hinsert, -, rfl⟩ := h
  have heq₁ := exec_requireRoomTypeOnProperty_ok hreq₁
  have heq₂ := exec_requireRatePlanOnProperty_ok hreq₂
  subst heq₁ heq₂
  obtain ⟨rfl, hper, htotal⟩ := exec_sumRates_ok hsum
  obtain ⟨hopen, rfl⟩ := exec_claim_ok hclaim
  obtain ⟨hlt, hspan, hfst⟩ := iterStayNights_ok hper
  have hsame : nights = daysBetween body.checkIn body.checkOut :=
    (Except.ok.inj (hnights.symm.trans hper)).trans hfst
  subst hsame
  exact insertBooking_sales db
    ⟨body.roomTypeId, body.checkIn, body.checkOut, perNight, hlt, hspan, hfst⟩ rfl rfl htotal
    body.status.active rfl hopen (hotel_getOrCreateGuest hguest) hinsert

/-! Patch -/

theorem find_updateBooking {bid : UUID} {f : Booking → Booking} {hf : ∀ b, (f b).id = b.id}
    {b : Booking} (hfind : db.bookings.find bid = some b) :
    (db.updateBooking bid f hf).bookings.find bid = some (f b) := by
  rw [Db.updateBooking, Table.find_update_self, hfind]
  rfl

/-- The header of `b` was set to a total and a rate plan, or had them already. -/
def HeaderSet (db db' : Db) (b : Booking) (total : Money) (ratePlan : Option UUID) : Prop :=
  ∃ f hf, db' = db.updateBooking b.id f hf ∧ f (clearLines b) =
    { clearLines b with totalAmount := total, ratePlanId := ratePlan }

theorem exec_updateTotal_ok {b : Booking} {total : Money} {u : Unit}
    (h : (updateTotal b total).exec db = (.ok u, db')) :
    HeaderSet db db' b total b.ratePlanId := by
  simp only [updateTotal, exec_bind_ok, exec_raiseIf_ok] at h
  obtain ⟨_, _, ⟨-, rfl⟩, h⟩ := h
  split at h
  · next heq =>
    cases h
    refine ⟨id, fun _ => rfl, ?_, by simp [clearLines, heq]⟩
    rw [Db.updateBooking, Table.update_id]
  · obtain ⟨-, rfl⟩ := exec_updateBookingRow_ok.mp h
    exact ⟨setTotal total, id_setTotal total, rfl, rfl⟩

/-- Deleting the lines, setting the header and adding the new lines is one update. -/
theorem hotel_rebuild {b : Booking} {db₁ : Db} {ratePlan : Option UUID} {total : Money}
    (stay : PricedStay) (hfind : db.bookings.find b.id = some b) (htotal : total = stay.total)
    (hheader : HeaderSet (db.updateBooking b.id clearLines id_clearLines) db₁ b total ratePlan) :
    (db₁.updateBooking b.id (addLines stay.lines) (id_addLines _)).hotel = { db.hotel with
      bookings := db.bookings.update b.id (setLines stay ratePlan) (id_setLines _ _) } := by
  obtain ⟨f, hf, rfl, hfb⟩ := hheader
  have hb : ((db.bookings.update b.id clearLines id_clearLines).update b.id f hf).update b.id
      (addLines stay.lines) (id_addLines _) =
        db.bookings.update b.id (setLines stay ratePlan) (id_setLines _ _) := by
    rw [Table.update_update, Table.update_update]
    apply Table.update_congr
    intro v hv
    cases hfind.symm.trans hv
    simp only [Function.comp_apply, hfb]
    simp [addLines, clearLines, setLines, htotal]
  exact congrArg (fun t => ({ db.hotel with bookings := t } : Hotel)) hb

theorem hotel_rebuildLines {env : Env} {b : Booking} {total amount : Money} (stay : PricedStay)
    {notes : Option (Option String)} (hfind : db.bookings.find b.id = some b)
    (htotal : total = stay.total)
    (h : (rebuildLines env b stay.roomTypeId total stay.perNight notes).exec db =
      (.ok amount, db')) :
    db'.hotel = { db.hotel with
      bookings := db.bookings.update b.id (setLines stay b.ratePlanId) (id_setLines _ _) } := by
  simp only [rebuildLines, deleteLines, exec_updateFolioCharge_ok, exec_bind_ok, exec_modify,
    exec_raiseIf_ok, Prod.mk.injEq] at h
  obtain ⟨_, _, ⟨-, rfl⟩, _, _, ⟨-, rfl⟩, _, db₂, htot, _, db₃, hlines, _, _, ⟨-, rfl⟩, htax⟩ := h
  obtain ⟨-, rfl⟩ := exec_flushLines_ok hlines
  exact (hotel_replaceTaxes htax).trans (hotel_rebuild stay hfind htotal (exec_updateTotal_ok htot))

/-- Same room types and nights, line by line. -/
def SameNights (lines lines' : List BookingLine) : Prop :=
  lines.map (fun ln => (ln.roomTypeId, ln.date)) = lines'.map fun ln => (ln.roomTypeId, ln.date)

theorem SameNights.lineRoomTypes {lines lines' : List BookingLine} (h : SameNights lines lines') :
    OpenPms.lineRoomTypes lines = OpenPms.lineRoomTypes lines' := by
  have hfst := congrArg (List.map Prod.fst) h
  simp only [List.map_map, Function.comp_def] at hfst
  rw [OpenPms.lineRoomTypes, OpenPms.lineRoomTypes, hfst]

theorem SameNights.dates {lines lines' : List BookingLine} (h : SameNights lines lines') :
    lines.map (·.date) = lines'.map (·.date) := by
  have hsnd := congrArg (List.map Prod.snd) h
  simpa only [List.map_map, Function.comp_def] using hsnd

theorem sameNights_setRoom (room : Option UUID) (b : Booking) :
    SameNights (setRoom room b).lines b.lines := by
  simp [SameNights, setRoom, Function.comp_def]

/-- What a patch still knows of its booking: the status it has read, and the nights of
the lines it has loaded. -/
def PatchView (db : Db) (booking : Booking) (pl : PatchLines) : Prop :=
  ∃ b, db.bookings.find booking.id = some b ∧ b.status = booking.status ∧
    ∀ lines, pl.loaded = some lines → SameNights lines b.lines

theorem exec_release_nights_ok {rt : UUID} {nights : List ℤ} {rows : List AvailabilityLedger}
    {db₁ : Db} {u : Unit}
    (hlock : (lockAndValidateAvailability rt (sortedDates nights) 0).exec db = (.ok rows, db₁))
    (hdec : (decrementBookedRooms rows 1).exec db₁ = (.ok u, db')) :
    db.ledger.Releasable rt nights ∧
      db' = db.setLedger (db.ledger.shift rt nights (-1)) := by
  obtain ⟨hrel, hdb⟩ := exec_lock_decrement_ok.mp (exec_bind_ok.mpr ⟨rows, db₁, hlock, hdec⟩)
  constructor
  · intro d hd
    exact hrel d (mem_sortedDates.mpr hd)
  · rw [hdb, Ledger.shift_congr fun d => mem_sortedDates]

theorem exec_claim_nights_ok {rt : UUID} {nights : List ℤ} {rows : List AvailabilityLedger}
    {db₁ : Db} {u : Unit}
    (hlock : (lockAndValidateAvailability rt nights 1).exec db = (.ok rows, db₁))
    (hinc : (incrementBookedRooms rows 1).exec db₁ = (.ok u, db')) :
    db.ledger.Open rt nights 1 ∧ db' = db.setLedger (db.ledger.shift rt nights 1) :=
  exec_lock_increment_ok.mp (exec_bind_ok.mpr ⟨rows, db₁, hlock, hinc⟩)

theorem restoreRoom_steps {b b₁ : Booking} {roomCharge : Money} {room : Option UUID}
    {pl : PatchLines} (hfind : db.bookings.find b.id = some b₁) (hstatus : b₁.status = b.status)
    (h : (restoreRoom b.id roomCharge room).exec db = (.ok pl, db')) :
    Steps db.hotel db'.hotel ∧ PatchView db' b pl := by
  cases room with
  | none =>
    cases h
    exact ⟨.refl, b₁, hfind, hstatus, fun lines hl => (nomatch hl)⟩
  | some room =>
    simp only [restoreRoom, exec_bind_ok, exec_select, exec_pure, Prod.mk.injEq,
      Except.ok.injEq] at h
    obtain ⟨_, _, hassign, _, _, ⟨rfl, rfl⟩, rfl, rfl⟩ := h
    have hstep := assignBookingRoom_step hassign
    obtain ⟨b₂, hb₂, -, -, rfl⟩ := exec_assignBookingRoom_ok hassign
    cases hfind.symm.trans hb₂
    refine ⟨.single hstep, setRoom (some room) b₁, find_updateBooking hfind, hstatus, ?_⟩
    intro lines hl
    have hreload : some (setRoom (some room) b₁).lines = some lines := by
      rw [← hl]
      exact (congrArg (Option.map (·.lines)) (find_updateBooking hfind)).symm
    cases hreload
    rfl

/-- Giving the old nights back and claiming new ones rebooks an active booking. -/
theorem rebookNights_step {env : Env} {b : Booking} {ratePlan rt : UUID} {ci co : ℤ}
    {notes : Option (Option String)} {roomCharge : Money}
    (hfind : db.bookings.find b.id = some b) (hactive : b.status.Active)
    (hrt : lineRoomTypes b.lines = [rt])
    (h : (rebookNights env b ratePlan rt ci co notes).exec db = (.ok roomCharge, db')) :
    Step db.hotel db'.hotel ∧ ∃ b', db'.bookings.find b.id = some b' ∧ b'.status = b.status := by
  simp only [rebookNights, exec_bind_ok, exec_stayNights_ok] at h
  obtain ⟨oldRows, db₁, hlock, _, db₂, hdec, ⟨total, perNight⟩, db₃, hsum, newNights, _,
    ⟨hiter, rfl⟩, newRows, db₅, hlock', _, db₆, hinc, hrebuild⟩ := h
  obtain ⟨hrel, rfl⟩ := exec_release_nights_ok hlock hdec
  rw [exec_tryCatch_ok_of_raises] at hsum
  · obtain ⟨rfl, hper, htotal⟩ := exec_sumRates_ok hsum
    obtain ⟨hopen, rfl⟩ := exec_claim_nights_ok hlock' hinc
    rw [Db.setLedger_setLedger] at hrebuild
    obtain ⟨hlt, hspan, hfst⟩ := iterStayNights_ok hper
    have hsame : newNights = daysBetween ci co :=
      (Except.ok.inj (hiter.symm.trans hper)).trans hfst
    subst hsame
    let stay : PricedStay := ⟨rt, ci, co, perNight, hlt, hspan, hfst⟩
    have hhotel := hotel_rebuildLines stay (by exact hfind) htotal hrebuild
    refine ⟨?_, setLines stay b.ratePlanId b, ?_, rfl⟩
    · rw [hhotel]
      exact .rebook stay b.ratePlanId hfind hactive hrt hrel hopen
    · rw [show db'.bookings = _ from congrArg Hotel.bookings hhotel, Table.find_update_self]
      exact congrArg (Option.map _) hfind
  · intro e
    split
    · exact ⟨_, rfl⟩
    · exact ⟨_, rfl⟩

/-- A date change of an active booking: rebooked, and the room restored if it can be. -/
theorem changeDates_steps {env : Env} {b : Booking} {body : BookingPatchRequest} {ci co : ℤ}
    {pl : PatchLines} (hfind : db.bookings.find b.id = some b) (hactive : b.status.Active)
    (h : (changeDates env b body ci co).exec db = (.ok pl, db')) :
    Steps db.hotel db'.hotel ∧ PatchView db' b pl := by
  unfold changeDates at h
  split at h
  · cases h
  · next ratePlan hplan =>
    split at h
    · next rt hrt =>
      obtain ⟨roomCharge, db₁, hrebook, h⟩ := exec_bind_ok.mp h
      obtain ⟨hstep, b', hfind', hstatus⟩ := rebookNights_step hfind hactive hrt hrebook
      obtain ⟨hsteps, hview⟩ := restoreRoom_steps hfind' hstatus h
      exact ⟨.head hstep hsteps, hview⟩
    · cases h

theorem patchView_ofBooking {b : Booking} (hfind : db.bookings.find b.id = some b) :
    PatchView db b (.ofBooking b) := by
  refine ⟨b, hfind, rfl, ?_⟩
  intro lines hl
  cases hl
  rfl

theorem patchDates_steps {env : Env} {b : Booking} {body : BookingPatchRequest}
    {pl : PatchLines} (hfind : db.bookings.find b.id = some b)
    (hactive : b.status.Active ∨ body.checkIn = none ∧ body.checkOut = none)
    (h : (patchDates env b body).exec db = (.ok pl, db')) :
    Steps db.hotel db'.hotel ∧ PatchView db' b pl := by
  unfold patchDates at h
  split at h
  · cases h
    exact ⟨.refl, patchView_ofBooking hfind⟩
  · next hdates =>
    have hactive := hactive.resolve_right hdates
    simp only [exec_bind_ok, exec_raiseIf_ok] at h
    obtain ⟨_, _, ⟨-, rfl⟩, h⟩ := h
    split at h
    · simp only [exec_bind_ok, exec_raiseIf_ok] at h
      obtain ⟨_, _, ⟨-, rfl⟩, _, _, ⟨-, rfl⟩, h⟩ := h
      split at h
      · exact changeDates_steps hfind hactive h
      · cases h
        exact ⟨.refl, patchView_ofBooking hfind⟩
    · cases h

theorem patchRoomAssignment_steps {b : Booking} {body : BookingPatchRequest}
    {pl pl' : PatchLines} (hview : PatchView db b pl)
    (h : (patchRoomAssignment b.id body pl).exec db = (.ok pl', db')) :
    Steps db.hotel db'.hotel ∧ PatchView db' b pl' := by
  obtain ⟨b₁, hfind, hstatus, hlines⟩ := hview
  unfold patchRoomAssignment at h
  split at h
  · cases h
    exact ⟨.refl, b₁, hfind, hstatus, hlines⟩
  · next room hroom =>
    simp only [exec_bind_ok] at h
    obtain ⟨_, db₁, hassign, h⟩ := h
    have hstep := assignBookingRoom_step hassign
    obtain ⟨b₂, hb₂, -, -, rfl⟩ := exec_assignBookingRoom_ok hassign
    cases hfind.symm.trans hb₂
    have hfind' : (db.updateBooking b.id (setRoom room) (id_setRoom room)).bookings.find b.id =
        some (setRoom room b₁) := find_updateBooking hfind
    have hsame := sameNights_setRoom room b₁
    split at h
    · next lines hloaded =>
      cases h
      refine ⟨.single hstep, setRoom room b₁, hfind', hstatus, ?_⟩
      intro lines' hl
      exact (hlines lines' hl).trans hsame.symm
    · simp only [exec_bind_ok, exec_select, exec_pure, Prod.mk.injEq, Except.ok.injEq] at h
      obtain ⟨_, _, ⟨rfl, rfl⟩, rfl, rfl⟩ := h
      refine ⟨.single hstep, setRoom room b₁, hfind', hstatus, ?_⟩
      intro lines hl
      simp only [hfind', Option.map_some, Option.some.injEq] at hl
      rw [← hl]
      rfl

theorem exec_checkTransition_ok {old : BookingStatus} {target : String} {u : Unit}
    (h : (checkTransition old target).exec db = (.ok u, db')) :
    db = db' ∧ ∃ new : BookingStatus, normalizeBookingStatus target = new.text ∧
      (new = old ∨ new ∈ old.allowed) := by
  unfold checkTransition at h
  rw [exec_ofExcept_ok] at h
  obtain ⟨hok, hdb⟩ := h
  refine ⟨hdb, ?_⟩
  cases hv : validateStatusTransition old.text target with
  | error e =>
    rw [hv] at hok
    cases hok
  | ok v =>
    exact validateStatusTransition_ok hv

theorem exec_checkInactive_ok {b : Booking} {body : BookingPatchRequest} {u : Unit}
    (h : (checkInactive b body).exec db = (.ok u, db')) :
    db = db' ∧ (b.status.Active ∨ body.checkIn = none ∧ body.checkOut = none) := by
  unfold checkInactive at h
  split at h
  · next hactive =>
    cases h
    exact ⟨rfl, .inl hactive⟩
  · simp only [exec_bind_ok, exec_raiseIf_ok, not_or, not_not] at h
    obtain ⟨_, db₁, hcheck, ⟨hci, hco, -⟩, rfl⟩ := h
    refine ⟨?_, .inr ⟨hci, hco⟩⟩
    unfold checkRequestedTransition at hcheck
    split at hcheck
    · cases hcheck
      rfl
    · exact (exec_checkTransition_ok hcheck).1

theorem exec_checkinRequirements_ok {env : Env} {b : Booking} {u : Unit}
    (h : (checkinRequirements env b).exec db = (.ok u, db')) : db = db' := by
  simp only [checkinRequirements, exec_bind_ok, exec_select, Prod.mk.injEq,
    Except.ok.injEq] at h
  obtain ⟨_, _, ⟨rfl, rfl⟩, h⟩ := h
  split at h
  · cases h
  · exact (exec_raiseIf_ok.mp h).2

theorem text_injective {s t : BookingStatus} (h : s.text = t.text) : s = t := by
  have hs := BookingStatus.ofText_text s
  rw [h, BookingStatus.ofText_text] at hs
  exact (Option.some.inj hs).symm

/-- The status that a checked request leads to is the old one or an allowed one. -/
theorem allowed_of_transition {old new : BookingStatus} {text : String}
    (h : ∃ new : BookingStatus, normalizeBookingStatus text = new.text ∧
      (new = old ∨ new ∈ old.allowed))
    (hnew : new = (BookingStatus.ofText text).getD old) (hne : new ≠ old) :
    new ∈ old.allowed ∧ new.text = text := by
  cases hof : BookingStatus.ofText text with
  | none =>
    rw [hof] at hnew
    exact absurd hnew hne
  | some s =>
    rw [hof] at hnew
    have hnews : new = s := hnew
    have htext : s.text = text := BookingStatus.ofText_eq_some hof
    obtain ⟨s', hs', hcase⟩ := h
    have hsame : s' = s := by
      apply text_injective
      rw [← hs', ← htext, normalizeBookingStatus_text]
    rw [hsame] at hcase
    rw [hnews] at hne ⊢
    exact ⟨hcase.resolve_left hne, htext⟩

theorem updateStatus_step {b b₁ : Booking} {s : BookingStatus} {l : Ledger}
    (hb : db.bookings.find b.id = some b₁) :
    ((db.setLedger l).updateBooking b.id (setStatus s) (id_setStatus s)).hotel =
      { db.hotel with
        bookings := db.hotel.bookings.update b₁.id (setStatus s) (id_setStatus s), ledger := l } := by
  rw [show b₁.id = b.id from (Table.find_eq_some.mp hb).2]
  rfl

theorem exec_releaseLoaded_ok {pl : PatchLines} {b : Booking} {rt : UUID} {u : Unit}
    (hrt : lineRoomTypes b.lines = [rt])
    (hlines : ∀ lines, pl.loaded = some lines → SameNights lines b.lines)
    (h : (releaseLoaded pl.loaded).exec db = (.ok u, db')) :
    db.ledger.Releasable rt b.nights ∧
      db' = db.setLedger (db.ledger.shift rt b.nights (-1)) := by
  cases hl : pl.loaded with
  | none =>
    rw [hl] at h
    cases h
  | some lines =>
    rw [hl] at h
    have hsame := hlines lines hl
    have hrt' : lineRoomTypes lines = [rt] := hsame.lineRoomTypes.trans hrt
    have hrelease : (releaseBookingInventory lines).exec db = (.ok u, db') := h
    rw [exec_release_ok hrt', hsame.dates] at hrelease
    exact hrelease

/-- From an active status only a confirmed booking becomes a no-show; every other
allowed status but cancelled is active. -/
theorem active_or_noShow {old new : BookingStatus} (h : new ∈ old.allowed)
    (hcancel : new ≠ .cancelled) : new.Active ∨ new = .noShow ∧ old = .confirmed := by
  cases old <;> simp [BookingStatus.allowed] at h
  · left
    rcases h with h | h
    · rw [h]
      decide
    · exact absurd h hcancel
  · rcases h with h | h | h
    · left
      rw [h]
      decide
    · exact absurd h hcancel
    · exact .inr ⟨h, rfl⟩
  · left
    rw [h]
    decide

theorem patchStatus_steps {env : Env} {b : Booking} {body : BookingPatchRequest}
    {pl : PatchLines} {s : BookingStatus} (hshape : Shaped db.hotel)
    (hview : PatchView db b pl) (hcancel : cancels body = false)
    (h : (patchStatus env b body pl).exec db = (.ok s, db')) : Steps db.hotel db'.hotel := by
  unfold patchStatus at h
  split at h
  · cases h
    exact .refl
  · next text hbody =>
    simp only [exec_bind_ok, exec_runIf_ok, exec_pure, Prod.mk.injEq, Except.ok.injEq] at h
    obtain ⟨_, db₁, hcheck, _, db₂, hreq, _, db₃, hrel, _, db₄, hupd, hs, rfl⟩ := h
    obtain ⟨rfl, htrans⟩ := exec_checkTransition_ok hcheck
    have hdb₂ : db = db₂ := by
      rcases hreq with ⟨-, hreq⟩ | ⟨-, hreq⟩
      · exact exec_checkinRequirements_ok hreq
      · exact hreq
    subst hdb₂
    rw [hs] at hrel hupd
    obtain ⟨b₁, hfind, hstatus, hlines⟩ := hview
    by_cases hsame : s = b.status
    · -- the same status again: nothing is released, nothing is written
      have hdb₃ : db = db₃ := by
        rcases hrel with ⟨⟨hno, hconf⟩, -⟩ | ⟨-, hrel⟩
        · rw [hsame, hconf] at hno
          cases hno
        · exact hrel
      rcases hupd with ⟨hne, -⟩ | ⟨-, hdb₄⟩
      · exact absurd hsame hne
      · rw [← hdb₄, ← hdb₃]
    · obtain ⟨hallowed, htext⟩ := allowed_of_transition htrans hs.symm hsame
      have hnc : s ≠ .cancelled := by
        intro hsc
        rw [hsc] at htext
        cases text with
        | none =>
          have hnone : BookingStatus.cancelled.text ≠ normalizeBookingStatus (statusText none) := by
            decide
          exact hnone htext
        | some t =>
          have hnt : normalizeBookingStatus t ≠ BookingStatus.cancelled.text := by
            rw [cancels, hbody] at hcancel
            simpa using hcancel
          exact hnt htext.symm
      rcases hupd with ⟨-, hupd⟩ | ⟨hno, -⟩
      · obtain ⟨-, rfl⟩ := exec_updateBookingRow_ok.mp hupd
        have hid : b₁.id = b.id := (Table.find_eq_some.mp hfind).2
        have hfind' : db.hotel.bookings.find b₁.id = some b₁ := hid ▸ hfind
        rcases active_or_noShow hallowed hnc with hactive | ⟨hno, hconf⟩
        · have hdb₃ : db = db₃ := by
            rcases hrel with ⟨⟨hno, -⟩, -⟩ | ⟨-, hrel⟩
            · exact absurd hno hactive.2
            · exact hrel
          subst hdb₃
          have hstep : Step db.hotel { db.hotel with
              bookings := db.hotel.bookings.update b₁.id (setStatus s) (id_setStatus s) } :=
            .advance hfind' hactive (hstatus ▸ hallowed)
          rw [hid] at hstep
          exact .single hstep
        · obtain ⟨rt, hrt⟩ := (hshape b₁ (Table.find_eq_some.mp hfind).1).lineRoomTypes
          have hrel' := hrel.resolve_right (fun hn => hn.1 ⟨hno, hconf⟩)
          obtain ⟨hreleasable, rfl⟩ := exec_releaseLoaded_ok hrt hlines hrel'.2
          refine .single ?_
          rw [updateStatus_step hfind]
          refine .release hfind' ?_ ?_ hrt hreleasable
          · rw [hstatus, hconf]
            decide
          · rw [hno]
            decide
      · exact absurd hsame hno

theorem patchNotes_steps {b : Booking} {notes : Option (Option String)} {u : Unit}
    (h : (patchNotes b notes).exec db = (.ok u, db')) : Steps db.hotel db'.hotel := by
  simp only [patchNotes, exec_bind_ok, exec_raiseIf_ok] at h
  obtain ⟨_, _, ⟨-, rfl⟩, h⟩ := h
  split at h
  · cases h
    exact .refl
  · split at h
    · cases h
      exact .refl
    · obtain ⟨⟨b₁, hfind⟩, rfl⟩ := exec_updateBookingRow_ok.mp h
      have hid : b₁.id = b.id := (Table.find_eq_some.mp hfind).2
      rw [← hid] at hfind ⊢
      exact .single (.annotate _ hfind)

theorem patchCancel_steps {b : Booking} {u : Unit} (hfind : db.bookings.find b.id = some b)
    (hshape : b.Shape) (h : (patchCancel b).exec db = (.ok u, db')) :
    Steps db.hotel db'.hotel := by
  unfold patchCancel at h
  split at h
  · next hne =>
    simp only [exec_bind_ok] at h
    obtain ⟨_, db₁, hcheck, _, db₂, hrel, hupd⟩ := h
    obtain ⟨rfl, new, hnew, hcase⟩ := exec_checkTransition_ok hcheck
    rw [normalizeBookingStatus_text] at hnew
    have hcancel : new = .cancelled := (text_injective hnew).symm
    rw [hcancel] at hcase
    have hallowed := hcase.resolve_left (Ne.symm hne)
    obtain ⟨rt, hrt⟩ := hshape.lineRoomTypes
    obtain ⟨hreleasable, rfl⟩ := (exec_release_ok hrt).mp hrel
    obtain ⟨-, rfl⟩ := exec_updateBookingRow_ok.mp hupd
    exact .single (.release hfind (active_of_allowed hallowed) (by decide) hrt hreleasable)
  · cases h
    exact .refl

theorem checkoutWarning_steps {b : Booking} {s : BookingStatus} {pl : PatchLines}
    {r : Option Money} (h : (checkoutWarning b s pl).exec db = (.ok r, db')) :
    Steps db.hotel db'.hotel := by
  unfold checkoutWarning at h
  split at h
  · simp only [markAssignedRoomsDirtyOnCheckout, exec_bind_ok, exec_modify, exec_select,
      exec_pure, Prod.mk.injEq] at h
    obtain ⟨_, _, ⟨-, rfl⟩, _, _, ⟨-, rfl⟩, -, rfl⟩ := h
    exact .single (.soil _)
  · cases h
    exact .refl

theorem hotel_flushRoomCharge {bid : UUID} {amount : Option Money} {u : Unit}
    (h : (flushRoomCharge bid amount).exec db = (.ok u, db')) : db'.hotel = db.hotel := by
  cases amount with
  | none =>
    cases h
    rfl
  | some amount =>
    obtain ⟨-, rfl⟩ := exec_updateFolioCharge_ok.mp h
    rfl

/-- A patch that returns has carried out actions, whatever fields it names. -/
theorem patchBooking_steps {env : Env} {bid : UUID} {body : BookingPatchRequest}
    {r : Option Money} (hshape : Shaped db.hotel)
    (h : (patchBooking env bid body).exec db = (.ok r, db')) : Steps db.hotel db'.hotel := by
  unfold patchBooking at h
  split at h
  · cases h
    exact .refl
  · simp only [exec_bind_ok, exec_select, Prod.mk.injEq, Except.ok.injEq] at h
    obtain ⟨found, _, ⟨hfound, rfl⟩, h⟩ := h
    split at h
    · cases h
    · next b =>
      obtain ⟨hmem, hid⟩ := Table.find_eq_some.mp hfound
      rw [← hid] at hfound
      split at h
      · simp only [exec_bind_ok, exec_pure, Prod.mk.injEq] at h
        obtain ⟨_, _, hnotes, -, rfl⟩ := h
        exact patchNotes_steps hnotes
      · split at h
        · simp only [exec_bind_ok, exec_pure, Prod.mk.injEq] at h
          obtain ⟨_, _, hcancel, _, _, hnotes, -, rfl⟩ := h
          exact (patchCancel_steps hfound (hshape b hmem) hcancel).trans (patchNotes_steps hnotes)
        · next hcancel =>
          simp only [exec_bind_ok, exec_pure, Prod.mk.injEq] at h
          obtain ⟨_, _, hinactive, pl, _, hdates, pl', _, hroom, s, _, hstatus, w, _, hwarn, _, _,
            hcharge, _, _, hnotes, -, rfl⟩ := h
          obtain ⟨rfl, hactive⟩ := exec_checkInactive_ok hinactive
          obtain ⟨hsteps₁, hview₁⟩ := patchDates_steps hfound hactive hdates
          rw [← hid] at hroom
          obtain ⟨hsteps₂, hview₂⟩ := patchRoomAssignment_steps hview₁ hroom
          have hsteps₁₂ := hsteps₁.trans hsteps₂
          have hsteps₃ := patchStatus_steps (steps_invariant Shaped.step hshape hsteps₁₂) hview₂
            (by simpa using hcancel) hstatus
          have hsteps₅ := patchNotes_steps hnotes
          rw [hotel_flushRoomCharge hcharge] at hsteps₅
          exact ((hsteps₁₂.trans hsteps₃).trans (checkoutWarning_steps hwarn)).trans hsteps₅

/-! Delete -/

theorem hotel_eraseBooking {bid : UUID} {u : Unit}
    (h : (eraseBooking bid).exec db = (.ok u, db')) :
    db'.hotel = { db.hotel with bookings := db.bookings.erase bid } := by
  cases h
  have herase : (db.bookings.update bid clearLines id_clearLines).erase bid =
      db.bookings.erase bid := Table.erase_update
  exact congrArg (fun t => ({ db.hotel with bookings := t } : Hotel)) herase

theorem deleteBooking_steps {bid : UUID} {r : Booking} (hshape : Shaped db.hotel)
    (h : (deleteBooking bid).exec db = (.ok r, db')) : Steps db.hotel db'.hotel := by
  simp only [deleteBooking, exec_bind_ok, exec_select, Prod.mk.injEq, Except.ok.injEq] at h
  obtain ⟨found, _, ⟨hfound, rfl⟩, h⟩ := h
  split at h
  · cases h
  · next b =>
    obtain ⟨hmem, hid⟩ := Table.find_eq_some.mp hfound
    rw [← hid] at hfound h
    simp only [exec_bind_ok, exec_raiseIf_ok, exec_runIf_ok, exec_pure, Prod.mk.injEq] at h
    obtain ⟨_, _, ⟨-, rfl⟩, _, db₁, hrel, _, _, herase, -, rfl⟩ := h
    rw [hotel_eraseBooking herase]
    rcases hrel with ⟨hactive, hrel⟩ | ⟨hinactive, rfl⟩
    · obtain ⟨rt, hrt⟩ := (hshape b hmem).lineRoomTypes
      obtain ⟨hreleasable, rfl⟩ := (exec_release_ok hrt).mp hrel
      exact .single (.remove hfound hactive hrt hreleasable)
    · exact .single (.removeInactive hfound hinactive)

/-! The night audit -/

theorem checkTransition_of_ok {old : BookingStatus} {target : String}
    (h : validateStatusTransition old.text target = .ok ()) : checkTransition old target = pure () := by
  rw [checkTransition, h]
  rfl

theorem checkTransition_of_error {old : BookingStatus} {target : String} {e : TransitionError}
    (h : validateStatusTransition old.text target = .error e) :
    checkTransition old target = raise (.patchBooking (.transition e) 409) := by
  rw [checkTransition, h]
  rfl

/-- The request sets the status to no_show and may change the notes, nothing else. -/
structure AsksNoShow (body : BookingPatchRequest) : Prop where
  status : ∃ text, body.status = some (some text) ∧ normalizeBookingStatus text = "no_show"
  checkIn : body.checkIn = none
  checkOut : body.checkOut = none
  roomId : body.roomId = none

theorem asksNoShow_noShowRequest : AsksNoShow noShowRequest :=
  ⟨⟨"no_show", rfl, by decide⟩, rfl, rfl, rfl⟩

/-- The parts of a patch that a request with a status only goes through. -/
theorem patchBooking_noShow (env : Env) (bid : UUID) {body : BookingPatchRequest}
    (hbody : AsksNoShow body) :
    patchBooking env bid body = (do
      let found ← select fun db => db.bookings.find bid
      match found with
      | none => raise (.patchBooking (.text "booking not found") 404)
      | some b => do
        checkInactive b body
        let s ← patchStatus env b body (.ofBooking b)
        let warning ← checkoutWarning b s (.ofBooking b)
        patchNotes b body.notes
        pure warning) := by
  obtain ⟨⟨text, htext, hnorm⟩, hci, hco, hroomId⟩ := hbody
  have hne : body ≠ {} := by
    rintro rfl
    cases htext
  have hne' : { body with notes := none } ≠ ({} : BookingPatchRequest) := by
    intro heq
    have hstatus : body.status = none := congrArg BookingPatchRequest.status heq
    rw [htext] at hstatus
    cases hstatus
  have hcancel : cancels body = false := by
    simp only [cancels, htext, hnorm]
    decide
  simp only [patchBooking, hne, if_false]
  refine congrArg (select _ >>= ·) (funext fun found => ?_)
  cases found with
  | none => rfl
  | some b =>
    have hdates : patchDates env b body = pure (.ofBooking b) := by
      rw [patchDates, if_pos ⟨hci, hco⟩]
    have hroom : patchRoomAssignment bid body (.ofBooking b) = pure (.ofBooking b) := by
      rw [patchRoomAssignment, hroomId]
    have hcharge : flushRoomCharge bid (PatchLines.ofBooking b).roomCharge = pure () := rfl
    simp only [hcancel, hne', hdates, hroom, hcharge, pure_bind, Bool.false_eq_true, if_false]

/-- A no-show patch of a confirmed booking releases its nights and sets the status. -/
theorem patchStatus_noShow {env : Env} {b : Booking} {body : BookingPatchRequest}
    (hbody : AsksNoShow body) (hconf : b.status = .confirmed) :
    patchStatus env b body (.ofBooking b) = (do
      releaseBookingInventory b.lines
      updateBookingRow b.id (setStatus .noShow) (id_setStatus _)
      pure .noShow) := by
  obtain ⟨text, htext, hnorm⟩ := hbody.status
  have hcheck : checkTransition .confirmed "no_show" = pure () := checkTransition_of_ok (by decide)
  have hnew : (BookingStatus.ofText "no_show").getD .confirmed = .noShow := by decide
  simp only [patchStatus, htext, statusText, hnorm, hconf, hcheck, hnew, pure_bind]
  rfl

/-- What a no-show patch of a confirmed booking comes down to. -/
theorem exec_patchNoShow {env : Env} {bid : UUID} {b : Booking} {body : BookingPatchRequest}
    (hbody : AsksNoShow body) (hfind : db.bookings.find bid = some b)
    (hconf : b.status = .confirmed) :
    (patchBooking env bid body).exec db =
      (do
        releaseBookingInventory b.lines
        updateBookingRow bid (setStatus .noShow) (id_setStatus _)
        patchNotes b body.notes
        pure none : Tx (Option Money)).exec db := by
  have hid : b.id = bid := (Table.find_eq_some.mp hfind).2
  have hinactive : checkInactive b body = pure () := by
    rw [checkInactive, hconf]
    rfl
  have hwarn : checkoutWarning b .noShow (.ofBooking b) = pure none := rfl
  rw [patchBooking_noShow env bid hbody, exec_bind, exec_select]
  simp only [hfind, hinactive, patchStatus_noShow hbody hconf, pure_bind, bind_assoc, hwarn, hid]

theorem exec_release_error {lines : List BookingLine} {e : Err}
    (h : (releaseBookingInventory lines).exec db = (.error e, db')) : InventoryError e := by
  unfold releaseBookingInventory at h
  split at h
  · rcases exec_bind_error.mp h with hlock | ⟨rows, db₁, -, hdec⟩
    · exact exec_lockAndValidate_error hlock
    · exact exec_decrementBookedRooms_error hdec
  · cases h

theorem exec_updateBookingRow_error {bid : UUID} {f : Booking → Booking}
    {hf : ∀ b, (f b).id = b.id} {e : Err}
    (h : (updateBookingRow bid f hf).exec db = (.error e, db')) :
    e = .staleData ∧ db.bookings.find bid = none := by
  simp only [updateBookingRow, exec_bind_error, exec_acquire, exec_select,
    exec_raiseIf_error, exec_raiseIf_ok, exec_modify, Prod.mk.injEq, reduceCtorEq, false_and,
    and_false, exists_false, or_false, false_or, Except.ok.injEq] at h
  obtain ⟨_, _, ⟨-, rfl⟩, _, _, ⟨rfl, rfl⟩, hnone, he, -⟩ := h
  exact ⟨he.symm, hnone⟩

/-- From any other status than confirmed and no_show the transition is refused. -/
theorem noShow_refused (env : Env) {b : Booking} (hconf : b.status ≠ .confirmed)
    (hno : b.status ≠ .noShow) (pl : PatchLines) :
    ∃ e, (checkInactive b noShowRequest >>= fun _ => patchStatus env b noShowRequest pl) =
      raise e := by
  have hrefused : ∃ e, validateStatusTransition b.status.text "no_show" = .error e := by
    cases hs : b.status with
    | pending => exact ⟨.notAllowed .pending .noShow, by decide⟩
    | confirmed => exact absurd hs hconf
    | checkedIn => exact ⟨.notAllowed .checkedIn .noShow, by decide⟩
    | checkedOut => exact ⟨.fromTerminal .checkedOut .noShow, by decide⟩
    | cancelled => exact ⟨.fromTerminal .cancelled .noShow, by decide⟩
    | noShow => exact absurd hs hno
  obtain ⟨e, he⟩ := hrefused
  have hcheck : checkTransition b.status "no_show" = raise (.patchBooking (.transition e) 409) :=
    checkTransition_of_error he
  have hnorm : normalizeBookingStatus (statusText (some "no_show")) = "no_show" := by decide
  refine ⟨.patchBooking (.transition e) 409, ?_⟩
  by_cases hactive : b.status.Active
  · simp only [checkInactive, hactive, if_true, pure_bind, patchStatus, noShowRequest, hnorm, hcheck]
    rfl
  · simp only [checkInactive, hactive, if_false, checkRequestedTransition, noShowRequest,
      statusText, hcheck]
    rfl

theorem noShow_again {env : Env} {b : Booking} (hno : b.status = .noShow) :
    (checkInactive b noShowRequest >>= fun _ =>
      patchStatus env b noShowRequest (.ofBooking b)) = pure .noShow := by
  have hcheck : ∀ text, normalizeBookingStatus text = "no_show" →
      checkTransition b.status text = pure () := by
    intro text htext
    apply checkTransition_of_ok
    rw [hno, validateStatusTransition, htext]
    rfl
  have hnew : (BookingStatus.ofText (normalizeBookingStatus (statusText (some "no_show")))).getD
      b.status = .noShow := by
    rw [hno]
    decide
  simp only [checkInactive, noShowRequest, hno, checkRequestedTransition, patchStatus] at hcheck ⊢
  rw [hcheck _ (by decide), hcheck _ (by decide)]
  rw [hno] at hnew
  simp only [hnew]
  rfl

/-- A refused no-show patch has written nothing. -/
theorem exec_patchNoShow_refused {env : Env} {bid : UUID} {d : Detail} {n : ℕ}
    (h : (patchBooking env bid noShowRequest).exec db = (.error (.patchBooking d n), db')) :
    db = db' := by
  cases hfind : db.bookings.find bid with
  | none =>
    rw [patchBooking_noShow env bid asksNoShow_noShowRequest, exec_bind, exec_select] at h
    simp only [hfind] at h
    cases h
    rfl
  | some b =>
    by_cases hconf : b.status = .confirmed
    · rw [exec_patchNoShow asksNoShow_noShowRequest hfind hconf] at h
      rcases exec_bind_error.mp h with hrel | ⟨_, db₁, -, hrest⟩
      · rcases exec_release_error hrel with ⟨_, he⟩ | ⟨_, he⟩ <;> cases he
      · rcases exec_bind_error.mp hrest with hupd | ⟨_, _, -, hret⟩
        · cases (exec_updateBookingRow_error hupd).1
        · cases hret
    · rw [patchBooking_noShow env bid asksNoShow_noShowRequest, exec_bind, exec_select] at h
      simp only [hfind] at h
      rw [← bind_assoc] at h
      by_cases hno : b.status = .noShow
      · rw [noShow_again hno] at h
        cases h
      · obtain ⟨e, he⟩ := noShow_refused env hconf hno (.ofBooking b)
        rw [he] at h
        cases h
        rfl

theorem markNoShow_steps {env : Env} {bid : UUID} {n : ℕ} (hshape : Shaped db.hotel)
    (h : (markNoShow env bid).exec db = (.ok n, db')) : Steps db.hotel db'.hotel := by
  rw [markNoShow, exec_tryCatch] at h
  split at h
  · next hexec =>
    cases h
    obtain ⟨_, _, hpatch, hret⟩ := exec_bind_ok.mp hexec
    cases hret
    exact patchBooking_steps hshape hpatch
  · next e db₁ hexec =>
    split at h
    · cases h
      rcases exec_bind_error.mp hexec with hpatch | ⟨_, _, -, hret⟩
      · rw [exec_patchNoShow_refused hpatch]
      · cases hret
    · cases h

theorem markNoShows_steps {env : Env} {ids : List UUID} {n : ℕ} (hshape : Shaped db.hotel)
    (h : (markNoShows env ids).exec db = (.ok n, db')) : Steps db.hotel db'.hotel := by
  induction ids generalizing db n with
  | nil =>
    cases h
    exact .refl
  | cons bid rest ih =>
    simp only [markNoShows, exec_bind_ok, exec_pure, Prod.mk.injEq] at h
    obtain ⟨_, db₁, hmark, _, _, hrest, -, rfl⟩ := h
    have hsteps := markNoShow_steps hshape hmark
    exact hsteps.trans (ih (steps_invariant Shaped.step hshape hsteps) hrest)

theorem autoNoShow_steps {env : Env} {order : RowOrder} {propertyId : UUID} {today : ℤ} {n : ℕ}
    (hshape : Shaped db.hotel)
    (h : (autoNoShowConfirmedPastCheckin env order propertyId today).exec db = (.ok n, db')) :
    Steps db.hotel db'.hotel := by
  simp only [autoNoShowConfirmedPastCheckin, exec_bind_ok, exec_select, Prod.mk.injEq,
    Except.ok.injEq] at h
  obtain ⟨_, _, ⟨rfl, rfl⟩, h⟩ := h
  exact markNoShows_steps hshape h

end Requests

end OpenPms
