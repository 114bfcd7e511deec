import OpenPms.PatchAnnouncements
import OpenPms.Lib.Alike

/-!
A patch of dates, room and status at once beside the same changes as three requests. The
parts of one patch share a session that does not flush by itself: what an earlier part has
set on its objects a later part does not see in its queries.
-/
namespace OpenPms

open KeyedTable Transaction Prog Hotel

/-! The requests -/

def datesPart (body : BookingPatchRequest) : BookingPatchRequest :=
  { checkIn := body.checkIn, checkOut := body.checkOut }

def roomPart (body : BookingPatchRequest) : BookingPatchRequest := { roomId := body.roomId }

def statusPart (body : BookingPatchRequest) : BookingPatchRequest := { status := body.status }

/-- Each request is committed before the next one. One without fields changes nothing. -/
def sendParts (env : Env) (bid : UUID) (body : BookingPatchRequest) : Tx (Option Money) := do
  let _ ← patchBooking env bid (datesPart body)
  let _ ← patchBooking env bid (roomPart body)
  patchBooking env bid (statusPart body)

/-- Dates, a room or a status that does not cancel, and nothing else. -/
structure Combines (body : BookingPatchRequest) : Prop where
  asks : body ≠ {}
  notes : body.notes = none
  reason : body.cancellationReason = none
  status : cancels body = false

/-! A room charge that is not flushed -/

section Charged
variable {bid : UUID} {charge : Option Money} {db db' : Db}

@[simp] theorem bookings_charged : (db.charged bid charge).bookings = db.bookings := by
  cases charge <;> rfl

@[simp] theorem ledger_charged : (db.charged bid charge).ledger = db.ledger := by
  cases charge <;> rfl

@[simp] theorem guests_charged : (db.charged bid charge).guests = db.guests := by
  cases charge <;> rfl

@[simp] theorem rooms_charged : (db.charged bid charge).rooms = db.rooms := by
  cases charge <;> rfl

@[simp] theorem roomTypes_charged : (db.charged bid charge).roomTypes = db.roomTypes := by
  cases charge <;> rfl

theorem updateBooking_charged {bid' : UUID} {f : Booking → Booking} {hf : ∀ b, (f b).id = b.id} :
    (db.charged bid charge).updateBooking bid' f hf =
      (db.updateBooking bid' f hf).charged bid charge := by
  cases charge <;> rfl

/-! The status of a booking and the charge do not see each other -/

theorem blind_selectLedger {rt : UUID} {nights : List ℤ} :
    Blind (Db.charged bid charge) (selectLedgerForUpdate rt nights) := by
  refine blind_bind (blind_select fun s => ?_) fun found => ?_
  · simp [selectLedger]
  · refine blind_bind (blind_forEach fun d => blind_acquire _) fun _ => blind_select fun s => ?_
    simp [selectLedger]

theorem blind_lockAndValidate {rt : UUID} {nights : List ℤ} {n : ℤ} :
    Blind (Db.charged bid charge) (lockAndValidateAvailability rt nights n) := by
  unfold lockAndValidateAvailability
  split
  · exact blind_pure _
  · exact blind_bind blind_selectLedger fun rows => blind_bind (blind_raiseIf _) fun _ =>
      blind_bind (blind_raiseIf _) fun _ => blind_pure rows

theorem blind_decrement {rows : List AvailabilityLedger} {n : ℤ} :
    Blind (Db.charged bid charge) (decrementBookedRooms rows n) := by
  refine blind_forEach fun row => blind_bind (blind_modify fun s => ?_) fun _ => blind_raiseIf _
  cases charge <;> rfl

theorem blind_release {lines : List BookingLine} :
    Blind (Db.charged bid charge) (releaseBookingInventory lines) := by
  unfold releaseBookingInventory
  split
  · exact blind_bind blind_lockAndValidate fun rows => blind_decrement
  · exact blind_pure ()

theorem blind_updateRow {bid' : UUID} {f : Booking → Booking} {hf : ∀ b, (f b).id = b.id} :
    Blind (Db.charged bid charge) (updateBookingRow bid' f hf) := by
  refine blind_bind (blind_acquire _) fun _ => blind_bind (blind_select fun s => ?_) fun found =>
    blind_bind (blind_raiseIf _) fun _ => blind_modify fun s => updateBooking_charged
  rw [bookings_charged]

theorem blind_checkin {env : Env} {b : Booking} :
    Blind (Db.charged bid charge) (checkinRequirements env b) := by
  refine blind_bind (blind_select fun s => ?_) fun guest => ?_
  · rw [guests_charged]
  · cases guest with
    | none => exact blind_raise _
    | some g => exact blind_raiseIf _

theorem blind_patchStatus {env : Env} {b : Booking} {body : BookingPatchRequest}
    {pl : PatchLines} : Blind (Db.charged bid charge) (patchStatus env b body pl) := by
  unfold patchStatus
  split
  · exact blind_pure _
  · refine blind_bind (blind_ofExcept _) fun _ => blind_bind (blind_runIf blind_checkin) fun _ =>
      blind_bind (blind_runIf ?_) fun _ => blind_bind (blind_runIf blind_updateRow) fun _ =>
        blind_pure _
    cases pl.loaded with
    | none => exact blind_raise _
    | some lines => exact blind_release

end Charged

/-! Assigning a room -/

section Assign
variable {db db' : Db} {bid : UUID} {b : Booking}

/-- The room is one of the type on the booking's property, and no other booking has it on
these nights. -/
structure RoomPasses (db : Db) (b : Booking) (rt rid : UUID) : Prop where
  room : ∃ r, db.rooms.rows.find? (fun r => r.id = rid && !r.deleted) = some r ∧
    r.roomTypeId = rt
  property : ∃ t, db.roomTypes.rows.find? (fun t => t.id = rt && !t.deleted) = some t ∧
    t.propertyId = b.propertyId
  free : ¬ RoomTaken db rid (sortedDates (b.lines.map (·.date))) b.id

theorem exec_assertNoRoomConflict_iff {room exclude : UUID} {nights : List ℤ} {u : Unit} :
    (assertNoRoomConflict room nights exclude).exec db = (.ok u, db') ↔
      ¬ RoomTaken db room nights exclude ∧ db' = db := by
  unfold assertNoRoomConflict
  split
  · next hnil =>
    subst hnil
    have hfree : ¬ RoomTaken db room [] exclude := by
      rintro ⟨b, -, -, -, ln, -, -, hmem⟩
      cases hmem
    rw [exec_pure, Prod.mk.injEq]
    exact ⟨fun h => ⟨hfree, h.2.symm⟩, fun h => ⟨rfl, h.2.symm⟩⟩
  · simp only [exec_bind_ok, exec_select, exec_raiseIf_ok, Prod.mk.injEq, Except.ok.injEq]
    constructor
    · rintro ⟨_, _, ⟨rfl, rfl⟩, hclash, rfl⟩
      exact ⟨by simpa using hclash, rfl⟩
    · rintro ⟨hfree, rfl⟩
      exact ⟨_, _, ⟨rfl, rfl⟩, by simpa using hfree, rfl⟩

theorem exec_assignRoomOfType_iff {rt rid : UUID} {u : Unit} (hid : b.id = bid) :
    (assignRoomOfType bid b rt (some rid)).exec db = (.ok u, db') ↔
      RoomPasses db b rt rid ∧
        db' = db.updateBooking bid (setRoom (some rid)) (id_setRoom _) := by
  subst hid
  rw [assignRoomOfType, exec_bind, exec_select]
  cases hroom : db.rooms.rows.find? fun r => r.id = rid && !r.deleted with
  | none =>
    refine iff_of_false (by simp [exec_raise]) ?_
    rintro ⟨⟨⟨r, hsome, -⟩, -, -⟩, -⟩
    rw [hroom] at hsome
    cases hsome
  | some r =>
    simp only [exec_bind_ok, exec_raiseIf_ok, exec_select, exec_assertNoRoomConflict_iff,
      setLineRooms, exec_modify, Prod.mk.injEq, Except.ok.injEq, not_not]
    constructor
    · rintro ⟨_, _, ⟨htype, rfl⟩, t, _, ⟨ht, rfl⟩, _, _, ⟨hprop, rfl⟩, _, _, ⟨hfree, rfl⟩, -, rfl⟩
      push Not at hprop
      obtain ⟨t', ht', hp⟩ := hprop
      rw [ht', htype] at ht
      exact ⟨⟨⟨r, hroom, htype⟩, ⟨t', ht, hp⟩, hfree⟩, rfl⟩
    · rintro ⟨⟨⟨r', hr', htype⟩, ⟨t, ht, hp⟩, hfree⟩, rfl⟩
      rw [hroom] at hr'
      cases hr'
      subst htype
      refine ⟨(), db, ⟨rfl, rfl⟩, _, db, ⟨rfl, rfl⟩, (), db, ⟨?_, rfl⟩, (), db, ⟨hfree, rfl⟩,
        trivial, rfl⟩
      push Not
      exact ⟨t, ht, hp⟩

/-- A room can be assigned to an active booking of one room type, if the room passes. -/
theorem exec_assignBookingRoom_iff {room : Option UUID} {u : Unit} :
    (assignBookingRoom bid room).exec db = (.ok u, db') ↔
      ∃ b rt, db.bookings.find bid = some b ∧ b.status.Active ∧ lineRoomTypes b.lines = [rt] ∧
        (∀ rid ∈ room, RoomPasses db b rt rid) ∧
        db' = db.updateBooking bid (setRoom room) (id_setRoom _) := by
  rw [assignBookingRoom, exec_bind, exec_select]
  cases hfind : db.bookings.find bid with
  | none =>
    refine iff_of_false (by simp [exec_raise]) ?_
    rintro ⟨b, rt, hsome, -⟩
    cases hsome
  | some b =>
    have hid : b.id = bid := (Table.find_eq_some.mp hfind).2
    simp only [exec_bind_ok, exec_raiseIf_ok, not_not]
    constructor
    · rintro ⟨_, _, ⟨hactive, rfl⟩, _, _, ⟨-, rfl⟩, h⟩
      split at h
      · next rt hrt =>
        cases room with
        | none =>
          cases h
          exact ⟨b, rt, rfl, hactive, hrt, fun rid hrid => (by cases hrid), rfl⟩
        | some rid =>
          obtain ⟨hpass, rfl⟩ := (exec_assignRoomOfType_iff hid).mp h
          refine ⟨b, rt, rfl, hactive, hrt, ?_, rfl⟩
          intro rid' hrid'
          cases hrid'
          exact hpass
      · cases h
    · rintro ⟨b', rt, hsome, hactive, hrt, hpass, rfl⟩
      cases hsome
      have hlines : b.lines ≠ [] := by
        intro hnil
        rw [hnil] at hrt
        cases hrt
      refine ⟨(), db, ⟨hactive, rfl⟩, (), db, ⟨hlines, rfl⟩, ?_⟩
      simp only [hrt]
      cases room with
      | none => rfl
      | some rid => exact (exec_assignRoomOfType_iff hid).mpr ⟨hpass rid rfl, rfl⟩

/-- What the checks read: the rooms, and the other bookings. -/
structure SameElsewhere (bid : UUID) (db db' : Db) : Prop where
  rooms : db'.rooms = db.rooms
  roomTypes : db'.roomTypes = db.roomTypes
  others : ∀ id, id ≠ bid → db'.bookings.find id = db.bookings.find id

theorem SameElsewhere.update (h : SameElsewhere bid db db') {f : Booking → Booking}
    {hf : ∀ b, (f b).id = b.id} : SameElsewhere bid db (db'.updateBooking bid f hf) := by
  refine ⟨h.rooms, h.roomTypes, fun id hne => ?_⟩
  rw [← h.others id hne]
  show (db'.bookings.update bid f hf).find id = _
  exact Table.find_update_of_ne hne

theorem SameElsewhere.charged (h : SameElsewhere bid db db') {charge : Option Money} :
    SameElsewhere bid db (db'.charged bid charge) := by
  refine ⟨rooms_charged.trans h.rooms, roomTypes_charged.trans h.roomTypes, fun id hne => ?_⟩
  rw [bookings_charged]
  exact h.others id hne

/-- A room that passes for the booking still does when only this booking has changed. -/
theorem SameElsewhere.passes {rt rid : UUID} {b' : Booking} (h : SameElsewhere b.id db db')
    (hid : b'.id = b.id) (hproperty : b'.propertyId = b.propertyId)
    (hdates : b'.lines.map (·.date) = b.lines.map (·.date)) (hpass : RoomPasses db' b' rt rid) :
    RoomPasses db b rt rid := by
  obtain ⟨hroom, hprop, hfree⟩ := hpass
  rw [h.rooms] at hroom
  rw [h.roomTypes, hproperty] at hprop
  refine ⟨hroom, hprop, ?_⟩
  rintro ⟨other, hmem, hne, hactive, hlines⟩
  have hfind := Table.find_of_mem hmem
  rw [← h.others other.id hne] at hfind
  refine hfree ⟨other, (Table.find_eq_some.mp hfind).1, hid ▸ hne, hactive, ?_⟩
  rwa [hdates]

end Assign

/-! The first two requests -/

section Requests
variable {env : Env} {db db' : Db} {b : Booking} {body : BookingPatchRequest} {w : Option Money}

/-- A status that stays as it was asks for nothing. -/
theorem checkoutWarning_same (b : Booking) (pl : PatchLines) :
    checkoutWarning b b.status pl = pure none :=
  if_neg fun hand => hand.2 hand.1

theorem exec_datesPart (hfind : db.bookings.find b.id = some b)
    (h : (patchBooking env b.id (datesPart body)).exec db = (.ok w, db')) :
    (b.status.Active ∨ body.checkIn = none ∧ body.checkOut = none) ∧ ∃ pl db₁,
      (patchDates env b (datesPart body)).exec db = (.ok pl, db₁) ∧
        (∀ amount ∈ pl.roomCharge, db₁.TakesCharge b.id amount) ∧
        db' = db₁.charged b.id pl.roomCharge := by
  by_cases hnone : body.checkIn = none ∧ body.checkOut = none
  · have hempty : datesPart body = {} := by
      simp [datesPart, hnone.1, hnone.2]
    rw [hempty] at h ⊢
    cases h
    exact ⟨.inr hnone, _, _, rfl, nofun, rfl⟩
  · have hne : { datesPart body with notes := none } ≠ ({} : BookingPatchRequest) := by
      intro heq
      exact hnone ⟨congrArg BookingPatchRequest.checkIn heq,
        congrArg BookingPatchRequest.checkOut heq⟩
    rw [exec_patchBooking_parts hfind hne rfl] at h
    obtain ⟨_, db₁, hcheck, h⟩ := exec_bind_ok.mp h
    obtain ⟨rfl, hactive⟩ := exec_checkInactive_ok hcheck
    obtain ⟨pl, db₂, hdates, h⟩ := exec_bind_ok.mp h
    refine ⟨hactive, pl, db₂, hdates, ?_⟩
    simp only [patchRoomAssignment, patchStatus, datesPart, patchNotes_absent,
      checkoutWarning_same, pure_bind, exec_bind_ok, exec_flushRoomCharge_iff, exec_pure,
      Prod.mk.injEq] at h
    obtain ⟨_, _, ⟨htakes, rfl⟩, -, rfl⟩ := h
    exact ⟨htakes, rfl⟩

theorem exec_roomPart {bid : UUID} (hfind : db.bookings.find bid = some b)
    (h : (patchBooking env bid (roomPart body)).exec db = (.ok w, db')) :
    body.roomId = none ∧ db' = db ∨ ∃ room, body.roomId = some room ∧
      (assignBookingRoom bid room).exec db = (.ok (), db') := by
  have hid : b.id = bid := (Table.find_eq_some.mp hfind).2
  subst hid
  cases hroom : body.roomId with
  | none =>
    have hempty : roomPart body = {} := by
      simp [roomPart, hroom]
    rw [hempty] at h
    cases h
    exact .inl ⟨rfl, rfl⟩
  | some room =>
    right
    refine ⟨room, rfl, ?_⟩
    have hne : { roomPart body with notes := none } ≠ ({} : BookingPatchRequest) := by
      intro heq
      have hnone := congrArg BookingPatchRequest.roomId heq
      simp [roomPart, hroom] at hnone
    rw [exec_patchBooking_parts hfind hne rfl] at h
    obtain ⟨_, db₁, hcheck, h⟩ := exec_bind_ok.mp h
    obtain ⟨rfl, -⟩ := exec_checkInactive_ok hcheck
    simp only [patchDates, patchRoomAssignment, patchStatus, roomPart, hroom, patchNotes_absent,
      checkoutWarning_same, pure_bind, bind_assoc, and_self, if_true, PatchLines.ofBooking,
      flushRoomCharge, exec_bind_ok, exec_pure, Prod.mk.injEq] at h
    obtain ⟨_, _, hassign, -, rfl⟩ := h
    exact hassign

/-- A room that is given to the booking, if any. -/
def Booking.assigned (b : Booking) : Option (Option UUID) → Booking
  | none => b
  | some room => setRoom room b

def Db.assigned (db : Db) (bid : UUID) : Option (Option UUID) → Db
  | none => db
  | some room => db.updateBooking bid (setRoom room) (id_setRoom room)

/-- The room after a date change: the requested one, or the one that all lines had. -/
def roomAfterMove (b : Booking) (body : BookingPatchRequest) : Option (Option UUID) :=
  body.roomId.or ((unifiedRoomId b.lines).map some)

/-- What dates and room leave to the status in one patch: the lines as the session knows
them, the booking, and the database before the room charge is flushed. -/
inductive Prepared (env : Env) (db : Db) (b : Booking) (body : BookingPatchRequest) :
    PatchLines → Booking → Db → Prop
  | kept (hkeeps : KeepsDates b body) (hlines : body.roomId ≠ none → b.lines ≠ []) :
      Prepared env db b body (.ofBooking b) (b.assigned body.roomId)
        (db.assigned b.id body.roomId)
  | moved (stay : PricedStay) (ratePlan : UUID) (hask : AsksFor b body stay)
      (hplan : b.ratePlanId = some ratePlan) (hrated : stay.RatedBy ratePlan db) :
      Prepared env db b body
        ⟨(roomAfterMove b body).map fun room => (setRoom room (setLines stay b.ratePlanId b)).lines,
          [], some (posting env b.propertyId stay.total).1⟩
        ((setLines stay b.ratePlanId b).assigned (roomAfterMove b body))
        ((db.rebooked env b stay).assigned b.id (roomAfterMove b body))

theorem find_assigned {b₁ : Booking} {room : Option (Option UUID)}
    (hfind : db.bookings.find b.id = some b₁) :
    (db.assigned b.id room).bookings.find b.id = some (b₁.assigned room) := by
  cases room with
  | none => exact hfind
  | some room => exact find_updateBooking hfind

theorem folio_assigned (db : Db) (bid : UUID) (room : Option (Option UUID)) :
    (db.assigned bid room).folio = db.folio := by
  cases room <;> rfl

theorem find_rebooked {stay : PricedStay} (hfind : db.bookings.find b.id = some b) :
    (db.rebooked env b stay).bookings.find b.id = some (setLines stay b.ratePlanId b) :=
  find_moved env hfind

theorem keepsDates_datesPart : KeepsDates b (datesPart body) ↔ KeepsDates b body := by
  constructor
  · rintro (⟨hci, hco⟩ | ⟨hlines, hbounds, hsame, hspan⟩)
    · exact .absent hci hco
    · exact .same hlines hbounds hsame hspan
  · rintro (⟨hci, hco⟩ | ⟨hlines, hbounds, hsame, hspan⟩)
    · exact .absent hci hco
    · exact .same hlines hbounds hsame hspan

theorem asksFor_datesPart {stay : PricedStay} :
    AsksFor b (datesPart body) stay ↔ AsksFor b body stay :=
  ⟨fun h => ⟨h.dates, h.bounds, h.changed, h.roomType⟩,
    fun h => ⟨h.dates, h.bounds, h.changed, h.roomType⟩⟩

theorem exec_restoreRoom {charge : Money} {room : Option UUID} {pl : PatchLines} {db₁ : Db}
    {b₁ : Booking} (hfind : db.bookings.find b.id = some b₁)
    (h : (restoreRoom b.id charge room).exec db = (.ok pl, db₁)) :
    pl = ⟨(room.map some).map fun r => (setRoom r b₁).lines, [], some charge⟩ ∧
      db₁ = db.assigned b.id (room.map some) := by
  cases room with
  | none =>
    cases h
    exact ⟨rfl, rfl⟩
  | some room =>
    obtain ⟨_, db₂, hassign, h⟩ := exec_bind_ok.mp h
    obtain ⟨b₂, rt, hb₂, -, -, -, rfl⟩ := exec_assignBookingRoom_iff.mp hassign
    rw [hfind] at hb₂
    cases hb₂
    simp only [exec_bind_ok, exec_select, exec_pure, Prod.mk.injEq, Except.ok.injEq] at h
    obtain ⟨_, _, ⟨rfl, rfl⟩, rfl, rfl⟩ := h
    have hreload := @find_updateBooking db b.id (setRoom (some room)) (id_setRoom _) b₁ hfind
    rw [hreload]
    exact ⟨rfl, rfl⟩

/-- Giving a booking a room twice is giving it the second one. -/
theorem update_assigned {first : Option (Option UUID)} {room : Option UUID} :
    (db.assigned b.id first).updateBooking b.id (setRoom room) (id_setRoom _) =
      db.updateBooking b.id (setRoom room) (id_setRoom _) := by
  cases first with
  | none => rfl
  | some r =>
    have hsame : (db.bookings.update b.id (setRoom r) (id_setRoom _)).update b.id (setRoom room)
        (id_setRoom _) = db.bookings.update b.id (setRoom room) (id_setRoom _) := by
      rw [Table.update_update]
      refine Table.update_congr fun v _ => ?_
      simp [setRoom, Function.comp_def]
    exact congrArg (fun t => { db with bookings := t }) hsame

theorem sameNights_assigned {b : Booking} {room : Option (Option UUID)} :
    SameNights (b.assigned room).lines b.lines := by
  cases room with
  | none => rfl
  | some r => exact sameNights_setRoom r b

@[simp] theorem id_assigned {b : Booking} {room : Option (Option UUID)} :
    (b.assigned room).id = b.id := by
  cases room <;> rfl

@[simp] theorem status_assigned {b : Booking} {room : Option (Option UUID)} :
    (b.assigned room).status = b.status := by
  cases room <;> rfl

@[simp] theorem propertyId_assigned {b : Booking} {room : Option (Option UUID)} :
    (b.assigned room).propertyId = b.propertyId := by
  cases room <;> rfl

@[simp] theorem guestId_assigned {b : Booking} {room : Option (Option UUID)} :
    (b.assigned room).guestId = b.guestId := by
  cases room <;> rfl

theorem sameElsewhere_assigned {bid : UUID} {room : Option (Option UUID)} :
    SameElsewhere bid db (db.assigned bid room) := by
  have hrefl : SameElsewhere bid db db := ⟨rfl, rfl, fun _ _ => rfl⟩
  cases room with
  | none => exact hrefl
  | some r => exact hrefl.update

/-- After a date change the requested room is assigned as it was after the dates alone,
where the lines may have had a room again. -/
theorem exec_assign_rebooked {stay : PricedStay} {prior : Option (Option UUID)}
    {charge : Option Money} {room : Option UUID} (hfind : db.bookings.find b.id = some b)
    (h : (assignBookingRoom b.id room).exec
      (((db.rebooked env b stay).assigned b.id prior).charged b.id charge) = (.ok (), db')) :
    (assignBookingRoom b.id room).exec (db.rebooked env b stay) =
        (.ok (), (db.rebooked env b stay).assigned b.id (some room)) ∧
      db' = ((db.rebooked env b stay).assigned b.id (some room)).charged b.id charge := by
  have hbooked := @find_rebooked env db b stay hfind
  obtain ⟨b₁, rt, hb₁, hactive, hrt, hpass, rfl⟩ := exec_assignBookingRoom_iff.mp h
  rw [bookings_charged, find_assigned hbooked] at hb₁
  cases hb₁
  constructor
  · refine exec_assignBookingRoom_iff.mpr ⟨_, rt, hbooked, ?_, ?_, fun rid hrid => ?_, rfl⟩
    · rwa [status_assigned] at hactive
    · rwa [sameNights_assigned.lineRoomTypes] at hrt
    · exact (sameElsewhere_assigned.charged).passes id_assigned propertyId_assigned
        sameNights_assigned.dates (hpass rid hrid)
  · rw [updateBooking_charged, update_assigned]
    rfl

/-- When the requests of dates and room go through, so do these parts of the one patch, up
to the room charge that it still has to flush. -/
theorem prepared_of_parts {w₁ w₂ : Option Money} {db₁ db₂ : Db}
    (hnotes : body.notes = none) (hfind : db.bookings.find b.id = some b)
    (h₁ : (patchBooking env b.id (datesPart body)).exec db = (.ok w₁, db₁))
    (h₂ : (patchBooking env b.id (roomPart body)).exec db₁ = (.ok w₂, db₂)) :
    ∃ pl b₁ db', Prepared env db b body pl b₁ db' ∧
      (patchDates env b body >>= patchRoomAssignment b.id body).exec db = (.ok pl, db') ∧
      db'.bookings.find b.id = some b₁ ∧
      (∀ amount ∈ pl.roomCharge, db'.TakesCharge b.id amount) ∧
      db₂ = db'.charged b.id pl.roomCharge := by
  obtain ⟨-, pl, dbx, hdates, htakes, rfl⟩ := exec_datesPart hfind h₁
  rcases (exec_patchDates_iff hfind).mp hdates with
    ⟨hkeeps, rfl, rfl⟩ | ⟨stay, ratePlan, hask, hplan, hbook, hrestore⟩
  · rw [keepsDates_datesPart] at hkeeps
    have hprogram : (patchDates env b body).exec dbx = (.ok (.ofBooking b), dbx) :=
      (exec_patchDates_iff hfind).mpr (.inl ⟨hkeeps, rfl, rfl⟩)
    have hlines : body.roomId ≠ none → b.lines ≠ [] := by
      intro hne hnil
      rcases exec_roomPart hfind h₂ with ⟨hroom, -⟩ | ⟨room, -, hassign⟩
      · exact hne hroom
      · obtain ⟨b₁, rt, hb₁, -, hrt, -⟩ := exec_assignBookingRoom_iff.mp hassign
        cases hfind.symm.trans hb₁
        rw [hnil] at hrt
        cases hrt
    refine ⟨_, _, _, .kept hkeeps hlines, exec_bind_ok.mpr ⟨_, _, hprogram, ?_⟩,
      find_assigned hfind, nofun, ?_⟩
    · rcases exec_roomPart hfind h₂ with ⟨hroom, -⟩ | ⟨room, hroom, hassign⟩
      · simp only [patchRoomAssignment, hroom]
        rfl
      · obtain ⟨_, _, _, _, _, _, rfl⟩ := exec_assignBookingRoom_iff.mp hassign
        simp only [patchRoomAssignment, hroom]
        exact exec_bind_ok.mpr ⟨(), _, hassign, rfl⟩
    · rcases exec_roomPart hfind h₂ with ⟨hroom, rfl⟩ | ⟨room, hroom, hassign⟩
      · rw [hroom]
        rfl
      · obtain ⟨_, _, _, _, _, _, rfl⟩ := exec_assignBookingRoom_iff.mp hassign
        rw [hroom]
        rfl
  · rw [asksFor_datesPart] at hask
    replace hbook : Rebooks env db b ratePlan stay body.notes := by
      rw [hnotes]
      exact hbook
    have hbooked := @find_rebooked env db b stay hfind
    have hprior : priorRoomToRestore b (datesPart body) = unifiedRoomId b.lines := if_pos rfl
    obtain ⟨rfl, rfl⟩ := exec_restoreRoom hbooked hrestore
    have hfind₁ : (((db.rebooked env b stay).assigned b.id
        ((priorRoomToRestore b (datesPart body)).map some)).charged b.id
          (some (posting env b.propertyId stay.total).1)).bookings.find b.id =
        some ((setLines stay b.ratePlanId b).assigned
          ((priorRoomToRestore b (datesPart body)).map some)) := by
      rw [bookings_charged]
      exact find_assigned hbooked
    have hmoved : ∀ {pl : PatchLines} {db' : Db}, (restoreRoom b.id
        (posting env b.propertyId stay.total).1 (priorRoomToRestore b body)).exec
          (db.rebooked env b stay) = (.ok pl, db') →
            (patchDates env b body).exec db = (.ok pl, db') :=
      fun h => (exec_patchDates_iff hfind).mpr (.inr ⟨stay, ratePlan, hask, hplan, hbook, h⟩)
    refine ⟨_, _, _, .moved stay ratePlan hask hplan hbook.rated, ?_, find_assigned hbooked,
      fun amount hamount => ?_, ?_⟩
    · rcases exec_roomPart hfind₁ h₂ with ⟨hroom, rfl⟩ | ⟨room, hroom, hassign⟩
      · have hafter : roomAfterMove b body = (unifiedRoomId b.lines).map some := by
          rw [roomAfterMove, hroom, Option.none_or]
        have hsame : priorRoomToRestore b body = unifiedRoomId b.lines := if_pos hroom
        rw [hprior, ← hsame] at hrestore
        refine exec_bind_ok.mpr ⟨_, _, hmoved hrestore, ?_⟩
        simp only [patchRoomAssignment, hroom, hafter, hsame]
        rfl
      · have hafter : roomAfterMove b body = some room := by
          rw [roomAfterMove, hroom, Option.some_or]
        have hnone : priorRoomToRestore b body = none := if_neg (by simp [hroom])
        obtain ⟨hassigned, -⟩ := exec_assign_rebooked hfind hassign
        have hdates' : (patchDates env b body).exec db =
            (.ok ⟨none, [], some (posting env b.propertyId stay.total).1⟩,
              db.rebooked env b stay) := by
          refine hmoved ?_
          rw [hnone]
          rfl
        have hreload := @find_assigned (db.rebooked env b stay) b _ (some room) hbooked
        refine exec_bind_ok.mpr ⟨_, _, hdates', ?_⟩
        simp only [patchRoomAssignment, hroom, hafter, exec_bind_ok, exec_select, exec_pure,
          Prod.mk.injEq, Except.ok.injEq]
        refine ⟨(), _, hassigned, _, _, ⟨rfl, rfl⟩, ?_, rfl⟩
        rw [hreload]
        rfl
    · have htake := htakes amount hamount
      rw [takesCharge_congr (congrArg (List.any · _) (folio_assigned ..))] at htake ⊢
      exact htake
    · rcases exec_roomPart hfind₁ h₂ with ⟨hroom, rfl⟩ | ⟨room, hroom, hassign⟩
      · have hafter : roomAfterMove b body = (unifiedRoomId b.lines).map some := by
          rw [roomAfterMove, hroom, Option.none_or]
        rw [hafter, hprior]
      · have hafter : roomAfterMove b body = some room := by
          rw [roomAfterMove, hroom, Option.some_or]
        rw [hafter]
        exact (exec_assign_rebooked hfind hassign).2

end Requests

/-! The status -/

section Finish
variable {env : Env} {db db' : Db} {b b₁ : Booking} {body : BookingPatchRequest} {pl : PatchLines}

/-- What follows dates and room in one patch. -/
def finishPatch (env : Env) (b : Booking) (body : BookingPatchRequest) (pl : PatchLines) :
    Tx (Option Money) := do
  let status ← patchStatus env b body pl
  let warning ← checkoutWarning b status pl
  flushRoomCharge b.id pl.roomCharge
  pure warning

theorem exec_combined (hbody : Combines body) (hfind : db.bookings.find b.id = some b)
    (hactive : b.status.Active) :
    (patchBooking env b.id body).exec db =
      ((patchDates env b body >>= patchRoomAssignment b.id body) >>=
        finishPatch env b body).exec db := by
  have hsame : { body with notes := none } = body := by
    rw [← hbody.notes]
  have hne : { body with notes := none } ≠ ({} : BookingPatchRequest) := by
    rw [hsame]
    exact hbody.asks
  have hinactive : checkInactive b body = pure () := if_pos hactive
  rw [exec_patchBooking_parts hfind hne hbody.status]
  simp only [hinactive, hbody.notes, patchNotes_absent, pure_bind, bind_assoc]
  rfl

theorem exec_statusPart (hcancel : cancels body = false) (hfind : db.bookings.find b.id = some b)
    (hactive : b.status.Active) :
    (patchBooking env b.id (statusPart body)).exec db =
      (finishPatch env b (statusPart body) (.ofBooking b)).exec db := by
  cases hstatus : body.status with
  | none =>
    have hempty : statusPart body = {} := by
      simp [statusPart, hstatus]
    have hnone : patchStatus env b {} (.ofBooking b) = pure b.status := rfl
    rw [hempty, finishPatch, hnone, pure_bind, checkoutWarning_same]
    rfl
  | some text =>
    have hne : { statusPart body with notes := none } ≠ ({} : BookingPatchRequest) := by
      intro heq
      have hnone := congrArg BookingPatchRequest.status heq
      simp [statusPart, hstatus] at hnone
    have hinactive : checkInactive b (statusPart body) = pure () := if_pos hactive
    have hdates : patchDates env b (statusPart body) = pure (.ofBooking b) := if_pos ⟨rfl, rfl⟩
    have hroom : ∀ pl, patchRoomAssignment b.id (statusPart body) pl = pure pl := fun _ => rfl
    have hnotes : patchNotes b (statusPart body).notes = pure () := rfl
    rw [exec_patchBooking_parts hfind hne hcancel]
    simp only [hinactive, hdates, hroom, hnotes, pure_bind]
    rfl

/-- The request checks the booking out. -/
def ChecksOut (b : Booking) (body : BookingPatchRequest) : Prop :=
  b.status ≠ .checkedOut ∧
    ∃ text, body.status = some (some text) ∧ normalizeBookingStatus text = "checked_out"

/-- The text of a status that the booking does not have yet leads to it, and no other does. -/
theorem becomes_iff {text : Option String} {s : BookingStatus}
    (hbody : body.status = some text) :
    ((BookingStatus.ofText (normalizeBookingStatus (statusText text))).getD b.status = s ∧
      b.status ≠ s) ↔
      b.status ≠ s ∧ ∃ t, body.status = some (some t) ∧ normalizeBookingStatus t = s.text := by
  constructor
  · rintro ⟨hnew, hne⟩
    refine ⟨hne, ?_⟩
    cases hof : BookingStatus.ofText (normalizeBookingStatus (statusText text)) with
    | none =>
      rw [hof] at hnew
      exact absurd hnew hne
    | some s' =>
      rw [hof, Option.getD_some] at hnew
      subst hnew
      cases text with
      | none =>
        have hnone : BookingStatus.ofText (normalizeBookingStatus (statusText none)) = none := by
          decide
        rw [hnone] at hof
        cases hof
      | some t => exact ⟨t, hbody, (BookingStatus.ofText_eq_some hof).symm⟩
  · rintro ⟨hne, t, ht, hnorm⟩
    rw [hbody] at ht
    cases ht
    rw [statusText, hnorm, BookingStatus.ofText_text]
    exact ⟨rfl, hne⟩

theorem checksOut_iff {text : Option String} (hbody : body.status = some text) :
    ((BookingStatus.ofText (normalizeBookingStatus (statusText text))).getD b.status =
      .checkedOut ∧ b.status ≠ .checkedOut) ↔ ChecksOut b body :=
  becomes_iff hbody

/-- The status alone runs as it does within the patch, as long as the lines that a no-show
releases are the same. -/
theorem patchStatus_parts (hid : b₁.id = b.id) (hstatus : b₁.status = b.status)
    (hproperty : b₁.propertyId = b.propertyId) (hguest : b₁.guestId = b.guestId)
    (hrelease : AsksForNoShow body → b.status = .confirmed →
      releaseLoaded pl.loaded = releaseBookingInventory b₁.lines) :
    patchStatus env b₁ (statusPart body) (.ofBooking b₁) = patchStatus env b body pl := by
  unfold patchStatus
  cases hbody : body.status with
  | none => simp only [statusPart, hbody, hstatus]
  | some text =>
    have hcheckin : checkinRequirements env b₁ = checkinRequirements env b := by
      unfold checkinRequirements
      rw [hguest, hproperty]
    simp only [statusPart, hbody, hid, hstatus, hcheckin, PatchLines.ofBooking]
    by_cases hnoShow : (BookingStatus.ofText (normalizeBookingStatus (statusText text))).getD
        b.status = .noShow ∧ b.status = .confirmed
    · have hask : AsksForNoShow body := by
        refine asksForNoShow_of_status hbody ?_
        rw [← hnoShow.2]
        exact hnoShow.1
      rw [hrelease hask hnoShow.2]
      rfl
    · simp only [runIf, hnoShow, if_false]

/-- A status change leaves folio and rooms as they are, and expired lines stop a no-show. -/
theorem exec_patchStatus_ok {s : BookingStatus}
    (h : (patchStatus env b body pl).exec db = (.ok s, db')) :
    db'.folio = db.folio ∧ db'.rooms = db.rooms ∧
      ((s = .checkedOut ∧ b.status ≠ .checkedOut) ↔ ChecksOut b body) ∧
      (AsksForNoShow body → b.status = .confirmed → pl.loaded ≠ none) := by
  unfold patchStatus at h
  split at h
  · next hbody =>
    cases h
    refine ⟨rfl, rfl, iff_of_false (fun hand => hand.2 hand.1) ?_, ?_⟩
    · rintro ⟨-, text, hsome, -⟩
      rw [hbody] at hsome
      cases hsome
    · rintro ⟨text, hsome, -⟩
      rw [hbody] at hsome
      cases hsome
  · next text hbody =>
    simp only [exec_bind_ok, exec_runIf_ok, exec_pure, Prod.mk.injEq, Except.ok.injEq] at h
    obtain ⟨_, db₁, hcheck, _, db₂, hreq, _, db₃, hrel, _, db₄, hupd, rfl, rfl⟩ := h
    obtain ⟨rfl, -⟩ := exec_checkTransition_ok hcheck
    have hdb₂ : db = db₂ := by
      rcases hreq with ⟨-, hreq⟩ | ⟨-, hreq⟩
      · exact exec_checkinRequirements_ok hreq
      · exact hreq
    subst hdb₂
    have hreleased : db₃.folio = db.folio ∧ db₃.rooms = db.rooms := by
      rcases hrel with ⟨-, hrel⟩ | ⟨-, rfl⟩
      · cases hloaded : pl.loaded with
        | none =>
          rw [hloaded] at hrel
          cases hrel
        | some lines =>
          rw [hloaded] at hrel
          rcases exec_release_cases hrel with rfl | ⟨rt, -, -, rfl⟩
          · exact ⟨rfl, rfl⟩
          · exact ⟨rfl, rfl⟩
      · exact ⟨rfl, rfl⟩
    have hupdated : db₄.folio = db₃.folio ∧ db₄.rooms = db₃.rooms := by
      rcases hupd with ⟨-, hupd⟩ | ⟨-, rfl⟩
      · obtain ⟨-, rfl⟩ := exec_updateBookingRow_ok.mp hupd
        exact ⟨rfl, rfl⟩
      · exact ⟨rfl, rfl⟩
    refine ⟨hupdated.1.trans hreleased.1, hupdated.2.trans hreleased.2, checksOut_iff hbody, ?_⟩
    rintro ⟨t, ht, hnorm⟩ hconf hloaded
    rw [hbody] at ht
    cases ht
    rcases hrel with ⟨-, hrel⟩ | ⟨hnot, -⟩
    · rw [hloaded] at hrel
      cases hrel
    · refine hnot ⟨?_, hconf⟩
      rw [statusText, hnorm]
      rfl

end Finish

end OpenPms
