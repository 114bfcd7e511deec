import OpenPms.BookingService

/-!
Which errors each statement of the booking services can raise. Every lemma takes the
property to be shown for the errors that occur, so one set of lemmas answers both
which errors a handler sees and which branches are never taken.
-/
namespace OpenPms

open Transaction Prog

variable {P : Err → Prop}

/-! Inventory -/

theorem raises_lockAndValidate {rt : UUID} {nights : List ℤ} {n : ℤ}
    (hinv : ∀ e, InventoryError e → P e) : Raises P (lockAndValidateAvailability rt nights n) :=
  fun _ e _ h => hinv e (exec_lockAndValidate_error h)

theorem raises_decrement {rows : List AvailabilityLedger} {delta : ℤ}
    (hinv : ∀ e, InventoryError e → P e) : Raises P (decrementBookedRooms rows delta) :=
  fun _ e _ h => hinv e (exec_decrementBookedRooms_error h)

theorem raises_increment {rows : List AvailabilityLedger} {delta : ℤ} :
    Raises P (incrementBookedRooms rows delta) := by
  intro db e db' h
  rw [exec_incrementBookedRooms] at h
  cases h

theorem raises_claim {rt : UUID} {nights : List ℤ} (hinv : ∀ e, InventoryError e → P e) :
    Raises P (claimAvailabilityForNewBooking rt nights 1) := by
  have hseed : P notSeeded := hinv _ (.inr ⟨_, rfl⟩)
  unfold claimAvailabilityForNewBooking
  split
  · exact raises_pure _
  · refine raises_bind (raises_raiseIf hseed) fun _ => raises_bind (raises_select _) fun _ =>
      raises_bind (raises_raiseIf hseed) fun _ => raises_bind ?_ fun _ =>
        raises_bind raises_increment fun _ => raises_raiseIf (hinv _ (.inl ⟨_, rfl⟩))
    intro db e db' h
    rw [exec_selectLedgerForUpdate] at h
    cases h

theorem raises_release {lines : List BookingLine} (hinv : ∀ e, InventoryError e → P e) :
    Raises P (releaseBookingInventory lines) := by
  unfold releaseBookingInventory
  split
  · exact raises_bind (raises_lockAndValidate hinv) fun _ => raises_decrement hinv
  · exact raises_pure _

/-! Rows -/

theorem raises_updateBookingRow {bid : UUID} {f : Booking → Booking} {hf : ∀ b, (f b).id = b.id}
    (hstale : P .staleData) : Raises P (updateBookingRow bid f hf) :=
  raises_bind (raises_acquire _) fun _ => raises_bind (raises_select _) fun _ =>
    raises_bind (raises_raiseIf hstale) fun _ => raises_modify _

theorem raises_flushLines {bid : UUID} {lines : List BookingLine} (hdata : P .dataError)
    (hkey : P .integrityError) : Raises P (flushLines bid lines) :=
  raises_bind (raises_raiseIf hdata) fun _ => raises_bind (raises_select _) fun _ =>
    raises_bind (raises_raiseIf hkey) fun _ => raises_modify _

theorem raises_folioCharge {bid : UUID} {amount : Money} (hdata : P .dataError) :
    Raises P (updateFolioChargeAmount bid amount) :=
  raises_bind (raises_select _) fun _ => raises_bind (raises_raiseIf hdata) fun _ =>
    raises_modify _

theorem raises_replaceTaxes {env : Env} {bid propertyId : UUID} {base : Money}
    (hdata : P .dataError) (htax : ∀ e, TaxError e → P e)
    (hfolio : P (.folio "booking not found" 404)) :
    Raises P (replaceCountryPackTaxCharges env bid propertyId base) := by
  refine raises_bind (raises_bind (raises_select _) fun _ => raises_raiseIf hfolio) fun _ =>
    raises_bind (raises_modify _) fun _ =>
      raises_bind (raises_ofExcept fun e he => htax e (taxPosting_error he)) fun posting => ?_
  cases posting with
  | none => exact raises_pure _
  | some q =>
    exact raises_bind (raises_raiseIf hdata) fun _ => raises_bind (raises_modify _) fun _ =>
      raises_pure _

theorem raises_insertRows {env : Env} {b : Booking} {rt : UUID} {perNight : List (ℤ × Money)}
    {description : String} (hdata : P .dataError) (hkey : P .integrityError)
    (htax : ∀ e, TaxError e → P e) (hfolio : P (.folio "booking not found" 404)) :
    Raises P (insertRows env b rt perNight description) := by
  refine raises_bind ?_ fun _ => raises_bind (raises_flushLines hdata hkey) fun _ =>
    raises_bind (raises_modify _) fun _ =>
      raises_bind (raises_replaceTaxes hdata htax hfolio) fun _ => raises_folioCharge hdata
  exact raises_bind (raises_raiseIf hdata) fun _ => raises_bind (raises_select _) fun _ =>
    raises_bind (raises_raiseIf hkey) fun _ => raises_modify _

theorem raises_rebuildLines {env : Env} {b : Booking} {rt : UUID} {total : Money}
    {perNight : List (ℤ × Money)} {notes : Option (Option String)} (hdata : P .dataError)
    (hkey : P .integrityError) (hstale : P .staleData) (htax : ∀ e, TaxError e → P e)
    (hfolio : P (.folio "booking not found" 404)) :
    Raises P (rebuildLines env b rt total perNight notes) := by
  have htotal : Raises P (updateTotal b total) := by
    refine raises_bind (raises_raiseIf hdata) fun _ => ?_
    split
    · exact raises_pure _
    · exact raises_updateBookingRow hstale
  exact raises_bind (raises_modify _) fun _ => raises_bind (raises_raiseIf hdata) fun _ =>
    raises_bind htotal fun _ => raises_bind (raises_flushLines hdata hkey) fun _ =>
      raises_bind (raises_folioCharge hdata) fun _ => raises_replaceTaxes hdata htax hfolio

theorem raises_getOrCreateGuest {env : Env} {payload : GuestPayload} {force : Bool}
    (hconflict : P .guestConflict) (hcontext : ∀ message, P (.invalidBookingContext message)) :
    Raises P (getOrCreateGuestForBooking env payload force) := by
  have hflush : ∀ guest, Raises P (flushGuest guest) := by
    intro guest
    refine raises_bind (raises_select _) fun clash => ?_
    split
    · exact raises_pure _
    · exact raises_bind (raises_modify _) fun _ => raises_pure _
  unfold getOrCreateGuestForBooking
  split
  · exact raises_bind (hflush _) fun _ => raises_bind (raises_raiseIf hconflict) fun _ =>
      raises_pure _
  · refine raises_bind (raises_select _) fun existing => ?_
    split
    · exact raises_pure _
    · refine raises_bind (hflush _) fun inserted => ?_
      split
      · exact raises_pure _
      · refine raises_bind (raises_select _) fun again => ?_
        split
        · exact raises_pure _
        · exact raises_raise (hcontext _)

theorem raises_patchNotes {b : Booking} {notes : Option (Option String)} (hdata : P .dataError)
    (hstale : P .staleData) : Raises P (patchNotes b notes) := by
  refine raises_bind (raises_raiseIf hdata) fun _ => ?_
  split
  · exact raises_pure _
  · split
    · exact raises_pure _
    · exact raises_updateBookingRow hstale

theorem raises_stayNights {checkIn checkOut : ℤ} (hvalue : ∀ message, P (.valueError message)) :
    Raises P (stayNights checkIn checkOut) := by
  refine raises_ofExcept fun e he => ?_
  cases hiter : iterStayNights checkIn checkOut with
  | ok nights =>
    rw [hiter] at he
    cases he
  | error message =>
    rw [hiter] at he
    cases he
    exact hvalue message

theorem raises_sumRates {rt ratePlan : UUID} {checkIn checkOut : ℤ}
    (hvalue : ∀ message, P (.valueError message)) (hmissing : ∀ dates, P (.missingRates dates)) :
    Raises P (sumRatesForStay rt ratePlan checkIn checkOut) :=
  raises_bind (raises_stayNights hvalue) fun _ => raises_bind (raises_select _) fun _ =>
    raises_bind (raises_raiseIf (hmissing _)) fun _ => raises_pure _

theorem raises_rebookNights {env : Env} {b : Booking} {ratePlan rt : UUID} {ci co : ℤ}
    (hinv : ∀ e, InventoryError e → P e) (hvalue : ∀ message, P (.valueError message))
    (hmissing : ∀ dates, P (.patchBooking (.missingRates dates) 422)) (hdata : P .dataError)
    (hkey : P .integrityError) (hstale : P .staleData) (htax : ∀ e, TaxError e → P e)
    (hfolio : P (.folio "booking not found" 404)) {notes : Option (Option String)} :
    Raises P (rebookNights env b ratePlan rt ci co notes) := by
  have hsum : Raises (fun e => P e ∨ ∃ dates, e = .missingRates dates)
      (sumRatesForStay rt ratePlan ci co) :=
    raises_sumRates (fun message => .inl (hvalue message)) fun dates => .inr ⟨dates, rfl⟩
  refine raises_bind (raises_lockAndValidate hinv) fun _ =>
    raises_bind (raises_decrement hinv) fun _ => raises_bind (raises_tryCatch hsum ?_) fun _ =>
      raises_bind (raises_stayNights hvalue) fun _ =>
        raises_bind (raises_lockAndValidate hinv) fun _ => raises_bind raises_increment fun _ =>
          raises_rebuildLines hdata hkey hstale htax hfolio
  intro e he
  split
  · exact raises_raise (hmissing _)
  · next hother =>
    rcases he with he | ⟨dates, rfl⟩
    · exact raises_raise he
    · exact absurd rfl (hother dates)

/-! Status -/

theorem raises_checkTransition {old : BookingStatus} {target : String}
    (hrefused : ∀ e, P (.patchBooking (.transition e) 409)) :
    Raises P (checkTransition old target) := by
  refine raises_ofExcept fun e he => ?_
  cases hvalid : validateStatusTransition old.text target with
  | ok u =>
    rw [hvalid] at he
    cases he
  | error e' =>
    rw [hvalid] at he
    cases he
    exact hrefused e'

theorem raises_patchStatus {env : Env} {b : Booking} {body : BookingPatchRequest}
    {pl : PatchLines} (hinv : ∀ e, InventoryError e → P e)
    (hrefused : ∀ e, P (.patchBooking (.transition e) 409))
    (hguest : P (.patchBooking (.text "guest not found") 404))
    (hcheckin : ∀ text, P (.patchBooking (.text text) 400)) (hgreenlet : P .missingGreenlet)
    (hstale : P .staleData) : Raises P (patchStatus env b body pl) := by
  unfold patchStatus
  split
  · exact raises_pure _
  · refine raises_bind (raises_checkTransition hrefused) fun _ =>
      raises_bind (raises_runIf ?_) fun _ => raises_bind (raises_runIf ?_) fun _ =>
        raises_bind (raises_runIf (raises_updateBookingRow hstale)) fun _ => raises_pure _
    · refine raises_bind (raises_select _) fun guest => ?_
      cases guest with
      | none => exact raises_raise hguest
      | some g => exact raises_raiseIf (hcheckin _)
    · unfold releaseLoaded
      split
      · exact raises_raise hgreenlet
      · exact raises_release hinv

theorem raises_patchCancel {b : Booking} (hinv : ∀ e, InventoryError e → P e)
    (hrefused : ∀ e, P (.patchBooking (.transition e) 409)) (hstale : P .staleData) :
    Raises P (patchCancel b) := by
  unfold patchCancel
  split
  · exact raises_bind (raises_checkTransition hrefused) fun _ =>
      raises_bind (raises_release hinv) fun _ => raises_updateBookingRow hstale
  · exact raises_pure _

theorem raises_checkInactive {b : Booking} {body : BookingPatchRequest}
    (hrefused : ∀ e, P (.patchBooking (.transition e) 409))
    (hinactive : P (.patchBooking
      (.text "cannot change stay dates or room on an inactive booking") 409)) :
    Raises P (checkInactive b body) := by
  unfold checkInactive
  split
  · exact raises_pure _
  · refine raises_bind ?_ fun _ => raises_raiseIf hinactive
    unfold checkRequestedTransition
    split
    · exact raises_pure _
    · exact raises_checkTransition hrefused

/-! Rooms -/

theorem raises_assertNoRoomConflict {room : UUID} {nights : List ℤ} {exclude : UUID}
    (hused : P (.assignBookingRoom
      "room is already used by another active booking on overlapping nights" 409)) :
    Raises P (assertNoRoomConflict room nights exclude) := by
  unfold assertNoRoomConflict
  split
  · exact raises_pure _
  · exact raises_bind (raises_select _) fun _ => raises_raiseIf hused

/-- A conflict is passed over, and there is no other error. -/
theorem raises_firstFreeRoom {nights : List ℤ} {exclude : UUID} {rooms : List Room} :
    Raises P (firstFreeRoom nights exclude rooms) := by
  induction rooms with
  | nil => exact raises_pure _
  | cons room rest ih =>
    have hconflict : Raises (fun e => ∃ detail code, e = .assignBookingRoom detail code)
        (assertNoRoomConflict room.id nights exclude >>= fun _ =>
          (pure (some room.id) : Tx (Option UUID))) :=
      raises_bind (raises_assertNoRoomConflict ⟨_, _, rfl⟩) fun _ => raises_pure _
    refine raises_tryCatch hconflict ?_
    rintro e ⟨detail, code, rfl⟩
    exact ih

theorem raises_pickFirstFreeRoom {propertyId rt : UUID} {nights : List ℤ} {exclude : UUID} :
    Raises P (pickFirstFreeRoomForStay propertyId rt nights exclude) := by
  unfold pickFirstFreeRoomForStay
  split
  · exact raises_pure _
  · exact raises_bind (raises_select _) fun _ => raises_firstFreeRoom

theorem raises_assignRoomOfType {bid : UUID} {b : Booking} {rt : UUID} {roomId : Option UUID}
    (hmissing : P (.assignBookingRoom "room not found" 404))
    (htype : P (.assignBookingRoom "room category does not match booking" 409))
    (hproperty : P (.assignBookingRoom "room is not on the same property as the booking" 409))
    (hused : P (.assignBookingRoom
      "room is already used by another active booking on overlapping nights" 409)) :
    Raises P (assignRoomOfType bid b rt roomId) := by
  cases roomId with
  | none => exact raises_modify _
  | some rid =>
    refine raises_bind (raises_select _) fun room => ?_
    cases room with
    | none => exact raises_raise hmissing
    | some room =>
      exact raises_bind (raises_raiseIf htype) fun _ => raises_bind (raises_select _) fun _ =>
        raises_bind (raises_raiseIf hproperty) fun _ =>
          raises_bind (raises_assertNoRoomConflict hused) fun _ => raises_modify _

theorem raises_assignBookingRoom {bid : UUID} {roomId : Option UUID}
    (hassign : ∀ detail code, P (.assignBookingRoom detail code)) :
    Raises P (assignBookingRoom bid roomId) := by
  refine raises_bind (raises_select _) fun found => ?_
  cases found with
  | none => exact raises_raise (hassign _ _)
  | some booking =>
    refine raises_bind (raises_raiseIf (hassign _ _)) fun _ =>
      raises_bind (raises_raiseIf (hassign _ _)) fun _ => ?_
    split
    · exact raises_assignRoomOfType (hassign _ _) (hassign _ _) (hassign _ _) (hassign _ _)
    · exact raises_raise (hassign _ _)

end OpenPms
