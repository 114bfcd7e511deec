import OpenPms.CombinedPatch

/-!
What the parts of a patch need to go through: the dates, the room and the status, and at the
end the columns, which take the notes and the room charge that new dates have left.
-/
namespace OpenPms

open KeyedTable Transaction Prog Hotel

section Passes
variable {db db' : Db} {env : Env} {b b₁ : Booking} {body : BookingPatchRequest} {pl : PatchLines}

/-! The room -/

/-- The booking is active and of one room type, and the room passes. -/
structure Assigns (db : Db) (b : Booking) (room : Option UUID) : Prop where
  active : b.status.Active
  passes : ∃ rt, lineRoomTypes b.lines = [rt] ∧ ∀ rid ∈ room, RoomPasses db b rt rid

theorem exec_assign_iff {room : Option UUID} {u : Unit}
    (hfind : db.bookings.find b.id = some b₁) :
    (assignBookingRoom b.id room).exec db = (.ok u, db') ↔
      Assigns db b₁ room ∧ db' = db.assigned b.id (some room) := by
  rw [exec_assignBookingRoom_iff]
  constructor
  · rintro ⟨b₂, rt, hb₂, hactive, hrt, hpass, rfl⟩
    cases hfind.symm.trans hb₂
    exact ⟨⟨hactive, rt, hrt, hpass⟩, rfl⟩
  · rintro ⟨⟨hactive, rt, hrt, hpass⟩, rfl⟩
    exact ⟨b₁, rt, hfind, hactive, hrt, hpass, rfl⟩

/-- What is read of other bookings and of rooms is as it was. -/
theorem SameElsewhere.assigns {room : Option UUID} (h : SameElsewhere b.id db db') :
    Assigns db' b room ↔ Assigns db b room := by
  have hback : SameElsewhere b.id db' db :=
    ⟨h.rooms.symm, h.roomTypes.symm, fun id hne => (h.others id hne).symm⟩
  constructor
  · rintro ⟨hactive, rt, hrt, hpass⟩
    exact ⟨hactive, rt, hrt, fun rid hrid => h.passes rfl rfl rfl (hpass rid hrid)⟩
  · rintro ⟨hactive, rt, hrt, hpass⟩
    exact ⟨hactive, rt, hrt, fun rid hrid => hback.passes rfl rfl rfl (hpass rid hrid)⟩

theorem sameElsewhere_rebooked {stay : PricedStay} :
    SameElsewhere b.id db (db.rebooked env b stay) := by
  refine ⟨rfl, rfl, fun id hne => ?_⟩
  show (db.bookings.update b.id (setLines stay b.ratePlanId) (id_setLines _ _)).find id = _
  exact Table.find_update_of_ne hne

/-! The dates and the room -/

/-- The lines as the session knows them after new dates, and the room charge that is set. -/
def movedLines (env : Env) (b : Booking) (body : BookingPatchRequest) (stay : PricedStay) :
    PatchLines :=
  ⟨(roomAfterMove b body).map fun room => (setRoom room (setLines stay b.ratePlanId b)).lines, [],
    some (posting env b.propertyId stay.total).1⟩

theorem exec_patchRoom_iff (hfind : db.bookings.find b.id = some b₁) {pl' : PatchLines} :
    (patchRoomAssignment b.id body pl).exec db = (.ok pl', db') ↔
      (∀ room, body.roomId = some room → Assigns db b₁ room) ∧
        pl' = { pl with
          loaded := pl.loaded.or (body.roomId.map fun room => (setRoom room b₁).lines) } ∧
        db' = db.assigned b.id body.roomId := by
  cases hroom : body.roomId with
  | none =>
    have hsame : { pl with loaded := pl.loaded.or none } = pl := by rw [Option.or_none]
    simp only [patchRoomAssignment, hroom, exec_pure, Prod.mk.injEq, Except.ok.injEq, Db.assigned,
      Option.map_none, hsame, reduceCtorEq, false_imp_iff, implies_true, true_and]
    exact and_congr eq_comm eq_comm
  | some room =>
    simp only [patchRoomAssignment, hroom, exec_bind_ok, exec_assign_iff hfind,
      Option.some.injEq, forall_eq']
    have hload : (db.assigned b.id (some room)).bookings.find b.id = some (setRoom room b₁) :=
      find_assigned hfind
    constructor
    · rintro ⟨_, _, ⟨hassign, rfl⟩, h⟩
      cases hloaded : pl.loaded with
      | some lines =>
        simp only [hloaded, exec_pure, Prod.mk.injEq, Except.ok.injEq] at h
        obtain ⟨rfl, rfl⟩ := h
        exact ⟨hassign, by rw [Option.some_or, ← hloaded], rfl⟩
      | none =>
        simp only [hloaded, exec_bind_ok, exec_select, exec_pure, Prod.mk.injEq,
          Except.ok.injEq, hload] at h
        obtain ⟨_, _, ⟨rfl, rfl⟩, rfl, rfl⟩ := h
        exact ⟨hassign, rfl, rfl⟩
    · rintro ⟨hassign, rfl, rfl⟩
      refine ⟨(), _, ⟨hassign, rfl⟩, ?_⟩
      cases hloaded : pl.loaded with
      | some lines =>
        simp only [exec_pure, Option.some_or]
        rw [← hloaded]
      | none =>
        simp only [exec_bind_ok, exec_select, exec_pure, Prod.mk.injEq, Except.ok.injEq, hload]
        exact ⟨_, _, ⟨rfl, rfl⟩, rfl, rfl⟩

theorem exec_restoreRoom_iff {charge : Money} {room : Option UUID}
    (hfind : db.bookings.find b.id = some b₁) :
    (restoreRoom b.id charge room).exec db = (.ok pl, db') ↔
      (∀ rid, room = some rid → Assigns db b₁ (some rid)) ∧
        pl = ⟨(room.map some).map fun r => (setRoom r b₁).lines, [], some charge⟩ ∧
        db' = db.assigned b.id (room.map some) := by
  constructor
  · intro h
    refine ⟨?_, exec_restoreRoom hfind h⟩
    rintro rid rfl
    obtain ⟨_, db₂, hassign, -⟩ := exec_bind_ok.mp h
    exact ((exec_assign_iff hfind).mp hassign).1
  · rintro ⟨hassign, rfl, rfl⟩
    cases room with
    | none => rfl
    | some rid =>
      have hload : (db.assigned b.id (some (some rid))).bookings.find b.id =
          some (setRoom (some rid) b₁) := find_assigned hfind
      refine exec_bind_ok.mpr ⟨(), _, (exec_assign_iff hfind).mpr ⟨hassign rid rfl, rfl⟩, ?_⟩
      simp only [exec_bind_ok, exec_select, exec_pure, Prod.mk.injEq, Except.ok.injEq, hload]
      exact ⟨_, _, ⟨rfl, rfl⟩, rfl, rfl⟩

theorem roomAfterMove_of_room {room : Option UUID} (h : body.roomId = some room) :
    roomAfterMove b body = some room ∧ priorRoomToRestore b body = none :=
  ⟨by rw [roomAfterMove, h, Option.some_or], if_neg (by simp [h])⟩

theorem roomAfterMove_of_absent (h : body.roomId = none) :
    roomAfterMove b body = (priorRoomToRestore b body).map some := by
  rw [roomAfterMove, h, Option.none_or, priorRoomToRestore, if_pos h]

/-- Dates and room go through when the dates are kept or the booking is moved, and the room
can be assigned: the requested one, or after a move the one that all lines had. -/
theorem exec_datesAndRoom_iff (hfind : db.bookings.find b.id = some b) :
    (patchDates env b body >>= patchRoomAssignment b.id body).exec db = (.ok pl, db') ↔
      (KeepsDates b body ∧ (∀ room, body.roomId = some room → Assigns db b room) ∧
        pl = .ofBooking b ∧ db' = db.assigned b.id body.roomId) ∨
      ∃ stay ratePlan, AsksFor b body stay ∧ b.ratePlanId = some ratePlan ∧
        Rebooks env db b ratePlan stay body.notes ∧
        (∀ room, roomAfterMove b body = some room →
          Assigns db (setLines stay b.ratePlanId b) room) ∧
        pl = movedLines env b body stay ∧
        db' = (db.rebooked env b stay).assigned b.id (roomAfterMove b body) := by
  have hmoved : ∀ stay, (db.rebooked env b stay).bookings.find b.id =
      some (setLines stay b.ratePlanId b) := fun _ => find_rebooked hfind
  have hassigns : ∀ stay room, Assigns (db.rebooked env b stay) (setLines stay b.ratePlanId b)
      room ↔ Assigns db (setLines stay b.ratePlanId b) room := by
    intro stay room
    have hsame : SameElsewhere (setLines stay b.ratePlanId b).id db (db.rebooked env b stay) :=
      sameElsewhere_rebooked (b := b)
    exact hsame.assigns
  rw [exec_bind_ok]
  constructor
  · rintro ⟨pl₁, db₁, hdates, hroom⟩
    rcases (exec_patchDates_iff hfind).mp hdates with ⟨hkeeps, rfl, rfl⟩ |
      ⟨stay, ratePlan, hask, hplan, hbook, hrestore⟩
    · obtain ⟨hassign, rfl, rfl⟩ := (exec_patchRoom_iff hfind).mp hroom
      exact .inl ⟨hkeeps, hassign, rfl, rfl⟩
    · obtain ⟨hprior, rfl, rfl⟩ := (exec_restoreRoom_iff (hmoved stay)).mp hrestore
      refine .inr ⟨stay, ratePlan, hask, hplan, hbook, ?_⟩
      cases hroomId : body.roomId with
      | none =>
        have hafter := roomAfterMove_of_absent (b := b) hroomId
        rw [patchRoomAssignment, hroomId] at hroom
        cases hroom
        rw [movedLines, hafter]
        refine ⟨fun room hsome => ?_, rfl, rfl⟩
        obtain ⟨rid, hrid, rfl⟩ := Option.map_eq_some_iff.mp hsome
        exact (hassigns stay _).mp (hprior rid hrid)
      | some room =>
        obtain ⟨hafter, hnone⟩ := roomAfterMove_of_room (b := b) hroomId
        rw [hnone] at hroom
        obtain ⟨hassign, rfl, rfl⟩ := (exec_patchRoom_iff (hmoved stay)).mp hroom
        rw [movedLines, hafter, hroomId]
        refine ⟨fun room' hsome => ?_, rfl, rfl⟩
        cases hsome
        exact (hassigns stay _).mp (hassign room hroomId)
  · rintro (⟨hkeeps, hassign, rfl, rfl⟩ | ⟨stay, ratePlan, hask, hplan, hbook, hassign, rfl, rfl⟩)
    · exact ⟨_, _, (exec_patchDates_iff hfind).mpr (.inl ⟨hkeeps, rfl, rfl⟩),
        (exec_patchRoom_iff hfind).mpr ⟨hassign, rfl, rfl⟩⟩
    · have hdates : ∀ {pl₁ db₁}, (restoreRoom b.id (posting env b.propertyId stay.total).1
          (priorRoomToRestore b body)).exec (db.rebooked env b stay) = (.ok pl₁, db₁) →
          (patchDates env b body).exec db = (.ok pl₁, db₁) := fun hrestore =>
        (exec_patchDates_iff hfind).mpr (.inr ⟨stay, ratePlan, hask, hplan, hbook, hrestore⟩)
      cases hroomId : body.roomId with
      | none =>
        have hafter := roomAfterMove_of_absent (b := b) hroomId
        rw [hafter] at hassign
        rw [movedLines, hafter]
        refine ⟨_, _, hdates ((exec_restoreRoom_iff (hmoved stay)).mpr
          ⟨fun rid hrid => ?_, rfl, rfl⟩), ?_⟩
        · exact (hassigns stay _).mpr (hassign _ (by rw [hrid]; rfl))
        · rw [patchRoomAssignment, hroomId]
          rfl
      | some room =>
        obtain ⟨hafter, hnone⟩ := roomAfterMove_of_room (b := b) hroomId
        rw [hnone] at hdates
        refine ⟨_, _, hdates rfl, (exec_patchRoom_iff (hmoved stay)).mpr ⟨?_, ?_, ?_⟩⟩
        · intro room' hsome
          exact (hassigns stay _).mpr (hassign room' (by rw [hafter, ← hroomId, hsome]))
        · rw [movedLines, hafter, hroomId]
          rfl
        · rw [hafter, hroomId]

/-! The status -/

/-- The nights of lines of one room type can be given back. -/
def Ledger.GivesBack (l : Ledger) (lines : List BookingLine) : Prop :=
  ∀ rt, lineRoomTypes lines = [rt] → l.Releasable rt (lines.map (·.date))

theorem exec_release_iff {lines : List BookingLine} :
    (∃ u db', (releaseBookingInventory lines).exec db = (.ok u, db')) ↔
      db.ledger.GivesBack lines := by
  by_cases hsingle : ∃ rt, lineRoomTypes lines = [rt]
  · obtain ⟨rt, hrt⟩ := hsingle
    have hone : db.ledger.GivesBack lines ↔ db.ledger.Releasable rt (lines.map (·.date)) := by
      simp [Ledger.GivesBack, hrt]
    simp [exec_release_ok hrt, hone]
  · refine iff_of_true ⟨(), db, ?_⟩ fun rt hrt => absurd ⟨rt, hrt⟩ hsingle
    unfold releaseBookingInventory
    split
    · next rt hrt => exact absurd ⟨rt, hrt⟩ hsingle
    · rfl

/-- The request checks the guest in. -/
def ChecksIn (b : Booking) (body : BookingPatchRequest) : Prop :=
  b.status ≠ .checkedIn ∧
    ∃ text, body.status = some (some text) ∧ normalizeBookingStatus text = "checked_in"

/-- The requested status goes through: the transition is allowed, who checks in is a guest
that meets the requirements, and what a no-show gives back is loaded and can be. -/
structure StatusPasses (env : Env) (db : Db) (l : Ledger) (b : Booking)
    (body : BookingPatchRequest) (loaded : Option (List BookingLine)) : Prop where
  transition : ∀ text, body.status = some text →
    validateStatusTransition b.status.text (normalizeBookingStatus (statusText text)) = .ok ()
  checkIn : ChecksIn b body → ∃ g, db.guests.find b.guestId = some g ∧
    env.checkinMessages b.propertyId g = []
  noShow : AsksForNoShow body → b.status = .confirmed → ∃ lines, loaded = some lines ∧
    l.GivesBack lines

theorem exec_checkTransition_iff {old : BookingStatus} {target : String} {u : Unit} :
    (checkTransition old target).exec db = (.ok u, db') ↔
      validateStatusTransition old.text target = .ok () ∧ db' = db := by
  have hmap : (validateStatusTransition old.text target).mapError
      (fun e => Err.patchBooking (.transition e) 409) = .ok u ↔
        validateStatusTransition old.text target = .ok () := by
    cases validateStatusTransition old.text target <;> simp [Except.mapError]
  rw [checkTransition, exec_ofExcept_ok, hmap]
  exact and_congr_right fun _ => eq_comm

theorem exec_checkinRequirements_iff {u : Unit} :
    (checkinRequirements env b).exec db = (.ok u, db') ↔
      (∃ g, db.guests.find b.guestId = some g ∧ env.checkinMessages b.propertyId g = []) ∧
        db' = db := by
  rw [checkinRequirements, exec_bind, exec_select]
  cases hguest : db.guests.find b.guestId with
  | none => simp [exec_raise]
  | some g => simp [exec_raiseIf_ok, eq_comm (a := db)]

theorem checksIn_iff {text : Option String} (hbody : body.status = some text) :
    ((BookingStatus.ofText (normalizeBookingStatus (statusText text))).getD b.status =
      .checkedIn ∧ b.status ≠ .checkedIn) ↔ ChecksIn b body :=
  becomes_iff hbody

theorem noShow_iff {text : Option String} (hbody : body.status = some text)
    (hconf : b.status = .confirmed) :
    (BookingStatus.ofText (normalizeBookingStatus (statusText text))).getD b.status = .noShow ↔
      AsksForNoShow body := by
  constructor
  · intro hnew
    rw [hconf] at hnew
    exact asksForNoShow_of_status hbody hnew
  · rintro ⟨t, ht, hnorm⟩
    cases hbody.symm.trans ht
    rw [statusText, hnorm]
    rfl

theorem exec_patchStatus_iff (hfind : db.bookings.find b.id = some b₁) :
    (∃ s db', (patchStatus env b body pl).exec db = (.ok s, db')) ↔
      StatusPasses env db db.ledger b body pl.loaded := by
  unfold patchStatus
  cases hbody : body.status with
  | none =>
    refine iff_of_true ⟨_, _, rfl⟩ ⟨?_, ?_, ?_⟩
    · intro text hsome
      rw [hbody] at hsome
      cases hsome
    · rintro ⟨-, text, hsome, -⟩
      rw [hbody] at hsome
      cases hsome
    · rintro ⟨text, hsome, -⟩
      rw [hbody] at hsome
      cases hsome
  | some text =>
    simp only [exec_bind_ok, exec_runIf_ok, exec_checkTransition_iff,
      exec_checkinRequirements_iff, checksIn_iff hbody]
    constructor
    · rintro ⟨s, db', _, db₀, ⟨hvalid, hdb⟩, _, db₁, hreq, _, db₂, hrel, -⟩
      rw [hdb] at hreq
      have hdb₁ : db₁ = db := by
        rcases hreq with ⟨-, -, hsame⟩ | ⟨-, hsame⟩
        · exact hsame
        · exact hsame.symm
      rw [hdb₁] at hrel
      refine ⟨fun t ht => ?_, fun hin => ?_, fun hask hconf => ?_⟩
      · cases hbody.symm.trans ht
        exact hvalid
      · exact (hreq.resolve_right fun hnot => hnot.1 hin).2.1
      · have hnew := (noShow_iff hbody hconf).mpr hask
        obtain ⟨-, hrel⟩ := hrel.resolve_right fun hnot => hnot.1 ⟨hnew, hconf⟩
        cases hloaded : pl.loaded with
        | none =>
          rw [hloaded] at hrel
          cases hrel
        | some lines =>
          rw [hloaded] at hrel
          exact ⟨lines, rfl, exec_release_iff.mp ⟨_, _, hrel⟩⟩
    · intro h
      have hrel : ∃ db₂ : Db, db₂.bookings = db.bookings ∧
          ((BookingStatus.ofText (normalizeBookingStatus (statusText text))).getD b.status =
              .noShow ∧ b.status = .confirmed ∧ (releaseLoaded pl.loaded).exec db = (.ok (), db₂) ∨
            ¬ ((BookingStatus.ofText (normalizeBookingStatus (statusText text))).getD b.status =
              .noShow ∧ b.status = .confirmed) ∧ db = db₂) := by
        by_cases hno : (BookingStatus.ofText (normalizeBookingStatus (statusText text))).getD
            b.status = .noShow ∧ b.status = .confirmed
        · obtain ⟨lines, hloaded, hgives⟩ :=
            h.noShow ((noShow_iff hbody hno.2).mp hno.1) hno.2
          obtain ⟨u, db₂, hexec⟩ := exec_release_iff.mpr hgives
          refine ⟨db₂, ?_, .inl ⟨hno.1, hno.2, ?_⟩⟩
          · rcases exec_release_cases hexec with rfl | ⟨rt, -, -, rfl⟩
            · rfl
            · rfl
          · rw [hloaded]
            exact hexec
        · exact ⟨db, rfl, .inr ⟨hno, rfl⟩⟩
      obtain ⟨db₂, hbookings, hrel⟩ := hrel
      have hupd : ∀ s : BookingStatus, ∃ db₃, (s ≠ b.status ∧
          (updateBookingRow b.id (setStatus s) (id_setStatus s)).exec db₂ = (.ok (), db₃) ∨
            ¬ s ≠ b.status ∧ db₂ = db₃) := by
        intro s
        by_cases hs : s ≠ b.status
        · exact ⟨_, .inl ⟨hs, exec_updateBookingRow_ok.mpr ⟨⟨b₁, by rw [hbookings, hfind]⟩, rfl⟩⟩⟩
        · exact ⟨db₂, .inr ⟨hs, rfl⟩⟩
      obtain ⟨db₃, hupd⟩ := hupd _
      refine ⟨_, db₃, (), db, ⟨h.transition text hbody, rfl⟩, (), db, ?_, (), db₂, ?_, (), db₃,
        hupd, rfl⟩
      · by_cases hin : ChecksIn b body
        · exact .inl ⟨hin, h.checkIn hin, rfl⟩
        · exact .inr ⟨hin, rfl⟩
      · rcases hrel with ⟨hnew, hconf, hexec⟩ | hkept
        · exact .inl ⟨⟨hnew, hconf⟩, hexec⟩
        · exact .inr hkept

/-! The parts before the dates -/

/-- An inactive booking takes a status that it can reach, and notes. -/
def InactivePasses (b : Booking) (body : BookingPatchRequest) : Prop :=
  b.status.Active ∨ (∀ text, body.status = some text →
      validateStatusTransition b.status.text (statusText text) = .ok ()) ∧
    body.checkIn = none ∧ body.checkOut = none ∧ body.roomId = none

theorem exec_checkInactive_iff {u : Unit} :
    (checkInactive b body).exec db = (.ok u, db') ↔ InactivePasses b body ∧ db' = db := by
  unfold checkInactive InactivePasses
  by_cases hactive : b.status.Active
  · simp [hactive, eq_comm]
  · have hrequest : ∀ {db₁ : Db}, (checkRequestedTransition b.status body.status).exec db =
        (.ok (), db₁) ↔ (∀ text, body.status = some text →
          validateStatusTransition b.status.text (statusText text) = .ok ()) ∧ db₁ = db := by
      intro db₁
      cases hstatus : body.status with
      | none => simp [checkRequestedTransition, eq_comm]
      | some text => simp [checkRequestedTransition, exec_checkTransition_iff]
    simp only [hactive, if_false, false_or, exec_bind_ok, hrequest, exec_raiseIf_ok, not_or,
      not_not]
    constructor
    · rintro ⟨_, _, ⟨hvalid, rfl⟩, habsent, rfl⟩
      exact ⟨⟨hvalid, habsent⟩, rfl⟩
    · rintro ⟨⟨hvalid, habsent⟩, rfl⟩
      exact ⟨(), db', ⟨hvalid, rfl⟩, habsent, rfl⟩

/-- A booking that is cancelled stays so; another one may be cancelled and gives its nights
back. -/
def CancelPasses (db : Db) (b : Booking) : Prop :=
  b.status = .cancelled ∨
    validateStatusTransition b.status.text BookingStatus.cancelled.text = .ok () ∧
      db.ledger.GivesBack b.lines

theorem exec_patchCancel_iff (hfind : db.bookings.find b.id = some b₁) :
    (∃ u db', (patchCancel b).exec db = (.ok u, db')) ↔ CancelPasses db b := by
  unfold patchCancel CancelPasses
  by_cases hcancelled : b.status = .cancelled
  · simp [hcancelled]
  · simp only [hcancelled, ne_eq, not_false_eq_true, if_true, false_or, exec_bind_ok,
      exec_checkTransition_iff]
    constructor
    · rintro ⟨_, _, _, _, ⟨hvalid, rfl⟩, _, db₁, hrel, -⟩
      exact ⟨hvalid, exec_release_iff.mp ⟨_, _, hrel⟩⟩
    · rintro ⟨hvalid, hgives⟩
      obtain ⟨u, db₁, hrel⟩ := exec_release_iff.mpr hgives
      have hbookings : db₁.bookings = db.bookings := by
        rcases exec_release_cases hrel with rfl | ⟨rt, -, -, rfl⟩
        · rfl
        · rfl
      exact ⟨(), _, (), db, ⟨hvalid, rfl⟩, u, db₁, hrel,
        exec_updateBookingRow_ok.mpr ⟨⟨b₁, by rw [hbookings, hfind]⟩, rfl⟩⟩

end Passes

end OpenPms
