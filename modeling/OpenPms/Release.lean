import OpenPms.Runs

/-!
When inventory can be released. A release runs the availability check of a sale with
nothing to book, so it is refused on a day that is oversold. In a run of the API this
is the only reason; in the night audit one refusal rolls the whole property back.
-/
namespace OpenPms

open KeyedTable Transaction Prog Hotel

/-- Some night of the booking has more rooms booked and blocked than its total. -/
def Booking.Oversold (h : Hotel) (b : Booking) : Prop :=
  ∃ ln ∈ b.lines, ∃ c, h.ledger.row ln.roomTypeId ln.date = some c ∧
    c.totalRooms < c.bookedRooms + c.blockedRooms

section Balanced
variable {h : Hotel} {b : Booking} {rt : UUID}

/-- A night of an active booking has a row that counts it. -/
theorem Balanced.row_of_line (hb : Balanced h) (hmem : b ∈ h.bookings.rows)
    (hactive : b.status.Active) {ln : BookingLine} (hln : ln ∈ b.lines) :
    ∃ c, h.ledger.row ln.roomTypeId ln.date = some c ∧ 1 ≤ c.bookedRooms := by
  have hline : ln ∈ h.activeLines := mem_activeLines.mpr ⟨b, hmem, hactive, hln⟩
  obtain ⟨c, hc⟩ := Option.isSome_iff_exists.mp (hb.seeded ln hline)
  refine ⟨c, hc, ?_⟩
  rw [hb.ledgerEq _ _ c hc]
  have hpos : 0 < h.activeCount ln.roomTypeId ln.date :=
    List.countP_pos_iff.mpr ⟨ln, hline, by simp⟩
  omega

/-- Where the ledger equals the bookings, only an oversold night cannot be released. -/
theorem Balanced.releasable_iff (hb : Balanced h) (hmem : b ∈ h.bookings.rows)
    (hactive : b.status.Active) (hrt : lineRoomTypes b.lines = [rt]) :
    h.ledger.Releasable rt b.nights ↔ ¬ b.Oversold h := by
  constructor
  · rintro hrel ⟨ln, hln, c, hc, hgt⟩
    obtain ⟨c', hc', havail, -⟩ := hrel ln.date (List.mem_map_of_mem hln)
    rw [roomTypeId_of_single hrt hln, hc'] at hc
    cases hc
    rw [Counts.available] at havail
    omega
  · intro hnot d hd
    obtain ⟨ln, hln, rfl⟩ := List.mem_map.mp hd
    obtain ⟨c, hc, hpos⟩ := hb.row_of_line hmem hactive hln
    rw [← roomTypeId_of_single hrt hln]
    refine ⟨c, hc, ?_, hpos⟩
    by_contra havail
    apply hnot
    refine ⟨ln, hln, c, hc, ?_⟩
    rw [Counts.available] at havail
    omega

/-- Releasing a booking that is not oversold changes this for no other booking. -/
theorem oversold_shift_iff {h' : Hotel} (hrt : lineRoomTypes b.lines = [rt])
    (hnot : ¬ b.Oversold h) (hledger : h'.ledger = h.ledger.shift rt b.nights (-1))
    (b' : Booking) : b'.Oversold h' ↔ b'.Oversold h := by
  have hrow : ∀ r d, h'.ledger.row r d = (h.ledger.row r d).map fun c =>
      if r = rt ∧ d ∈ b.nights then { c with bookedRooms := c.bookedRooms + -1 } else c := by
    intro r d
    rw [hledger, Ledger.shift, Ledger.adjust_row]
  constructor
  · rintro ⟨ln, hln, c', hc', hgt⟩
    rw [hrow] at hc'
    obtain ⟨c, hc, hcc⟩ := Option.map_eq_some_iff.mp hc'
    refine ⟨ln, hln, c, hc, ?_⟩
    split at hcc
    · rw [← hcc] at hgt
      simp only at hgt
      omega
    · rw [hcc]
      exact hgt
  · rintro ⟨ln, hln, c, hc, hgt⟩
    have hkey : ¬ (ln.roomTypeId = rt ∧ ln.date ∈ b.nights) := by
      rintro ⟨htype, hdate⟩
      obtain ⟨ln', hln', hsame⟩ := List.mem_map.mp hdate
      apply hnot
      refine ⟨ln', hln', c, ?_, hgt⟩
      rw [roomTypeId_of_single hrt hln', hsame, ← htype, hc]
    refine ⟨ln, hln, c, ?_, hgt⟩
    rw [hrow, hc, Option.map_some, if_neg hkey]

end Balanced

/-! One booking -/

section Requests
variable {db : Db} {b : Booking}

theorem exec_release_oversold (hb : Balanced db.hotel) (hmem : b ∈ db.bookings.rows)
    (hactive : b.status.Active) :
    (∃ e db', (releaseBookingInventory b.lines).exec db = (.error e, db')) ↔
      b.Oversold db.hotel := by
  obtain ⟨rt, hrt⟩ := (hb.shaped b hmem).lineRoomTypes
  have hiff := hb.releasable_iff hmem hactive hrt
  rcases hexec : (releaseBookingInventory b.lines).exec db with ⟨e | u, db₁⟩
  · refine iff_of_true ⟨e, db₁, rfl⟩ ?_
    by_contra hnot
    have hok := (exec_release_ok (u := ()) hrt).mpr ⟨hiff.mpr hnot, rfl⟩
    rw [hexec] at hok
    cases hok
  · have hrel := ((exec_release_ok hrt).mp hexec).1
    refine iff_of_false ?_ (hiff.mp hrel)
    rintro ⟨e, db₂, herr⟩
    cases herr

/-- An inventory error of a request that releases first comes from the release. -/
theorem exec_release_then {α : Type} {q : Tx α} {lines : List BookingLine}
    (hq : Raises (¬ InventoryError ·) q) :
    (∃ e db', (releaseBookingInventory lines >>= fun _ => q).exec db = (.error e, db') ∧
      InventoryError e) ↔
    ∃ e db', (releaseBookingInventory lines).exec db = (.error e, db') := by
  constructor
  · rintro ⟨e, db', hexec, hinv⟩
    rcases exec_bind_error.mp hexec with hrel | ⟨_, db₁, -, hrest⟩
    · exact ⟨e, db', hrel⟩
    · exact absurd hinv (hq db₁ e db' hrest)
  · rintro ⟨e, db', hexec⟩
    exact ⟨e, db', exec_bind_error.mpr (.inl hexec), exec_release_error hexec⟩

theorem data_not_inventory : ¬ InventoryError .dataError := by
  rintro (⟨_, h⟩ | ⟨_, h⟩) <;> cases h

theorem stale_not_inventory : ¬ InventoryError .staleData := by
  rintro (⟨_, h⟩ | ⟨_, h⟩) <;> cases h

/-- The ways in which a booking may leave its status and give its nights back. -/
inductive Leave (b : Booking) : Type where
  | cancel (env : Env) (body : BookingPatchRequest) (hbody : cancels body = true)
      (hstatus : b.status = .pending ∨ b.status = .confirmed)
  | noShow (env : Env) (body : BookingPatchRequest) (hbody : AsksNoShow body)
      (hstatus : b.status = .confirmed)
  | delete (hstatus : b.status = .pending ∨ b.status = .confirmed)

def Leave.prog {b : Booking} : Leave b → Tx Unit
  | cancel env body _ _ => do
    let _ ← patchBooking env b.id body
    pure ()
  | noShow env body _ _ => do
    let _ ← patchBooking env b.id body
    pure ()
  | delete _ => do
    let _ ← deleteBooking b.id
    pure ()

theorem cancels_ne {body : BookingPatchRequest} (h : cancels body = true) :
    body ≠ {} ∧ { body with notes := none } ≠ ({} : BookingPatchRequest) := by
  have hstatus : body.status ≠ none := by
    intro hnone
    rw [cancels, hnone] at h
    cases h
  constructor
  · rintro rfl
    exact hstatus rfl
  · intro heq
    exact hstatus (congrArg BookingPatchRequest.status heq)

theorem exec_cancel {env : Env} {body : BookingPatchRequest} (hbody : cancels body = true)
    (hfind : db.bookings.find b.id = some b)
    (hstatus : b.status = .pending ∨ b.status = .confirmed) :
    (patchBooking env b.id body).exec db =
      (do
        releaseBookingInventory b.lines
        updateBookingRow b.id (setStatus .cancelled) (id_setStatus _)
        patchNotes b body.notes
        pure none : Tx (Option Money)).exec db := by
  obtain ⟨hne, hne'⟩ := cancels_ne hbody
  have hcheck : checkTransition b.status BookingStatus.cancelled.text = pure () := by
    apply checkTransition_of_ok
    rcases hstatus with hs | hs <;> rw [hs] <;> decide
  have hcancel : b.status ≠ .cancelled := by
    rcases hstatus with hs | hs <;> rw [hs] <;> decide
  rw [patchBooking, if_neg hne, exec_bind, exec_select]
  simp only [hfind, hne', hbody, if_false, if_true, patchCancel, hcancel, ne_eq, not_false_eq_true,
    hcheck, pure_bind, bind_assoc]

theorem exec_delete (hfind : db.bookings.find b.id = some b)
    (hstatus : b.status = .pending ∨ b.status = .confirmed) :
    (deleteBooking b.id).exec db =
      (do
        releaseBookingInventory b.lines
        eraseBooking b.id
        pure b : Tx Booking).exec db := by
  have hactive : b.status.Active := by
    rcases hstatus with hs | hs <;> rw [hs] <;> decide
  have hallowed : ¬ (b.status = .checkedIn ∨ b.status = .checkedOut) := by
    rcases hstatus with hs | hs <;> rw [hs] <;> decide
  rw [deleteBooking, exec_bind, exec_select]
  simp only [hfind, raiseIf, hallowed, if_false, runIf, hactive, if_true]
  rfl

/-- Leaving raises an inventory error exactly for a booking with an oversold night. -/
theorem Leave.inventoryError_iff (hb : Balanced db.hotel) (hmem : b ∈ db.bookings.rows)
    (leave : Leave b) :
    (∃ e db', leave.prog.exec db = (.error e, db') ∧ InventoryError e) ↔
      b.Oversold db.hotel := by
  have hfind : db.bookings.find b.id = some b := Table.find_of_mem hmem
  have hrow : ∀ s, Raises (¬ InventoryError ·)
      (updateBookingRow b.id (setStatus s) (id_setStatus s)) :=
    fun s => raises_updateBookingRow stale_not_inventory
  have hnotes : ∀ notes, Raises (¬ InventoryError ·) (patchNotes b notes) :=
    fun notes => raises_patchNotes data_not_inventory stale_not_inventory
  have hactive : b.status.Active := by
    cases leave with
    | cancel _ _ _ hstatus => rcases hstatus with hs | hs <;> rw [hs] <;> decide
    | noShow _ _ _ hstatus => rw [hstatus]; decide
    | delete hstatus => rcases hstatus with hs | hs <;> rw [hs] <;> decide
  rw [← exec_release_oversold hb hmem hactive]
  cases leave with
  | cancel env body hbody hstatus =>
    rw [Leave.prog, exec_bind_congr (exec_cancel hbody hfind hstatus), bind_assoc]
    apply exec_release_then
    exact raises_bind (raises_bind (hrow _) fun _ => raises_bind (hnotes _) fun _ =>
      raises_pure _) fun _ => raises_pure _
  | noShow env body hbody hstatus =>
    rw [Leave.prog, exec_bind_congr (exec_patchNoShow hbody hfind hstatus), bind_assoc]
    apply exec_release_then
    exact raises_bind (raises_bind (hrow _) fun _ => raises_bind (hnotes _) fun _ =>
      raises_pure _) fun _ => raises_pure _
  | delete hstatus =>
    rw [Leave.prog, exec_bind_congr (exec_delete hfind hstatus), bind_assoc]
    apply exec_release_then
    refine raises_bind (raises_bind ?_ fun _ => raises_pure _) fun _ => raises_pure _
    exact raises_bind (raises_modify _) fun _ => raises_bind (raises_modify _) fun _ =>
      raises_bind (raises_acquire _) fun _ => raises_modify _

/-! The night audit -/

/-- A confirmed booking without an oversold night becomes a no-show. -/
theorem exec_noShow_ok {env : Env} {rt : UUID} (hb : Balanced db.hotel)
    (hmem : b ∈ db.bookings.rows) (hconf : b.status = .confirmed)
    (hrt : lineRoomTypes b.lines = [rt]) (hnot : ¬ b.Oversold db.hotel) :
    (patchBooking env b.id noShowRequest).exec db =
      (.ok none, (db.setLedger (db.ledger.shift rt b.nights (-1))).updateBooking b.id
        (setStatus .noShow) (id_setStatus _)) := by
  have hfind : db.bookings.find b.id = some b := Table.find_of_mem hmem
  have hactive : b.status.Active := by
    rw [hconf]
    decide
  have hrel : (releaseBookingInventory b.lines).exec db =
      (.ok (), db.setLedger (db.ledger.shift rt b.nights (-1))) :=
    (exec_release_ok hrt).mpr ⟨(hb.releasable_iff hmem hactive hrt).mpr hnot, rfl⟩
  have hupd : (updateBookingRow b.id (setStatus .noShow) (id_setStatus _)).exec
      (db.setLedger (db.ledger.shift rt b.nights (-1))) =
        (.ok (), (db.setLedger (db.ledger.shift rt b.nights (-1))).updateBooking b.id
          (setStatus .noShow) (id_setStatus _)) :=
    exec_updateBookingRow_ok.mpr ⟨⟨b, hfind⟩, rfl⟩
  rw [exec_patchNoShow asksNoShow_noShowRequest hfind hconf, exec_bind, hrel]
  simp only
  rw [exec_bind, hupd]
  rfl

theorem exec_markNoShow_ok (env : Env) {rt : UUID} (hb : Balanced db.hotel)
    (hmem : b ∈ db.bookings.rows) (hconf : b.status = .confirmed)
    (hrt : lineRoomTypes b.lines = [rt]) (hnot : ¬ b.Oversold db.hotel) :
    (markNoShow env b.id).exec db =
      (.ok 1, (db.setLedger (db.ledger.shift rt b.nights (-1))).updateBooking b.id
        (setStatus .noShow) (id_setStatus _)) := by
  rw [markNoShow, exec_tryCatch, exec_bind, exec_noShow_ok hb hmem hconf hrt hnot]
  rfl

/-- An oversold booking ends the audit: its error is not of the kind passed over. -/
theorem exec_markNoShow_oversold (env : Env) (hb : Balanced db.hotel)
    (hmem : b ∈ db.bookings.rows) (hconf : b.status = .confirmed)
    (hover : b.Oversold db.hotel) :
    ∃ e db', (markNoShow env b.id).exec db = (.error e, db') := by
  have hfind : db.bookings.find b.id = some b := Table.find_of_mem hmem
  have hactive : b.status.Active := by
    rw [hconf]
    decide
  obtain ⟨e, db', hrel⟩ := (exec_release_oversold hb hmem hactive).mpr hover
  refine ⟨e, db', ?_⟩
  rw [markNoShow, exec_tryCatch,
    exec_bind_congr (exec_patchNoShow asksNoShow_noShowRequest hfind hconf), bind_assoc,
    exec_bind, hrel]
  rcases exec_release_error hrel with ⟨message, rfl⟩ | ⟨message, rfl⟩ <;> rfl

end Requests

/-- The ids are those of confirmed bookings. -/
def AllConfirmed (db : Db) (ids : List UUID) : Prop :=
  ∀ id ∈ ids, ∃ b, db.bookings.find id = some b ∧ b.status = .confirmed

/-- Marking the first booking leaves the others as they are. -/
theorem markNoShow_keeps {db db₁ : Db} {b : Booking} {rt : UUID} (hb : Balanced db.hotel)
    (hfind : db.bookings.find b.id = some b) (hconf : b.status = .confirmed)
    (hrt : lineRoomTypes b.lines = [rt]) (hnot : ¬ b.Oversold db.hotel)
    (hdb₁ : db₁ = (db.setLedger (db.ledger.shift rt b.nights (-1))).updateBooking b.id
      (setStatus .noShow) (id_setStatus _)) :
    Balanced db₁.hotel ∧ (∀ id, id ≠ b.id → db₁.bookings.find id = db.bookings.find id) ∧
      db₁.bookings.find b.id = some (setStatus .noShow b) ∧
      ∀ b' : Booking, b'.Oversold db₁.hotel ↔ b'.Oversold db.hotel := by
  have hactive : b.status.Active := by
    rw [hconf]
    decide
  have hrel := (hb.releasable_iff (Table.find_eq_some.mp hfind).1 hactive hrt).mpr hnot
  subst hdb₁
  refine ⟨hb.step (.release hfind hactive (by decide) hrt hrel), ?_, ?_, ?_⟩
  · intro id hne
    rw [Db.updateBooking, Table.find_update_of_ne hne]
    rfl
  · exact find_updateBooking hfind
  · exact oversold_shift_iff hrt hnot rfl

/-- Without oversold bookings the whole list is marked. -/
theorem exec_markNoShows_ok (env : Env) {db : Db} {ids : List UUID} (hb : Balanced db.hotel)
    (hnd : ids.Nodup) (hconf : AllConfirmed db ids)
    (hnot : ∀ id ∈ ids, ∀ b, db.bookings.find id = some b → ¬ b.Oversold db.hotel) :
    ∃ n db', (markNoShows env ids).exec db = (.ok n, db') ∧
      (∀ id ∈ ids, (db'.bookings.find id).map (·.status) = some .noShow) ∧
      ∀ id, id ∉ ids → db'.bookings.find id = db.bookings.find id := by
  induction ids generalizing db with
  | nil => exact ⟨0, db, rfl, by simp, fun _ _ => rfl⟩
  | cons bid rest ih =>
    obtain ⟨hfresh, hrestnd⟩ := List.nodup_cons.mp hnd
    obtain ⟨b, hfind, hbconf⟩ := hconf bid (List.mem_cons_self ..)
    obtain ⟨hmem, hid⟩ := Table.find_eq_some.mp hfind
    subst hid
    obtain ⟨rt, hrt⟩ := (hb.shaped b hmem).lineRoomTypes
    have hbnot := hnot b.id (List.mem_cons_self ..) b hfind
    have hmark := exec_markNoShow_ok env hb hmem hbconf hrt hbnot
    obtain ⟨hb₁, hsame, hmarked, hover⟩ := markNoShow_keeps hb hfind hbconf hrt hbnot rfl
    have hne : ∀ id ∈ rest, id ≠ b.id := fun id hid heq => hfresh (heq ▸ hid)
    obtain ⟨n, db', hrest, hall, hkeep⟩ := ih hb₁ hrestnd
      (by
        intro id hid
        rw [hsame id (hne id hid)]
        exact hconf id (List.mem_cons_of_mem _ hid))
      (by
        intro id hid b' hb'
        rw [hsame id (hne id hid)] at hb'
        rw [hover b']
        exact hnot id (List.mem_cons_of_mem _ hid) b' hb')
    refine ⟨1 + n, db', ?_, ?_, ?_⟩
    · rw [markNoShows, exec_bind, hmark]
      simp only
      rw [exec_bind, hrest]
      rfl
    · intro id hid
      rcases List.mem_cons.mp hid with rfl | hid
      · rw [hkeep b.id hfresh, hmarked]
        rfl
      · exact hall id hid
    · intro id hid
      rw [List.mem_cons, not_or] at hid
      rw [hkeep id hid.2, hsame id hid.1]

/-- The first oversold booking ends the whole list. -/
theorem exec_markNoShows_error (env : Env) {db : Db} {ids : List UUID} (hb : Balanced db.hotel)
    (hnd : ids.Nodup) (hconf : AllConfirmed db ids)
    (hover : ∃ id ∈ ids, ∃ b, db.bookings.find id = some b ∧ b.Oversold db.hotel) :
    ∃ e db', (markNoShows env ids).exec db = (.error e, db') := by
  induction ids generalizing db with
  | nil =>
    obtain ⟨id, hid, -⟩ := hover
    cases hid
  | cons bid rest ih =>
    obtain ⟨hfresh, hrestnd⟩ := List.nodup_cons.mp hnd
    obtain ⟨b, hfind, hbconf⟩ := hconf bid (List.mem_cons_self ..)
    obtain ⟨hmem, hid⟩ := Table.find_eq_some.mp hfind
    subst hid
    by_cases hbover : b.Oversold db.hotel
    · obtain ⟨e, db', hmark⟩ := exec_markNoShow_oversold env hb hmem hbconf hbover
      exact ⟨e, db', exec_bind_error.mpr (.inl hmark)⟩
    · obtain ⟨rt, hrt⟩ := (hb.shaped b hmem).lineRoomTypes
      have hmark := exec_markNoShow_ok env hb hmem hbconf hrt hbover
      obtain ⟨hb₁, hsame, -, hiff⟩ := markNoShow_keeps hb hfind hbconf hrt hbover rfl
      have hne : ∀ id ∈ rest, id ≠ b.id := fun id hid heq => hfresh (heq ▸ hid)
      obtain ⟨id, hid, b', hb', hover'⟩ := hover
      have hrest : id ∈ rest := by
        rcases List.mem_cons.mp hid with rfl | hrest
        · rw [hfind] at hb'
          cases hb'
          exact absurd hover' hbover
        · exact hrest
      obtain ⟨e, db', herr⟩ := ih hb₁ hrestnd
        (by
          intro id hid
          rw [hsame id (hne id hid)]
          exact hconf id (List.mem_cons_of_mem _ hid))
        ⟨id, hrest, b', by rw [hsame id (hne id hrest), hb'], (hiff b').mpr hover'⟩
      refine ⟨e, db', exec_bind_error.mpr (.inr ⟨1, _, hmark, ?_⟩)⟩
      exact exec_bind_error.mpr (.inl herr)

section Audit
variable {db : Db} {propertyId : UUID} {today : ℤ}

theorem mem_overdueConfirmed {id : UUID} : id ∈ overdueConfirmed propertyId today db →
    ∃ b, db.bookings.find id = some b ∧ b.status = .confirmed := by
  intro hid
  obtain ⟨b, hb, rfl⟩ := List.mem_map.mp hid
  obtain ⟨hmem, hcond⟩ := List.mem_filter.mp hb
  simp only [Bool.and_eq_true, decide_eq_true_eq] at hcond
  exact ⟨b, Table.find_of_mem hmem, hcond.1.2⟩

theorem nodup_overdueConfirmed : (overdueConfirmed propertyId today db).Nodup :=
  db.bookings.nodup.sublist (List.filter_sublist.map _)

/-- A confirmed booking can be marked exactly when no night of it is oversold. -/
theorem canMark_iff {env : Env} {b : Booking} (hb : Balanced db.hotel)
    (hfind : db.bookings.find b.id = some b) (hconf : b.status = .confirmed) :
    (∃ r db', (patchBooking env b.id noShowRequest).exec db = (.ok r, db')) ↔
      ¬ b.Oversold db.hotel := by
  have hmem := (Table.find_eq_some.mp hfind).1
  have hactive : b.status.Active := by
    rw [hconf]
    decide
  constructor
  · rintro ⟨r, db', hexec⟩ hover
    rw [exec_patchNoShow asksNoShow_noShowRequest hfind hconf] at hexec
    obtain ⟨e, db₁, hrel⟩ := (exec_release_oversold hb hmem hactive).mpr hover
    obtain ⟨_, _, hok, -⟩ := exec_bind_ok.mp hexec
    rw [hrel] at hok
    cases hok
  · intro hnot
    obtain ⟨rt, hrt⟩ := (hb.shaped b hmem).lineRoomTypes
    exact ⟨none, _, exec_noShow_ok hb hmem hconf hrt hnot⟩

/-- Every overdue booking that can be marked is marked by the audit. -/
def AuditMarksAll (env : Env) (order : RowOrder) (propertyId : UUID) (today : ℤ) (db : Db) :
    Prop :=
  ∀ id ∈ overdueConfirmed propertyId today db,
    (∃ r db', (patchBooking env id noShowRequest).exec db = (.ok r, db')) →
      (((Op.nightAudit env order propertyId today).prog.transact db).bookings.find id).map
        (·.status) = some .noShow

theorem auditMarksAll_iff (env : Env) (order : RowOrder) (hb : Balanced db.hotel) :
    AuditMarksAll env order propertyId today db ↔
      (∀ id ∈ overdueConfirmed propertyId today db, ∀ b, db.bookings.find id = some b →
        ¬ b.Oversold db.hotel) ∨
      ∀ id ∈ overdueConfirmed propertyId today db, ∀ b, db.bookings.find id = some b →
        b.Oversold db.hotel := by
  have hperm := order.perm (overdueConfirmed propertyId today db)
  have hnd : (order.arrange (overdueConfirmed propertyId today db)).Nodup :=
    hperm.nodup_iff.mpr nodup_overdueConfirmed
  have hconf : AllConfirmed db (order.arrange (overdueConfirmed propertyId today db)) :=
    fun id hid => mem_overdueConfirmed (hperm.mem_iff.mp hid)
  by_cases hsome : ∃ id ∈ overdueConfirmed propertyId today db, ∃ b,
      db.bookings.find id = some b ∧ b.Oversold db.hotel
  · -- one booking is refused and the transaction is rolled back
    obtain ⟨id₀, hid₀, b₀, hb₀, hover₀⟩ := hsome
    obtain ⟨e, db', herr⟩ := exec_markNoShows_error env hb hnd hconf
      ⟨id₀, hperm.mem_iff.mpr hid₀, b₀, hb₀, hover₀⟩
    have hback : (Op.nightAudit env order propertyId today).prog.transact db = db :=
      transact_error (exec_bind_error.mpr (.inl (exec_bind_error.mpr (.inr ⟨_, db, rfl, herr⟩))))
    unfold AuditMarksAll
    rw [hback]
    constructor
    · intro hall
      right
      intro id hid b hfind
      by_contra hnot
      obtain ⟨b', hfind', hbconf⟩ := mem_overdueConfirmed hid
      cases hfind.symm.trans hfind'
      have hbid : b.id = id := (Table.find_eq_some.mp hfind).2
      subst hbid
      have hmarked := hall b.id hid ((canMark_iff hb hfind hbconf).mpr hnot)
      rw [hfind, Option.map_some, hbconf] at hmarked
      cases hmarked
    · rintro (hnone | hall) id hid hcan
      · exact absurd hover₀ (hnone id₀ hid₀ b₀ hb₀)
      · obtain ⟨b, hfind, hbconf⟩ := mem_overdueConfirmed hid
        have hbid : b.id = id := (Table.find_eq_some.mp hfind).2
        subst hbid
        exact absurd (hall b.id hid b hfind) ((canMark_iff hb hfind hbconf).mp hcan)
  · have hnone : ∀ id ∈ overdueConfirmed propertyId today db, ∀ b,
        db.bookings.find id = some b → ¬ b.Oversold db.hotel :=
      fun id hid b hfind hover => hsome ⟨id, hid, b, hfind, hover⟩
    refine iff_of_true ?_ (.inl hnone)
    obtain ⟨n, db', hok, hall, -⟩ := exec_markNoShows_ok env hb hnd hconf
      fun id hid => hnone id (hperm.mem_iff.mp hid)
    have hcommit : (Op.nightAudit env order propertyId today).prog.transact db = db' :=
      transact_ok (a := ()) (exec_bind_ok.mpr ⟨n, db', exec_bind_ok.mpr ⟨_, db, rfl, hok⟩, rfl⟩)
    intro id hid _
    rw [hcommit]
    exact hall id (hperm.mem_iff.mpr hid)

end Audit

/-- In a run of the API a booking that may leave its status raises no inventory error
exactly when none of its nights is oversold; the night audit marks every booking that
it could mark exactly when none of the overdue ones is oversold, or all of them are. -/
theorem release_never_fails_iff {db : Db} (h : Reachable apiOp db) :
    (∀ b ∈ db.bookings.rows, ∀ leave : Leave b,
      (∀ e db', leave.prog.exec db = (.error e, db') → ¬ InventoryError e) ↔
        ¬ b.Oversold db.hotel) ∧
    ∀ env order propertyId today, AuditMarksAll env order propertyId today db ↔
      (∀ id ∈ overdueConfirmed propertyId today db, ∀ b, db.bookings.find id = some b →
        ¬ b.Oversold db.hotel) ∨
      ∀ id ∈ overdueConfirmed propertyId today db, ∀ b, db.bookings.find id = some b →
        b.Oversold db.hotel := by
  refine ⟨?_, fun env order propertyId today => auditMarksAll_iff env order h.balanced⟩
  intro b hb leave
  rw [← leave.inventoryError_iff h.balanced hb]
  push Not
  rfl

/-- Booking 1000 of type 10 and booking 1001 of type 11, for the same night. -/
def Demo.twoTypes : List Op :=
  openHotel ++ [addType 11, .createRoom (env 0 0 110) 11 "201" "available", bookStay,
    .createBooking (env 1001 0 0) { stay with
      roomTypeId := 11, checkIn_lt := stay.checkIn_lt, span_le := stay.span_le }]

theorem Demo.twoTypes_reachable {more : List Op} (hmore : ∀ op ∈ more, op.Api) :
    Reachable apiOp (run (.empty 0) (Demo.twoTypes ++ more)) := by
  refine reachable_run (.empty 0) ?_
  intro op hop db
  rcases List.mem_append.mp hop with hop | hop
  · simp only [Demo.twoTypes, Demo.openHotel, List.cons_append, List.nil_append, List.mem_cons,
      List.not_mem_nil, or_false] at hop
    rcases hop with rfl | rfl | rfl | rfl | rfl | rfl | rfl <;> trivial
  · exact hmore op hop

theorem not_oversold_of_rows {db : Db} {b : Booking} {c : Counts}
    (hrow : ∀ ln ∈ b.lines, db.ledger.row ln.roomTypeId ln.date = some c)
    (hle : c.bookedRooms + c.blockedRooms ≤ c.totalRooms) : ¬ b.Oversold db.hotel := by
  rintro ⟨ln, hln, c', hc', hgt⟩
  rw [show db.hotel.ledger.row _ _ = some c from hrow ln hln] at hc'
  cases hc'
  omega

theorem release_never_fails_demo :
    (run (.empty 0) (Demo.twoTypes ++ [])).bookings.rows ≠ [] ∧
      ∀ b ∈ (run (.empty 0) (Demo.twoTypes ++ [])).bookings.rows, ∀ leave : Leave b, ∀ e db',
        leave.prog.exec (run (.empty 0) (Demo.twoTypes ++ [])) = (.error e, db') →
          ¬ InventoryError e := by
  refine ⟨by decide +kernel, ?_⟩
  intro b hb leave
  have hrow : ∀ b ∈ (run (.empty 0) (Demo.twoTypes ++ [])).bookings.rows, ∀ ln ∈ b.lines,
      (run (.empty 0) (Demo.twoTypes ++ [])).ledger.row ln.roomTypeId ln.date =
        some ⟨1, 1, 0⟩ := by decide +kernel
  have hreach : Reachable apiOp (run (.empty 0) (Demo.twoTypes ++ [])) :=
    Demo.twoTypes_reachable (by simp)
  exact ((release_never_fails_iff hreach).1 b hb leave).mpr
    (not_oversold_of_rows (hrow b hb) (by decide))

/-- The only room of type 10 is deleted after its night was sold and the room given up,
and the night passes. -/
def Demo.unreleasable : Db :=
  run (.empty 0) (twoTypes ++ [.assignBookingRoom 1000 none, .softDeleteRoom 100, .pass 4])

/-- The booking cannot be cancelled, and the audit leaves the other one confirmed,
although it could mark it. -/
theorem release_refused :
    Reachable apiOp Demo.unreleasable ∧
    ((Op.patchBooking (Demo.env 0 0 0) 1000
      { status := some (some "cancelled") }).prog.exec Demo.unreleasable).1 =
        .error (.insufficientInventory "insufficient inventory for one or more dates") ∧
    ((Op.patchBooking (Demo.env 0 0 0) 1001 noShowRequest).prog.exec Demo.unreleasable).1 =
      .ok () ∧
    (((Op.nightAudit (Demo.env 0 0 0) ⟨id, fun _ => .refl _⟩ 1 4).prog.transact
      Demo.unreleasable).bookings.find 1001).map (·.status) = some .confirmed := by
  exact ⟨Demo.twoTypes_reachable (by simp [Op.Api]), by decide +kernel, by decide +kernel,
    by decide +kernel⟩

end OpenPms
