import OpenPms.ChannexLedger

/-!
Ingests that fail. The branches have no savepoint: what a handled error finds written
is committed with the error on the revision. Each branch locks ledger rows once before
it moves a counter, and the call leaves the records alone exactly when it does not get
these rows. Past that lock the counters have moved before anything is refused, and a
retry of the revision moves them again.
-/
namespace OpenPms

open KeyedTable Transaction Prog

/-- The rows that a failed ingest should leave alone; a booking carries its lines. -/
def Db.records (db : Db) : Ledger × Table Booking.id × List FolioTransaction × Table Guest.id :=
  (db.ledger, db.bookings, db.folio, db.guests)

/-- The first ledger rows that a branch locks are all there, with the rooms it asks for. -/
def FirstLock (db : Db) (external : String) (roomTypeId : UUID) (nights : List ℤ) :
    RevisionKind → Prop
  | .cancelled => ∃ b rt, findByExternal external db = some b ∧ b.status ≠ .cancelled ∧
      lineRoomTypes b.lines = [rt] ∧ db.ledger.Open rt b.nights 0
  | .modified => ∃ b rt, findByExternal external db = some b ∧
      lineRoomTypes b.lines = [rt] ∧ db.ledger.Open rt b.nights 0
  | .new => findByExternal external db = none ∧ db.ledger.Open roomTypeId nights 1

/-- The payload has the dates of a stay, and its branch gets the first lock. -/
def StayLocked (payload : ChannexBookingRevisionPayload) (roomTypeId : UUID) (db : Db) : Prop :=
  ∃ checkIn checkOut, checkInOut payload = (some checkIn, some checkOut) ∧ checkIn < checkOut ∧
    FirstLock db (externalKey payload) roomTypeId (daysBetween checkIn checkOut)
      (revisionKind payload)

theorem stayLocked_iff {payload : ChannexBookingRevisionPayload} {roomTypeId : UUID} {db : Db}
    {checkIn checkOut : ℤ} (hdates : checkInOut payload = (some checkIn, some checkOut))
    (hlt : checkIn < checkOut) :
    StayLocked payload roomTypeId db ↔ FirstLock db (externalKey payload) roomTypeId
      (daysBetween checkIn checkOut) (revisionKind payload) := by
  unfold StayLocked
  generalize revisionKind payload = kind
  constructor
  · rintro ⟨ci, co, hdates', -, hlock⟩
    obtain ⟨hci, hco⟩ := Prod.mk.inj (hdates.symm.trans hdates')
    obtain rfl := Option.some.inj hci
    obtain rfl := Option.some.inj hco
    exact hlock
  · intro hlock
    exact ⟨checkIn, checkOut, hdates, hlt, hlock⟩

theorem stayLocked_revisions {payload : ChannexBookingRevisionPayload} {roomTypeId : UUID}
    {db : Db} {revisions : Table ChannexBookingRevision.channexRevisionId} :
    StayLocked payload roomTypeId { db with revisions := revisions } ↔
      StayLocked payload roomTypeId db := by
  unfold StayLocked
  cases revisionKind payload <;> rfl

/-! Releases and claims that are refused -/

section Refused
variable {db db' : Db} {e : Err}

theorem exec_lock_refused {rt : UUID} {nights : List ℤ} {n : ℤ}
    (h : (lockAndValidateAvailability rt nights n).exec db = (.error e, db')) :
    db' = db ∧ ¬ db.ledger.Open rt nights n := by
  refine ⟨(keeps_lockAndValidate (f := id)).eq h, ?_⟩
  intro hopen
  have hok := exec_lockAndValidate_ok.mpr ⟨rfl, rfl, hopen⟩
  cases h.symm.trans hok

/-- The counter of the row that would go negative has been written. -/
theorem exec_decrement_refused {rows : List AvailabilityLedger}
    (hrows : ∀ row ∈ rows, (db.ledger.row row.roomTypeId row.date).isSome)
    (h : (decrementBookedRooms rows 1).exec db = (.error e, db')) :
    ∃ l row c, row ∈ rows ∧ db' = db.setLedger l ∧ l.row row.roomTypeId row.date = some c ∧
      c.bookedRooms = row.counts.bookedRooms - 1 := by
  induction rows generalizing db with
  | nil => cases h
  | cons x rest ih =>
    rw [decrementBookedRooms, forEach, exec_bind_error] at h
    rcases h with hx | ⟨_, db₁, hx, hrest⟩
    · simp only [exec_bind_error, exec_modify, exec_raiseIf_error, Prod.mk.injEq, reduceCtorEq,
        false_and, false_or] at hx
      obtain ⟨_, _, ⟨-, rfl⟩, -, -, rfl⟩ := hx
      obtain ⟨c, hc⟩ := Option.isSome_iff_exists.mp (hrows x (List.mem_cons_self ..))
      refine ⟨_, x, { c with bookedRooms := x.counts.bookedRooms - 1 },
        List.mem_cons_self .., rfl, ?_, rfl⟩
      simp [hc]
    · simp only [exec_bind_ok, exec_modify, exec_raiseIf_ok, Prod.mk.injEq] at hx
      obtain ⟨_, _, ⟨-, rfl⟩, -, rfl⟩ := hx
      have hkept : ∀ row ∈ rest, ((db.setBooked x.roomTypeId x.date
          (x.counts.bookedRooms - 1)).ledger.row row.roomTypeId row.date).isSome := by
        intro row hrow
        simpa [Db.setBooked] using hrows row (List.mem_cons_of_mem _ hrow)
      obtain ⟨l, row, c, hmem, rfl, hc, hbooked⟩ := ih hkept hrest
      exact ⟨l, row, c, List.mem_cons_of_mem _ hmem, rfl, hc, hbooked⟩

theorem ledger_ne_of_shift {rt : UUID} {nights : List ℤ} {n m : ℤ} (hne : nights ≠ [])
    (hopen : db.ledger.Open rt nights n) (hm : m ≠ 0) :
    db.ledger.shift rt nights m ≠ db.ledger := by
  obtain ⟨d, rest, rfl⟩ := List.exists_cons_of_ne_nil hne
  obtain ⟨c, hc, -⟩ := hopen d (List.mem_cons_self ..)
  intro hsame
  have hrow := congrArg (fun l : Ledger => l.row rt d) hsame
  simp [Ledger.shift, hc] at hrow
  have hbooked := congrArg Counts.bookedRooms hrow
  simp only at hbooked
  omega

theorem records_eq_iff {granted : Prop} (hno : ¬ granted → db' = db)
    (hyes : granted → db'.ledger ≠ db.ledger) : db'.records = db.records ↔ ¬ granted := by
  constructor
  · intro hsame hgranted
    exact hyes hgranted (congrArg Prod.fst hsame)
  · intro hnot
    rw [hno hnot]

/-- A release that is refused after its lock has moved a counter. -/
theorem exec_release_refused_iff {rt : UUID} {nights : List ℤ}
    (h : (lockAndValidateAvailability rt nights 0 >>= fun rows =>
      decrementBookedRooms rows 1).exec db = (.error e, db')) :
    db'.records = db.records ↔ ¬ db.ledger.Open rt nights 0 := by
  rcases exec_bind_error.mp h with hlock | ⟨rows, db₁, hlock, hdec⟩
  · obtain ⟨rfl, hnot⟩ := exec_lock_refused hlock
    exact iff_of_true rfl hnot
  · obtain ⟨rfl, rfl, hopen⟩ := exec_lockAndValidate_ok.mp hlock
    refine records_eq_iff (fun hnot => absurd hopen hnot) fun _ hsame => ?_
    have hrows : ∀ row ∈ selectLedger rt nights db₁,
        (db₁.ledger.row row.roomTypeId row.date).isSome := by
      intro row hrow
      obtain ⟨hrt, -, hc⟩ := mem_selectLedger.mp hrow
      simp [hrt, hc]
    obtain ⟨l, row, c, hrow, rfl, hc, hbooked⟩ := exec_decrement_refused hrows hdec
    obtain ⟨hrt, -, hbefore⟩ := mem_selectLedger.mp hrow
    rw [Db.setLedger_ledger] at hsame
    rw [hsame, hrt, hbefore] at hc
    cases hc
    omega

end Refused

/-! The branches -/

theorem not_handled {α : Type} {p : Tx α} {db db' : Db} {e : Err}
    (h : p.exec db = (.error e, db')) (hp : Raises (¬ Err.Handled ·) p) : ¬ e.Handled :=
  hp db e db' h

section Branches
variable {db db' : Db} {rev : Revision} {e : Err} {r : ChannexIngestResult}

theorem ingestCancelled_raised_iff (hhandled : e.Handled)
    (h : (ingestCancelled rev).exec db = (.error e, db')) :
    db'.records = db.records ↔
      ¬ FirstLock db rev.external rev.roomTypeId rev.nights .cancelled := by
  simp only [ingestCancelled, exec_bind_error, exec_select, Prod.mk.injEq, reduceCtorEq,
    false_and, false_or, Except.ok.injEq] at h
  obtain ⟨found, _, ⟨hfound, rfl⟩, h⟩ := h
  cases found with
  | none => cases h
  | some b =>
    simp only at h
    split at h
    · next hstatus =>
      rcases exec_bind_error.mp h with hrel | ⟨_, db₁, -, hrest⟩
      · unfold releaseBookingInventory at hrel
        split at hrel
        · next rt hrt =>
          have hiff := exec_release_refused_iff hrel
          have hlock : FirstLock db rev.external rev.roomTypeId rev.nights .cancelled ↔
              db.ledger.Open rt b.nights 0 := by
            simp [FirstLock, hfound, hstatus, hrt]
          rw [hlock]
          exact hiff
        · cases hrel
      · refine absurd hhandled (not_handled hrest ?_)
        exact raises_bind (raises_updateBookingRow id) fun _ =>
          raises_bind (raises_modify _) fun _ => raises_pure _
    · cases h

theorem ingestCancelled_failed (h : (ingestCancelled rev).exec db = (.ok r, db'))
    (hfailed : r.success = false) :
    db'.records = db.records ∧
      ¬ FirstLock db rev.external rev.roomTypeId rev.nights .cancelled := by
  simp only [ingestCancelled, exec_bind_ok, exec_select, Prod.mk.injEq, Except.ok.injEq] at h
  obtain ⟨found, _, ⟨hfound, rfl⟩, h⟩ := h
  cases found with
  | none =>
    cases h
    refine ⟨rfl, ?_⟩
    rintro ⟨b, -, hb, -⟩
    cases hfound.symm.trans hb
  | some b =>
    simp only at h
    split at h
    · simp only [exec_bind_ok] at h
      obtain ⟨_, _, -, _, _, -, _, _, -, hret⟩ := h
      cases hret
      cases hfailed
    · cases h
      cases hfailed

theorem open_sortedDates {l : Ledger} {rt : UUID} {nights : List ℤ} {n : ℤ} :
    l.Open rt (sortedDates nights) n ↔ l.Open rt nights n := by
  simp [Ledger.Open, mem_sortedDates]

/-- The nights given up are committed when the new ones are refused. -/
theorem ingestModified_raised_iff {env : Env} (hhandled : e.Handled)
    (h : (ingestModified env rev).exec db = (.error e, db')) :
    db'.records = db.records ↔
      ¬ FirstLock db rev.external rev.roomTypeId rev.nights .modified := by
  simp only [ingestModified, exec_bind_error, exec_select, Prod.mk.injEq, reduceCtorEq,
    false_and, false_or, Except.ok.injEq] at h
  obtain ⟨found, _, ⟨hfound, rfl⟩, h⟩ := h
  cases found with
  | none => cases h
  | some b =>
    simp only at h
    split at h
    · next rt hrt =>
      have hlock : FirstLock db rev.external rev.roomTypeId rev.nights .modified ↔
          db.ledger.Open rt (sortedDates b.nights) 0 := by
        simp [FirstLock, hfound, hrt, open_sortedDates]
      rw [hlock]
      rcases exec_bind_error.mp h with hfst | ⟨rows, db₁, hrows, h⟩
      · exact exec_release_refused_iff (exec_bind_error.mpr (.inl hfst))
      rcases exec_bind_error.mp h with hdec | ⟨_, db₂, hdec, h⟩
      · exact exec_release_refused_iff (exec_bind_error.mpr (.inr ⟨rows, db₁, hrows, hdec⟩))
      obtain ⟨-, -, hopen⟩ := exec_lockAndValidate_ok.mp hrows
      obtain ⟨-, rfl⟩ := exec_lock_decrement_ok.mp
        (exec_bind_ok.mpr ⟨rows, db₁, hrows, hdec⟩)
      rcases exec_bind_error.mp h with hsnd | ⟨rows', db₃, hrows', h⟩
      · obtain ⟨rfl, -⟩ := exec_lock_refused hsnd
        have hne : sortedDates b.nights ≠ [] := by
          obtain ⟨d, rest, hnights⟩ :=
            List.exists_cons_of_ne_nil (nights_ne_nil_of_single hrt)
          refine List.ne_nil_of_mem (a := d) (mem_sortedDates.mpr ?_)
          rw [hnights]
          exact List.mem_cons_self ..
        exact records_eq_iff (fun hnot => absurd hopen hnot) fun _ =>
          ledger_ne_of_shift hne hopen (by decide)
      · refine absurd hhandled (not_handled h ?_)
        exact raises_bind raises_increment fun _ => raises_bind (raises_modify _) fun _ =>
          raises_bind (raises_updatePlanAndTotal id id) fun _ =>
            raises_bind (raises_flushLines id id) fun _ =>
              raises_bind (raises_replaceTaxes id (fun _ => TaxError.not_handled) id) fun _ =>
                raises_bind (raises_folioCharge id) fun _ =>
                  raises_bind (raises_updateGuest id) fun _ =>
                  raises_bind (raises_modify _) fun _ =>
                    raises_pure _
    · cases h

theorem ingestModified_failed {env : Env} (h : (ingestModified env rev).exec db = (.ok r, db'))
    (hfailed : r.success = false) :
    db'.records = db.records ∧
      ¬ FirstLock db rev.external rev.roomTypeId rev.nights .modified := by
  simp only [ingestModified, exec_bind_ok, exec_select, Prod.mk.injEq, Except.ok.injEq] at h
  obtain ⟨found, _, ⟨hfound, rfl⟩, h⟩ := h
  cases found with
  | none =>
    cases h
    refine ⟨rfl, ?_⟩
    rintro ⟨b, -, hb, -⟩
    cases hfound.symm.trans hb
  | some b =>
    simp only at h
    split at h
    · simp only [exec_bind_ok, exec_pure] at h
      obtain ⟨_, _, -, _, _, -, _, _, -, _, _, -, _, _, -, _, _, -, _, _, -, _, _, -, _, _, -,
        _, _, -, _, _, -, hret⟩ := h
      cases hret
      cases hfailed
    · next hmixed =>
      cases h
      refine ⟨rfl, ?_⟩
      rintro ⟨b', rt, hb, hrt, -⟩
      cases hfound.symm.trans hb
      exact hmixed rt hrt

/-- A guest that cannot be created is found out after the rooms are taken. -/
theorem ingestNew_raised_iff {env : Env} (hnights : rev.nights ≠ []) (hhandled : e.Handled)
    (h : (ingestNew env rev).exec db = (.error e, db')) :
    db'.records = db.records ↔ ¬ FirstLock db rev.external rev.roomTypeId rev.nights .new := by
  simp only [ingestNew, exec_bind_error, exec_select, Prod.mk.injEq, reduceCtorEq,
    false_and, false_or, Except.ok.injEq] at h
  obtain ⟨found, _, ⟨hfound, rfl⟩, h⟩ := h
  cases found with
  | some b => cases h
  | none =>
    have hlock : FirstLock db rev.external rev.roomTypeId rev.nights .new ↔
        db.ledger.Open rev.roomTypeId rev.nights 1 := by
      simp [FirstLock, hfound]
    rw [hlock]
    simp only at h
    rcases exec_bind_error.mp h with hfst | ⟨rows, db₁, hrows, h⟩
    · obtain ⟨rfl, hnot⟩ := exec_lock_refused hfst
      exact iff_of_true rfl hnot
    rcases exec_bind_error.mp h with hinc | ⟨_, db₂, hinc, h⟩
    · rw [exec_incrementBookedRooms] at hinc
      cases hinc
    obtain ⟨hopen, rfl⟩ := exec_claim_nights_ok hrows hinc
    refine records_eq_iff (fun hnot => absurd hopen hnot) fun _ => ?_
    rcases exec_bind_error.mp h with hguest | ⟨guest, db₃, hguest, h⟩
    · have hkept : db'.ledger = _ := (keeps_getOrCreateGuest fun _ _ => rfl).eq hguest
      rw [hkept]
      exact ledger_ne_of_shift hnights hopen (by decide)
    · refine absurd hhandled (not_handled h ?_)
      exact raises_bind (raises_modify _) fun _ => raises_bind unhandled_insertBooking fun _ =>
        raises_bind (raises_modify _) fun _ => raises_pure _

/-- With an unused guest id there is always a guest. -/
theorem exec_getOrCreateGuest_fresh {env : Env} {payload : GuestPayload}
    (hfresh : db.guests.find env.guestId = none) :
    (getOrCreateGuestForBooking env payload false).exec db ≠ (.error e, db') := by
  intro h
  simp only [getOrCreateGuestForBooking, Bool.false_eq_true, if_false, exec_bind_error,
    exec_select, Prod.mk.injEq, reduceCtorEq, false_and, false_or, Except.ok.injEq] at h
  obtain ⟨existing, _, ⟨hexisting, rfl⟩, h⟩ := h
  cases existing with
  | some g => cases h
  | none =>
    have hclash : ((findGuestByEmail (payload.toGuest env.guestId).email db).isSome ||
        (db.guests.find (payload.toGuest env.guestId).id).isSome) = false := by
      have hid : db.guests.find (payload.toGuest env.guestId).id = none := hfresh
      rw [hexisting, hid]
      rfl
    have hinserted : (flushGuest (payload.toGuest env.guestId)).exec db = (.ok true,
        { db with guests := db.guests.insert (payload.toGuest env.guestId) }) := by
      rw [flushGuest, exec_bind]
      simp only [exec_select, hclash]
      rfl
    rw [exec_bind, hinserted] at h
    cases h

theorem ingestNew_raised_fresh {env : Env} (hfresh : db.guests.find env.guestId = none)
    (hhandled : e.Handled) (h : (ingestNew env rev).exec db = (.error e, db')) :
    db'.records = db.records := by
  simp only [ingestNew, exec_bind_error, exec_select, Prod.mk.injEq, reduceCtorEq,
    false_and, false_or, Except.ok.injEq] at h
  obtain ⟨found, _, ⟨-, rfl⟩, h⟩ := h
  cases found with
  | some b => cases h
  | none =>
    simp only at h
    rcases exec_bind_error.mp h with hfst | ⟨rows, db₁, hrows, h⟩
    · rw [(exec_lock_refused hfst).1]
    rcases exec_bind_error.mp h with hinc | ⟨_, db₂, hinc, h⟩
    · rw [exec_incrementBookedRooms] at hinc
      cases hinc
    obtain ⟨-, rfl⟩ := exec_claim_nights_ok hrows hinc
    rcases exec_bind_error.mp h with hguest | ⟨guest, db₃, hguest, h⟩
    · exact absurd hguest (exec_getOrCreateGuest_fresh hfresh)
    · refine absurd hhandled (not_handled h ?_)
      exact raises_bind (raises_modify _) fun _ => raises_bind unhandled_insertBooking fun _ =>
        raises_bind (raises_modify _) fun _ => raises_pure _

theorem ingestNew_succeeds {env : Env} (h : (ingestNew env rev).exec db = (.ok r, db')) :
    r.success = true := by
  simp only [ingestNew, exec_bind_ok, exec_select, Prod.mk.injEq, Except.ok.injEq] at h
  obtain ⟨found, _, ⟨-, rfl⟩, h⟩ := h
  cases found with
  | some b =>
    cases h
    rfl
  | none =>
    simp only [exec_bind_ok, exec_pure] at h
    obtain ⟨_, _, -, _, _, -, ⟨guest, merged⟩, _, -, _, _, -, _, _, -, _, _, -, hret⟩ := h
    cases hret
    rfl

end Branches

/-! The whole ingest -/

section Ingest
variable {db db' : Db} {r : ChannexIngestResult}

theorem records_failRevision {rid : String} {e : RevisionError} {r' : ChannexIngestResult} :
    Keeps Db.records (failRevision rid e >>= fun _ => (pure r' : Tx ChannexIngestResult)) :=
  keeps_bind (keeps_modify fun _ => rfl) fun _ => keeps_pure _

theorem records_handleIngestError {rev : Revision} {e : Err} :
    Keeps Db.records (handleIngestError rev e) := by
  unfold handleIngestError
  split
  · exact records_failRevision
  · exact records_failRevision
  · exact records_failRevision
  · exact keeps_raise _
  · exact keeps_raise _

theorem applyRevision_failed_iff {env : Env} {kind : RevisionKind} {rev : Revision}
    (hnights : rev.nights ≠ []) (h : (applyRevision env kind rev).exec db = (.ok r, db'))
    (hfailed : r.success = false) :
    db'.records = db.records ↔ ¬ FirstLock db rev.external rev.roomTypeId rev.nights kind := by
  unfold applyRevision at h
  rw [exec_tryCatch] at h
  split at h
  · next hexec =>
    cases h
    cases kind with
    | cancelled =>
      obtain ⟨hsame, hnot⟩ := ingestCancelled_failed hexec hfailed
      exact iff_of_true hsame hnot
    | modified =>
      obtain ⟨hsame, hnot⟩ := ingestModified_failed hexec hfailed
      exact iff_of_true hsame hnot
    | new => cases hfailed.symm.trans (ingestNew_succeeds hexec)
  · next e db₁ hexec =>
    obtain ⟨hhandled, -, -⟩ := exec_handleIngestError_ok h
    rw [records_handleIngestError.eq h]
    cases kind with
    | cancelled => exact ingestCancelled_raised_iff hhandled hexec
    | modified => exact ingestModified_raised_iff hhandled hexec
    | new => exact ingestNew_raised_iff hnights hhandled hexec

/-- A new booking that is refused leaves no trace as long as its guest id is unused. -/
theorem failed_new_keeps {env : Env} {rev : Revision}
    (hfresh : db.guests.find env.guestId = none)
    (h : (applyRevision env .new rev).exec db = (.ok r, db')) (hfailed : r.success = false) :
    db'.records = db.records := by
  unfold applyRevision at h
  rw [exec_tryCatch] at h
  split at h
  · next hexec =>
    cases h
    cases hfailed.symm.trans (ingestNew_succeeds hexec)
  · next e db₁ hexec =>
    obtain ⟨hhandled, -, -⟩ := exec_handleIngestError_ok h
    rw [records_handleIngestError.eq h]
    exact ingestNew_raised_fresh hfresh hhandled hexec

theorem exec_resolveMaps_none {linkId : UUID} {cxRoomType cxRatePlan : String}
    (h : (resolveRoomAndRateMaps linkId cxRoomType cxRatePlan).exec db = (.ok none, db')) :
    ∀ rtm, (db.roomTypeMaps.find? fun m =>
        m.propertyLinkId = linkId && m.channexRoomTypeId = Text.strip cxRoomType) = some rtm →
      (db.ratePlanMaps.find? fun m =>
        m.roomTypeMapId = rtm.id && m.channexRatePlanId = Text.strip cxRatePlan) = none := by
  simp only [resolveRoomAndRateMaps, exec_bind_ok, exec_select, Prod.mk.injEq,
    Except.ok.injEq] at h
  obtain ⟨found, _, ⟨hfound, rfl⟩, h⟩ := h
  intro rtm hrtm
  rw [hrtm] at hfound
  subst hfound
  simp only [exec_bind_ok, exec_select, exec_pure, Prod.mk.injEq, Except.ok.injEq] at h
  obtain ⟨rpm, _, ⟨hrpm, rfl⟩, hnone, -⟩ := h
  rw [hrpm]
  exact Option.map_eq_none_iff.mp hnone

/-- The call of a worker, whose session has loaded a revision before it or not. -/
structure IngestCall where
  loaded : Option ChannexBookingRevision
  env : Env
  link : ChannexPropertyLink
  revisionFlat : Option ChannexBookingRevisionPayload

namespace IngestCall

def prog (call : IngestCall) : Tx ChannexIngestResult :=
  ingestInSession call.loaded call.env call.link call.revisionFlat

/-- The call returns, and reports that the revision was not applied. -/
def Fails (call : IngestCall) (db : Db) : Prop :=
  ∃ r db', call.prog.exec db = (.ok r, db') ∧ r.success = false

/-- The payload passes the checks, and its branch gets the ledger rows it locks first. -/
def GetsFirstLock (call : IngestCall) (db : Db) : Prop :=
  ∃ payload roomTypeId, call.revisionFlat = some payload ∧ Text.strip payload.id ≠ "" ∧
    mappedRoomType call.link payload db = some roomTypeId ∧ StayLocked payload roomTypeId db

end IngestCall

theorem ingestMapped_failed_iff {env : Env} {link : ChannexPropertyLink}
    {payload : ChannexBookingRevisionPayload} {roomTypeId ratePlanId : UUID}
    (h : (ingestMapped env link (Text.strip payload.id) payload roomTypeId ratePlanId).exec db =
      (.ok r, db')) (hfailed : r.success = false) :
    db'.records = db.records ↔ ¬ StayLocked payload roomTypeId db := by
  unfold ingestMapped at h
  simp only at h
  split at h
  · next checkIn checkOut hdates =>
    split at h
    · next hle =>
      refine iff_of_true (records_failRevision.eq h) ?_
      rintro ⟨ci, co, hdates', hlt, -⟩
      cases hdates.symm.trans hdates'
      omega
    · simp only [exec_bind_ok, exec_stayNights_ok] at h
      obtain ⟨nights, _, ⟨hnights, rfl⟩, h⟩ := h
      obtain ⟨hlt, hspan, rfl⟩ := iterStayNights_ok hnights
      rw [if_neg (daysBetween_ne_nil hlt)] at h
      simp only [exec_bind_ok, exec_ofExcept_ok] at h
      obtain ⟨total, _, ⟨-, rfl⟩, guest, _, ⟨-, rfl⟩, h⟩ := h
      have happly : (applyRevision env (revisionKind payload) (revisionOf link payload roomTypeId
          ratePlanId (daysBetween checkIn checkOut) total guest)).exec db = (.ok r, db') := h
      have hiff := applyRevision_failed_iff (daysBetween_ne_nil hlt) happly hfailed
      rw [external_revisionOf] at hiff
      simp only [revisionOf] at hiff
      exact hiff.trans (not_congr (stayLocked_iff hdates hlt).symm)
  · next hdates =>
    refine iff_of_true (records_failRevision.eq h) ?_
    rintro ⟨ci, co, hdates', -⟩
    exact hdates ci co hdates'

theorem ingestClaimed_failed_iff {env : Env} {link : ChannexPropertyLink}
    {payload : ChannexBookingRevisionPayload}
    (h : (ingestClaimed env link payload).exec db = (.ok r, db')) (hfailed : r.success = false) :
    db'.records = db.records ↔
      ¬ ∃ roomTypeId, mappedRoomType link payload db = some roomTypeId ∧
        StayLocked payload roomTypeId db := by
  unfold ingestClaimed at h
  simp only at h
  split at h
  · next hids =>
    refine iff_of_true (records_failRevision.eq h) ?_
    rintro ⟨rt, hmapped, -⟩
    simp [mappedRoomType, hids] at hmapped
  · next cxRoomType cxRatePlan hids =>
    obtain ⟨maps, db₂, hmaps, h⟩ := exec_bind_ok.mp h
    obtain ⟨rfl, hfound⟩ := exec_resolveMaps_ok hmaps
    split at h
    · refine iff_of_true (records_failRevision.eq h) ?_
      rintro ⟨rt, hmapped, -⟩
      have hnone := exec_resolveMaps_none hmaps
      simp only [mappedRoomType, hids, Option.bind_eq_bind, Option.bind_some,
        Option.bind_eq_some_iff] at hmapped
      obtain ⟨rtm, hrtm, rpm, hrpm, -⟩ := hmapped
      cases (hnone rtm hrtm).symm.trans hrpm
    · next rtm rpm =>
      obtain ⟨hrtm, hrpm⟩ := hfound rtm rpm rfl
      have hmapped : mappedRoomType link payload db = some rtm.roomTypeId := by
        have hrtm' : (db.roomTypeMaps.find? fun m => m.propertyLinkId = link.id &&
          m.channexRoomTypeId = Text.strip cxRoomType) = some rtm := hrtm
        have hrpm' : (db.ratePlanMaps.find? fun m => m.roomTypeMapId = rtm.id &&
          m.channexRatePlanId = Text.strip cxRatePlan) = some rpm := hrpm
        simp [mappedRoomType, hids, hrtm', hrpm']
      rw [hmapped]
      refine (ingestMapped_failed_iff h hfailed).trans (not_congr ?_)
      simp only [Option.some.injEq, exists_eq_left']

theorem failed_call_iff {call : IngestCall} (h : call.prog.exec db = (.ok r, db'))
    (hfailed : r.success = false) :
    db'.records = db.records ↔ ¬ call.GetsFirstLock db := by
  obtain ⟨loaded, env, link, flat⟩ := call
  unfold IngestCall.prog ingestInSession at h
  simp only at h
  split at h
  · cases h
    refine iff_of_true rfl ?_
    rintro ⟨_, _, hflat, -⟩
    cases hflat
  · next payload =>
    have hgets : IngestCall.GetsFirstLock ⟨loaded, env, link, some payload⟩ db ↔
        Text.strip payload.id ≠ "" ∧ ∃ roomTypeId,
          mappedRoomType link payload db = some roomTypeId ∧ StayLocked payload roomTypeId db := by
      constructor
      · rintro ⟨payload', rt, hflat, hrest⟩
        obtain rfl := Option.some.inj hflat
        exact ⟨hrest.1, rt, hrest.2⟩
      · rintro ⟨hid, rt, hrest⟩
        exact ⟨payload, rt, rfl, hid, hrest⟩
    rw [hgets]
    split at h
    · next hid =>
      cases h
      exact iff_of_true rfl fun hgets => hgets.1 hid
    · next hid =>
      obtain ⟨claimed, db₁, hclaim, h⟩ := exec_bind_ok.mp h
      obtain ⟨-, -, revisions, rfl⟩ := exec_claimRevisionRow hclaim
      split at h
      · cases h
        cases hfailed
      · rw [and_iff_right hid]
        have hiff := ingestClaimed_failed_iff h hfailed
        simp only [stayLocked_revisions] at hiff
        exact hiff

end Ingest

/-! Retries -/

/-- Calls one after another, each in its own transaction, with the states they start from. -/
def attempts : List IngestCall → Db → List (IngestCall × Db)
  | [], _ => []
  | call :: rest, db => (call, db) :: attempts rest (call.prog.transact db)

/-- Failing calls leave the ledger, bookings, lines, folio and guests as they were exactly
when none of them gets its first lock. -/
theorem failed_ingests_keep_iff {calls : List IngestCall} {db : Db}
    (hfails : ∀ a ∈ attempts calls db, a.1.Fails a.2) :
    (∀ a ∈ attempts calls db, (a.1.prog.transact a.2).records = db.records) ↔
      ∀ a ∈ attempts calls db, ¬ a.1.GetsFirstLock a.2 := by
  induction calls generalizing db with
  | nil => simp [attempts]
  | cons call rest ih =>
    simp only [attempts, List.forall_mem_cons] at hfails ⊢
    obtain ⟨⟨r, db₁, hexec, hfailed⟩, hrest⟩ := hfails
    have hhead := failed_call_iff hexec hfailed
    rw [transact_ok hexec] at hrest ⊢
    have htail := ih hrest
    constructor
    · rintro ⟨hsame, hall⟩
      rw [← hsame] at hall
      exact ⟨hhead.mp hsame, htail.mp hall⟩
    · rintro ⟨hnot, hall⟩
      have hsame := hhead.mpr hnot
      rw [← hsame]
      exact ⟨rfl, htail.mpr hall⟩

theorem fails_of_fst {call : IngestCall} {db : Db}
    (h : (call.prog.exec db).1.toOption.map (·.success) = some false) : call.Fails db := by
  obtain ⟨r, hr, hfailed⟩ := Option.map_eq_some_iff.mp h
  cases hexec : (call.prog.exec db).1 with
  | error e =>
    rw [hexec] at hr
    cases hr
  | ok a =>
    rw [hexec] at hr
    cases hr
    exact ⟨r, _, exec_eq_transact hexec, hfailed⟩

theorem not_getsFirstLock_new {call : IngestCall} {payload : ChannexBookingRevisionPayload}
    {db : Db} {rt : UUID} {checkIn checkOut d : ℤ} (hflat : call.revisionFlat = some payload)
    (hkind : revisionKind payload = .new) (hmapped : mappedRoomType call.link payload db = some rt)
    (hdates : checkInOut payload = (some checkIn, some checkOut)) (hlt : checkIn < checkOut)
    (hd : d ∈ daysBetween checkIn checkOut) (hrow : db.ledger.row rt d = none) :
    ¬ call.GetsFirstLock db := by
  rintro ⟨payload', rt', hflat', -, hmapped', hstay⟩
  obtain rfl := Option.some.inj (hflat.symm.trans hflat')
  obtain rfl := Option.some.inj (hmapped.symm.trans hmapped')
  rw [stayLocked_iff hdates hlt, hkind] at hstay
  obtain ⟨c, hc, -⟩ := hstay.2 d hd
  cases hrow.symm.trans hc

namespace Demo

/-- The night of the revision lies past the seeded ledger. -/
def farRevision (bookingId status : String) : ChannexBookingRevisionPayload :=
  { revision "r1" status with
    bookingId := some bookingId, arrivalDate := .text (some 5000),
    departureDate := .text (some 5001) }

def farCall (bookingId status : String) : IngestCall :=
  ⟨none, env 0 0 0, link, some (farRevision bookingId status)⟩

/-- The ledger after so many deliveries of the revision. -/
def delivered (call : IngestCall) : ℕ → Db
  | 0 => sold
  | n + 1 => call.prog.transact (delivered call n)

end Demo

set_option maxRecDepth 100000 in
/-- A new booking that is refused changes nothing. -/
theorem failed_new_keeps_demo :
    (Demo.delivered (Demo.farCall "Y" "new") 1).records = Demo.sold.records := by
  have hfails : (Demo.farCall "Y" "new").Fails Demo.sold := fails_of_fst (by decide +kernel)
  have hkind : revisionKind (Demo.farRevision "Y" "new") = .new := by decide +kernel
  have hdates : checkInOut (Demo.farRevision "Y" "new") = (some 5000, some 5001) := by
    decide +kernel
  have hmapped : mappedRoomType Demo.link (Demo.farRevision "Y" "new") Demo.sold = some 10 := by
    decide +kernel
  have hrow : Demo.sold.ledger.row 10 5000 = none := by decide +kernel
  have hnot : ¬ (Demo.farCall "Y" "new").GetsFirstLock Demo.sold :=
    not_getsFirstLock_new rfl hkind hmapped hdates (by decide)
      (mem_daysBetween.mpr ⟨le_refl 5000, by decide⟩) hrow
  have hiff := @failed_ingests_keep_iff [Demo.farCall "Y" "new"] Demo.sold
    (by simpa [attempts] using hfails)
  have hall := hiff.mpr (by simpa [attempts] using hnot)
  simp only [attempts, List.forall_mem_cons] at hall
  exact hall.1

set_option maxRecDepth 100000 in
/-- A modification that is refused gives up the old night, and so does each retry of it. -/
theorem failed_modification_releases :
    (Demo.farCall "X" "modified").Fails (Demo.delivered (Demo.farCall "X" "modified") 0) ∧
    (Demo.farCall "X" "modified").Fails (Demo.delivered (Demo.farCall "X" "modified") 1) ∧
    (Demo.delivered (Demo.farCall "X" "modified") 1).records ≠ Demo.sold.records ∧
    Demo.sold.ledger.row 10 3 = some ⟨2, 2, 0⟩ ∧
    (Demo.delivered (Demo.farCall "X" "modified") 2).ledger.row 10 3 = some ⟨2, 0, 0⟩ := by
  have hbefore : Demo.sold.ledger.row 10 3 = some ⟨2, 2, 0⟩ := by decide +kernel
  have hafter : (Demo.delivered (Demo.farCall "X" "modified") 1).ledger.row 10 3 =
      some ⟨2, 1, 0⟩ := by decide +kernel
  refine ⟨fails_of_fst (by decide +kernel), fails_of_fst (by decide +kernel), ?_, hbefore,
    by decide +kernel⟩
  intro hsame
  have hledger : (Demo.delivered (Demo.farCall "X" "modified") 1).ledger =
      Demo.sold.ledger := congrArg Prod.fst hsame
  rw [hledger, hbefore] at hafter
  cases hafter

end OpenPms
