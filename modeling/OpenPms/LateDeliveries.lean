import OpenPms.ExternalIds
import OpenPms.IngestAnswers

/-!
Deliveries and retries of booking revisions, one after another. The ingest asks only whether
the revision itself is done, so that one that failed before can be applied after a newer one.
What a booking shows is changed by no other delivery than one that applies a cancelled or
modified revision of it.
-/
namespace OpenPms

open KeyedTable Transaction Prog Hotel

/-! What a booking shows -/

/-- What a revision says of its booking. -/
structure Standing where
  nights : List ℤ
  roomTypes : List UUID
  total : Money
  status : BookingStatus
  deriving DecidableEq

def Booking.standing (b : Booking) : Standing :=
  ⟨b.nights, lineRoomTypes b.lines, b.totalAmount, b.status⟩

/-- What the booking with the external id shows. -/
def standingOf (external : String) (db : Db) : Option Standing :=
  (findByExternal external db).map Booking.standing

/-- The dates, the room type and the total of a revision that is mapped to `rt`. -/
structure Standing.Keeps (payload : ChannexBookingRevisionPayload) (rt : UUID) (s : Standing) :
    Prop where
  dates : ∃ ci co, checkInOut payload = (some ci, some co) ∧ s.nights = daysBetween ci co
  roomType : s.roomTypes = [rt]
  total : decimalAmount payload.amount = .ok s.total

/-- A new booking is confirmed, a modified one is not cancelled. -/
inductive RevisionKind.Status : RevisionKind → BookingStatus → Prop
  | cancelled : Status .cancelled .cancelled
  | modified {s : BookingStatus} (h : s ≠ .cancelled) : Status .modified s
  | new : Status .new .confirmed

/-- The booking of the revision shows what the revision says. -/
def ShowsRevision (payload : ChannexBookingRevisionPayload) (rt : UUID) (db : Db) : Prop :=
  ∃ s, standingOf (externalKey payload) db = some s ∧ s.Keeps payload rt ∧
    (revisionKind payload).Status s.status

section Rows
variable {db db' : Db} {external other : String} {b c : Booking}

theorem standing_setRoom (room : Option UUID) (b : Booking) :
    (setRoom room b).standing = b.standing := by
  simp [Booking.standing, Booking.nights, setRoom, lineRoomTypes, Function.comp_def]

theorem findByExternal_update {bid : UUID} {f : Booking → Booking}
    {hf : ∀ b, (f b).id = b.id} (hext : ∀ b, (f b).externalBookingId = b.externalBookingId)
    (h : db'.bookings = db.bookings.update bid f hf) :
    findByExternal external db' =
      (findByExternal external db).map fun c => if c.id = bid then f c else c := by
  have hrows : db'.bookings.rows = db.bookings.rows.map fun c => if c.id = bid then f c else c := by
    rw [h]
    rfl
  unfold findByExternal
  rw [hrows, List.find?_map]
  congr 2
  funext c
  simp only [Function.comp_apply]
  split
  · rw [hext]
  · rfl

theorem findByExternal_eq_some (h : findByExternal external db = some b) :
    b ∈ db.bookings.rows ∧ b.externalBookingId = some external :=
  ⟨List.mem_of_find?_eq_some h, by simpa using List.find?_some h⟩

/-- Bookings with other external ids are other rows. -/
theorem id_ne_of_external (hb : findByExternal external db = some b)
    (hc : findByExternal other db = some c) (hne : other ≠ external) : c.id ≠ b.id := by
  intro hid
  have hfind := find_of_external hc
  rw [hid, find_of_external hb] at hfind
  obtain rfl := Option.some.inj hfind
  have hexternal := (findByExternal_eq_some hb).2
  rw [(findByExternal_eq_some hc).2] at hexternal
  exact hne (Option.some.inj hexternal)

theorem findByExternal_updated {f : Booking → Booking} {hf : ∀ b, (f b).id = b.id}
    (hext : ∀ b, (f b).externalBookingId = b.externalBookingId)
    (hb : findByExternal external db = some b)
    (h : db'.bookings = db.bookings.update b.id f hf) :
    findByExternal external db' = some (f b) := by
  rw [findByExternal_update hext h, hb, Option.map_some, if_pos rfl]

theorem findByExternal_updated_other {f : Booking → Booking} {hf : ∀ b, (f b).id = b.id}
    (hext : ∀ b, (f b).externalBookingId = b.externalBookingId)
    (hb : findByExternal external db = some b) (hne : other ≠ external)
    (h : db'.bookings = db.bookings.update b.id f hf) :
    findByExternal other db' = findByExternal other db := by
  rw [findByExternal_update hext h]
  cases hc : findByExternal other db with
  | none => rfl
  | some c => rw [Option.map_some, if_neg (id_ne_of_external hb hc hne)]

theorem findByExternal_congr (h : db'.bookings = db.bookings) :
    findByExternal external db' = findByExternal external db := by
  rw [findByExternal, findByExternal, h]

theorem findByExternal_appended (hrows : db'.bookings.rows = db.bookings.rows ++ [c]) :
    findByExternal external db' = (findByExternal external db).or
      (if c.externalBookingId = some external then some c else none) := by
  unfold findByExternal
  rw [hrows, List.find?_append]
  congr 1
  simp

end Rows

section Branches
variable {db db' : Db} {env : Env} {rev : Revision} {kind : RevisionKind}
  {r : ChannexIngestResult} {external : String}

/-- The stay that a revision asks for. -/
def Revision.standing (rev : Revision) (status : BookingStatus) : Standing :=
  ⟨rev.nights, [rev.roomTypeId], rev.total, status⟩

theorem standing_newLines (hpriced : rev.Priced) {b : Booking}
    (hlines : b.lines = newLines rev.roomTypeId rev.perNight) (htotal : b.totalAmount = rev.total) :
    b.standing = rev.standing b.status := by
  have hdates : b.nights = rev.nights := by
    have hcomp : ((·.date) : BookingLine → ℤ) ∘
        (fun np : ℤ × Money => (⟨np.1, rev.roomTypeId, none, np.2⟩ : BookingLine)) = (·.1) := rfl
    rw [Booking.nights, hlines, newLines, List.map_map, hcomp, hpriced.perNight, nightlyPrices_fst]
  have hne : rev.perNight ≠ [] := by
    obtain ⟨ci, co, hlt, -, hnights⟩ := hpriced.stay
    rintro hnil
    have hfst := nightlyPrices_fst rev.total rev.nights
    rw [← hpriced.perNight, hnil] at hfst
    exact daysBetween_ne_nil hlt (hnights ▸ hfst.symm)
  rw [Booking.standing, hdates, hlines, lineRoomTypes_newLines hne, htotal, Revision.standing]

theorem standingOf_congr (h : db'.bookings = db.bookings) :
    standingOf external db' = standingOf external db := by
  rw [standingOf, standingOf, findByExternal_congr h]

/-- The rooms of the lines are no part of what a booking shows. -/
theorem standingOf_setRoom {bid : UUID} {room : Option UUID}
    (h : db'.bookings = db.bookings.update bid (setRoom room) (id_setRoom _)) :
    standingOf external db' = standingOf external db := by
  rw [standingOf, standingOf, findByExternal_update (f := setRoom room) (fun _ => rfl) h,
    Option.map_map]
  congr 1
  funext b
  rw [Function.comp_apply]
  split
  · rw [standing_setRoom]
  · rfl

theorem standingOf_pickAndAssign {propertyId rt bid : UUID} {nights : List ℤ}
    {picked : Option UUID} {db₁ : Db} {u : Unit}
    (hpick : (pickFirstFreeRoomForStay propertyId rt nights bid).exec db = (.ok picked, db₁))
    (h : (assignPicked bid picked).exec db₁ = (.ok u, db')) :
    standingOf external db' = standingOf external db := by
  have hsame := exec_pickFirstFreeRoom_ok hpick
  subst hsame
  cases picked with
  | none =>
    cases h
    rfl
  | some room =>
    have hassign : (assignBookingRoom bid (some room)).exec db = (.ok u, db') := h
    obtain ⟨b, -, -, -, rfl⟩ := exec_assignBookingRoom_ok hassign
    exact standingOf_setRoom rfl

/-- The rows of a new booking come after all the others. -/
theorem standingOf_insertBooking {b : Booking} {rt : UUID} {perNight : List (ℤ × Money)}
    {description : String} {u : Unit} (hlines : b.lines = [])
    (h : (insertBooking env b rt perNight description).exec db = (.ok u, db')) :
    standingOf external db' = (standingOf external db).or
      (if b.externalBookingId = some external
        then some ({ b with lines := newLines rt perNight } : Booking).standing else none) := by
  simp only [insertBooking, exec_bind_ok] at h
  obtain ⟨_, db₁, hrows, _, _, hpick, hassign⟩ := h
  obtain ⟨hfresh, hhotel⟩ := exec_insertRows_ok hlines hrows
  have hbookings : db₁.bookings.rows = db.bookings.rows ++
      [{ b with lines := newLines rt perNight }] :=
    (congrArg (fun h : Hotel => h.bookings.rows) hhotel).trans (Table.insert_rows hfresh)
  rw [standingOf_pickAndAssign hpick hassign, standingOf, findByExternal_appended hbookings,
    Option.map_or, standingOf]
  congr 1
  split
  · rfl
  · rfl

/-- What the branch of a revision makes of its booking, and whether it says so. -/
inductive Restands (db : Db) (env : Env) (kind : RevisionKind) (rev : Revision) :
    Bool → Option Standing → Prop
  | failed : Restands db env kind rev false (standingOf rev.external db)
  | repeated (b : Booking) (hkind : kind = .new)
      (hfound : findByExternal rev.external db = some b) :
      Restands db env kind rev true (some b.standing)
  | new (hkind : kind = .new) (hnone : findByExternal rev.external db = none) :
      Restands db env kind rev true (some (rev.standing .confirmed))
  | cancelledBefore (b : Booking) (hkind : kind = .cancelled)
      (hfound : findByExternal rev.external db = some b) (hstatus : b.status = .cancelled) :
      Restands db env kind rev true (some b.standing)
  | cancelled (b : Booking) (hkind : kind = .cancelled)
      (hfound : findByExternal rev.external db = some b) (hstatus : b.status ≠ .cancelled)
      (hreleasable : ∀ rt, lineRoomTypes b.lines = [rt] → db.ledger.Releasable rt b.nights) :
      Restands db env kind rev true (some { b.standing with status := .cancelled })
  | modified (b : Booking) (old : UUID) (hkind : kind = .modified)
      (hmodifies : Modifies db rev b old) (hrefused : ¬ ModificationRefused db env rev b) :
      Restands db env kind rev true (some (rev.standing b.status))

theorem standingOf_found {b : Booking} (h : findByExternal external db = some b) :
    standingOf external db = some b.standing := by
  rw [standingOf, h, Option.map_some]

theorem standingOf_hotel (h : db'.hotel = db.hotel) :
    standingOf external db' = standingOf external db :=
  standingOf_congr (congrArg Hotel.bookings h)

theorem Restands.of_failed (hkept : standingOf rev.external db' = standingOf rev.external db)
    (hfailed : r.success = false) :
    Restands db env kind rev r.success (standingOf rev.external db') := by
  rw [hkept, hfailed]
  exact .failed

theorem ingestCancelled_restands (h : (ingestCancelled rev).exec db = (.ok r, db')) :
    Restands db env .cancelled rev r.success (standingOf rev.external db') := by
  rcases exec_ingestCancelled_ok h with ⟨hfailed, hhotel⟩ | ⟨hsuccess, b, hfound, hcases⟩
  · exact .of_failed (standingOf_hotel hhotel) hfailed
  · rw [hsuccess]
    rcases hcases with ⟨hstatus, hhotel⟩ | ⟨hstatus, hreleasable, hhotel⟩
    · rw [standingOf_hotel hhotel, standingOf_found hfound]
      exact .cancelledBefore b rfl hfound hstatus
    · have hbookings : db'.bookings = db.bookings.update b.id (setStatus .cancelled)
          (id_setStatus _) := congrArg Hotel.bookings hhotel
      rw [standingOf_found (findByExternal_updated (f := setStatus .cancelled) (fun _ => rfl) hfound
        hbookings)]
      exact .cancelled b rfl hfound hstatus hreleasable

theorem ingestModified_restands (hpriced : rev.Priced)
    (h : (ingestModified env rev).exec db = (.ok r, db')) :
    Restands db env .modified rev r.success (standingOf rev.external db') := by
  obtain ⟨stay, hrt, hnights, hper, htotal⟩ := hpriced.exists_stay
  rcases exec_ingestModified_ok hrt hnights hper htotal h with ⟨hfailed, hhotel⟩ | happlied
  · exact .of_failed (standingOf_hotel hhotel) hfailed
  · obtain ⟨hsuccess, b, old, hfound, hsingle, hreleasable, hopen, hhotel⟩ := happlied
    have hmodifies : Modifies db rev b old :=
      ⟨hfound, hsingle, hreleasable, hrt ▸ hnights ▸ hopen⟩
    have hrefused : ¬ ModificationRefused db env rev b := by
      intro hrefused
      exact not_failsWith_of_ok h (fails_modified.mpr ⟨b, old, hmodifies, hrefused⟩)
    have hbookings : db'.bookings = db.bookings.update b.id (setLines stay (some rev.ratePlanId))
        (id_setLines _ _) := congrArg Hotel.bookings hhotel
    have hlines : stay.lines = newLines rev.roomTypeId rev.perNight := by
      rw [PricedStay.lines, hrt, hper]
    rw [hsuccess, standingOf_found (findByExternal_updated
      (f := setLines stay (some rev.ratePlanId)) (fun _ => rfl) hfound hbookings),
      standing_newLines hpriced (b := setLines stay (some rev.ratePlanId) b) hlines htotal]
    exact .modified b old rfl hmodifies hrefused

/-- A new revision is put behind the others, unless its booking is there. -/
theorem exec_ingestNew_standing (external : String) (hpriced : rev.Priced)
    (h : (ingestNew env rev).exec db = (.ok r, db')) : r.success = true ∧
      ((∃ b, findByExternal rev.external db = some b ∧
          standingOf external db' = standingOf external db) ∨
        findByExternal rev.external db = none ∧
          standingOf external db' = (standingOf external db).or
            (if some (Text.take 128 rev.external) = some external
              then some (rev.standing .confirmed) else none)) := by
  simp only [ingestNew, exec_bind_ok, exec_select, Prod.mk.injEq, Except.ok.injEq] at h
  obtain ⟨found, _, ⟨hfound, rfl⟩, h⟩ := h
  cases found with
  | some b =>
    cases h
    exact ⟨rfl, .inl ⟨b, hfound, rfl⟩⟩
  | none =>
    simp only [exec_bind_ok, exec_modify, finishRevision, updateRevision, exec_pure,
      Prod.mk.injEq] at h
    obtain ⟨_, _, hlock, _, _, hinc, ⟨guest, merged⟩, _, hguest, _, _, ⟨-, rfl⟩, _, db₁, hinsert,
      _, _, ⟨-, rfl⟩, hret, rfl⟩ := h
    cases hret
    obtain ⟨-, rfl⟩ := exec_claim_nights_ok hlock hinc
    refine ⟨rfl, .inr ⟨hfound, ?_⟩⟩
    change standingOf external db₁ = _
    rw [standingOf_insertBooking rfl hinsert, standing_newLines hpriced rfl rfl]
    congr 1
    exact standingOf_congr (congrArg Hotel.bookings (hotel_getOrCreateGuest hguest))

theorem ingestNew_restands (hpriced : rev.Priced)
    (hfit : Text.take 128 rev.external = rev.external)
    (h : (ingestNew env rev).exec db = (.ok r, db')) :
    Restands db env .new rev r.success (standingOf rev.external db') := by
  obtain ⟨hsuccess, ⟨b, hfound, hkept⟩ | ⟨hnone, hnew⟩⟩ :=
    exec_ingestNew_standing rev.external hpriced h
  · rw [hsuccess, hkept, standingOf_found hfound]
    exact .repeated b rfl hfound
  · rw [hsuccess, hnew, hfit, if_pos rfl, standingOf, hnone, Option.map_none, Option.none_or]
    exact .new rfl hnone

/-- An error that is handled has left the bookings alone. -/
theorem bookings_handled {e : Err} {db₁ : Db} {p : Tx ChannexIngestResult}
    (hkeeps : KeepsOn Db.capacity Err.Handled p) (hexec : p.exec db = (.error e, db₁))
    (h : (handleIngestError rev e).exec db₁ = (.ok r, db')) :
    r.success = false ∧ db'.bookings = db.bookings := by
  obtain ⟨hhandled, hfailed, hhotel⟩ := exec_handleIngestError_ok h
  have hcap : db₁.capacity = db.capacity := hkeeps db e db₁ hexec hhandled
  have hkept := congrArg Hotel.bookings (capacity_eq hcap).1
  exact ⟨hfailed, (congrArg Hotel.bookings hhotel).trans hkept⟩

/-- A revision that is applied has run its branch, or has met an error that is handled. -/
theorem exec_applyRevision_cases (h : (applyRevision env kind rev).exec db = (.ok r, db')) :
    r.success = false ∧ db'.bookings = db.bookings ∨
      kind = .cancelled ∧ (ingestCancelled rev).exec db = (.ok r, db') ∨
      kind = .modified ∧ (ingestModified env rev).exec db = (.ok r, db') ∨
      kind = .new ∧ (ingestNew env rev).exec db = (.ok r, db') := by
  unfold applyRevision at h
  rw [exec_tryCatch] at h
  split at h
  · next hexec =>
    cases h
    cases kind with
    | cancelled => exact .inr (.inl ⟨rfl, hexec⟩)
    | modified => exact .inr (.inr (.inl ⟨rfl, hexec⟩))
    | new => exact .inr (.inr (.inr ⟨rfl, hexec⟩))
  · next e db₁ hexec =>
    left
    cases kind with
    | cancelled =>
      exact bookings_handled (keepsOn_ingestCancelled ignoresCounters_capacity rev) hexec h
    | modified =>
      exact bookings_handled (keepsOn_ingestModified ignoresCounters_capacity env rev) hexec h
    | new => exact bookings_handled (keepsOn_ingestNew ignoresCounters_capacity env rev) hexec h

theorem applyRevision_restands (hpriced : rev.Priced)
    (hfit : Text.take 128 rev.external = rev.external)
    (h : (applyRevision env kind rev).exec db = (.ok r, db')) :
    Restands db env kind rev r.success (standingOf rev.external db') := by
  rcases exec_applyRevision_cases h with
    ⟨hfailed, hkept⟩ | ⟨rfl, hexec⟩ | ⟨rfl, hexec⟩ | ⟨rfl, hexec⟩
  · exact .of_failed (standingOf_congr hkept) hfailed
  · exact ingestCancelled_restands hexec
  · exact ingestModified_restands hpriced hexec
  · exact ingestNew_restands hpriced hfit hexec

/-! The bookings with other external ids -/

theorem standingOf_updated_other {b : Booking} {f : Booking → Booking} {hf : ∀ b, (f b).id = b.id}
    (hext : ∀ b, (f b).externalBookingId = b.externalBookingId) (hne : external ≠ rev.external)
    (hfound : findByExternal rev.external db = some b)
    (h : db'.bookings = db.bookings.update b.id f hf) :
    standingOf external db' = standingOf external db := by
  rw [standingOf, findByExternal_updated_other hext hfound hne h, standingOf]

theorem ingestCancelled_others (hne : external ≠ rev.external)
    (h : (ingestCancelled rev).exec db = (.ok r, db')) :
    standingOf external db' = standingOf external db := by
  rcases exec_ingestCancelled_ok h with ⟨-, hhotel⟩ | ⟨-, b, hfound, hcases⟩
  · exact standingOf_hotel hhotel
  · rcases hcases with ⟨-, hhotel⟩ | ⟨-, -, hhotel⟩
    · exact standingOf_hotel hhotel
    · have hbookings : db'.bookings = db.bookings.update b.id (setStatus .cancelled)
          (id_setStatus _) := congrArg Hotel.bookings hhotel
      exact standingOf_updated_other (f := setStatus .cancelled) (fun _ => rfl) hne hfound hbookings

theorem ingestModified_others (hpriced : rev.Priced) (hne : external ≠ rev.external)
    (h : (ingestModified env rev).exec db = (.ok r, db')) :
    standingOf external db' = standingOf external db := by
  obtain ⟨stay, hrt, hnights, hper, htotal⟩ := hpriced.exists_stay
  rcases exec_ingestModified_ok hrt hnights hper htotal h with ⟨-, hhotel⟩ | happlied
  · exact standingOf_hotel hhotel
  · obtain ⟨-, b, old, hfound, -, -, -, hhotel⟩ := happlied
    have hbookings : db'.bookings = db.bookings.update b.id (setLines stay (some rev.ratePlanId))
        (id_setLines _ _) := congrArg Hotel.bookings hhotel
    exact standingOf_updated_other (f := setLines stay (some rev.ratePlanId)) (fun _ => rfl) hne
      hfound hbookings

theorem applyRevision_others {s : Standing} (hpriced : rev.Priced) (hne : external ≠ rev.external)
    (hs : standingOf external db = some s)
    (h : (applyRevision env kind rev).exec db = (.ok r, db')) : standingOf external db' = some s := by
  rcases exec_applyRevision_cases h with ⟨-, hkept⟩ | ⟨-, h⟩ | ⟨-, h⟩ | ⟨-, h⟩
  · exact (standingOf_congr hkept).trans hs
  · exact (ingestCancelled_others hne h).trans hs
  · exact (ingestModified_others hpriced hne h).trans hs
  · obtain ⟨-, ⟨b, -, hkept⟩ | ⟨-, hnew⟩⟩ := exec_ingestNew_standing external hpriced h
    · exact hkept.trans hs
    · rw [hnew, hs, Option.some_or]

end Branches

/-! One delivery -/

section Deliveries
variable {db db' : Db} {w : Worker} {link : ChannexPropertyLink}
  {payload : ChannexBookingRevisionPayload}

def Worker.env : Worker → Env
  | .webhook d => d.env
  | .retry d => d.env

/-- The revision that a worker ingests, with the link of its property. -/
def Worker.delivery (db : Db) :
    Worker → Option (ChannexPropertyLink × ChannexBookingRevisionPayload)
  | .webhook d => do
    let wl ← d.log
    let link ← (nonEmpty (Text.strip wl.propertyId)).bind d.link
    let revisionId ← (wl.revisionId.map Text.strip).bind nonEmpty
    guard (Text.lower wl.event ∈ bookingWebhookEvents)
    let revFlat ← d.fetch revisionId
    let payload ← revFlat
    pure (link, payload)
  | .retry d => do
    let row ← db.revisions.find d.revisionId
    guard (row.processingStatus = .error)
    let link ← d.link row.propertyLinkId
    pure (link, row.payload)

/-- A row that the session has loaded just now is the row that the claim selects. -/
theorem exec_claimRevisionRow_loaded {env : Env} {row : ChannexBookingRevision} {rid : String}
    (hrow : db.revisions.find row.channexRevisionId = some row) :
    (claimRevisionRow env (some row) link rid payload).exec db =
      (claimRevisionRow env none link rid payload).exec db := by
  have hstatus : ∀ r, db.revisions.find rid = some r →
      ((some row).filter fun l => l.channexRevisionId = rid).getD r =
        (Option.filter (fun l => l.channexRevisionId = rid) none).getD r := by
    intro r hr
    rw [Option.filter_none, Option.getD_none]
    by_cases hid : row.channexRevisionId = rid
    · rw [hid, hr] at hrow
      rw [Option.filter_some_pos (by simpa using hid), Option.getD_some, Option.some.inj hrow]
    · rw [Option.filter_some_neg (by simpa using hid), Option.getD_none]
  have hwait : ∀ present : Bool,
      (runIf (present = false) (acquire (.revision rid)) : Tx Unit).exec db = (.ok (), db) := by
    intro present
    unfold runIf
    split
    · rfl
    · rfl
  unfold claimRevisionRow
  simp only [exec_bind, exec_raiseIf, exec_select]
  by_cases hlong : 36 < rid.length ∨ 36 < (Text.strip (orText payload.bookingId "")).length ∨
      payload.storable = false
  · simp only [if_pos hlong]
  simp only [if_neg hlong]
  by_cases hforeign : env.foreignRevision rid = true
  · simp only [if_pos hforeign]
  · simp only [if_neg hforeign, hwait]
    cases hfind : db.revisions.find rid with
    | none => rfl
    | some r =>
      simp only [hstatus r hfind]

theorem exec_ingestInSession_loaded {row : ChannexBookingRevision} {env : Env}
    {flat : Option ChannexBookingRevisionPayload}
    (hrow : db.revisions.find row.channexRevisionId = some row) :
    (ingestInSession (some row) env link flat).exec db =
      (ingestChannexBooking env link flat).exec db := by
  unfold ingestChannexBooking ingestInSession
  split
  · rfl
  · simp only
    split
    · rfl
    · rw [exec_bind, exec_bind, exec_claimRevisionRow_loaded hrow]

/-- A worker that returns has ingested its revision, or has found nothing to do. -/
theorem exec_worker_ok {out : WorkerResult} (h : w.program.exec db = (.ok out, db')) :
    db' = db ∨ ∃ link payload r, w.delivery db = some (link, payload) ∧
      (ingestChannexBooking w.env link (some payload)).exec db = (.ok r, db') := by
  cases w with
  | webhook d =>
    change (processWebhook d).exec db = _ at h
    unfold processWebhook at h
    split at h
    · cases h
      exact .inl rfl
    · next wl hlog =>
      split at h
      · next link revisionId hlink hrid =>
        split at h
        · next hevent =>
          split at h
          · cases h
            exact .inl rfl
          · next revFlat hfetch =>
            obtain ⟨r, db₁, hingest, hret⟩ := exec_bind_ok.mp h
            cases hret
            cases revFlat with
            | none =>
              cases hingest
              exact .inl rfl
            | some payload =>
              refine .inr ⟨link, payload, r, ?_, hingest⟩
              simp [Worker.delivery, hlog, hlink, hrid, hevent, hfetch]
        · cases h
          exact .inl rfl
      · cases h
        exact .inl rfl
  | retry d =>
    change (retryBookingRevision d).exec db = _ at h
    simp only [retryBookingRevision, exec_bind_ok, exec_select, Prod.mk.injEq,
      Except.ok.injEq] at h
    obtain ⟨rev, _, ⟨rfl, rfl⟩, h⟩ := h
    split at h
    · cases h
      exact .inl rfl
    · next row hrow =>
      split at h
      · cases h
        exact .inl rfl
      · next hstatus =>
        split at h
        · cases h
          exact .inl rfl
        · next link hlink =>
          obtain ⟨r, db₂, hingest, hret⟩ := exec_bind_ok.mp h
          cases hret
          have hid : row.channexRevisionId = d.revisionId := (Table.find_eq_some.mp hrow).2
          rw [exec_ingestInSession_loaded (by rw [hid, hrow])] at hingest
          refine .inr ⟨link, row.payload, r, ?_, hingest⟩
          simp [Worker.delivery, hrow, not_not.mp hstatus, hlink]

/-- The revision that a delivery brings to its branch. -/
abbrev enteredRevision (link : ChannexPropertyLink) (payload : ChannexBookingRevisionPayload)
    (rtm : ChannexRoomTypeMap) (rpm : ChannexRatePlanMap) (checkIn checkOut : ℤ) (total : Money)
    (guest : GuestPayload) : Revision :=
  revisionOf link payload rtm.roomTypeId rpm.ratePlanId (daysBetween checkIn checkOut) total guest

/-- The delivery applies a cancelled revision of a booking that is not cancelled, or a
modified one that asks for another stay. -/
inductive Overwrites (external : String) (db : Db) (w : Worker) : Prop
  | cancels {link : ChannexPropertyLink} {payload : ChannexBookingRevisionPayload}
      {rtm : ChannexRoomTypeMap} {rpm : ChannexRatePlanMap} {checkIn checkOut : ℤ} {total : Money}
      {guest : GuestPayload} {b : Booking} (hdelivery : w.delivery db = some (link, payload))
      (hentered : Entered db link payload rtm rpm checkIn checkOut total guest)
      (hkey : externalKey payload = external) (hkind : revisionKind payload = .cancelled)
      (hfound : findByExternal external db = some b) (hstatus : b.status ≠ .cancelled)
      (hreleasable : ∀ rt, lineRoomTypes b.lines = [rt] → db.ledger.Releasable rt b.nights)
  | modifies {link : ChannexPropertyLink} {payload : ChannexBookingRevisionPayload}
      {rtm : ChannexRoomTypeMap} {rpm : ChannexRatePlanMap} {checkIn checkOut : ℤ} {total : Money}
      {guest : GuestPayload} {b : Booking} {old : UUID}
      (hdelivery : w.delivery db = some (link, payload))
      (hentered : Entered db link payload rtm rpm checkIn checkOut total guest)
      (hkey : externalKey payload = external) (hkind : revisionKind payload = .modified)
      (hmodifies : Modifies db (enteredRevision link payload rtm rpm checkIn checkOut total guest)
        b old)
      (hrefused : ¬ ModificationRefused db w.env
        (enteredRevision link payload rtm rpm checkIn checkOut total guest) b)
      (hother : (enteredRevision link payload rtm rpm checkIn checkOut total guest).standing
        b.status ≠ b.standing)

theorem Restands.of_revisions {env : Env} {kind : RevisionKind} {rev : Revision} {success : Bool}
    {s : Option Standing} {revisions : Table ChannexBookingRevision.channexRevisionId}
    (h : Restands { db with revisions := revisions } env kind rev success s) :
    Restands db env kind rev success s := by
  cases h with
  | failed => exact .failed
  | repeated b hkind hfound => exact .repeated b hkind hfound
  | new hkind hnone => exact .new hkind hnone
  | cancelledBefore b hkind hfound hstatus => exact .cancelledBefore b hkind hfound hstatus
  | cancelled b hkind hfound hstatus hrel => exact .cancelled b hkind hfound hstatus hrel
  | modified b old hkind hmodifies hrefused =>
    refine .modified b old hkind ⟨hmodifies.found, hmodifies.single, hmodifies.releasable,
      hmodifies.vacant⟩ fun h => hrefused ?_
    rcases h with htotal | hprice | htaxes | hcharge | hemail
    · exact .total htotal
    · exact .price hprice
    · exact .taxes htaxes
    · exact .roomCharge hcharge
    · exact .email hemail

/-- The claim of the revision row has checked the lengths of the identifiers. -/
theorem fits_of_ingest {env : Env} {r : ChannexIngestResult}
    (h : (ingestChannexBooking env link (some payload)).exec db = (.ok r, db'))
    (hblank : Text.strip payload.id ≠ "") : Fits payload := by
  unfold ingestChannexBooking ingestInSession at h
  simp only [if_neg hblank] at h
  obtain ⟨claimed, db₁, hclaim, -⟩ := exec_bind_ok.mp h
  unfold claimRevisionRow at hclaim
  obtain ⟨_, db₂, hlengths, -⟩ := exec_bind_ok.mp hclaim
  have hshort := (exec_raiseIf_ok.mp hlengths).1
  rw [not_or, not_or] at hshort
  exact ⟨not_lt.mp hshort.1, not_lt.mp hshort.2.1⟩

/-- An ingest leaves its booking as it is, or its branch says what it shows. -/
theorem exec_ingest_restands {env : Env} {r : ChannexIngestResult}
    (h : (ingestChannexBooking env link (some payload)).exec db = (.ok r, db')) :
    db'.hotel = db.hotel ∧ (r.success = false ∨ ¬ Claimable db (Text.strip payload.id)) ∨
      ∃ rtm rpm checkIn checkOut total guest rev,
        rev = enteredRevision link payload rtm rpm checkIn checkOut total guest ∧
        Entered db link payload rtm rpm checkIn checkOut total guest ∧
        rev.external = externalKey payload ∧
        Restands db env (revisionKind payload) rev r.success (standingOf rev.external db') ∧
        ∀ external s, external ≠ rev.external → standingOf external db = some s →
          standingOf external db' = some s := by
  by_cases hblank : Text.strip payload.id = ""
  · unfold ingestChannexBooking ingestInSession at h
    simp only [if_pos hblank] at h
    cases h
    exact .inl ⟨rfl, .inl rfl⟩
  rcases exec_ingest_entered h with ⟨hkept, hcases⟩ | happlied
  · refine .inl ⟨hkept, hcases.imp_right ?_⟩
    rintro ⟨payload', heq, hclaimed⟩
    cases heq
    exact hclaimed
  · obtain ⟨payload', rtm, rpm, ci, co, total, guest, revisions, heq, hentered, happly⟩ := happlied
    cases heq
    obtain ⟨rev, hrev⟩ : ∃ rev, rev = enteredRevision link payload rtm rpm ci co total guest :=
      ⟨_, rfl⟩
    have hpriced : rev.Priced := hrev ▸ priced_revisionOf hentered.lt hentered.span
    have hkey : rev.external = externalKey payload := by
      rw [hrev, external_revisionOf]
    have hfit : Text.take 128 rev.external = rev.external :=
      hkey ▸ (fits_of_ingest h hblank).externalKey
    have happlied : (applyRevision env (revisionKind payload) rev).exec
        { db with revisions := revisions } = (.ok r, db') := by
      rw [hrev]
      exact happly
    refine .inr ⟨rtm, rpm, ci, co, total, guest, rev, hrev, hentered, hkey,
      (applyRevision_restands hpriced hfit happlied).of_revisions, ?_⟩
    intro external s hne hs
    have hbefore : standingOf external { db with revisions := revisions } = some s := hs
    exact applyRevision_others hpriced hne hbefore happlied

end Deliveries

/-! Runs of deliveries -/

section Runs
variable {db : Db} {external : String} {s : Standing}

/-- A worker that raises is rolled back. -/
def deliver (db : Db) (w : Worker) : Db := w.program.transact db

def deliverAll (workers : List Worker) (db : Db) : Db := workers.foldl deliver db

/-- No delivery of the run overwrites the booking. -/
def Spared (external : String) : List Worker → Db → Prop
  | [], _ => True
  | w :: later, db => ¬ Overwrites external db w ∧ Spared external later (deliver db w)

theorem standingOf_deliver {w : Worker} (hs : standingOf external db = some s)
    (hspared : ¬ Overwrites external db w) : standingOf external (deliver db w) = some s := by
  unfold deliver transact
  cases hexec : w.program.exec db with
  | mk result db' =>
    cases result with
    | error e => exact hs
    | ok out =>
      rcases exec_worker_ok hexec with rfl | ⟨link, payload, r, hdelivery, hingest⟩
      · exact hs
      rcases exec_ingest_restands hingest with ⟨hkept, -⟩ | hentered
      · exact (standingOf_hotel hkept).trans hs
      obtain ⟨rtm, rpm, ci, co, total, guest, rev, hrev, hentered, hkey, hrestands, hothers⟩ :=
        hentered
      by_cases hsame : rev.external = external
      · have hcancels : ∀ b, revisionKind payload = .cancelled →
            findByExternal external db = some b → b.status ≠ .cancelled →
            ¬ ∀ rt, lineRoomTypes b.lines = [rt] → db.ledger.Releasable rt b.nights := by
          intro b hkind hfound hstatus hreleasable
          exact hspared (.cancels hdelivery hentered (hkey.symm.trans hsame) hkind hfound hstatus
            hreleasable)
        have hmodifies : ∀ b old, revisionKind payload = .modified → Modifies db rev b old →
            ¬ ModificationRefused db w.env rev b → rev.standing b.status = b.standing := by
          intro b old hkind hmodifies hrefused
          by_contra hother
          subst hrev
          exact hspared (.modifies hdelivery hentered (hkey.symm.trans hsame) hkind hmodifies
            hrefused hother)
        subst hsame
        change standingOf rev.external db' = some s
        generalize r.success = success, standingOf rev.external db' = after at hrestands ⊢
        cases hrestands with
        | failed => exact hs
        | repeated b hkind hfound => rw [← hs, standingOf_found hfound]
        | new hkind hnone =>
          rw [standingOf, hnone] at hs
          cases hs
        | cancelledBefore b hkind hfound hstatus => rw [← hs, standingOf_found hfound]
        | cancelled b hkind hfound hstatus hreleasable =>
          exact absurd hreleasable (hcancels b hkind hfound hstatus)
        | modified b old hkind hmods hrefused =>
          rw [← hs, standingOf_found hmods.found, hmodifies b old hkind hmods hrefused]
      · exact hothers external s (Ne.symm hsame) hs

/-- Whatever is delivered in whatever order, a booking that is not overwritten shows what
it has shown. -/
theorem standingOf_deliverAll {later : List Worker} (hs : standingOf external db = some s)
    (hspared : Spared external later db) : standingOf external (deliverAll later db) = some s := by
  induction later generalizing db with
  | nil => exact hs
  | cons w later ih => exact ih (standingOf_deliver hs hspared.1) hspared.2

/-- The booking is in the state that a revision of this kind is for: absent or as the
revision says for a new one, not cancelled for a modified one, of the stay that the
revision names for a cancelled one. -/
structure MeetsBooking (payload : ChannexBookingRevisionPayload) (rt : UUID) (db : Db) : Prop where
  new : revisionKind payload = .new →
    findByExternal (externalKey payload) db = none ∨ ShowsRevision payload rt db
  modified : revisionKind payload = .modified →
    ∀ b, findByExternal (externalKey payload) db = some b → b.status ≠ .cancelled
  cancelled : revisionKind payload = .cancelled →
    ∀ s, standingOf (externalKey payload) db = some s → s.Keeps payload rt

/-- A revision that has been applied to a booking in the right state is shown by it. -/
theorem showsRevision_of_applied {db' : Db} {env : Env} {link : ChannexPropertyLink}
    {payload : ChannexBookingRevisionPayload} {rt : UUID} {r : ChannexIngestResult}
    (h : (ingestChannexBooking env link (some payload)).exec db = (.ok r, db'))
    (hsuccess : r.success = true) (hclaimable : Claimable db (Text.strip payload.id))
    (hmapped : mappedRoomType link payload db = some rt) (hmeets : MeetsBooking payload rt db) :
    ShowsRevision payload rt db' := by
  rcases exec_ingest_restands h with ⟨-, hfailed | hskipped⟩ | hentered
  · rw [hsuccess] at hfailed
    cases hfailed
  · exact absurd hclaimable hskipped
  obtain ⟨rtm, rpm, ci, co, total, guest, rev, hrev, hentered, hkey, hrestands, -⟩ := hentered
  have hroom : rtm.roomTypeId = rt := Option.some.inj (hentered.mappedRoomType.symm.trans hmapped)
  have hkeeps : ∀ status, (rev.standing status).Keeps payload rt := by
    intro status
    rw [hrev, ← hroom]
    exact ⟨⟨ci, co, hentered.dates, rfl⟩, rfl, hentered.total⟩
  have hnew := hmeets.new
  have hmodified := hmeets.modified
  have hcancelled := hmeets.cancelled
  unfold ShowsRevision at hnew ⊢
  rw [hsuccess] at hrestands
  rw [← hkey] at hnew hmodified hcancelled ⊢
  generalize standingOf rev.external db' = after at hrestands ⊢
  cases hrestands with
  | repeated b hkind hfound =>
    have hthere : findByExternal rev.external db ≠ none := by
      rw [hfound]
      exact Option.some_ne_none b
    obtain ⟨s, hs, hshows⟩ := (hnew hkind).resolve_left hthere
    rw [standingOf_found hfound] at hs
    exact ⟨s, hs, hshows⟩
  | new hkind hnone => exact ⟨_, rfl, hkeeps _, hkind ▸ .new⟩
  | cancelledBefore b hkind hfound hstatus =>
    have hshown : (RevisionKind.cancelled).Status b.standing.status := by
      rw [show b.standing.status = .cancelled from hstatus]
      exact .cancelled
    exact ⟨_, rfl, hcancelled hkind _ (standingOf_found hfound), hkind ▸ hshown⟩
  | cancelled b hkind hfound hstatus hreleasable =>
    have hkept := hcancelled hkind _ (standingOf_found hfound)
    exact ⟨_, rfl, ⟨hkept.dates, hkept.roomType, hkept.total⟩, hkind ▸ .cancelled⟩
  | modified b old hkind hmodifies hrefused =>
    exact ⟨_, rfl, hkeeps _, hkind ▸ .modified (hmodified hkind b hmodifies.found)⟩

/-- Later deliveries and retries leave a revision that has been applied in force, as long
as none of them applies a cancelled or modified revision of its booking. -/
theorem applied_revision_stays {w : Worker} {later : List Worker} {link : ChannexPropertyLink}
    {payload : ChannexBookingRevisionPayload} {rt : UUID} {r : ChannexIngestResult} {db' : Db}
    (h : (ingestChannexBooking w.env link (some payload)).exec db = (.ok r, db'))
    (hsuccess : r.success = true) (hclaimable : Claimable db (Text.strip payload.id))
    (hmapped : mappedRoomType link payload db = some rt) (hmeets : MeetsBooking payload rt db)
    (hspared : Spared (externalKey payload) later db') :
    ShowsRevision payload rt (deliverAll later db') := by
  obtain ⟨s, hs, hkeeps, hstatus⟩ :=
    showsRevision_of_applied h hsuccess hclaimable hmapped hmeets
  exact ⟨s, standingOf_deliverAll hs hspared, hkeeps, hstatus⟩

end Runs

namespace Demo

/-- Channex delivers a revision. -/
def webhookFor (env : Env) (payload : ChannexBookingRevisionPayload) : Worker :=
  .webhook ⟨env, some ⟨"booking", some payload.id, "P"⟩, fun _ => some link,
    fun _ => some (some payload)⟩

/-- Once more the revision "r1". -/
def redelivery : Worker := webhookFor (env 0 0 0) (revision "r1" "modified")

def newRevision : ChannexBookingRevisionPayload :=
  { revision "r2" "new" with
    bookingId := some "Y", arrivalDate := .text (some 1), departureDate := .text (some 2) }

/-- Then that of a new booking. -/
def later : List Worker := [redelivery, webhookFor (env 1002 1002 1002) newRevision]

def modifiedSold : Db :=
  (ingestChannexBooking (env 0 0 0) link (some (revision "r1" "modified"))).transact sold

theorem payload_delivery {db : Db} {env : Env} {link : ChannexPropertyLink}
    {payload sent : ChannexBookingRevisionPayload}
    (h : (webhookFor env sent).delivery db = some (link, payload)) : payload = sent := by
  simp only [webhookFor, Worker.delivery, Option.bind_eq_bind, Option.bind_some,
    Option.bind_eq_some_iff, Option.pure_def, Option.some.injEq, Prod.mk.injEq] at h
  obtain ⟨-, -, -, -, -, -, -, h⟩ := h
  exact h.symm

/-- The row of the first is done, and the second is for another booking. -/
theorem spared_later : Spared "X" later modifiedSold := by
  have hdone : (modifiedSold.revisions.find "r1").map (·.processingStatus) = some .done := by
    decide +kernel
  have hstrip : Text.strip (revision "r1" "modified").id = "r1" := by decide
  have hclaimed : ¬ Claimable modifiedSold (Text.strip (revision "r1" "modified").id) := by
    obtain ⟨row, hfind, hstatus⟩ := Option.map_eq_some_iff.mp hdone
    rw [hstrip]
    exact fun hclaimable => (hclaimable row hfind).1 hstatus
  have hnew : revisionKind newRevision = .new := by decide
  refine ⟨fun hover => ?_, fun hover => ?_, trivial⟩
  · cases hover with
    | cancels hdelivery hentered hkey hkind hfound hstatus hreleasable =>
      rw [payload_delivery hdelivery] at hentered
      exact hclaimed hentered.claimable
    | modifies hdelivery hentered hkey hkind hmodifies hrefused hother =>
      rw [payload_delivery hdelivery] at hentered
      exact hclaimed hentered.claimable
  · cases hover with
    | cancels hdelivery hentered hkey hkind hfound hstatus hreleasable =>
      rw [payload_delivery hdelivery, hnew] at hkind
      cases hkind
    | modifies hdelivery hentered hkey hkind hmodifies hrefused hother =>
      rw [payload_delivery hdelivery, hnew] at hkind
      cases hkind

end Demo

theorem applied_revision_stays_demo :
    ShowsRevision (Demo.revision "r1" "modified") 10 (deliverAll Demo.later Demo.modifiedSold) ∧
      (standingOf "Y" (deliverAll Demo.later Demo.modifiedSold)).isSome := by
  have hsuccess : ((ingestChannexBooking Demo.redelivery.env Demo.link
      (some (Demo.revision "r1" "modified"))).exec Demo.sold).1.toOption.map (·.success) =
        some true := by decide +kernel
  have hkind : revisionKind (Demo.revision "r1" "modified") = .modified := by decide
  have hkey : externalKey (Demo.revision "r1" "modified") = "X" := by decide
  have hmapped : mappedRoomType Demo.link (Demo.revision "r1" "modified") Demo.sold = some 10 := by
    decide +kernel
  have hclaimable : Claimable Demo.sold (Text.strip (Demo.revision "r1" "modified").id) := by
    have hnone : Demo.sold.revisions.rows = [] := by decide +kernel
    intro row hfind
    have hmem := (Table.find_eq_some.mp hfind).1
    rw [hnone] at hmem
    cases hmem
  have hmeets : MeetsBooking (Demo.revision "r1" "modified") 10 Demo.sold := by
    have hstatus : ∀ b ∈ Demo.sold.bookings.rows, b.status ≠ .cancelled := by decide +kernel
    constructor
    · intro hnew
      rw [hkind] at hnew
      cases hnew
    · intro _ b hfound
      exact hstatus b (findByExternal_eq_some hfound).1
    · intro hcancelled
      rw [hkind] at hcancelled
      cases hcancelled
  obtain ⟨r, hexec, hr⟩ := exec_of_success hsuccess
  have hstays := applied_revision_stays hexec hr hclaimable hmapped hmeets
    (hkey ▸ Demo.spared_later)
  exact ⟨hstays, by decide +kernel⟩

end OpenPms
