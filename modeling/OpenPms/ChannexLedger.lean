import OpenPms.Runs

/-!
Which revisions keep the ledger equal to the bookings. A cancelled or modified revision
releases the nights of the lines that it finds, without asking whether the booking still
holds them.
-/
namespace OpenPms

open KeyedTable Transaction Prog Hotel

/-- A cancelled revision finds a booking that is cancelled already, one that holds each
of its nights once, or one whose lines count on no row. -/
def CancelKeeps (h : Hotel) (b : Booking) : Prop :=
  b.status = .cancelled ∨
  (∃ rt, lineRoomTypes b.lines = [rt]) ∧ b.status.Active ∧ b.nights.Nodup ∨
  (∀ rt, lineRoomTypes b.lines ≠ [rt]) ∧
    (b.status.Active → ∀ ln ∈ b.lines, h.ledger.row ln.roomTypeId ln.date = none)

/-- A modified revision finds a booking that holds each of its nights once, or one that
holds nothing and has the room type and the nights of the revision. -/
def ModifyKeeps (b : Booking) (rt : UUID) (nights : List ℤ) : Prop :=
  b.status.Active ∧ b.nights.Nodup ∨
  ¬ b.status.Active ∧ lineRoomTypes b.lines = [rt] ∧ ∀ d, d ∈ b.nights ↔ d ∈ nights

/-- What a revision of a kind must find, the payload having a room type and nights. A
new one may find anything. -/
structure KindKeeps (kind : RevisionKind) (h : Hotel) (b : Booking) (rt : UUID)
    (nights : List ℤ) : Prop where
  cancelled : kind = .cancelled → CancelKeeps h b
  modified : kind = .modified → ModifyKeeps b rt nights

/-- A revision that is not skipped finds a booking that it treats rightly. -/
def KeepsLedger (link : ChannexPropertyLink) (payload : ChannexBookingRevisionPayload)
    (db : Db) : Prop :=
  Claimable db (Text.strip payload.id) → ∀ b, findByExternal (externalKey payload) db = some b →
    ∀ rt checkIn checkOut, mappedRoomType link payload db = some rt →
      checkInOut payload = (some checkIn, some checkOut) →
        KindKeeps (revisionKind payload) db.hotel b rt (daysBetween checkIn checkOut)

theorem kindKeeps_iff {kind : RevisionKind} {h : Hotel} {b : Booking} {rt : UUID}
    {nights : List ℤ} : KindKeeps kind h b rt nights ↔
      (kind = .cancelled → CancelKeeps h b) ∧ (kind = .modified → ModifyKeeps b rt nights) :=
  ⟨fun hk => ⟨hk.cancelled, hk.modified⟩, fun hk => ⟨hk.1, hk.2⟩⟩

section Held
variable {h : Hotel} {b : Booking} {rt : UUID}

theorem nights_ne_nil_of_single (hrt : lineRoomTypes b.lines = [rt]) : b.nights ≠ [] := by
  intro hnil
  have hlines : b.lines = [] := List.map_eq_nil_iff.mp hnil
  rw [hlines] at hrt
  cases hrt

/-- The booking holds exactly the nights that a release gives back. -/
theorem held_eq_onNights_iff (hrt : lineRoomTypes b.lines = [rt])
    (hseed : ∀ d ∈ b.nights, (h.ledger.row rt d).isSome) :
    (∀ r d, (h.ledger.row r d).isSome → (b.held r d : ℤ) = onNights rt b.nights r d) ↔
      b.status.Active ∧ b.nights.Nodup := by
  constructor
  · intro hall
    have hactive : b.status.Active := by
      by_contra hinactive
      obtain ⟨d, hd⟩ := List.exists_mem_of_ne_nil _ (nights_ne_nil_of_single hrt)
      have hone := hall rt d (hseed d hd)
      rw [held_of_inactive hinactive, onNights, if_pos ⟨rfl, hd⟩] at hone
      omega
    refine ⟨hactive, List.nodup_iff_count_le_one.mpr ?_⟩
    intro d
    by_cases hd : d ∈ b.nights
    · have hone := hall rt d (hseed d hd)
      have hcount := countP_of_single (fun ln hln => roomTypeId_of_single hrt hln) rt d
      rw [onNights, if_pos ⟨rfl, hd⟩, Booking.held, if_pos hactive, hcount, if_pos rfl] at hone
      change (b.nights.count d : ℤ) = 1 at hone
      omega
    · rw [List.count_eq_zero_of_not_mem hd]
      omega
  · intro hok r d _
    exact held_eq_onNights hok.1 hrt hok.2 r d

/-- Lines that hold nothing on any row. -/
theorem held_eq_zero_iff :
    (∀ r d, (h.ledger.row r d).isSome → b.held r d = 0) ↔
      (b.status.Active → ∀ ln ∈ b.lines, h.ledger.row ln.roomTypeId ln.date = none) := by
  constructor
  · intro hall hactive ln hln
    by_contra hsome
    have hzero := hall ln.roomTypeId ln.date (Option.isSome_iff_ne_none.mpr hsome)
    rw [Booking.held, if_pos hactive, List.countP_eq_zero] at hzero
    exact hzero ln hln (by simp)
  · intro hnone r d hsome
    by_cases hactive : b.status.Active
    · rw [Booking.held, if_pos hactive, List.countP_eq_zero]
      intro ln hln hkey
      have hkey' : ln.roomTypeId = r ∧ ln.date = d := by simpa using hkey
      rw [← hkey'.1, ← hkey'.2, hnone hactive ln hln] at hsome
      cases hsome
    · exact held_of_inactive hactive r d

end Held

/-! The two branches on an arbitrary balanced ledger -/

section Branches
variable {h : Hotel} {b : Booking}

theorem ledgerEq_cancel_iff (heq : LedgerEq h) (hfind : h.bookings.find b.id = some b)
    (hstatus : b.status ≠ .cancelled)
    (hrel : ∀ rt, lineRoomTypes b.lines = [rt] → h.ledger.Releasable rt b.nights) :
    LedgerEq { h with
      bookings := h.bookings.update b.id (setStatus .cancelled) (id_setStatus _)
      ledger := h.ledger.released b.lines } ↔ CancelKeeps h b := by
  have hinactive : ¬ BookingStatus.cancelled.Active := by decide
  have hnew : ∀ r d, (setStatus .cancelled b).held r d = 0 :=
    held_of_inactive (by exact hinactive)
  have hcount : ∀ l r d, (({ h with
      bookings := h.bookings.update b.id (setStatus .cancelled) (id_setStatus _)
      ledger := l } : Hotel).activeCount r d : ℤ) = h.activeCount r d - b.held r d := by
    intro l r d
    have hone : UpdatesOne h { h with
        bookings := h.bookings.update b.id (setStatus .cancelled) (id_setStatus _)
        ledger := l } b.id (setStatus .cancelled) := updatesOne _
    have hupd := activeCount_update hone hfind r d
    rw [hnew] at hupd
    rw [hupd]
    omega
  by_cases hsingle : ∃ rt, lineRoomTypes b.lines = [rt]
  · obtain ⟨rt, hrt⟩ := hsingle
    have hseed : ∀ d ∈ b.nights, (h.ledger.row rt d).isSome := by
      intro d hd
      obtain ⟨c, hc, -⟩ := hrel rt hrt d hd
      rw [hc]
      rfl
    have hiff : CancelKeeps h b ↔ b.status.Active ∧ b.nights.Nodup := by
      constructor
      · rintro (hc | ⟨-, hok⟩ | ⟨hmixed, -⟩)
        · exact absurd hc hstatus
        · exact hok
        · exact absurd hrt (hmixed rt)
      · intro hok
        exact .inr (.inl ⟨⟨rt, hrt⟩, hok⟩)
    rw [h.ledger.released_of_single hrt,
      ledgerEq_iff_of_movesBy heq (h.ledger.movesBy_shift rt b.nights (-1)), hiff,
      ← held_eq_onNights_iff hrt hseed]
    refine forall_congr' fun r => forall_congr' fun d => imp_congr_right fun _ => ?_
    rw [hcount]
    constructor
    · intro hc
      omega
    · intro hc
      omega
  · have hmixed : ∀ rt, lineRoomTypes b.lines ≠ [rt] := fun rt hrt => hsingle ⟨rt, hrt⟩
    have hiff : CancelKeeps h b ↔
        (b.status.Active → ∀ ln ∈ b.lines, h.ledger.row ln.roomTypeId ln.date = none) := by
      constructor
      · rintro (hc | ⟨hone, -⟩ | ⟨-, hok⟩)
        · exact absurd hc hstatus
        · exact absurd hone hsingle
        · exact hok
      · intro hok
        exact .inr (.inr ⟨hmixed, hok⟩)
    have hmove : h.ledger.MovesBy (h.ledger.released b.lines) (fun _ _ => 0) := by
      rw [h.ledger.released_of_mixed hmixed]
      exact h.ledger.movesBy_refl
    rw [ledgerEq_iff_of_movesBy heq hmove, hiff, ← held_eq_zero_iff]
    refine forall_congr' fun r => forall_congr' fun d => imp_congr_right fun _ => ?_
    rw [hcount]
    constructor
    · intro hc
      omega
    · intro hc
      omega

/-- Two indicators agree on the rows of their nights exactly when they are the same. -/
theorem onNights_eq_iff {rt rt' : UUID} {nights nights' : List ℤ}
    (hseed : ∀ d ∈ nights, (h.ledger.row rt d).isSome)
    (hseed' : ∀ d ∈ nights', (h.ledger.row rt' d).isSome) (hne : nights ≠ []) :
    (∀ r d, (h.ledger.row r d).isSome → onNights rt nights r d = onNights rt' nights' r d) ↔
      rt = rt' ∧ ∀ d, d ∈ nights ↔ d ∈ nights' := by
  constructor
  · intro hall
    have hsub : ∀ d ∈ nights, rt = rt' ∧ d ∈ nights' := by
      intro d hd
      by_contra hnot
      have hone := hall rt d (hseed d hd)
      rw [onNights, if_pos ⟨rfl, hd⟩, onNights, if_neg hnot] at hone
      omega
    have hsub' : ∀ d ∈ nights', d ∈ nights := by
      intro d hd
      by_contra hnot
      have hone := hall rt' d (hseed' d hd)
      rw [onNights, if_neg (fun hkey => hnot hkey.2), onNights, if_pos ⟨rfl, hd⟩] at hone
      omega
    obtain ⟨d, hd⟩ := List.exists_mem_of_ne_nil _ hne
    exact ⟨(hsub d hd).1, fun d => ⟨fun hd => (hsub d hd).2, hsub' d⟩⟩
  · rintro ⟨rfl, hnights⟩ r d -
    simp only [onNights, hnights]

theorem ledgerEq_modify_iff {rt : UUID} {stay : PricedStay} {ratePlan : Option UUID}
    (heq : LedgerEq h) (hfind : h.bookings.find b.id = some b)
    (hrt : lineRoomTypes b.lines = [rt]) (hrel : h.ledger.Releasable rt b.nights)
    (hopen : (h.ledger.shift rt b.nights (-1)).Open stay.roomTypeId stay.nights 1) :
    LedgerEq { h with
      bookings := h.bookings.update b.id (setLines stay ratePlan) (id_setLines _ _)
      ledger := (h.ledger.shift rt b.nights (-1)).shift stay.roomTypeId stay.nights 1 } ↔
    ModifyKeeps b stay.roomTypeId stay.nights := by
  have hseed : ∀ d ∈ b.nights, (h.ledger.row rt d).isSome := by
    intro d hd
    obtain ⟨c, hc, -⟩ := hrel d hd
    rw [hc]
    rfl
  have hseed' : ∀ d ∈ stay.nights, (h.ledger.row stay.roomTypeId d).isSome := by
    intro d hd
    rw [← h.ledger.isSome_shift rt b.nights (-1)]
    exact hopen.isSome hd
  have hmove := (h.ledger.movesBy_shift rt b.nights (-1)).trans
    (Ledger.movesBy_shift _ stay.roomTypeId stay.nights 1)
  rw [ledgerEq_iff_of_movesBy heq hmove]
  have hcount : ∀ r d, (({ h with
      bookings := h.bookings.update b.id (setLines stay ratePlan) (id_setLines _ _)
      ledger := (h.ledger.shift rt b.nights (-1)).shift stay.roomTypeId stay.nights 1 } :
        Hotel).activeCount r d : ℤ) =
      h.activeCount r d + ((setLines stay ratePlan b).held r d - b.held r d) :=
    fun r d => activeCount_update (updatesOne _) hfind r d
  simp only [hcount]
  by_cases hactive : b.status.Active
  · have hnew : ∀ r d, ((setLines stay ratePlan b).held r d : ℤ) =
        onNights stay.roomTypeId stay.nights r d :=
      fun r d => held_stay stay (by exact hactive) rfl r d
    have hiff : ModifyKeeps b stay.roomTypeId stay.nights ↔
        b.status.Active ∧ b.nights.Nodup := by
      constructor
      · rintro (hok | ⟨hnot, -⟩)
        · exact hok
        · exact absurd hactive hnot
      · exact .inl
    rw [hiff, ← held_eq_onNights_iff hrt hseed]
    refine forall_congr' fun r => forall_congr' fun d => imp_congr_right fun _ => ?_
    rw [hnew]
    constructor
    · intro hc
      omega
    · intro hc
      omega
  · have hold : ∀ r d, b.held r d = 0 := held_of_inactive hactive
    have hnew : ∀ r d, (setLines stay ratePlan b).held r d = 0 :=
      held_of_inactive (by exact hactive)
    have hiff : ModifyKeeps b stay.roomTypeId stay.nights ↔
        rt = stay.roomTypeId ∧ ∀ d, d ∈ b.nights ↔ d ∈ stay.nights := by
      rw [ModifyKeeps, hrt]
      simp [hactive]
    rw [hiff, ← onNights_eq_iff hseed hseed' (nights_ne_nil_of_single hrt)]
    refine forall_congr' fun r => forall_congr' fun d => imp_congr_right fun _ => ?_
    rw [hnew, hold]
    constructor
    · intro hc
      omega
    · intro hc
      omega

end Branches

/-! The whole ingest -/

theorem LedgerEq.sales {h h' : Hotel} (heq : LedgerEq h) (hsales : Sales h h') : LedgerEq h' := by
  induction hsales with
  | refl => exact heq
  | tail _ hsale ih => exact ih.sale hsale

section Ingest
variable {db db' : Db}

theorem applyRevision_ledgerEq_iff {env : Env} {kind : RevisionKind} {rev : Revision}
    {r : ChannexIngestResult} (heq : LedgerEq db.hotel) (hpriced : rev.Priced)
    (h : (applyRevision env kind rev).exec db = (.ok r, db')) (hsuccess : r.success = true) :
    LedgerEq db'.hotel ↔ ∀ b, findByExternal rev.external db = some b →
      KindKeeps kind db.hotel b rev.roomTypeId rev.nights := by
  unfold applyRevision at h
  rw [exec_tryCatch] at h
  split at h
  · next hexec =>
    cases h
    cases kind with
    | cancelled =>
      rcases exec_ingestCancelled_ok hexec with ⟨hfail, -⟩ | ⟨-, b, hfound, hcases⟩
      · rw [hsuccess] at hfail
        cases hfail
      · have hone : (∀ b', findByExternal rev.external db = some b' →
            KindKeeps .cancelled db.hotel b' rev.roomTypeId rev.nights) ↔
              CancelKeeps db.hotel b := by
          simp [hfound, kindKeeps_iff]
        refine Iff.trans ?_ hone.symm
        rcases hcases with ⟨hstatus, hsame⟩ | ⟨hstatus, hrel, hhotel⟩
        · rw [hsame]
          exact iff_of_true heq (.inl hstatus)
        · rw [hhotel]
          exact ledgerEq_cancel_iff heq (find_of_external hfound) hstatus hrel
    | modified =>
      obtain ⟨stay, hrt, hnights, hper, htotal⟩ := hpriced.exists_stay
      rcases exec_ingestModified_ok hrt hnights hper htotal hexec with ⟨hfail, -⟩ | ⟨-, b, rt, hmod⟩
      · rw [hsuccess] at hfail
        cases hfail
      · obtain ⟨hfound, hsingle, hrel, hopen, hhotel⟩ := hmod
        have hone : (∀ b', findByExternal rev.external db = some b' →
            KindKeeps .modified db.hotel b' rev.roomTypeId rev.nights) ↔
              ModifyKeeps b stay.roomTypeId stay.nights := by
          simp [hfound, hrt, hnights, kindKeeps_iff]
        refine Iff.trans ?_ hone.symm
        rw [hhotel]
        exact ledgerEq_modify_iff heq (find_of_external hfound) hsingle hrel hopen
    | new =>
      obtain ⟨stay, hrt, hnights, hper, htotal⟩ := hpriced.exists_stay
      have hsales := (exec_ingestNew_ok hrt hnights hper htotal hexec).2
      exact iff_of_true (heq.sales hsales) fun _ _ => ⟨nofun, nofun⟩
  · obtain ⟨-, hfail, -⟩ := exec_handleIngestError_ok h
    rw [hsuccess] at hfail
    cases hfail

/-- From a ledger that equals the bookings, a revision that is ingested with success
keeps it so exactly when the booking that it finds holds what it releases. -/
theorem ingest_ledgerEq_iff {env : Env} {link : ChannexPropertyLink}
    {flat : Option ChannexBookingRevisionPayload} {r : ChannexIngestResult}
    (heq : LedgerEq db.hotel)
    (h : (ingestChannexBooking env link flat).exec db = (.ok r, db')) (hsuccess : r.success = true) :
    LedgerEq db'.hotel ↔ ∀ payload, flat = some payload → KeepsLedger link payload db := by
  rcases exec_ingest_ok h with ⟨hsame, hcases⟩ | happlied
  · rcases hcases with hfail | ⟨payload, rfl, hskip⟩
    · rw [hsuccess] at hfail
      cases hfail
    · rw [hsame]
      refine iff_of_true heq ?_
      intro payload' hpayload
      obtain rfl := Option.some.inj hpayload
      exact fun hclaim => (hskip hclaim).elim
  · obtain ⟨payload, rt, ratePlan, ci, co, total, guest, revisions, rfl, hclaim, hmapped, hdates,
      hlt, hspan, happly⟩ := happlied
    have heq' : LedgerEq { db with revisions := revisions }.hotel := heq
    have hiff := applyRevision_ledgerEq_iff heq'
      (priced_revisionOf hlt hspan) happly hsuccess
    simp only [revisionOf] at hiff
    have hone : (∀ payload', some payload = some payload' → KeepsLedger link payload' db) ↔
        KeepsLedger link payload db := by
      simp only [Option.some.injEq, forall_eq']
    refine hiff.trans (Iff.trans ?_ hone.symm)
    unfold KeepsLedger
    generalize revisionKind payload = kind
    constructor
    · intro hkeeps _ b hfound rt' ci' co' hmapped' hdates'
      rw [hmapped] at hmapped'
      rw [hdates] at hdates'
      cases hmapped'
      cases hdates'
      exact hkeeps b hfound
    · intro hkeeps b hfound
      exact hkeeps hclaim b hfound rt ci co hmapped hdates

end Ingest

/-! Two bookings for the same night, one of them from an OTA -/

namespace Demo

def link : ChannexPropertyLink := ⟨1, 1⟩

def connect (db : Db) : Db :=
  { db with roomTypeMaps := [⟨1, 1, 10, "RT"⟩], ratePlanMaps := [⟨1, 1, 5, "RP"⟩] }

theorem hotel_connect (db : Db) : (connect db).hotel = db.hotel := rfl

def revision (id status : String) : ChannexBookingRevisionPayload where
  id := id
  bookingId := some "X"
  status := some status
  arrivalDate := .text (some 3)
  departureDate := .text (some 4)
  amount := .number 100
  customer := some ⟨some "Ada", some "Byron", some "ada@example.org", some "1"⟩
  rooms := [⟨some "RT", some "RP", .empty, .empty⟩]
  notes := none
  channelId := none

def ingest (bookingId : UUID) (id status : String) : Op :=
  .ingest (env bookingId 0 0) link (some (revision id status))

def twoBookings : List Op :=
  openHotel ++ [.createRoom (env 0 0 101) 10 "102" "available",
    .administer connect hotel_connect,
    .createBooking (env 1000 0 0) { stay with
      externalBookingId := some "X", checkIn_lt := stay.checkIn_lt, span_le := stay.span_le },
    .createBooking (env 1001 0 0) stay]

def sold : Db := run (.empty 0) (twoBookings ++ [])

/-- The desk has marked the first booking as a no-show. -/
def afterNoShow : Db :=
  run (.empty 0) (twoBookings ++ [.patchBooking (env 0 0 0) 1000 noShowRequest])

theorem balanced_twoBookings {more : List Op} (hmore : ∀ op ∈ more, op.Api) :
    Balanced (run (.empty 0) (twoBookings ++ more)).hotel := by
  refine Reachable.balanced (reachable_run (.empty 0) ?_)
  intro op hop db
  rcases List.mem_append.mp hop with hop | hop
  · simp only [twoBookings, openHotel, List.cons_append, List.nil_append, List.mem_cons,
      List.not_mem_nil, or_false] at hop
    rcases hop with rfl | rfl | rfl | rfl | rfl | rfl | rfl <;> trivial
  · exact hmore op hop

theorem balanced_sold : Balanced sold.hotel := balanced_twoBookings (by simp)

end Demo

theorem exec_of_success {p : Tx ChannexIngestResult} {db : Db}
    (h : (p.exec db).1.toOption.map (·.success) = some true) :
    ∃ r, p.exec db = (.ok r, p.transact db) ∧ r.success = true := by
  obtain ⟨r, hr, hsuccess⟩ := Option.map_eq_some_iff.mp h
  cases hexec : (p.exec db).1 with
  | error e =>
    rw [hexec] at hr
    cases hr
  | ok a =>
    rw [hexec] at hr
    cases hr
    exact ⟨r, exec_eq_transact hexec, hsuccess⟩

theorem keepsLedger_of_active {link : ChannexPropertyLink}
    {payload : ChannexBookingRevisionPayload} (db : Db) (rt : UUID)
    (hkind : revisionKind payload = .cancelled)
    (hb : ∀ b ∈ db.bookings.rows,
      lineRoomTypes b.lines = [rt] ∧ b.status.Active ∧ b.nights.Nodup) :
    KeepsLedger link payload db := by
  intro _ b hfound _ _ _ _ _
  rw [hkind]
  obtain ⟨hrt, hok⟩ := hb b (List.mem_of_find?_eq_some hfound)
  exact ⟨fun _ => .inr (.inl ⟨⟨rt, hrt⟩, hok⟩), nofun⟩

/-- The cancellation of a confirmed booking keeps the equality. -/
theorem ingest_ledgerEq_demo :
    LedgerEq ((ingestChannexBooking (Demo.env 0 0 0) Demo.link
      (some (Demo.revision "r1" "cancelled"))).transact Demo.sold).hotel := by
  have hsuccess : ((ingestChannexBooking (Demo.env 0 0 0) Demo.link
      (some (Demo.revision "r1" "cancelled"))).exec Demo.sold).1.toOption.map (·.success) =
        some true := by decide +kernel
  have hrows : ∀ b ∈ Demo.sold.bookings.rows,
      lineRoomTypes b.lines = [10] ∧ b.status.Active ∧ b.nights.Nodup := by decide +kernel
  have hkind : revisionKind (Demo.revision "r1" "cancelled") = .cancelled := by decide
  obtain ⟨r, hexec, hr⟩ := exec_of_success hsuccess
  refine (ingest_ledgerEq_iff Demo.balanced_sold.ledgerEq hexec hr).mpr ?_
  intro payload hpayload
  rw [← Option.some.inj hpayload]
  exact keepsLedger_of_active Demo.sold 10 hkind hrows

theorem not_ledgerEq_of_row {db : Db} {rt : UUID} {d : ℤ} {c : Counts}
    (hrow : db.ledger.row rt d = some c) (hne : c.bookedRooms ≠ db.hotel.activeCount rt d) :
    ¬ LedgerEq db.hotel :=
  fun heq => hne (heq rt d c hrow)

/-- The cancellation of the no-show releases the night of the other booking. -/
theorem cancelled_noShow_released :
    LedgerEq Demo.afterNoShow.hotel ∧
    ((ingestChannexBooking (Demo.env 0 0 0) Demo.link
      (some (Demo.revision "r1" "cancelled"))).exec Demo.afterNoShow).1.toOption.map
        (·.success) = some true ∧
    ¬ LedgerEq ((ingestChannexBooking (Demo.env 0 0 0) Demo.link
      (some (Demo.revision "r1" "cancelled"))).transact Demo.afterNoShow).hotel := by
  have hrow : ((ingestChannexBooking (Demo.env 0 0 0) Demo.link
      (some (Demo.revision "r1" "cancelled"))).transact Demo.afterNoShow).ledger.row 10 3 =
        some ⟨2, 0, 0⟩ := by decide +kernel
  have hcount : ((ingestChannexBooking (Demo.env 0 0 0) Demo.link
      (some (Demo.revision "r1" "cancelled"))).transact Demo.afterNoShow).hotel.activeCount 10 3 =
        1 := by decide +kernel
  refine ⟨(Demo.balanced_twoBookings (by simp [Op.Api])).ledgerEq, by decide +kernel, ?_⟩
  apply not_ledgerEq_of_row hrow
  rw [hcount]
  decide

end OpenPms
