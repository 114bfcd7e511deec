import OpenPms.Announcements
import OpenPms.MigrationLoss
import OpenPms.MigrationRecords

/-!
What the server does to the bookings of a migration: a POST adds one, a PATCH sets the
status of one, and no other request touches them. Right after its creation a booking can
be cancelled or marked as a no-show.
-/
namespace OpenPms.Migration

open Transaction Prog KeyedTable

/-- A booking with its nights by room type. -/
structure Stay where
  id : UUID
  propertyId : UUID
  guestId : UUID
  externalId : Option String
  status : BookingStatus
  nights : List (UUID × ℤ)
  deriving DecidableEq

def stayOf (b : Booking) : Stay where
  id := b.id
  propertyId := b.propertyId
  guestId := b.guestId
  externalId := b.externalBookingId
  status := b.status
  nights := b.lines.map fun ln => (ln.roomTypeId, ln.date)

def stays (db : Db) : List Stay := db.bookings.rows.map stayOf

def setStay (bid : UUID) (s : BookingStatus) (x : Stay) : Stay :=
  if x.id = bid then { x with status := s } else x

section Stays
variable {db db' : Db}

theorem stay_of_find {bid : UUID} {b : Booking} (h : db.bookings.find bid = some b) {x : Stay}
    (hx : x ∈ stays db) (hid : x.id = bid) : x = stayOf b := by
  obtain ⟨c, hc, rfl⟩ := List.mem_map.mp hx
  have hfind := Table.find_of_mem hc
  rw [show c.id = bid from hid, h] at hfind
  rw [Option.some.inj hfind]

theorem stays_updateBooking {bid : UUID} {g : Booking → Booking} {hg : ∀ b, (g b).id = b.id}
    {G : Stay → Stay} (hG : ∀ b, stayOf (g b) = G (stayOf b)) :
    stays (db.updateBooking bid g hg) = (stays db).map fun x => if x.id = bid then G x else x := by
  have hrows : (db.updateBooking bid g hg).bookings.rows =
      db.bookings.rows.map fun b => if b.id = bid then g b else b := rfl
  unfold stays
  rw [hrows, List.map_map, List.map_map]
  refine List.map_congr_left fun b _ => ?_
  by_cases hb : b.id = bid
  · have hstay : (stayOf b).id = bid := hb
    simp only [Function.comp_apply, if_pos hb, if_pos hstay, hG]
  · have hstay : ¬ (stayOf b).id = bid := hb
    simp only [Function.comp_apply, if_neg hb, if_neg hstay]

theorem ignoresAssignment_stays : IgnoresAssignment stays where
  rooms _ _ := rfl
  ledger _ _ := rfl
  folio _ _ := rfl
  room db bid room := by
    have hsame : ∀ b, stayOf (setRoom room b) = stayOf b := by
      intro b
      simp [stayOf, setRoom]
    rw [stays_updateBooking (G := id) hsame]
    simp

/-- The inserts of a booking, and the pick of its room. -/
theorem stays_insertBooking {env : Env} {b : Booking} {rt : UUID} {perNight : List (ℤ × Money)}
    {description : String} {u : Unit} (hlines : b.lines = [])
    (h : (insertBooking env b rt perNight description).exec db = (.ok u, db')) :
    stays db' = stays db ++ [{ stayOf b with nights := perNight.map fun np => (rt, np.1) }] := by
  obtain ⟨_, s1, hrows, hpick⟩ := exec_bind_ok.mp h
  obtain ⟨_, s2, hflush, hrest⟩ := exec_bind_ok.mp hrows
  obtain ⟨_, s3, hinsert, hcharges⟩ := exec_bind_ok.mp hrest
  obtain ⟨hfresh, rfl⟩ := exec_flushBooking_ok hflush
  obtain ⟨-, rfl⟩ := exec_flushLines_ok hinsert
  have hassigned := (keeps_bind keeps_pickFirstFreeRoom fun _ =>
    keeps_assignPicked ignoresAssignment_stays).eq hpick
  have hcharged := (keeps_newCharges ignoresAssignment_stays.folio).eq hcharges
  rw [hassigned, hcharged]
  have hbookings : (db.bookings.insert b).update b.id (addLines (newLines rt perNight))
      (id_addLines _) = db.bookings.insert { b with lines := newLines rt perNight } :=
    insert_lines hfresh hlines
  change ((db.bookings.insert b).update b.id (addLines (newLines rt perNight))
    (id_addLines _)).rows.map stayOf = _
  have hfresh' : db.bookings.find ({ b with lines := newLines rt perNight } : Booking).id = none :=
    hfresh
  rw [hbookings, Table.insert_rows hfresh', List.map_append]
  simp [stays, stayOf, newLines]

theorem guest_found {email : String} {g : Guest} (h : findGuestByEmail email db = some g) :
    db.guests.find g.id = some g := Table.find_of_mem (List.mem_of_find?_eq_some h)

theorem exec_flushGuest_true {g : Guest} (h : (flushGuest g).exec db = (.ok true, db')) :
    db'.guests.find g.id = some g := by
  obtain ⟨clash, s1, hclash, h⟩ := exec_bind_ok.mp h
  cases hclash
  split at h
  · cases h
  · next hfree =>
    simp only [Bool.or_eq_true, not_or, Bool.not_eq_true, Option.isSome_eq_false_iff,
      Option.isNone_iff_eq_none] at hfree
    cases h
    exact Table.find_insert_self hfree.2

/-- The guest of a new booking has a row. -/
theorem exec_getOrCreateGuest_found {env : Env} {payload : GuestPayload} {force merged : Bool}
    {g : Guest} (h : (getOrCreateGuestForBooking env payload force).exec db =
      (.ok (g, merged), db')) : db'.guests.find g.id = some g := by
  unfold getOrCreateGuestForBooking at h
  split at h
  · obtain ⟨inserted, s1, hinsert, h⟩ := exec_bind_ok.mp h
    obtain ⟨_, s2, hraise, h⟩ := exec_bind_ok.mp h
    obtain ⟨hok, rfl⟩ := exec_raiseIf_ok.mp hraise
    obtain rfl : inserted = true := by simpa using hok
    cases h
    exact exec_flushGuest_true hinsert
  · obtain ⟨existing, s1, hexisting, h⟩ := exec_bind_ok.mp h
    cases hexisting
    split at h
    · next hfound =>
      cases h
      exact guest_found hfound
    · obtain ⟨inserted, s2, hinsert, h⟩ := exec_bind_ok.mp h
      cases inserted with
      | true =>
        cases h
        exact exec_flushGuest_true hinsert
      | false =>
        obtain ⟨again, s3, hagain, h⟩ := exec_bind_ok.mp h
        cases hagain
        split at h
        · next hfound =>
          cases h
          exact guest_found hfound
        · cases h

theorem ignoresStays_guests : IgnoresStays Db.guests where
  rooms _ _ := rfl
  ledger _ _ := rfl
  bookings _ _ := rfl
  folio _ _ := rfl

/-- One booking more, on nights that had a room left. -/
structure Booked (env : Env) (body : BookingCreateRequest) (nights : List ℤ) (db db' : Db) :
    Prop where
  fresh : db.bookings.find env.bookingId = none
  unknown : ∀ e, externalRef body.externalBookingId = some e →
    ∀ x ∈ stays db, x.externalId ≠ some e
  span : iterStayNights body.checkIn body.checkOut = .ok nights
  room : ∀ d ∈ nights, ∃ c, db.ledger.row body.roomTypeId d = some c ∧ 1 ≤ c.available
  ledger : db'.ledger = db.ledger.shift body.roomTypeId nights 1
  added : ∃ guest, db'.guests.find guest.id = some guest ∧
    stays db' = stays db ++ [⟨env.bookingId, body.propertyId, guest.id,
      externalRef body.externalBookingId, body.status.status,
      nights.map fun d => (body.roomTypeId, d)⟩]

theorem booked_createBooking {env : Env} {body : BookingCreateRequest}
    {r : BookingCreateResponse} (h : (createBooking env body).exec db = (.ok r, db')) :
    (∃ nights, Booked env body nights db db') ∧ r.bookingId = env.bookingId := by
  obtain ⟨nights', hspan', hledger⟩ := createBooking_claims h
  simp only [createBooking, exec_bind_ok, exec_stayNights_ok, exec_select, exec_raiseIf_ok,
    exec_pure, Prod.mk.injEq, Except.ok.injEq] at h
  obtain ⟨nights, _, ⟨hnights, rfl⟩, _, _, ⟨rfl, rfl⟩, _, _, ⟨hunknown, rfl⟩, _, db₁, hreq₁, _,
    db₂, hreq₂, ⟨total, perNight⟩, db₃, hsum, _, db₄, hclaim, ⟨guest, merged⟩, db₅, hguest, _,
    db₆, hinsert, rfl, rfl⟩ := h
  have heq₁ := exec_requireRoomTypeOnProperty_ok hreq₁
  have heq₂ := exec_requireRatePlanOnProperty_ok hreq₂
  subst heq₁ heq₂
  obtain ⟨rfl, hper, -⟩ := exec_sumRates_ok hsum
  obtain ⟨hroom, rfl⟩ := exec_claim_ok hclaim
  obtain rfl : nights = nights' := Except.ok.inj (hnights.symm.trans hspan')
  obtain rfl : nights = perNight.map (·.1) := Except.ok.inj (hnights.symm.trans hper)
  have hbookings := (keeps_getOrCreateGuest (f := Db.bookings) fun _ _ => rfl).eq hguest
  have hkept : stays db₅ = stays db := congrArg (fun t => t.rows.map stayOf) hbookings
  have hadded := stays_insertBooking rfl hinsert
  obtain ⟨_, _, hrows, -⟩ := exec_bind_ok.mp hinsert
  obtain ⟨_, _, hflush, -⟩ := exec_bind_ok.mp hrows
  have hfresh := (exec_flushBooking_ok hflush).1
  have hguests := (keeps_bind (stays_insertRows ignoresStays_guests)
    fun _ => keeps_bind keeps_pickFirstFreeRoom fun _ =>
      keeps_assignPicked ignoresStays_guests.assignment).eq hinsert
  refine ⟨⟨_, ?_, ?_, hnights, hroom, hledger, guest, ?_, ?_⟩, rfl⟩
  · exact hbookings ▸ hfresh
  · intro e he x hx hxe
    obtain ⟨b, hb, rfl⟩ := List.mem_map.mp hx
    have hbe : b.externalBookingId = some e := hxe
    refine hunknown (List.any_eq_true.mpr ⟨b, hb, ?_⟩)
    simp [he, hbe]
  · rw [hguests]
    exact exec_getOrCreateGuest_found hguest
  · rw [hadded, hkept, List.map_map]
    rfl

/-! Patches of the status -/

theorem setStay_self {b : Booking} (hfind : db.bookings.find b.id = some b) :
    (stays db).map (setStay b.id b.status) = stays db := by
  have hsame : ∀ x ∈ stays db, setStay b.id b.status x = x := by
    intro x hx
    unfold setStay
    split
    · next hid =>
      obtain rfl := stay_of_find hfind hx hid
      rfl
    · rfl
  rw [List.map_congr_left hsame, List.map_id']

theorem setStay_updateRow {bid : UUID} {s : BookingStatus} {u : Unit}
    (h : (updateBookingRow bid (setStatus s) (id_setStatus s)).exec db = (.ok u, db')) :
    stays db' = (stays db).map (setStay bid s) := by
  obtain ⟨-, rfl⟩ := exec_updateBookingRow_ok.mp h
  rw [stays_updateBooking (G := fun x => { x with status := s }) fun _ => rfl]
  rfl

theorem setStay_patchCancel {b : Booking} {u : Unit} (hfind : db.bookings.find b.id = some b)
    (h : (patchCancel b).exec db = (.ok u, db')) :
    stays db' = (stays db).map (setStay b.id .cancelled) := by
  unfold patchCancel at h
  split at h
  · obtain ⟨_, s1, hcheck, h⟩ := exec_bind_ok.mp h
    obtain ⟨_, s2, hrelease, hset⟩ := exec_bind_ok.mp h
    have hchecked : stays s1 = stays db := (keeps_ofExcept _).eq hcheck
    have hreleased : stays s2 = stays s1 :=
      (keeps_release (f := stays) fun _ _ _ _ => rfl).eq hrelease
    rw [setStay_updateRow hset, hreleased, hchecked]
  · next hcancelled =>
    cases h
    rw [← not_not.mp hcancelled, setStay_self hfind]

theorem keeps_checkin {γ : Type} {f : Db → γ} {env : Env} {b : Booking} :
    Keeps f (checkinRequirements env b) := by
  refine keeps_bind (keeps_select _) fun guest => ?_
  split
  · exact keeps_raise _
  · exact keeps_raiseIf _

theorem setStay_patchStatus {env : Env} {b : Booking} {target s : BookingStatus} {pl : PatchLines}
    (hfind : db.bookings.find b.id = some b)
    (h : (patchStatus env b { status := some (some target.text) } pl).exec db = (.ok s, db')) :
    stays db' = (stays db).map (setStay b.id target) := by
  simp only [patchStatus, statusText, normalizeBookingStatus_text, BookingStatus.ofText_text,
    Option.getD_some] at h
  obtain ⟨_, s1, hcheck, h⟩ := exec_bind_ok.mp h
  obtain ⟨_, s2, hguest, h⟩ := exec_bind_ok.mp h
  obtain ⟨_, s3, hrelease, h⟩ := exec_bind_ok.mp h
  obtain ⟨_, s4, hset, h⟩ := exec_bind_ok.mp h
  cases h
  have hreleased : Keeps stays (releaseLoaded pl.loaded) := by
    unfold releaseLoaded
    split
    · exact keeps_raise _
    · exact keeps_release fun _ _ _ _ => rfl
  have hkept : stays s3 = stays db := by
    rw [(keeps_runIf hreleased).eq hrelease, (keeps_runIf (keeps_checkin (f := stays))).eq hguest]
    exact (keeps_ofExcept _).eq hcheck
  rcases exec_runIf_ok.mp hset with ⟨-, hset⟩ | ⟨hsame, rfl⟩
  · rw [setStay_updateRow hset, hkept]
  · rw [hkept, not_not.mp hsame, setStay_self hfind]

/-- A patch of the status that is accepted sets it, and touches no other booking. -/
theorem setStay_patchBooking {env : Env} {bid : UUID} {target : BookingStatus} {r : Option Money}
    (h : (OpenPms.patchBooking env bid { status := some (some target.text) }).exec db =
      (.ok r, db')) :
    stays db' = (stays db).map (setStay bid target) := by
  unfold OpenPms.patchBooking at h
  rw [if_neg (fun heq => by cases congrArg BookingPatchRequest.status heq)] at h
  obtain ⟨found, s1, hfound, h⟩ := exec_bind_ok.mp h
  simp only [exec_select, Prod.mk.injEq, Except.ok.injEq] at hfound
  obtain ⟨hfound, rfl⟩ := hfound
  cases found with
  | none => cases h
  | some b =>
    obtain rfl : b.id = bid := (Table.find_eq_some.mp hfound).2
    simp only at h
    rw [if_neg (fun heq => by cases congrArg BookingPatchRequest.status heq)] at h
    split at h
    · next hcancels =>
      obtain ⟨_, s2, hcancel, h⟩ := exec_bind_ok.mp h
      have htarget : target = .cancelled := by
        simp only [cancels, normalizeBookingStatus_text, decide_eq_true_eq] at hcancels
        exact text_injective hcancels
      cases h
      rw [htarget]
      exact setStay_patchCancel hfound hcancel
    · obtain ⟨_, s2, hinactive, h⟩ := exec_bind_ok.mp h
      obtain ⟨pl, s3, hdates, h⟩ := exec_bind_ok.mp h
      obtain ⟨pl', s4, hroom, h⟩ := exec_bind_ok.mp h
      obtain ⟨s, s5, hstatus, h⟩ := exec_bind_ok.mp h
      obtain ⟨warning, s6, hwarning, h⟩ := exec_bind_ok.mp h
      obtain ⟨_, s7, hcharge, h⟩ := exec_bind_ok.mp h
      obtain ⟨rfl, -⟩ := exec_checkInactive_ok hinactive
      rw [patchDates, if_pos ⟨rfl, rfl⟩] at hdates
      cases hdates
      cases hroom
      cases hcharge
      cases h
      have hwarned : Keeps stays (checkoutWarning b s (.ofBooking b)) := by
        unfold checkoutWarning
        split
        · exact keeps_bind (keeps_modify fun _ => rfl) fun _ => keeps_bind (keeps_select _)
            fun _ => keeps_pure _
        · exact keeps_pure _
      rw [hwarned.eq hwarning]
      exact setStay_patchStatus hfound hstatus

/-! Patches of a new booking -/

/-- A confirmed booking whose nights can be given back, and whose guest has a row. -/
structure Movable (propertyId bid : UUID) (db : Db) : Prop where
  row : ∃ b rt guest, db.bookings.find bid = some b ∧ b.propertyId = propertyId ∧
    b.status = .confirmed ∧ lineRoomTypes b.lines = [rt] ∧ db.ledger.Releasable rt b.nights ∧
    db.guests.find b.guestId = some guest

/-- The statuses that one patch takes a confirmed booking to. -/
def OnePatch : BookingStatus → Prop
  | .checkedIn | .cancelled | .noShow => True
  | _ => False

/-- The extensions of the property ask for nothing at a check-in. -/
def Undemanding (env : Env) (propertyId : UUID) : Prop :=
  ∀ guest, env.checkinMessages propertyId guest = []

theorem exec_giveBack {b : Booking} {rt : UUID} (hfind : db.bookings.find b.id = some b)
    (hrt : lineRoomTypes b.lines = [rt]) (hreleasable : db.ledger.Releasable rt b.nights)
    (s : BookingStatus) :
    ∃ db₁ db₂, (releaseBookingInventory b.lines).exec db = (.ok (), db₁) ∧
      (updateBookingRow b.id (setStatus s) (id_setStatus s)).exec db₁ = (.ok (), db₂) :=
  ⟨_, _, (exec_release_ok hrt).mpr ⟨hreleasable, rfl⟩,
    exec_updateBookingRow_ok.mpr ⟨⟨b, hfind⟩, rfl⟩⟩

theorem patch_cancel_accepted {env : Env} {b : Booking} {rt : UUID}
    (hfind : db.bookings.find b.id = some b) (hconfirmed : b.status = .confirmed)
    (hrt : lineRoomTypes b.lines = [rt]) (hreleasable : db.ledger.Releasable rt b.nights) :
    ∃ r db', (OpenPms.patchBooking env b.id
      { status := some (some BookingStatus.cancelled.text) }).exec db = (.ok r, db') := by
  obtain ⟨db₁, db₂, hrelease, hset⟩ := exec_giveBack hfind hrt hreleasable .cancelled
  have hcheck : checkTransition b.status BookingStatus.cancelled.text = pure () := by
    rw [hconfirmed]
    exact checkTransition_of_ok (by decide)
  have hcancel : (patchCancel b).exec db = (.ok (), db₂) := by
    rw [patchCancel, if_pos (by rw [hconfirmed]; decide), hcheck, pure_bind]
    exact exec_bind_ok.mpr ⟨(), db₁, hrelease, hset⟩
  refine ⟨none, db₂, ?_⟩
  unfold OpenPms.patchBooking
  rw [if_neg (fun heq => by cases congrArg BookingPatchRequest.status heq)]
  refine exec_bind_ok.mpr ⟨some b, db, by rw [exec_select, hfind], ?_⟩
  simp only
  rw [if_neg (fun heq => by cases congrArg BookingPatchRequest.status heq),
    if_pos (by simp [cancels, normalizeBookingStatus_text])]
  exact exec_bind_ok.mpr ⟨(), db₂, hcancel, rfl⟩

theorem patch_noShow_accepted {env : Env} {b : Booking} {rt : UUID}
    (hfind : db.bookings.find b.id = some b) (hconfirmed : b.status = .confirmed)
    (hrt : lineRoomTypes b.lines = [rt]) (hreleasable : db.ledger.Releasable rt b.nights) :
    ∃ r db', (OpenPms.patchBooking env b.id
      { status := some (some BookingStatus.noShow.text) }).exec db = (.ok r, db') := by
  obtain ⟨db₁, db₂, hrelease, hset⟩ := exec_giveBack hfind hrt hreleasable .noShow
  refine ⟨none, db₂, ?_⟩
  rw [exec_patchNoShow ⟨⟨_, rfl, normalizeBookingStatus_text _⟩, rfl, rfl, rfl⟩ hfind hconfirmed]
  exact exec_bind_ok.mpr ⟨(), db₁, hrelease, exec_bind_ok.mpr ⟨(), db₂, hset, rfl⟩⟩

/-- The parts of a patch that a check-in goes through. -/
theorem exec_patchCheckin {env : Env} {b : Booking} (hfind : db.bookings.find b.id = some b)
    (hconfirmed : b.status = .confirmed) :
    (OpenPms.patchBooking env b.id
        { status := some (some BookingStatus.checkedIn.text) }).exec db =
      (do
        checkinRequirements env b
        updateBookingRow b.id (setStatus .checkedIn) (id_setStatus _)
        pure none : Tx (Option Money)).exec db := by
  have hstatus : patchStatus env b { status := some (some BookingStatus.checkedIn.text) }
      (.ofBooking b) = (do
        checkinRequirements env b
        updateBookingRow b.id (setStatus .checkedIn) (id_setStatus _)
        pure .checkedIn) := by
    have hcheck : checkTransition .confirmed BookingStatus.checkedIn.text = pure () :=
      checkTransition_of_ok (by decide)
    simp only [patchStatus, statusText, normalizeBookingStatus_text, hconfirmed, hcheck,
      BookingStatus.ofText_text, Option.getD_some, pure_bind]
    rfl
  have hinactive : checkInactive b { status := some (some BookingStatus.checkedIn.text) } =
      pure () := by
    rw [checkInactive, hconfirmed]
    rfl
  have hcancels : cancels { status := some (some BookingStatus.checkedIn.text) } = false := by
    decide
  have hwarning : checkoutWarning b .checkedIn (.ofBooking b) = pure none := rfl
  unfold OpenPms.patchBooking
  rw [if_neg (fun heq => by cases congrArg BookingPatchRequest.status heq), exec_bind,
    exec_select]
  simp only [hfind]
  rw [if_neg (fun heq => by cases congrArg BookingPatchRequest.status heq), hcancels]
  simp only [Bool.false_eq_true, if_false, hinactive, patchDates, and_self, if_true,
    patchRoomAssignment, hstatus, pure_bind, bind_assoc, hwarning]
  rfl

theorem patch_checkin_accepted {env : Env} {b : Booking} {guest : Guest}
    (hfind : db.bookings.find b.id = some b) (hconfirmed : b.status = .confirmed)
    (hguest : db.guests.find b.guestId = some guest)
    (hmessages : env.checkinMessages b.propertyId guest = []) :
    ∃ r db', (OpenPms.patchBooking env b.id
      { status := some (some BookingStatus.checkedIn.text) }).exec db = (.ok r, db') := by
  have hchecked : (checkinRequirements env b).exec db = (.ok (), db) := by
    refine exec_bind_ok.mpr ⟨some guest, db, by rw [exec_select, hguest], ?_⟩
    exact exec_raiseIf_ok.mpr ⟨not_not.mpr hmessages, rfl⟩
  refine ⟨none, db.updateBooking b.id (setStatus .checkedIn) (id_setStatus _), ?_⟩
  rw [exec_patchCheckin hfind hconfirmed]
  exact exec_bind_ok.mpr ⟨(), db, hchecked, exec_bind_ok.mpr
    ⟨(), _, exec_updateBookingRow_ok.mpr ⟨⟨b, hfind⟩, rfl⟩, rfl⟩⟩

/-- The status of a new booking can be set. -/
theorem patch_accepted {env : Env} {propertyId bid : UUID} {target : BookingStatus}
    (h : Movable propertyId bid db) (hdemands : Undemanding env propertyId)
    (htarget : OnePatch target) :
    ∃ r db', (OpenPms.patchBooking env bid
      { status := some (some target.text) }).exec db = (.ok r, db') := by
  obtain ⟨b, rt, guest, hfind, rfl, hconfirmed, hrt, hreleasable, hguest⟩ := h.row
  obtain rfl : b.id = bid := (Table.find_eq_some.mp hfind).2
  cases target with
  | cancelled => exact patch_cancel_accepted hfind hconfirmed hrt hreleasable
  | noShow => exact patch_noShow_accepted hfind hconfirmed hrt hreleasable
  | checkedIn => exact patch_checkin_accepted hfind hconfirmed hguest (hdemands guest)
  | pending | confirmed | checkedOut => exact htarget.elim

/-- A new booking is movable, where the ledger counts the bookings. -/
theorem movable_of_booked {env : Env} {body : BookingCreateRequest} {nights : List ℤ}
    (hconfirmed : body.status = .confirmed) (hledger : ∀ rt d c, db.ledger.row rt d = some c →
      0 ≤ c.bookedRooms) (h : Booked env body nights db db') :
    Movable body.propertyId env.bookingId db' := by
  obtain ⟨guest, hguest, hadded⟩ := h.added
  have hmem : (⟨env.bookingId, body.propertyId, guest.id, externalRef body.externalBookingId,
      body.status.status, nights.map fun d => (body.roomTypeId, d)⟩ : Stay) ∈ stays db' := by
    rw [hadded]
    exact List.mem_append_right _ (List.mem_singleton.mpr rfl)
  obtain ⟨b, hb, hstay⟩ := List.mem_map.mp hmem
  obtain ⟨hid, hproperty, hguestId, -, hstatus, hlines⟩ := Stay.mk.inj hstay
  have hnights : b.nights = nights := by
    have := congrArg (List.map Prod.snd) hlines
    simpa [Booking.nights, Function.comp_def] using this
  have htypes : ∀ ln ∈ b.lines, ln.roomTypeId = body.roomTypeId := by
    intro ln hln
    have hpair : (ln.roomTypeId, ln.date) ∈ nights.map fun d => (body.roomTypeId, d) := by
      rw [← hlines]
      exact List.mem_map_of_mem hln
    obtain ⟨d, -, heq⟩ := List.mem_map.mp hpair
    exact (congrArg Prod.fst heq).symm
  have hne : b.lines ≠ [] := by
    intro hnil
    obtain ⟨hlt, -, heq⟩ := iterStayNights_ok h.span
    have hfirst : body.checkIn ∈ nights := heq ▸ mem_daysBetween.mpr ⟨le_rfl, hlt⟩
    rw [← hnights, Booking.nights, hnil] at hfirst
    cases hfirst
  refine ⟨b, body.roomTypeId, guest, hid ▸ Table.find_of_mem hb, hproperty, ?_,
    lineRoomTypes_eq_single hne htypes, fun d hd => ?_, hguestId ▸ hguest⟩
  · rw [hstatus, hconfirmed]
    rfl
  · obtain ⟨c, hc, hroom⟩ := h.room d (hnights ▸ hd)
    have hbooked := hledger _ _ _ hc
    refine ⟨{ c with bookedRooms := c.bookedRooms + 1 }, ?_, ?_, ?_⟩
    · rw [h.ledger, Ledger.shift, Ledger.adjust_row, hc, Option.map_some,
        if_pos ⟨rfl, hnights ▸ hd⟩]
    · unfold Counts.available at hroom ⊢
      simp only
      omega
    · simp only
      omega

end Stays

/-! The requests as operations -/

theorem transaction_eq {α β : Type} {t : Tenant} {tx : Tx α} {status : Err → ℕ}
    {commit : α → Tenant → Reply β × Tenant}
    (hcommit : ∀ a t, (commit a t).2.db.toDb = t.db.toDb) :
    (transaction t tx status commit).2.db.toDb =
      (tx >>= fun _ => (pure () : Tx Unit)).transact t.db.toDb := by
  unfold transaction
  split
  · next a core hexec =>
    rw [hcommit, transact_ok (exec_bind_ok.mpr ⟨a, core, hexec, rfl⟩)]
    rfl
  · next e core hexec => rw [transact_error (exec_bind_error.mpr (.inl hexec))]

/-- What the request does to the tables is an operation of the API, and one that leaves the
bookings alone if the request does not concern them. -/
structure Serves (op : Op) (q : Request) (t t' : Tenant) : Prop where
  api : op.Api
  core : t'.db.toDb = op.prog.transact t.db.toDb
  bookings : q.OfBooking ∨ Keeps Db.bookings op.prog

theorem serves_unchanged (q : Request) (t : Tenant) :
    Serves (.administer id fun _ => rfl) q t t :=
  ⟨trivial, rfl, .inr (keeps_modify fun _ => rfl)⟩

theorem serves_rates (body : Ari.BulkRatesPutRequest) (q : Request) (t : Tenant) :
    Serves (.administer (fun db => { db with rates := (Ari.upsertRates body t.db).rates })
      fun _ => rfl) q t { t with db := Ari.upsertRates body t.db } :=
  ⟨trivial, rfl, .inr (keeps_modify fun _ => rfl)⟩

theorem openPms_serves (draws : Draws) (q : Request) (t : Tenant) :
    ∃ op, Serves op q t (openPms draws q t).2 := by
  have hstay := serves_unchanged q t
  cases q with
  | listRoomTypes | listRatePlans | listGuests | listBookings | listBookingsWindow =>
    exact ⟨_, hstay⟩
  | createRoomType propertyId rt =>
    simp only [openPms, createRoomType]
    split
    · exact ⟨.createRoomType .., trivial, transaction_eq fun _ _ => rfl,
        .inr (keeps_bind keeps_createRoomType fun _ => keeps_pure _)⟩
    · exact ⟨_, hstay⟩
  | bulkCreateRooms rt rooms =>
    simp only [openPms, bulkCreateRooms]
    split
    · refine ⟨.createRoomsBulk .., trivial, transaction_eq fun _ _ => ?_,
        .inr (keeps_bind (keeps_createRoomsBulk ignoresRooms_bookings) fun _ => keeps_pure _)⟩
      simp only
      split <;> rfl
    · exact ⟨_, hstay⟩
  | createRatePlan propertyId name policy =>
    simp only [openPms, createRatePlan]
    split
    · exact ⟨_, hstay⟩
    · split
      · exact ⟨_, hstay⟩
      · split
        · exact ⟨_, hstay⟩
        · exact ⟨.administer (fun db => { db with ratePlans := db.ratePlans ++ [_] })
            fun _ => rfl, trivial, rfl, .inr (keeps_modify fun _ => rfl)⟩
  | bulkPutRates rt rp start stop price =>
    simp only [openPms, bulkPutRates]
    split
    · split
      · next hupsert =>
        rw [bulkUpsertRates_db hupsert]
        exact ⟨_, serves_rates ..⟩
      · exact ⟨_, hstay⟩
    · exact ⟨_, hstay⟩
  | seedAvailability rt start stop =>
    simp only [openPms, seedAvailability]
    split
    · exact ⟨.bulkSeed _, trivial, transaction_eq fun _ _ => rfl,
        .inr (keeps_bind (keeps_bulkSeed ignoresRooms_bookings) fun _ => keeps_pure _)⟩
    · exact ⟨_, hstay⟩
  | createGuest body =>
    simp only [openPms, createGuest]
    split
    · split
      · exact ⟨_, hstay⟩
      · split
        · exact ⟨_, hstay⟩
        · exact ⟨.administer (fun db => { db with guests := db.guests.insert _ }) fun _ => rfl,
            trivial, rfl, .inr (keeps_modify fun _ => rfl)⟩
    · exact ⟨_, hstay⟩
  | patchGuest id body =>
    simp only [openPms, patchGuest]
    split
    · exact ⟨_, hstay⟩
    · split
      · exact ⟨_, hstay⟩
      · split
        · exact ⟨_, hstay⟩
        · exact ⟨.administer (fun db => { db with
            guests := db.guests.update id (patchedGuest body) (id_patchedGuest body) })
            fun _ => rfl, trivial, rfl, .inr (keeps_modify fun _ => rfl)⟩
  | createBooking body =>
    simp only [openPms, postBooking]
    split
    · refine ⟨.createBooking .., trivial, transaction_eq fun _ _ => ?_, .inl trivial⟩
      simp only
      split <;> rfl
    · exact ⟨_, hstay⟩
  | patchBooking id status =>
    exact ⟨.patchBooking .., trivial, transaction_eq fun _ _ => rfl, .inl trivial⟩

theorem reachable_openPms {draws : Draws} {t : Tenant} (h : Reachable apiOp t.db.toDb)
    (q : Request) : Reachable apiOp (openPms draws q t).2.db.toDb := by
  obtain ⟨op, hserves⟩ := openPms_serves draws q t
  rw [hserves.core]
  exact h.tail op hserves.api

/-- Only the requests about bookings touch them. -/
theorem stays_openPms {draws : Draws} {q : Request} (hq : ¬ q.OfBooking) (t : Tenant) :
    stays (openPms draws q t).2.db.toDb = stays t.db.toDb := by
  obtain ⟨op, hserves⟩ := openPms_serves draws q t
  have hkept := hserves.bookings.resolve_left hq
  have hbookings : (op.prog.transact t.db.toDb).bookings = t.db.toDb.bookings :=
    transact_induction (R := fun s s' => s'.bookings = s.bookings) op.prog rfl
      fun _ _ hexec => hkept.eq hexec
  unfold stays
  rw [hserves.core, hbookings]

/-! Bookings by external id -/

def entries (ext : String) (t : Tenant) : List Stay :=
  (stays t.db.toDb).filter fun x => x.externalId = some ext

section Entries
variable {draws : Draws} {t t' : Tenant} {ext : String}

theorem mem_entries {x : Stay} :
    x ∈ entries ext t ↔ x ∈ stays t.db.toDb ∧ x.externalId = some ext := by
  simp [entries]

theorem entries_of_stays (h : stays t'.db.toDb = stays t.db.toDb) (ext : String) :
    entries ext t' = entries ext t := by
  unfold entries
  rw [h]

/-- A booking more shows under its own external id. -/
theorem entries_append {x : Stay} (h : stays t'.db.toDb = stays t.db.toDb ++ [x]) :
    (x.externalId = some ext → entries ext t' = entries ext t ++ [x]) ∧
      (x.externalId ≠ some ext → entries ext t' = entries ext t) := by
  unfold entries
  rw [h, List.filter_append]
  exact ⟨fun hx => by simp [hx], fun hx => by simp [hx]⟩

theorem stay_unique {db : Db} {x y : Stay} (hx : x ∈ stays db) (hy : y ∈ stays db)
    (hid : x.id = y.id) : x = y := by
  obtain ⟨b, hb, rfl⟩ := List.mem_map.mp hx
  exact (stay_of_find (Table.find_of_mem hb) hy hid.symm).symm

theorem entries_setStay {bid : UUID} {s : BookingStatus}
    (h : stays t'.db.toDb = (stays t.db.toDb).map (setStay bid s)) (ext : String) :
    entries ext t' = (entries ext t).map (setStay bid s) := by
  have hext : ∀ x, (setStay bid s x).externalId = x.externalId := by
    intro x
    unfold setStay
    split <;> rfl
  unfold entries
  rw [h, List.filter_map]
  simp only [Function.comp_def, hext]

/-- The patch of a booking does not show under another external id. -/
theorem entries_setStay_ne {x : Stay} {s : BookingStatus} {other : String}
    (h : stays t'.db.toDb = (stays t.db.toDb).map (setStay x.id s)) (hx : x ∈ entries ext t)
    (hne : other ≠ ext) : entries other t' = entries other t := by
  have hsame : ∀ y ∈ entries other t, setStay x.id s y = y := by
    intro y hy
    refine if_neg fun hid => hne ?_
    obtain ⟨hxmem, hxext⟩ := mem_entries.mp hx
    obtain ⟨hymem, hyext⟩ := mem_entries.mp hy
    obtain rfl := stay_unique hxmem hymem hid.symm
    exact Option.some.inj (hyext.symm.trans hxext)
  rw [entries_setStay h, List.map_congr_left hsame, List.map_id']

/-- The lookup shows the first row. -/
theorem listBookings_entries (hclean : Clean ext) (t : Tenant) :
    listBookings ext t = success ((entries ext t).head?.toList.map fun x =>
      some ⟨some x.id, x.status.text⟩) := by
  have hhead : (entries ext t).head? =
      (t.db.bookings.rows.find? fun b => b.externalBookingId = some ext).map stayOf := by
    unfold entries stays
    rw [List.head?_filter, List.find?_map]
    rfl
  simp only [listBookings, hclean.strip_eq, hclean.ne_empty, if_false, hclean.take_eq, hhead]
  cases t.db.bookings.rows.find? fun b => b.externalBookingId = some ext with
  | none => rfl
  | some b => rfl

/-! One request -/

/-- The bookings with other external ids are as before, and the tables can still be
reached. -/
structure Besides (ext : String) (t t' : Tenant) : Prop where
  others : ∀ other ≠ ext, entries other t' = entries other t
  reachable : Reachable apiOp t.db.toDb → Reachable apiOp t'.db.toDb

theorem Besides.refl (ext : String) (t : Tenant) : Besides ext t t := ⟨fun _ _ => rfl, id⟩

theorem Besides.trans {t'' : Tenant} (h : Besides ext t t') (h' : Besides ext t' t'') :
    Besides ext t t'' :=
  ⟨fun other hne => (h'.others other hne).trans (h.others other hne),
    fun hr => h'.reachable (h.reachable hr)⟩

/-- The only booking with the external id, with its status. -/
def Only (ext : String) (bid : UUID) (s : BookingStatus) (t : Tenant) : Prop :=
  ∃ x, entries ext t = [x] ∧ x.id = bid ∧ x.status = s

/-- A confirmed booking was added. -/
structure Posted (propertyId : UUID) (ext : String) (bid : UUID) (t t' : Tenant) : Prop where
  absent : entries ext t = []
  only : Only ext bid .confirmed t'
  movable : Movable propertyId bid t'.db.toDb

theorem posted_of_accepted {body : BookingBody} {answer : Option UUID}
    (hclean : Clean body.externalBookingId) (hreach : Reachable apiOp t.db.toDb)
    (h : (openPms draws (.createBooking body) t).1.body = .ok answer) :
    ∃ bid, answer = some bid ∧
      Posted body.propertyId body.externalBookingId bid t
        (openPms draws (.createBooking body) t).2 ∧
      Besides body.externalBookingId t (openPms draws (.createBooking body) t).2 := by
  have hreach' : Reachable apiOp (openPms draws (.createBooking body) t).2.db.toDb :=
    reachable_openPms hreach _
  simp only [openPms, postBooking] at h hreach' ⊢
  split at h
  · next hvalid =>
    rw [dif_pos hvalid] at hreach' ⊢
    obtain ⟨out, core, hexec, hcommit⟩ := transaction_accepted h
    rw [hcommit] at h hreach' ⊢
    obtain ⟨⟨nights, hbooked⟩, hid⟩ := booked_createBooking hexec
    have hext : externalRef (body.request hvalid.2.1 hvalid.2.2).externalBookingId =
        some body.externalBookingId := externalRef_clean hclean
    obtain ⟨guest, hguest, hadded⟩ := hbooked.added
    have hledger : ∀ rt d c, t.db.toDb.ledger.row rt d = some c → 0 ≤ c.bookedRooms := by
      intro rt d c hc
      have heq : c.bookedRooms = t.db.toDb.hotel.activeCount rt d :=
        hreach.balanced.ledgerEq rt d c hc
      rw [heq]
      exact Int.natCast_nonneg _
    have hmovable := movable_of_booked rfl hledger hbooked
    rw [hext] at hadded
    have hcore : ∀ t' : Tenant, (if out.guestMerged then t'
        else t'.setGuestColumns out.guestId ⟨none, false⟩).draw.db.toDb = t'.db.toDb := by
      intro t'
      split <;> rfl
    have hstays := hadded
    rw [← show (t.setCore core).db.toDb = core from rfl, ← hcore (t.setCore core)] at hstays
    have habsent : entries body.externalBookingId t = [] := by
      refine List.filter_eq_nil_iff.mpr fun x hx hxe => ?_
      exact hbooked.unknown _ hext x hx (of_decide_eq_true hxe)
    have hentries := (entries_append hstays).1 rfl
    rw [habsent, List.nil_append] at hentries
    cases h
    refine ⟨_, rfl, ⟨habsent, ⟨_, hentries, hid.symm, rfl⟩, ?_⟩, fun other hne => ?_,
      fun _ => hreach'⟩
    · rw [hcore, hid]
      exact hmovable
    · exact (entries_append hstays).2 fun heq => hne (Option.some.inj heq).symm
  · exact absurd h refusal_ne_ok

/-- A patch is committed, or refused without any effect. -/
theorem patch_transaction (bid : UUID) (s : BookingStatus) (t : Tenant) :
    (∃ r, (OpenPms.patchBooking (draws.env t.drawn) bid
        { status := some (some s.text) }).exec t.db.toDb =
        (.ok r, (openPms draws (.patchBooking bid s) t).2.db.toDb)) ∨
    (∃ e core, (OpenPms.patchBooking (draws.env t.drawn) bid
        { status := some (some s.text) }).exec t.db.toDb = (.error e, core)) ∧
      (openPms draws (.patchBooking bid s) t).2 = t := by
  simp only [openPms, patchBookingById]
  rcases hexec : (OpenPms.patchBooking (draws.env t.drawn) bid
      { status := some (some s.text) }).exec t.db.toDb with ⟨e | r, core⟩
  · exact .inr ⟨⟨e, core, rfl⟩, by rw [transaction_error hexec]⟩
  · refine .inl ⟨r, ?_⟩
    rw [transaction_ok hexec]
    rfl

/-- A patch sets the status of the booking, or changes nothing. -/
theorem patch_only {bid : UUID} {s target : BookingStatus} (h : Only ext bid s t) :
    (Only ext bid target (openPms draws (.patchBooking bid target) t).2 ∨
      (openPms draws (.patchBooking bid target) t).2 = t) ∧
    Besides ext t (openPms draws (.patchBooking bid target) t).2 := by
  obtain ⟨x, hentries, rfl, -⟩ := h
  rcases @patch_transaction draws x.id target t with ⟨r, hexec⟩ | ⟨-, hsame⟩
  · have hset := setStay_patchBooking hexec
    have hx : x ∈ entries ext t := by
      rw [hentries]
      exact List.mem_singleton.mpr rfl
    refine ⟨.inl ⟨{ x with status := target }, ?_, rfl, rfl⟩, fun other hne => ?_,
      fun hr => reachable_openPms hr _⟩
    · rw [entries_setStay hset, hentries]
      simp [setStay]
    · exact entries_setStay_ne hset hx hne
  · exact ⟨.inr hsame, by rw [hsame]; exact .refl ..⟩

/-- The patch of a booking that was just added sets its status. -/
theorem patch_sets {propertyId bid : UUID} {s target : BookingStatus} (h : Only ext bid s t)
    (hmovable : Movable propertyId bid t.db.toDb)
    (hdemands : Undemanding (draws.env t.drawn) propertyId) (htarget : OnePatch target) :
    Only ext bid target (openPms draws (.patchBooking bid target) t).2 := by
  obtain ⟨r, core, hexec⟩ := patch_accepted hmovable hdemands htarget
  obtain ⟨x, hentries, rfl, -⟩ := h
  rcases @patch_transaction draws x.id target t with ⟨r', hset⟩ | ⟨⟨e, _, herror⟩, -⟩
  · refine ⟨{ x with status := target }, ?_, rfl, rfl⟩
    rw [entries_setStay (setStay_patchBooking hset), hentries]
    simp [setStay]
  · rw [hexec] at herror
    cases herror

theorem statuses_of_stay {db : Db} {x : Stay} (hx : x ∈ stays db) :
    db.statuses x.id = some x.status := by
  obtain ⟨b, hb, rfl⟩ := List.mem_map.mp hx
  exact statuses_of_find (Table.find_of_mem hb)

/-- No patch takes a confirmed booking to another status. -/
theorem patch_stuck {bid : UUID} {target : BookingStatus} (h : Only ext bid .confirmed t)
    (hconfirmed : target ≠ .confirmed) (htarget : ¬ OnePatch target) :
    (openPms draws (.patchBooking bid target) t).2 = t := by
  obtain ⟨x, hentries, rfl, hstatus⟩ := h
  rcases @patch_transaction draws x.id target t with ⟨r, hexec⟩ | ⟨-, hsame⟩
  · have hx : x ∈ stays t.db.toDb := (mem_entries.mp (hentries ▸ List.mem_singleton.mpr rfl)).1
    have hbefore := statuses_of_stay hx
    have hafter : (openPms draws (.patchBooking x.id target) t).2.db.toDb.statuses x.id =
        some target := by
      have hmem : setStay x.id target x ∈
          stays (openPms draws (.patchBooking x.id target) t).2.db.toDb := by
        rw [setStay_patchBooking hexec]
        exact List.mem_map_of_mem hx
      have hset := statuses_of_stay hmem
      simpa [setStay] using hset
    rw [hstatus] at hbefore
    rcases patchBooking_statuses hexec x.id with hsame | ⟨s, s', hs, hs', hallowed⟩
    · rw [hbefore, hafter] at hsame
      exact absurd (Option.some.inj hsame) hconfirmed
    · obtain rfl := Option.some.inj (hbefore.symm.trans hs)
      obtain rfl := Option.some.inj (hafter.symm.trans hs')
      cases target with
      | checkedIn | cancelled | noShow => exact absurd trivial htarget
      | confirmed => exact absurd rfl hconfirmed
      | pending | checkedOut => exact absurd hallowed (by decide)
  · exact hsame

end Entries

end OpenPms.Migration
