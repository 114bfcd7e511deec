import OpenPms.DateChange
import OpenPms.Notifications

/-!
The dates that a patch announces. The route joins the nights of the booking before the patch
and after it, but both names are the one object of the session.
-/
namespace OpenPms

open KeyedTable Transaction Prog Hotel RequestScope
open Ari (AriDb Push)

/-- The date is given to the webhooks and to the push. -/
def Announces (tasks : List BackgroundTask) (rt : UUID) (d : ℤ) : Prop :=
  .availabilityOn rt d ∈ tasks ∧
    ∃ property dates, .push (.availability property rt dates) ∈ tasks ∧ d ∈ dates

/-- The day is a night of the stay that is asked for. -/
def RequestedNight (b : Booking) (body : BookingPatchRequest) (d : ℤ) : Prop :=
  ∃ ci co, requestedBounds b body = (some ci, some co) ∧ ci ≤ d ∧ d < co

/-- The patch takes no night from the booking but by ending it. -/
def KeepsNights (b : Booking) (body : BookingPatchRequest) : Prop :=
  cancels body = true ∨ ∀ d ∈ b.nights, RequestedNight b body d

theorem announces_patched {body : BookingPatchRequest} {after : Booking} {rt : UUID} {d : ℤ} :
    Announces (patchedAvailability body after) rt d ↔
      availTouch body = true ∧ lineRoomTypes after.lines = [rt] ∧ d ∈ after.nights := by
  unfold Announces patchedAvailability
  by_cases htouch : availTouch body = true
  · rw [if_pos htouch]
    split
    · next rt' hrt =>
      have hnil : d ∈ after.lines.map (·.date) → after.lines.map (·.date) ≠ [] :=
        fun hd => List.ne_nil_of_mem hd
      simp only [BackgroundTask.emitAvailabilityForDates, Ari.scheduled, htouch, true_and, hrt,
        List.cons.injEq, and_true]
      constructor
      · rintro ⟨hweb, -⟩
        rcases List.mem_append.mp hweb with hweb | hpush
        · obtain ⟨d', hd', heq⟩ := List.mem_map.mp hweb
          cases heq
          exact ⟨rfl, mem_sortedDates.mp hd'⟩
        · obtain ⟨push, -, heq⟩ := List.mem_map.mp hpush
          cases heq
      · rintro ⟨rfl, hd⟩
        refine ⟨List.mem_append_left _ (List.mem_map_of_mem (mem_sortedDates.mpr hd)),
          after.propertyId, _, List.mem_append_right _ (List.mem_map_of_mem ?_),
          mem_sortedDates.mpr hd⟩
        rw [if_neg (hnil hd)]
        exact List.mem_singleton_self _
    · next hmany =>
      constructor
      · rintro ⟨hweb, -⟩
        cases hweb
      · rintro ⟨-, hrt, -⟩
        exact absurd hrt (hmany rt)
  · rw [if_neg htouch]
    constructor
    · rintro ⟨hweb, -⟩
      cases hweb
    · rintro ⟨htrue, -⟩
      exact absurd htrue htouch

/-! What the parts of a patch do to the nights and the ledger -/

section Parts
variable {db db' : Db} {env : Env} {b : Booking} {body : BookingPatchRequest} {pl : PatchLines}
  {lines : List BookingLine}

/-- The booking has these nights, and so have the lines that are loaded. -/
structure OnNights (db : Db) (bid : UUID) (lines : List BookingLine) (pl : PatchLines) : Prop where
  found : ∃ b, db.bookings.find bid = some b ∧ SameNights b.lines lines
  loaded : ∀ ls, pl.loaded = some ls → SameNights ls lines

theorem OnNights.update {bid : UUID} {f : Booking → Booking} {hf : ∀ b, (f b).id = b.id}
    (h : OnNights db bid lines pl) (hlines : ∀ b, SameNights (f b).lines b.lines) :
    OnNights (db.updateBooking bid f hf) bid lines pl := by
  obtain ⟨b, hfind, hsame⟩ := h.found
  exact ⟨⟨f b, find_updateBooking hfind, (hlines b).trans hsame⟩, h.loaded⟩

/-- Nights of a single room type are released, others are not. -/
theorem exec_release_cases {u : Unit} (h : (releaseBookingInventory lines).exec db = (.ok u, db')) :
    db' = db ∨ ∃ rt, lineRoomTypes lines = [rt] ∧
      db.ledger.Releasable rt (lines.map (·.date)) ∧
      db' = db.setLedger (db.ledger.shift rt (lines.map (·.date)) (-1)) := by
  by_cases hsingle : ∃ rt, lineRoomTypes lines = [rt]
  · obtain ⟨rt, hrt⟩ := hsingle
    exact .inr ⟨rt, hrt, (exec_release_ok hrt).mp h⟩
  · left
    unfold releaseBookingInventory at h
    split at h
    · next rt hrt => exact absurd ⟨rt, hrt⟩ hsingle
    · cases h
      rfl

theorem OnNights.assign (hon : OnNights db b.id lines pl) {pl' : PatchLines}
    (h : (patchRoomAssignment b.id body pl).exec db = (.ok pl', db')) :
    OnNights db' b.id lines pl' ∧ db'.ledger = db.ledger := by
  unfold patchRoomAssignment at h
  split at h
  · cases h
    exact ⟨hon, rfl⟩
  · next room hroom =>
    obtain ⟨_, db₁, hassign, h⟩ := exec_bind_ok.mp h
    obtain ⟨b₁, hfind, -, -, rfl⟩ := exec_assignBookingRoom_ok hassign
    have hon₁ : OnNights (db.updateBooking b.id (setRoom room) (id_setRoom room)) b.id lines pl :=
      hon.update (sameNights_setRoom room)
    split at h
    · cases h
      exact ⟨hon₁, rfl⟩
    · simp only [exec_bind_ok, exec_select, exec_pure, Prod.mk.injEq, Except.ok.injEq] at h
      obtain ⟨_, _, ⟨rfl, rfl⟩, rfl, rfl⟩ := h
      refine ⟨⟨hon₁.found, fun ls hls => ?_⟩, rfl⟩
      obtain ⟨b₂, hfind₂, hsame⟩ := hon₁.found
      simp only [hfind₂, Option.map_some, Option.some.injEq] at hls
      rw [← hls]
      exact hsame

/-- The text of the request is no_show. -/
def AsksForNoShow (body : BookingPatchRequest) : Prop :=
  ∃ text, body.status = some (some text) ∧ normalizeBookingStatus text = "no_show"

theorem asksForNoShow_of_status {text : Option String} (hbody : body.status = some text)
    (hnew : (BookingStatus.ofText (normalizeBookingStatus (statusText text))).getD .confirmed =
      .noShow) : AsksForNoShow body := by
  cases text with
  | none =>
    have hnone : (BookingStatus.ofText (normalizeBookingStatus (statusText none))).getD .confirmed =
        .confirmed := by decide
    rw [hnone] at hnew
    cases hnew
  | some t =>
    refine ⟨t, hbody, ?_⟩
    rw [statusText] at hnew
    generalize normalizeBookingStatus t = n at hnew ⊢
    cases hof : BookingStatus.ofText n with
    | none =>
      rw [hof] at hnew
      cases hnew
    | some s =>
      rw [hof, Option.getD_some] at hnew
      rw [← BookingStatus.ofText_eq_some hof, hnew]
      rfl

theorem OnNights.release (hon : OnNights db b.id lines pl) {u : Unit}
    (h : (releaseLoaded pl.loaded).exec db = (.ok u, db')) : OnNights db' b.id lines pl ∧
      (db'.ledger = db.ledger ∨ ∃ rt, lineRoomTypes lines = [rt] ∧
        db.ledger.Releasable rt (lines.map (·.date)) ∧
        db'.ledger = db.ledger.shift rt (lines.map (·.date)) (-1)) := by
  cases hl : pl.loaded with
  | none =>
    rw [hl] at h
    cases h
  | some ls =>
    rw [hl] at h
    have hsame := hon.loaded ls hl
    rcases exec_release_cases h with rfl | ⟨rt, hrt, hreleasable, rfl⟩
    · exact ⟨hon, .inl rfl⟩
    · rw [hsame.dates] at hreleasable ⊢
      exact ⟨⟨hon.found, hon.loaded⟩,
        .inr ⟨rt, hsame.lineRoomTypes.symm.trans hrt, hreleasable, rfl⟩⟩

/-- Only a no-show of a confirmed booking touches the ledger. -/
theorem OnNights.status (hon : OnNights db b.id lines pl) {s : BookingStatus}
    (h : (patchStatus env b body pl).exec db = (.ok s, db')) : OnNights db' b.id lines pl ∧
      (db'.ledger = db.ledger ∨ AsksForNoShow body ∧ ∃ rt, lineRoomTypes lines = [rt] ∧
        db.ledger.Releasable rt (lines.map (·.date)) ∧
        db'.ledger = db.ledger.shift rt (lines.map (·.date)) (-1)) := by
  unfold patchStatus at h
  split at h
  · cases h
    exact ⟨hon, .inl rfl⟩
  · next text hbody =>
    simp only [exec_bind_ok, exec_runIf_ok, exec_pure, Prod.mk.injEq, Except.ok.injEq] at h
    obtain ⟨_, db₁, hcheck, _, db₂, hreq, _, db₃, hrel, _, db₄, hupd, hs, rfl⟩ := h
    obtain ⟨rfl, -⟩ := exec_checkTransition_ok hcheck
    rw [hs] at hreq hrel hupd
    have hdb₂ : db = db₂ := by
      rcases hreq with ⟨-, hreq⟩ | ⟨-, hreq⟩
      · exact exec_checkinRequirements_ok hreq
      · exact hreq
    subst hdb₂
    have hdone : OnNights db₃ b.id lines pl ∧ (db₃.ledger = db.ledger ∨ AsksForNoShow body ∧
        ∃ rt, lineRoomTypes lines = [rt] ∧ db.ledger.Releasable rt (lines.map (·.date)) ∧
          db₃.ledger = db.ledger.shift rt (lines.map (·.date)) (-1)) := by
      rcases hrel with ⟨⟨hnew, hconf⟩, hrel⟩ | ⟨-, rfl⟩
      · rw [hconf] at hs
        obtain ⟨hon₃, hledger⟩ := hon.release hrel
        have hask := asksForNoShow_of_status hbody (hs.trans hnew)
        exact ⟨hon₃, hledger.imp_right fun hrt => ⟨hask, hrt⟩⟩
      · exact ⟨hon, .inl rfl⟩
    rcases hupd with ⟨-, hupd⟩ | ⟨-, rfl⟩
    · obtain ⟨-, rfl⟩ := exec_updateBookingRow_ok.mp hupd
      exact ⟨hdone.1.update fun _ => rfl, hdone.2⟩
    · exact hdone

theorem lineRoomTypes_stay (stay : PricedStay) :
    lineRoomTypes stay.lines = [stay.roomTypeId] := by
  refine lineRoomTypes_eq_single ?_ fun ln hln => (stay.mem_lines hln).1
  intro hnil
  have hnights : stay.nights = [] := by rw [← stay.lines_date, hnil, List.map_nil]
  exact daysBetween_ne_nil stay.checkIn_lt hnights

theorem onNights_restoreRoom {b₁ : Booking} {charge : Money} {room : Option UUID}
    (hfind : db.bookings.find b.id = some b₁) (hsame : SameNights b₁.lines lines)
    (h : (restoreRoom b.id charge room).exec db = (.ok pl, db')) :
    OnNights db' b.id lines pl ∧ db'.ledger = db.ledger := by
  cases room with
  | none =>
    cases h
    exact ⟨⟨⟨b₁, hfind, hsame⟩, fun ls hls => (nomatch hls)⟩, rfl⟩
  | some room =>
    simp only [restoreRoom, exec_bind_ok, exec_select, exec_pure, Prod.mk.injEq,
      Except.ok.injEq] at h
    obtain ⟨_, _, hassign, _, _, ⟨rfl, rfl⟩, rfl, rfl⟩ := h
    obtain ⟨b₂, hb₂, -, -, rfl⟩ := exec_assignBookingRoom_ok hassign
    cases hfind.symm.trans hb₂
    have hset := @find_updateBooking _ b.id _ (id_setRoom (some room)) _ hfind
    have hsame' := (sameNights_setRoom (some room) b₁).trans hsame
    refine ⟨⟨⟨_, hset, hsame'⟩, fun ls hls => ?_⟩, rfl⟩
    simp only [hset, Option.map_some, Option.some.injEq] at hls
    rw [← hls]
    exact hsame'

/-- The nights that a date change exchanges. -/
structure Exchanges (b : Booking) (body : BookingPatchRequest) (l l' : Ledger)
    (stay : PricedStay) : Prop where
  asked : AsksFor b body stay
  releasable : l.Releasable stay.roomTypeId b.nights
  ledger : l' = (l.shift stay.roomTypeId b.nights (-1)).shift stay.roomTypeId stay.nights 1

theorem onNights_ofBooking (hfind : db.bookings.find b.id = some b) :
    OnNights db b.id b.lines (.ofBooking b) := by
  refine ⟨⟨b, hfind, rfl⟩, fun ls hls => ?_⟩
  cases hls
  rfl

theorem requestedNight_of_bounds {ci co : ℤ} (hbounds : requestedBounds b body = (some ci, some co))
    (hsame : (ci, co) = stayBounds b.lines) : ∀ d ∈ b.nights, RequestedNight b body d := by
  intro d hd
  obtain ⟨ln, hln, rfl⟩ := mem_nights.mp hd
  have hall := (stayBounds_spec (List.ne_nil_of_mem hln)).1 ln hln
  rw [← hsame] at hall
  exact ⟨ci, co, hbounds, hall⟩

theorem requestedNight_of_absent (hci : body.checkIn = none) (hco : body.checkOut = none) :
    ∀ d ∈ b.nights, RequestedNight b body d := by
  refine @requestedNight_of_bounds b body (stayBounds b.lines).1 _ ?_ rfl
  rw [requestedBounds, hci, hco]
  rfl

/-- Either the nights stay, and all of them are asked for, or they are exchanged. -/
theorem patchDates_cases (hfind : db.bookings.find b.id = some b)
    (h : (patchDates env b body).exec db = (.ok pl, db')) :
    (OnNights db' b.id b.lines pl ∧ db'.ledger = db.ledger ∧
      ∀ d ∈ b.nights, RequestedNight b body d) ∨
    ∃ stay, OnNights db' b.id stay.lines pl ∧ Exchanges b body db.ledger db'.ledger stay := by
  rcases (exec_patchDates_iff hfind).mp h with ⟨hkeeps, rfl, rfl⟩ |
    ⟨stay, ratePlan, hask, -, hbook, hrestore⟩
  · refine .inl ⟨onNights_ofBooking hfind, rfl, ?_⟩
    cases hkeeps with
    | absent hci hco => exact requestedNight_of_absent hci hco
    | same _ hbounds hsame _ => exact requestedNight_of_bounds hbounds hsame
  · have hfind₁ : (db.rebooked env b stay).bookings.find b.id =
        some (setLines stay b.ratePlanId b) := find_moved env hfind
    obtain ⟨hon, hledger⟩ := onNights_restoreRoom hfind₁ rfl hrestore
    exact .inr ⟨stay, hon, hask, hbook.releasable, hledger⟩

theorem OnNights.notes {notes : Option (Option String)} {u : Unit}
    (hon : OnNights db b.id lines pl) (h : (patchNotes b notes).exec db = (.ok u, db')) :
    OnNights db' b.id lines pl ∧ db'.ledger = db.ledger := by
  obtain ⟨b₁, hfind, -⟩ := hon.found
  obtain ⟨-, rfl⟩ := (exec_patchNotes_iff hfind).mp h
  refine ⟨?_, ledger_annotated b notes⟩
  unfold Db.annotated
  split
  · exact hon
  · split
    · exact hon
    · exact hon.update fun _ => rfl

theorem OnNights.rest {s : BookingStatus} {w : Option Money} {u u' : Unit} {db₁ db₂ : Db}
    (hon : OnNights db b.id lines pl)
    (hwarn : (checkoutWarning b s pl).exec db = (.ok w, db₁))
    (hcharge : (flushRoomCharge b.id pl.roomCharge).exec db₁ = (.ok u, db₂))
    (hnotes : (patchNotes b body.notes).exec db₂ = (.ok u', db')) :
    OnNights db' b.id lines pl ∧ db'.ledger = db.ledger := by
  have hwarned : db₁.bookings = db.bookings ∧ db₁.ledger = db.ledger := by
    unfold checkoutWarning at hwarn
    split at hwarn
    · simp only [markAssignedRoomsDirtyOnCheckout, exec_bind_ok, exec_modify, exec_select,
        exec_pure, Prod.mk.injEq] at hwarn
      obtain ⟨_, _, ⟨-, rfl⟩, _, _, ⟨-, rfl⟩, -, rfl⟩ := hwarn
      exact ⟨rfl, rfl⟩
    · cases hwarn
      exact ⟨rfl, rfl⟩
  have hhotel := hotel_flushRoomCharge hcharge
  have hbookings : db₂.bookings = db.bookings :=
    (congrArg Hotel.bookings hhotel).trans hwarned.1
  have hledger : db₂.ledger = db.ledger := (congrArg Hotel.ledger hhotel).trans hwarned.2
  have hon₂ : OnNights db₂ b.id lines pl := ⟨hbookings ▸ hon.found, hon.loaded⟩
  obtain ⟨hon', hkept⟩ := hon₂.notes hnotes
  exact ⟨hon', hkept.trans hledger⟩

/-- What a patch has done to the nights of its booking and to the ledger. -/
inductive PatchedNights (b : Booking) (body : BookingPatchRequest) (l l' : Ledger)
    (lines' : List BookingLine) : Prop
  | kept (hsame : SameNights lines' b.lines) (hkeeps : KeepsNights b body) (hledger : l' = l)
  | ended {rt : UUID} (hsame : SameNights lines' b.lines) (hkeeps : KeepsNights b body)
      (hends : cancels body = true ∨ AsksForNoShow body) (hrt : lineRoomTypes b.lines = [rt])
      (hledger : l' = l.shift rt b.nights (-1))
  | exchanged {l₁ : Ledger} (stay : PricedStay) (hsame : SameNights lines' stay.lines)
      (hcancel : cancels body = false) (hmoves : Exchanges b body l l₁ stay)
      (hledger : l' = l₁ ∨ l' = l₁.shift stay.roomTypeId stay.nights (-1))

theorem OnNights.cancel {u : Unit} (hfind : db.bookings.find b.id = some b)
    (h : (patchCancel b).exec db = (.ok u, db')) :
    OnNights db' b.id b.lines (.ofBooking b) ∧ (db'.ledger = db.ledger ∨
      ∃ rt, lineRoomTypes b.lines = [rt] ∧ db'.ledger = db.ledger.shift rt b.nights (-1)) := by
  have hon := onNights_ofBooking hfind
  unfold patchCancel at h
  split at h
  · simp only [exec_bind_ok] at h
    obtain ⟨_, _, hcheck, _, db₁, hrel, hupd⟩ := h
    obtain ⟨rfl, -⟩ := exec_checkTransition_ok hcheck
    obtain ⟨-, rfl⟩ := exec_updateBookingRow_ok.mp hupd
    have hon₁ : OnNights db₁ b.id b.lines (.ofBooking b) ∧ (db₁.ledger = db.ledger ∨
        ∃ rt, lineRoomTypes b.lines = [rt] ∧ db₁.ledger = db.ledger.shift rt b.nights (-1)) := by
      rcases exec_release_cases hrel with rfl | ⟨rt, hrt, -, rfl⟩
      · exact ⟨hon, .inl rfl⟩
      · exact ⟨⟨hon.found, hon.loaded⟩, .inr ⟨rt, hrt, rfl⟩⟩
    exact ⟨hon₁.1.update fun _ => rfl, hon₁.2⟩
  · cases h
    exact ⟨hon, .inl rfl⟩

/-- Every patch that returns does one of these. -/
theorem patchBooking_nights {w : Option Money} (hfind : db.bookings.find b.id = some b)
    (h : (patchBooking env b.id body).exec db = (.ok w, db')) :
    ∃ b', db'.bookings.find b.id = some b' ∧
      PatchedNights b body db.ledger db'.ledger b'.lines := by
  have hon := onNights_ofBooking hfind
  by_cases hnotesOnly : { body with notes := none } = ({} : BookingPatchRequest)
  · have hci : body.checkIn = none := congrArg BookingPatchRequest.checkIn hnotesOnly
    have hco : body.checkOut = none := congrArg BookingPatchRequest.checkOut hnotesOnly
    have hkeeps := requestedNight_of_absent (b := b) hci hco
    rw [exec_patchBooking_notes hfind hnotesOnly] at h
    obtain ⟨_, _, hnotes, h⟩ := exec_bind_ok.mp h
    cases h
    obtain ⟨hon', hledger⟩ := hon.notes hnotes
    obtain ⟨b', hfind', hsame⟩ := hon'.found
    exact ⟨b', hfind', .kept hsame (.inr hkeeps) hledger⟩
  · by_cases hcancel : cancels body = true
    · rw [exec_patchBooking_cancels hfind hcancel] at h
      simp only [exec_bind_ok, exec_pure, Prod.mk.injEq] at h
      obtain ⟨_, _, hcancelled, _, _, hnotes, -, rfl⟩ := h
      obtain ⟨hon₁, hmove⟩ := OnNights.cancel hfind hcancelled
      obtain ⟨hon', hledger⟩ := hon₁.notes hnotes
      obtain ⟨b', hfind', hsame⟩ := hon'.found
      refine ⟨b', hfind', ?_⟩
      rcases hmove with hkept | ⟨rt, hrt, hmove⟩
      · exact .kept hsame (.inl hcancel) (hledger.trans hkept)
      · exact .ended hsame (.inl hcancel) (.inl hcancel) hrt (hledger.trans hmove)
    · rw [exec_patchBooking_parts hfind hnotesOnly (by simpa using hcancel)] at h
      simp only [exec_bind_ok, exec_pure, Prod.mk.injEq] at h
      obtain ⟨_, _, hinactive, pl, db₁, hdates, pl', db₂, hroom, s, db₃, hstatus, w', db₄, hwarn,
        _, db₅, hcharge, _, _, hnotes, -, rfl⟩ := h
      obtain ⟨rfl, -⟩ := exec_checkInactive_ok hinactive
      rcases patchDates_cases hfind hdates with ⟨hon₁, hkept, hkeeps⟩ | ⟨stay, hon₁, hmoves⟩
      · obtain ⟨hon₂, hkept₂⟩ := hon₁.assign hroom
        obtain ⟨hon₃, hmove⟩ := hon₂.status hstatus
        obtain ⟨hon', hledger⟩ := hon₃.rest hwarn hcharge hnotes
        obtain ⟨b', hfind', hsame⟩ := hon'.found
        have hsame₂ := hkept₂.trans hkept
        refine ⟨b', hfind', ?_⟩
        rcases hmove with hsame₃ | ⟨hask, rt, hrt, -, hsame₃⟩
        · exact .kept hsame (.inr hkeeps) (hledger.trans (hsame₃.trans hsame₂))
        · rw [hsame₂] at hsame₃
          exact .ended hsame (.inr hkeeps) (.inr hask) hrt (hledger.trans hsame₃)
      · obtain ⟨hon₂, hkept₂⟩ := hon₁.assign hroom
        obtain ⟨hon₃, hmove⟩ := hon₂.status hstatus
        obtain ⟨hon', hledger⟩ := hon₃.rest hwarn hcharge hnotes
        obtain ⟨b', hfind', hsame⟩ := hon'.found
        refine ⟨b', hfind', .exchanged stay hsame (by simpa using hcancel) hmoves ?_⟩
        rcases hmove with hsame₃ | ⟨-, rt, hrt, -, hsame₃⟩
        · exact .inl (hledger.trans (hsame₃.trans hkept₂))
        · rw [lineRoomTypes_stay, List.cons.injEq] at hrt
          rw [hkept₂, ← hrt.1, stay.lines_date] at hsame₃
          exact .inr (hledger.trans hsame₃)

end Parts

/-! The changed rows and the announced dates -/

/-- Every row that is another one afterwards is announced. -/
def AnnouncesChanges (tasks : List BackgroundTask) (l l' : Ledger) : Prop :=
  ∀ rt d, l'.row rt d ≠ l.row rt d → Announces tasks rt d

theorem Ledger.MovesBy.row_ne_iff {l l' : Ledger} {δ : UUID → ℤ → ℤ} (h : l.MovesBy l' δ)
    {rt : UUID} {d : ℤ} : l'.row rt d ≠ l.row rt d ↔ (l.row rt d).isSome ∧ δ rt d ≠ 0 := by
  rw [h rt d]
  cases l.row rt d with
  | none => simp
  | some c =>
    simp only [Option.map_some, ne_eq, Option.some.injEq, Option.isSome_some, true_and,
      not_iff_not]
    constructor
    · intro heq
      have hcount := congrArg Counts.bookedRooms heq
      simp only at hcount
      omega
    · intro hzero
      rw [hzero, add_zero]

section Changes
variable {b : Booking} {body : BookingPatchRequest} {l l' : Ledger}

/-- Of exchanged nights all that were given up have changed, and no others but new ones. -/
theorem Exchanges.row_ne {l₁ : Ledger} {stay : PricedStay} (hmoves : Exchanges b body l l₁ stay)
    (hledger : l' = l₁ ∨ l' = l₁.shift stay.roomTypeId stay.nights (-1)) :
    (∀ d ∈ b.nights, d ∉ stay.nights → l'.row stay.roomTypeId d ≠ l.row stay.roomTypeId d) ∧
      ∀ rt d, l'.row rt d ≠ l.row rt d →
        rt = stay.roomTypeId ∧ (d ∈ b.nights ∨ d ∈ stay.nights) := by
  have hmove : l.MovesBy l₁ (difference stay.roomTypeId b.nights stay.nights) := by
    rw [hmoves.ledger]
    exact l.movesBy_rebooked _ _ _
  have hdelta : ∃ δ, l.MovesBy l' δ ∧
      (∀ d ∈ b.nights, d ∉ stay.nights → δ stay.roomTypeId d ≠ 0) ∧
      ∀ rt d, δ rt d ≠ 0 → rt = stay.roomTypeId ∧ (d ∈ b.nights ∨ d ∈ stay.nights) := by
    rcases hledger with rfl | rfl
    · refine ⟨_, hmove, fun d hd hnew => ?_, fun rt d hne => ?_⟩
      · simp [difference, hd, hnew]
      · unfold difference at hne
        split at hne
        · next hnew => exact ⟨hnew.1, .inr hnew.2.1⟩
        · split at hne
          · next hold => exact ⟨hold.1, .inl hold.2.1⟩
          · exact absurd rfl hne
    · refine ⟨_, hmove.trans (l₁.movesBy_shift _ _ _), fun d hd hnew => ?_, fun rt d hne => ?_⟩
      · simp [difference, onNights, hd, hnew]
      · by_contra hnot
        rw [not_and_or, not_or] at hnot
        apply hne
        rcases hnot with hrt | ⟨hold, hnew⟩
        · simp [difference, onNights, hrt]
        · simp [difference, onNights, hold, hnew]
  obtain ⟨δ, hmove', hgiven, honly⟩ := hdelta
  constructor
  · intro d hd hnew
    obtain ⟨c, hc, -⟩ := hmoves.releasable d hd
    exact hmove'.row_ne_iff.mpr ⟨by rw [hc]; rfl, hgiven d hd hnew⟩
  · intro rt d hne
    exact honly rt d (hmove'.row_ne_iff.mp hne).2

theorem availTouch_of_ends (h : cancels body = true ∨ AsksForNoShow body) :
    availTouch body = true := by
  have htext : ∃ text, body.status = some (some text) ∧
      normalizeBookingStatus text ∈ ["cancelled", "no_show"] := by
    rcases h with hcancel | ⟨text, hbody, htext⟩
    · unfold cancels at hcancel
      split at hcancel
      · next text hbody =>
        have heq : normalizeBookingStatus text = "cancelled" := of_decide_eq_true hcancel
        exact ⟨text, hbody, by rw [heq]; exact List.mem_cons_self ..⟩
      · cases hcancel
    · exact ⟨text, hbody, by rw [htext]; simp⟩
  obtain ⟨text, hbody, hmem⟩ := htext
  unfold availTouch
  simp only [hbody]
  rw [decide_eq_true hmem, Bool.or_true]

/-- A patch announces what it has changed exactly when it takes no night from the booking. -/
theorem PatchedNights.announces_iff {after : Booking}
    (h : PatchedNights b body l l' after.lines) :
    AnnouncesChanges (patchedAvailability body after) l l' ↔ KeepsNights b body := by
  cases h with
  | kept hsame hkeeps hledger =>
    refine iff_of_true (fun rt d hne => absurd ?_ hne) hkeeps
    rw [hledger]
  | @ended rt₀ hsame hkeeps hends hrt hledger =>
    refine iff_of_true (fun rt d hne => ?_) hkeeps
    rw [hledger] at hne
    obtain ⟨-, hne⟩ := (l.movesBy_shift _ _ _).row_ne_iff.mp hne
    have hnight : rt = rt₀ ∧ d ∈ b.nights := by
      by_contra hnot
      exact hne (by rw [onNights, if_neg hnot, mul_zero])
    obtain ⟨rfl, hd⟩ := hnight
    refine announces_patched.mpr ⟨availTouch_of_ends hends, hsame.lineRoomTypes.trans hrt, ?_⟩
    rw [Booking.nights, hsame.dates]
    exact hd
  | exchanged stay hsame hcancel hmoves hledger =>
    have htouch : availTouch body = true := by
      unfold availTouch
      rcases hmoves.asked.dates with hd | hd <;> simp [hd]
    have hannounces : ∀ rt d, Announces (patchedAvailability body after) rt d ↔
        rt = stay.roomTypeId ∧ d ∈ stay.nights := by
      intro rt d
      rw [announces_patched, hsame.lineRoomTypes, lineRoomTypes_stay, Booking.nights, hsame.dates,
        stay.lines_date, List.cons.injEq]
      simp [htouch, eq_comm]
    have hnight : ∀ d, RequestedNight b body d ↔ d ∈ stay.nights := by
      intro d
      rw [PricedStay.nights, mem_daysBetween]
      constructor
      · rintro ⟨ci, co, hbounds, hd⟩
        cases hmoves.asked.bounds.symm.trans hbounds
        exact hd
      · exact fun hd => ⟨_, _, hmoves.asked.bounds, hd⟩
    obtain ⟨hgiven, honly⟩ := hmoves.row_ne hledger
    constructor
    · intro hcovers
      refine .inr fun d hd => (hnight d).mpr ?_
      by_contra hnew
      exact hnew ((hannounces _ d).mp (hcovers _ d (hgiven d hd hnew))).2
    · rintro (htrue | hkeeps)
      · rw [hcancel] at htrue
        cases htrue
      · intro rt d hne
        obtain ⟨hrt, hd⟩ := honly rt d hne
        refine (hannounces rt d).mpr ⟨hrt, ?_⟩
        rcases hd with hd | hd
        · exact (hnight d).mp (hkeeps d hd)
        · exact hd

end Changes

/-- The other tasks of the route are about the booking. -/
theorem announces_patchBookingTasks {bid : UUID} {body : BookingPatchRequest}
    {before after : Booking} {rt : UUID} {d : ℤ} :
    Announces (NotifyingRequest.patchBookingTasks bid body before (some after)) rt d ↔
      Announces (patchedAvailability body after) rt d := by
  have hmail : ∀ task, task ∈ NotifyingRequest.patchBookingTasks bid body before (some after) ↔
      task = .bookingPatched bid ∨
        (after.status = .cancelled ∧ before.status ≠ .cancelled) ∧ task = .cancellationEmail bid ∨
        task ∈ patchedAvailability body after := by
    intro task
    unfold NotifyingRequest.patchBookingTasks
    by_cases hcancelled : after.status = .cancelled ∧ before.status ≠ .cancelled
    · simp [hcancelled]
    · simp [hcancelled]
  unfold Announces
  simp only [hmail, reduceCtorEq, false_or, and_false]

/-- In every successful PATCH the dates of all changed rows are announced exactly when the
patch cancels the booking or asks for a stay that has all of its nights. -/
theorem patch_announces_iff {db db' : AriDb} {env : Env} {b : Booking}
    {body : BookingPatchRequest} {tasks : List BackgroundTask}
    (hfind : db.bookings.find b.id = some b)
    (h : (NotifyingRequest.patchBookingById env b.id body).route db =
      some ⟨.committed db', tasks⟩) :
    AnnouncesChanges tasks db.ledger db'.ledger ↔ KeepsNights b body := by
  unfold NotifyingRequest.route at h
  simp only [hfind] at h
  split at h
  · next hempty =>
    cases h
    subst hempty
    exact iff_of_true (fun rt d hne => absurd rfl hne)
      (.inr (requestedNight_of_absent rfl rfl))
  · split at h
    · cases h
    · next w core hexec =>
      cases h
      obtain ⟨after, hafter, hnights⟩ := patchBooking_nights hfind hexec
      have hiff := hnights.announces_iff
      simp only [hafter]
      unfold AnnouncesChanges at hiff ⊢
      simp only [announces_patchBookingTasks]
      exact hiff

/-! A stay of one night moved to the next day -/

namespace Demo

def night3 : AriDb where
  toDb := twoNights 10000 1
  currency := fun _ => some "EUR"
  links := []
  restrictions := fun _ _ _ => ⟨false, none, none⟩

def patchOf (body : BookingPatchRequest) : Option (Response AriDb BackgroundTask) :=
  (NotifyingRequest.patchBookingById (env 0 0 0) 1000 body).route night3

def moveOn : BookingPatchRequest := { checkIn := some (some 4), checkOut := some (some 5) }

end Demo

theorem patch_announces_extended : ∃ db' tasks,
    Demo.patchOf Demo.extend = some ⟨.committed db', tasks⟩ ∧
      AnnouncesChanges tasks Demo.night3.ledger db'.ledger := by
  have hsome : ∃ db' tasks, Demo.patchOf Demo.extend = some ⟨.committed db', tasks⟩ := ⟨_, _, rfl⟩
  obtain ⟨db', tasks, hroute⟩ := hsome
  refine ⟨db', tasks, hroute, (patch_announces_iff (b := Demo.onNight3) rfl hroute).mpr ?_⟩
  refine .inr fun d hd => ⟨3, 5, rfl, ?_⟩
  have h3 : d = 3 := by simpa [Demo.onNight3, Booking.nights] using hd
  omega

/-- The night that is given up has another row, and only the new night is announced. -/
theorem moved_night_not_announced : ∃ db' tasks,
    Demo.patchOf Demo.moveOn = some ⟨.committed db', tasks⟩ ∧
      tasks = [.bookingPatched 1000, .availabilityOn 10 4, .push (.availability 1 10 [4])] ∧
      ¬ AnnouncesChanges tasks Demo.night3.ledger db'.ledger := by
  refine ⟨_, _, rfl, by decide, fun hall => ?_⟩
  have hnot : BackgroundTask.availabilityOn 10 3 ∉
      [.bookingPatched 1000, .availabilityOn 10 4, .push (.availability 1 10 [4])] := by decide
  exact hnot (hall 10 3 (by decide)).1

end OpenPms
