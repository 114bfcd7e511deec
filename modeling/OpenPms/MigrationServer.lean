import OpenPms.ExternalIds
import OpenPms.RatesAdmin
import OpenPms.MigrationPipeline

/-!
The endpoints that the migration calls, over the modelled services. A request that the
schema does not accept is answered with 422, an exception of a service with the status of
its route, and then nothing is written. The texts of the errors are left out.
-/
namespace OpenPms.Migration

open Transaction Prog KeyedTable

/-! The rows of a tenant -/

structure PlanColumns where
  name : String
  cancellationPolicy : String

structure GuestColumns where
  nationality : Option String
  vipStatus : Bool

/-- The database with the columns that only the migration uses, and the number of requests
that have drawn ids. -/
structure Tenant where
  db : Ari.AriDb
  planColumns : UUID → PlanColumns
  guestColumns : UUID → GuestColumns
  drawn : ℕ

/-- The ids that requests draw, in the order in which they create rows, and the page of at
most ten guests that a search finds among the rows. -/
structure Draws where
  env : ℕ → Env
  ratePlanId : ℕ → UUID
  guestPage : String → List Guest → List Guest

namespace Tenant

def setCore (t : Tenant) (core : Db) : Tenant := { t with db := { t.db with toDb := core } }

def setPlanColumns (t : Tenant) (id : UUID) (c : PlanColumns) : Tenant :=
  { t with planColumns := fun i => if i = id then c else t.planColumns i }

def setGuestColumns (t : Tenant) (id : UUID) (c : GuestColumns) : Tenant :=
  { t with guestColumns := fun i => if i = id then c else t.guestColumns i }

/-- Further ids have been drawn. -/
def draw (t : Tenant) : Tenant := { t with drawn := t.drawn + 1 }

end Tenant

/-! Answers -/

def success {β : Type} (answer : β) : Reply β := .response 200 "" (some answer)

def refusal {β : Type} (code : ℕ) : Reply β := .response code "" none

/-- The length bounds of a text field. -/
def Within (lo hi : ℕ) (s : String) : Prop := lo ≤ s.length ∧ s.length ≤ hi

instance (lo hi : ℕ) (s : String) : Decidable (Within lo hi s) :=
  inferInstanceAs (Decidable (_ ∧ _))

/-- A transaction commits its result, or is rolled back and refused. -/
def transaction {α β : Type} (t : Tenant) (tx : Tx α) (status : Err → ℕ)
    (commit : α → Tenant → Reply β × Tenant) : Reply β × Tenant :=
  match tx.exec t.db.toDb with
  | (.ok a, core) => commit a (t.setCore core)
  | (.error e, _) => (refusal (status e), t)

section Endpoints
variable (draws : Draws)

/-! Room types and rooms -/

def listRoomTypes (propertyId : UUID) (t : Tenant) : Reply (List NamedRow) :=
  let rows := t.db.roomTypes.rows.filter fun r => r.propertyId = propertyId && !r.deleted
  success ((rows.insertionSort fun a b => a.name ≤ b.name).map fun r => ⟨r.id, r.name⟩)

def createRoomTypeStatus : Err → ℕ
  | .valueError _ => 404
  | _ => 500

def createRoomType (propertyId : UUID) (rt : RoomTypeRecord) (t : Tenant) :
    Reply UUID × Tenant :=
  if h : Within 1 255 rt.name ∧ 1 ≤ rt.baseOccupancy ∧ rt.baseOccupancy ≤ rt.maxOccupancy then
    transaction t
      (OpenPms.createRoomType (draws.env t.drawn)
        ⟨propertyId, rt.name, rt.baseOccupancy, rt.maxOccupancy, h.2.1, h.2.2⟩)
      createRoomTypeStatus fun row t => (success row.id, t.draw)
  else (refusal 422, t)

def roomServiceStatus : Err → ℕ
  | .roomService _ code => code
  | _ => 500

/-- Nothing is drawn when every room is skipped. -/
def bulkCreateRooms (rt : UUID) (rooms : List RoomItem) (t : Tenant) : Reply (ℕ × ℕ) × Tenant :=
  if rooms ≠ [] ∧ rooms.length ≤ 200 ∧ ∀ r ∈ rooms, Within 1 255 r.name ∧ r.status.length ≤ 64 then
    transaction t
      (createRoomsBulk (draws.env t.drawn) rt (rooms.map fun r => ⟨r.name, r.status⟩) .skip)
      roomServiceStatus fun result t =>
        (success (result.1.length, result.2.length), if result.1 = [] then t else t.draw)
  else (refusal 422, t)

/-! Rate plans, rates and the ledger -/

def listRatePlans (propertyId : UUID) (t : Tenant) : Reply (List NamedRow) :=
  let rows := t.db.ratePlans.filter fun r => r.propertyId = propertyId
  let named := rows.map fun r => (⟨r.id, (t.planColumns r.id).name⟩ : NamedRow)
  success (named.insertionSort fun a b => a.name ≤ b.name)

def createRatePlan (propertyId : UUID) (name policy : String) (t : Tenant) :
    Reply UUID × Tenant :=
  let id := draws.ratePlanId t.drawn
  if ¬ Within 1 255 name ∨ policy = "" then (refusal 422, t)
  else if propertyId ∉ t.db.properties then (refusal 404, t)
  else if t.db.ratePlans.any fun r => r.id = id then (refusal 500, t)
  else
    let t := t.setCore { t.db.toDb with ratePlans := t.db.ratePlans ++ [⟨id, propertyId⟩] }
    (success id, (t.setPlanColumns id ⟨Text.strip name, Text.strip policy⟩).draw)

def ratesStatus : Ari.RatesError → ℕ
  | .ratesService _ code => code
  | .overflowError => 500
  | .dataError => 500

/-- One segment without restrictions. -/
def bulkPutRates (rt rp : UUID) (start stop : ℤ) (price : ℚ) (t : Tenant) : Reply ℕ × Tenant :=
  if h : 0 ≤ price ∧ start ≤ stop ∧ stop - start + 1 ≤ 366 then
    let segment : Ari.BulkRateSegment :=
      { roomTypeId := rt, ratePlanId := rp, startDate := start, endDate := stop, price := price,
        stopSell := false, minStayArrival := none, maxStay := none, price_nonneg := h.1,
        min_pos := Ari.one_le_of_none
        max_pos := Ari.one_le_of_none
        start_le := h.2.1
        min_le_max := Ari.none_le_none }
    match Ari.bulkUpsertRates
        ⟨[segment], List.cons_ne_nil _ _, by simpa [segment] using h.2.2⟩ t.db with
    | .ok (db, keys) => (success keys.length, { t with db := db })
    | .error e => (refusal (ratesStatus e), t)
  else (refusal 422, t)

def ledgerSeedStatus : Err → ℕ
  | .ledgerSeed _ code => code
  | _ => 500

def seedAvailability (rt : UUID) (start stop : ℤ) (t : Tenant) : Reply ℕ × Tenant :=
  if h : start ≤ stop ∧ stop - start + 1 ≤ 366 then
    let segment : AvailabilityLedgerSeedSegment := ⟨rt, start, stop, h.1⟩
    transaction t
      (bulkSeedAvailabilityLedger ⟨[segment], List.cons_ne_nil _ _, by
        simpa [segment, AvailabilityLedgerSeedSegment.span] using h.2⟩)
      ledgerSeedStatus fun n t => (success n, t)
  else (refusal 422, t)

/-! Guests -/

def listGuests (q : String) (t : Tenant) : Reply (List GuestItem) :=
  success ((draws.guestPage q t.db.guests.rows).map fun g => ⟨g.email, some (.uuid g.id)⟩)

/-- The validator of the nationality: `none` is an error. -/
def cleanNationality : Option String → Option (Option String)
  | none => some none
  | some s =>
    let code := upperCase (Text.strip s)
    if s = "" then some none
    else if code.length = 2 ∧ code.toList.all Char.isAlpha then some (some code)
    else none

def storedNotes (notes : Option String) : Option String :=
  (notes.filter (· ≠ "")).map Text.strip

def createGuest (body : GuestBody) (t : Tenant) : Reply (Option IdText) × Tenant :=
  if Within 1 255 body.firstName ∧ Within 1 255 body.lastName ∧ Within 1 320 body.email ∧
      Within 1 64 body.phone then
    match cleanNationality body.nationality with
    | none => (refusal 422, t)
    | some nationality =>
      let guest : Guest :=
        { id := (draws.env t.drawn).guestId
          firstName := Text.strip body.firstName
          lastName := Text.strip body.lastName
          email := nameKey body.email
          phone := Text.strip body.phone
          passportData := none
          notes := storedNotes body.notes }
      if (findGuestByEmail guest.email t.db.toDb).isSome ∨ (t.db.guests.find guest.id).isSome then
        (refusal 409, t)
      else
        let t := t.setCore { t.db.toDb with guests := t.db.guests.insert guest }
        (success (some (.uuid guest.id)),
          (t.setGuestColumns guest.id ⟨nationality, body.vipStatus⟩).draw)
  else (refusal 422, t)

/-- The keys that the body has. -/
def patchedGuest (body : GuestPatch) (g : Guest) : Guest :=
  { g with
    phone := (body.phone.map Text.strip).getD g.phone
    notes := if body.notes.isSome then storedNotes body.notes else g.notes }

theorem id_patchedGuest (body : GuestPatch) (g : Guest) : (patchedGuest body g).id = g.id := rfl

def patchGuest (id : UUID) (body : GuestPatch) (t : Tenant) : Reply Unit × Tenant :=
  match cleanNationality body.nationality with
  | none => (refusal 422, t)
  | some nationality =>
    if ∃ phone ∈ body.phone, ¬ Within 1 64 phone then (refusal 422, t)
    else match t.db.guests.find id with
      | none => (refusal 404, t)
      | some _ =>
        let t := t.setCore { t.db.toDb with
          guests := t.db.guests.update id (patchedGuest body) (id_patchedGuest body) }
        let kept := (t.guestColumns id).nationality
        (success (), t.setGuestColumns id
          ⟨if body.nationality.isSome then nationality else kept, body.vipStatus⟩)

/-! Bookings -/

def postBookingStatus : Err → ℕ
  | .duplicateExternalBooking | .insufficientInventory _ | .guestConflict => 409
  | .ledgerNotSeeded _ | .missingRates _ => 422
  | .invalidBookingContext _ => 404
  | _ => 500

/-- The lengths that the schema of the request bounds. -/
def BookingBody.Bounded (body : BookingBody) : Prop :=
  Within 1 255 body.guest.firstName ∧ Within 1 255 body.guest.lastName ∧
    Within 1 320 body.guest.email ∧ Within 1 64 body.guest.phone ∧ body.source.length ≤ 64 ∧
    body.externalBookingId.length ≤ 128

instance (body : BookingBody) : Decidable body.Bounded :=
  inferInstanceAs (Decidable (_ ∧ _ ∧ _ ∧ _ ∧ _ ∧ _))

def BookingBody.request (body : BookingBody) (hlt : body.checkIn < body.checkOut)
    (hspan : body.checkOut - body.checkIn ≤ maxStayNights) : BookingCreateRequest where
  propertyId := body.propertyId
  roomTypeId := body.roomTypeId
  ratePlanId := body.ratePlanId
  checkIn := body.checkIn
  checkOut := body.checkOut
  guest := ⟨body.guest.firstName, body.guest.lastName, body.guest.email, body.guest.phone, none⟩
  status := .confirmed
  source := body.source
  forceNewGuest := false
  externalBookingId := some body.externalBookingId
  checkIn_lt := hlt
  span_le := hspan

/-- A guest that is created with the booking has no nationality and no VIP mark. -/
def postBooking (body : BookingBody) (t : Tenant) : Reply (Option UUID) × Tenant :=
  if h : body.Bounded ∧ body.checkIn < body.checkOut ∧
      body.checkOut - body.checkIn ≤ maxStayNights then
    transaction t (createBooking (draws.env t.drawn) (body.request h.2.1 h.2.2)) postBookingStatus
      fun out t =>
        let t := if out.guestMerged then t else t.setGuestColumns out.guestId ⟨none, false⟩
        (success (some out.bookingId), t.draw)
  else (refusal 422, t)

/-- The search by external id, which ignores the property. -/
def listBookings (ext : String) (t : Tenant) : Reply (List (Option BookingItem)) :=
  let key := Text.strip ext
  if key = "" then refusal 422
  else
    let row := t.db.bookings.rows.find? fun b => b.externalBookingId = some (Text.take 128 key)
    success (row.toList.map fun b => some ⟨some b.id, b.status.text⟩)

def listBookingsWindow (start stop : ℤ) : Reply Unit :=
  if start ≤ stop then success () else refusal 422

def patchBookingStatus : Err → ℕ
  | .assignBookingRoom _ code | .patchBooking _ code => code
  | .insufficientInventory _ => 409
  | _ => 500

def patchBookingById (id : UUID) (status : BookingStatus) (t : Tenant) : Reply Unit × Tenant :=
  transaction t
    (OpenPms.patchBooking (draws.env t.drawn) id { status := some (some status.text) })
    patchBookingStatus fun _ t => (success (), t)

/-! The server -/

def openPms : Api Tenant
  | .listRoomTypes propertyId, t => (listRoomTypes propertyId t, t)
  | .createRoomType propertyId rt, t => createRoomType draws propertyId rt t
  | .bulkCreateRooms rt rooms, t => bulkCreateRooms draws rt rooms t
  | .listRatePlans propertyId, t => (listRatePlans propertyId t, t)
  | .createRatePlan propertyId name policy, t => createRatePlan draws propertyId name policy t
  | .bulkPutRates rt rp start stop price, t => bulkPutRates rt rp start stop price t
  | .seedAvailability rt start stop, t => seedAvailability rt start stop t
  | .listGuests q, t => (listGuests draws q t, t)
  | .createGuest body, t => createGuest draws body t
  | .patchGuest id body, t => patchGuest id body t
  | .createBooking body, t => postBooking draws body t
  | .listBookings ext, t => (listBookings ext t, t)
  | .listBookingsWindow _ start stop, t => (listBookingsWindow start stop, t)
  | .patchBooking id status, t => patchBookingById draws id status t

end Endpoints

/-! What the endpoints do to the external ids -/

/-- The tenant has a booking with the external id. -/
def HasBooking (t : Tenant) (ext : String) : Prop := Taken ext t.db.toDb

/-- Bookings keep their external ids. -/
def ExternalsGrow (f : Db → Db) : Prop := ∀ db x, x ∈ db.externals → x ∈ (f db).externals

theorem ExternalsKept.grow {f : Db → Db} (h : ExternalsKept f) : ExternalsGrow f := by
  intro db x hx
  rwa [h db]

theorem grow_kept {α : Type} {tx : Tx α} (h : Writes ExternalsKept tx) :
    Writes ExternalsGrow tx := h.mono fun _ => ExternalsKept.grow

theorem mem_externals_of_grow {α : Type} {tx : Tx α} (h : Writes ExternalsGrow tx)
    {db db' : Db} {r : Except Err α} (hexec : tx.exec db = (r, db')) {x : UUID × Option String}
    (hx : x ∈ db.externals) : x ∈ db'.externals := by
  have hpasses := (h.passes (R := fun db db' => ∀ x, x ∈ db.externals → x ∈ db'.externals)
    (fun _ _ _ hab hbc x hx => hbc x (hab x hx)) (fun _ hx => hx) :
      tx.Passes _ _ _ db)
  cases r with
  | ok a => exact (hpasses.exec_ok hexec).1 x hx
  | error e => exact (hpasses.exec_error hexec).1 x hx

/-- A patch of the status alone. -/
theorem kept_patchStatusOnly (env : Env) (bid : UUID) (s : String) :
    Writes ExternalsKept (OpenPms.patchBooking env bid { status := some (some s) }) := by
  have htransition : ∀ old target, Writes ExternalsKept (checkTransition old target) :=
    fun _ _ => writes_ofExcept _
  unfold OpenPms.patchBooking
  split
  · exact writes_pure _
  · refine writes_bind (writes_select _) fun found => ?_
    split
    · exact writes_raise _
    · split
      · refine writes_bind ?_ fun _ => writes_bind (kept_plain plain_patchNotes) fun _ =>
          writes_pure _
        unfold patchCancel
        split
        · exact writes_bind (htransition ..) fun _ => writes_bind (kept_counts counts_release)
            fun _ => kept_plain plain_setStatus
        · exact writes_pure _
      · refine writes_bind ?_ fun _ => writes_bind (writes_pure _) fun pl =>
          writes_bind (writes_pure _) fun pl => writes_bind ?_ fun _ => writes_bind ?_ fun _ =>
            writes_bind (kept_rows rows_flushRoomCharge) fun _ =>
              writes_bind (kept_plain plain_patchNotes) fun _ => writes_pure _
        · unfold checkInactive
          split
          · exact writes_pure _
          · exact writes_bind (htransition ..) fun _ => writes_raiseIf _
        · refine writes_bind (htransition ..) fun _ => writes_bind (writes_runIf ?_) fun _ =>
            writes_bind (writes_runIf ?_) fun _ =>
              writes_bind (writes_runIf (kept_plain plain_setStatus)) fun _ => writes_pure _
          · refine writes_bind (writes_select _) fun guest => ?_
            split
            · exact writes_raise _
            · exact writes_raiseIf _
          · unfold releaseLoaded
            split
            · exact writes_raise _
            · exact kept_counts counts_release
        · unfold checkoutWarning
          split
          · exact writes_bind (kept_plain plain_markDirty) fun _ =>
              writes_bind (writes_select _) fun _ => writes_pure _
          · exact writes_pure _

theorem grow_flushBooking (b : Booking) : Writes ExternalsGrow (flushBooking b) := by
  refine writes_bind (writes_raiseIf _) fun _ => writes_bind (writes_select _) fun _ =>
    writes_bind (writes_raiseIf _) fun _ => writes_modify fun db x hx => ?_
  obtain ⟨id, hid⟩ := imports_insert b (w := id) fun _ => rfl
  rcases hid db with heq | heq
  · exact heq.symm ▸ hx
  · exact heq.symm ▸ List.mem_append_left _ hx

theorem flushBooking_externals {b : Booking} {db db' : Db}
    (h : (flushBooking b).exec db = (.ok (), db')) :
    (b.id, b.externalBookingId) ∈ db'.externals := by
  simp only [flushBooking, exec_bind_ok, exec_raiseIf_ok, exec_select, exec_modify,
    Prod.mk.injEq, Except.ok.injEq] at h
  obtain ⟨-, s1, ⟨-, rfl⟩, clash, s2, ⟨rfl, rfl⟩, -, s3, ⟨hclash, rfl⟩, -, rfl⟩ := h
  have hfresh : db.bookings.find b.id = none := not_not.mp hclash
  exact List.mem_map.mpr ⟨b, (Table.mem_insert hfresh).mpr (.inr rfl), rfl⟩

theorem kept_insertRest (env : Env) (b : Booking) (rt : UUID) (perNight : List (ℤ × Money))
    (description : String) : Writes ExternalsKept (do
      flushLines b.id (newLines rt perNight)
      modify fun db => { db with folio := db.folio ++ [
        { id := env.folioId 0, bookingId := b.id, transactionType := .charge,
          amount := b.totalAmount, paymentMethod := none, description := some description,
          category := "room_charge" }] }
      let roomCharge ← replaceCountryPackTaxCharges env b.id b.propertyId b.totalAmount
      updateFolioChargeAmount b.id roomCharge) :=
  kept_rows (writes_bind (rows_of_plain plain_flushLines) fun _ => writes_bind
    (writes_modify ⟨fun _ => rfl, fun _ => rfl, fun _ => rfl, fun _ => rfl⟩) fun _ =>
      writes_bind rows_replaceTaxes fun _ => rows_folioCharge)

theorem grow_insertBooking (env : Env) (b : Booking) (rt : UUID) (perNight : List (ℤ × Money))
    (description : String) :
    Writes ExternalsGrow (insertBooking env b rt perNight description) := by
  refine writes_bind (writes_bind (grow_flushBooking b) fun _ => ?_) fun _ =>
    writes_bind ?_ fun _ => ?_
  · exact grow_kept (kept_insertRest env b rt perNight description)
  · exact grow_kept (kept_plain plain_pickFirstFreeRoom)
  · exact grow_kept (kept_plain plain_assignPicked)

theorem insertBooking_externals {env : Env} {b : Booking} {rt : UUID}
    {perNight : List (ℤ × Money)} {description : String} {db db' : Db} {u : Unit}
    (h : (insertBooking env b rt perNight description).exec db = (.ok u, db')) :
    (b.id, b.externalBookingId) ∈ db'.externals := by
  obtain ⟨_, s1, hrows, hpick⟩ := exec_bind_ok.mp h
  obtain ⟨_, s2, hflush, hrest⟩ := exec_bind_ok.mp hrows
  have hmem := flushBooking_externals hflush
  have hrest' := mem_externals_of_grow (grow_kept (kept_insertRest ..)) hrest hmem
  refine mem_externals_of_grow (grow_kept ?_) hpick hrest'
  exact writes_bind (kept_plain plain_pickFirstFreeRoom) fun _ => kept_plain plain_assignPicked

/-- The booking is stored under the id that it was sent with. -/
theorem createBooking_externals {env : Env} {body : BookingCreateRequest}
    {out : BookingCreateResponse} {db db' : Db}
    (h : (createBooking env body).exec db = (.ok out, db')) :
    (env.bookingId, externalRef body.externalBookingId) ∈ db'.externals := by
  obtain ⟨_, s1, -, h⟩ := exec_bind_ok.mp h
  obtain ⟨_, s2, -, h⟩ := exec_bind_ok.mp h
  obtain ⟨_, s3, -, h⟩ := exec_bind_ok.mp h
  obtain ⟨_, s4, -, h⟩ := exec_bind_ok.mp h
  obtain ⟨_, s5, -, h⟩ := exec_bind_ok.mp h
  obtain ⟨_, s6, -, h⟩ := exec_bind_ok.mp h
  obtain ⟨_, s7, -, h⟩ := exec_bind_ok.mp h
  obtain ⟨_, s8, -, h⟩ := exec_bind_ok.mp h
  obtain ⟨_, s9, hinsert, h⟩ := exec_bind_ok.mp h
  cases h
  exact insertBooking_externals hinsert

theorem grow_createBooking (env : Env) (body : BookingCreateRequest) :
    Writes ExternalsGrow (createBooking env body) := by
  refine writes_bind (writes_ofExcept _) fun _ => writes_bind (writes_select _) fun _ =>
    writes_bind (writes_raiseIf _) fun _ =>
      writes_bind (writes_bind (writes_select _) fun _ => writes_raiseIf _) fun _ =>
        writes_bind (writes_bind (writes_select _) fun _ => writes_raiseIf _) fun _ =>
          writes_bind (grow_kept (kept_plain plain_sumRates)) fun _ =>
            writes_bind (grow_kept (kept_counts counts_claim)) fun _ =>
              writes_bind (grow_kept (kept_plain plain_getOrCreateGuest)) fun _ =>
                writes_bind (grow_insertBooking ..) fun _ => writes_pure _

theorem kept_createRoomType (env : Env) (data : RoomTypeCreate) :
    Writes ExternalsKept (OpenPms.createRoomType env data) := by
  refine writes_bind (writes_select _) fun _ => writes_bind (writes_raiseIf _) fun _ =>
    writes_bind (writes_select _) fun _ => writes_bind (writes_raiseIf _) fun _ =>
      writes_bind (writes_modify fun _ => rfl) fun _ => writes_bind (writes_select _) fun _ =>
        writes_bind ?_ fun _ => writes_pure _
  exact writes_bind (writes_select _) fun _ => writes_bind (writes_raiseIf _) fun _ =>
    writes_bind (writes_select _) fun _ => writes_bind (writes_raiseIf _) fun _ =>
      writes_modify fun _ => rfl

theorem kept_createRoomsBulk (env : Env) (rt : UUID) (items : List RoomBulkCreateItem)
    (onConflict : OpenPms.OnConflict) :
    Writes ExternalsKept (createRoomsBulk env rt items onConflict) := by
  have hcheck : ∀ seen, Writes ExternalsKept (checkBulkItems seen items) := by
    induction items with
    | nil => exact fun _ => writes_pure _
    | cons item rest ih =>
      intro seen
      exact writes_bind (writes_raiseIf _) fun _ =>
        writes_bind (writes_bind (writes_raiseIf _) fun _ => writes_pure _) fun _ => ih _
  have hplan : ∀ existing,
      Writes ExternalsKept (planBulkRooms env rt onConflict existing items) := by
    clear hcheck
    induction items with
    | nil => exact fun _ => writes_pure _
    | cons item rest ih =>
      intro existing
      unfold planBulkRooms
      simp only
      split
      · exact writes_bind (writes_raiseIf _) fun _ => writes_bind (ih _) fun _ => writes_pure _
      · exact writes_bind (ih _) fun _ => writes_pure _
  refine writes_bind (writes_bind (writes_select _) fun _ => writes_raiseIf _) fun _ =>
    writes_bind (hcheck _) fun _ => writes_bind (writes_select _) fun _ =>
      writes_bind (hplan _) fun plan => ?_
  simp only
  split
  · exact writes_pure _
  · refine writes_bind (writes_forEach fun room => ?_) fun _ =>
      writes_bind ?_ fun _ => writes_pure _
    · exact writes_bind (writes_select _) fun _ => writes_bind (writes_raiseIf _) fun _ =>
        writes_modify fun _ => rfl
    · exact writes_bind (writes_select _) fun _ => writes_bind (writes_select _) fun _ =>
        writes_bind (writes_select _) fun _ => writes_modify fun _ => rfl

theorem kept_bulkSeed (body : BulkAvailabilityLedgerSeedRequest) :
    Writes ExternalsKept (bulkSeedAvailabilityLedger body) := by
  have hrows : ∀ segments, Writes ExternalsKept (seedRows segments) := by
    intro segments
    induction segments with
    | nil => exact writes_pure _
    | cons seg rest ih =>
      exact writes_bind (writes_select _) fun _ => writes_bind (writes_raiseIf _) fun _ =>
        writes_bind (writes_select _) fun _ => writes_bind (writes_raiseIf _) fun _ =>
          writes_bind ih fun _ => writes_pure _
  refine writes_bind (hrows _) fun rows => writes_bind (writes_modify fun db => ?_) fun _ =>
    writes_pure _
  induction rows generalizing db with
  | nil => rfl
  | cons row rest ih => exact ih (upsertSeedRow row db)

theorem bulkUpsertRates_db {body : Ari.BulkRatesPutRequest} {db db' : Ari.AriDb}
    {keys : List (UUID × UUID × ℤ)} (h : Ari.bulkUpsertRates body db = .ok (db', keys)) :
    db' = Ari.upsertRates body db := by
  unfold Ari.bulkUpsertRates at h
  simp only [Bind.bind, Except.bind] at h
  split at h
  · cases h
  · split at h
    · cases h
    · cases h
      rfl

/-- What the transaction keeps of a booking, its endpoint keeps. -/
theorem has_transaction {α β : Type} {t : Tenant} {tx : Tx α} {status : Err → ℕ}
    {commit : α → Tenant → Reply β × Tenant} {ext : String} (htx : Writes ExternalsGrow tx)
    (hcommit : ∀ a t, (commit a t).2.db.toDb = t.db.toDb) (h : HasBooking t ext) :
    HasBooking (transaction t tx status commit).2 ext := by
  unfold transaction
  split
  · next a core hexec =>
    obtain ⟨id, hid⟩ := h
    exact ⟨id, (hcommit a _).symm ▸ mem_externals_of_grow htx hexec hid⟩
  · exact h

end OpenPms.Migration
