import OpenPms.LedgerHoles
import OpenPms.Lifecycle
import OpenPms.MigrationFaults

/-!
The records of the migration as tasks: what the server makes of a room type, a rate plan, a
guest and a booking that come again. A name that is listed is not created, and a guest or a
booking that is there is answered with 409, so that a record is migrated again without any
effect.
-/
namespace OpenPms.Migration

open Transaction Prog KeyedTable

/-! What the names are read from -/

/-- The rows that the lists by name show. -/
def catalog (db : Db) : Table RoomType.id × List RatePlan := (db.roomTypes, db.ratePlans)

/-- What rooms, the room of a booking, the ledger and the folio do not show in. -/
structure IgnoresAssignment {γ : Type} (f : Db → γ) : Prop extends IgnoresRooms f where
  folio : ∀ (db : Db) folio, f { db with folio := folio } = f db
  room : ∀ (db : Db) bid room, f (db.updateBooking bid (setRoom room) (id_setRoom _)) = f db

/-- What bookings do not show in either. -/
structure IgnoresStays {γ : Type} (f : Db → γ) : Prop extends IgnoresRooms f where
  bookings : ∀ (db : Db) bookings, f { db with bookings := bookings } = f db
  folio : ∀ (db : Db) folio, f { db with folio := folio } = f db

theorem IgnoresStays.assignment {γ : Type} {f : Db → γ} (hf : IgnoresStays f) :
    IgnoresAssignment f :=
  ⟨hf.toIgnoresRooms, hf.folio, fun db _ _ => hf.bookings db _⟩

theorem ignoresStays_catalog : IgnoresStays catalog where
  rooms _ _ := rfl
  ledger _ _ := rfl
  bookings _ _ := rfl
  folio _ _ := rfl

section Assignment
variable {γ : Type} {f : Db → γ}

theorem keeps_assignPicked (hf : IgnoresAssignment f) {bid : UUID} {picked : Option UUID} :
    Keeps f (assignPicked bid picked) := by
  unfold assignPicked
  split
  · refine keeps_bind (keeps_select _) fun found => ?_
    split
    · exact keeps_raise _
    · refine keeps_bind (keeps_raiseIf _) fun _ => keeps_bind (keeps_raiseIf _) fun _ => ?_
      split
      · refine keeps_bind (keeps_select _) fun room => ?_
        split
        · exact keeps_raise _
        · refine keeps_bind (keeps_raiseIf _) fun _ => keeps_bind (keeps_select _) fun _ =>
            keeps_bind (keeps_raiseIf _) fun _ => keeps_bind ?_ fun _ =>
              keeps_modify fun db => hf.room db _ _
          unfold assertNoRoomConflict
          split
          · exact keeps_pure _
          · exact keeps_bind (keeps_select _) fun _ => keeps_raiseIf _
      · exact keeps_raise _
  · exact keeps_pure _

theorem keeps_pickFirstFreeRoom {propertyId rt : UUID} {nights : List ℤ} {exclude : UUID} :
    Keeps f (pickFirstFreeRoomForStay propertyId rt nights exclude) := by
  unfold pickFirstFreeRoomForStay
  split
  · exact keeps_pure _
  · refine keeps_bind (keeps_select _) fun rooms => ?_
    induction rooms with
    | nil => exact keeps_pure _
    | cons room rest ih =>
      refine keeps_tryCatch (keeps_bind ?_ fun _ => keeps_pure _) fun e => ?_
      · unfold assertNoRoomConflict
        split
        · exact keeps_pure _
        · exact keeps_bind (keeps_select _) fun _ => keeps_raiseIf _
      · split
        · exact ih
        · exact keeps_raise _

theorem keeps_setCharge (hfolio : ∀ (db : Db) folio, f { db with folio := folio } = f db)
    {bid : UUID} {amount : Money} : Keeps f (updateFolioChargeAmount bid amount) :=
  keeps_bind (keeps_select _) fun _ => keeps_bind (keeps_raiseIf _) fun _ =>
    keeps_modify fun db => hfolio db _

/-- The room charge of a new booking and its taxes. -/
theorem keeps_newCharges (hfolio : ∀ (db : Db) folio, f { db with folio := folio } = f db)
    {env : Env} {b : Booking} {rows : List FolioTransaction} :
    Keeps f (do
      modify fun db => { db with folio := db.folio ++ rows }
      let roomCharge ← replaceCountryPackTaxCharges env b.id b.propertyId b.totalAmount
      updateFolioChargeAmount b.id roomCharge : Tx Unit) := by
  refine keeps_bind (keeps_modify fun db => hfolio db _) fun _ => keeps_bind ?_ fun _ =>
    keeps_setCharge hfolio
  refine keeps_bind (keeps_bind (keeps_select _) fun _ => keeps_raiseIf _) fun _ =>
    keeps_bind (keeps_modify fun db => hfolio db _) fun _ => keeps_bind (keeps_ofExcept _)
      fun _ => ?_
  split
  · exact keeps_pure _
  · exact keeps_bind (keeps_raiseIf _) fun _ => keeps_bind (keeps_modify fun db => hfolio db _)
      fun _ => keeps_pure _

theorem keeps_claimNights (hf : IgnoresRooms f) {rt : UUID} {nights : List ℤ} {n : ℤ} :
    Keeps f (claimAvailabilityForNewBooking rt nights n) := by
  unfold claimAvailabilityForNewBooking
  split
  · exact keeps_pure _
  · refine keeps_bind (keeps_raiseIf _) fun _ => keeps_bind (keeps_select _) fun _ =>
      keeps_bind (keeps_raiseIf _) fun _ => keeps_bind (keeps_bind (keeps_select _) fun _ =>
        keeps_bind (keeps_forEach fun _ => keeps_acquire _) fun _ => keeps_select _) fun _ => ?_
    exact keeps_bind (keeps_increment fun db _ _ _ => hf.ledger db _) fun _ => keeps_raiseIf _

theorem keeps_sumRates {rt ratePlan : UUID} {checkIn checkOut : ℤ} :
    Keeps f (sumRatesForStay rt ratePlan checkIn checkOut) :=
  keeps_bind (keeps_ofExcept _) fun _ => keeps_bind (keeps_select _) fun _ =>
    keeps_bind (keeps_raiseIf _) fun _ => keeps_pure _

end Assignment

section Stays
variable {γ : Type} {f : Db → γ} (hf : IgnoresStays f)
include hf

theorem IgnoresStays.booked (db : Db) (rt : UUID) (d n : ℤ) : f (db.setBooked rt d n) = f db :=
  hf.ledger db _

theorem stays_updateRow {bid : UUID} {g : Booking → Booking} {hg : ∀ b, (g b).id = b.id} :
    Keeps f (updateBookingRow bid g hg) :=
  keeps_bind (keeps_acquire _) fun _ => keeps_bind (keeps_select _) fun _ =>
    keeps_bind (keeps_raiseIf _) fun _ => keeps_modify fun db => hf.bookings db _

theorem stays_insertRows {env : Env} {b : Booking} {rt : UUID} {perNight : List (ℤ × Money)}
    {description : String} : Keeps f (insertRows env b rt perNight description) := by
  refine keeps_bind ?_ fun _ => keeps_bind ?_ fun _ => keeps_newCharges hf.folio
  · exact keeps_bind (keeps_raiseIf _) fun _ => keeps_bind (keeps_select _) fun _ =>
      keeps_bind (keeps_raiseIf _) fun _ => keeps_modify fun db => hf.bookings db _
  · exact keeps_bind (keeps_raiseIf _) fun _ => keeps_bind (keeps_select _) fun _ =>
      keeps_bind (keeps_raiseIf _) fun _ => keeps_modify fun db => hf.bookings db _

/-- A booking shows in what its guest shows in. -/
theorem stays_createBooking {env : Env} {body : BookingCreateRequest} {R : γ → γ → Prop}
    (hguest : Relates f R (getOrCreateGuestForBooking env body.guest body.forceNewGuest)) :
    Relates f R (createBooking env body) := by
  refine relates_keeps_bind (keeps_ofExcept _) fun _ => relates_keeps_bind (keeps_select _)
    fun _ => relates_keeps_bind (keeps_raiseIf _) fun _ =>
      relates_keeps_bind (keeps_bind (keeps_select _) fun _ => keeps_raiseIf _) fun _ =>
        relates_keeps_bind (keeps_bind (keeps_select _) fun _ => keeps_raiseIf _) fun _ =>
          relates_keeps_bind keeps_sumRates fun _ =>
            relates_keeps_bind (keeps_claimNights hf.toIgnoresRooms) fun _ =>
              relates_bind_keeps hguest fun _ => keeps_bind (keeps_bind (stays_insertRows hf)
                fun _ => keeps_bind keeps_pickFirstFreeRoom fun _ =>
                  keeps_assignPicked hf.assignment) fun _ => keeps_pure _

omit hf in
theorem stays_checkTransition {old : BookingStatus} {target : String} :
    Keeps f (checkTransition old target) := keeps_ofExcept _

theorem stays_patchCancel {b : Booking} : Keeps f (patchCancel b) := by
  unfold patchCancel
  split
  · exact keeps_bind stays_checkTransition fun _ =>
      keeps_bind (keeps_release hf.booked) fun _ => stays_updateRow hf
  · exact keeps_pure _

theorem stays_patchStatus {env : Env} {b : Booking} {body : BookingPatchRequest}
    {pl : PatchLines} : Keeps f (patchStatus env b body pl) := by
  unfold patchStatus
  split
  · exact keeps_pure _
  · refine keeps_bind stays_checkTransition fun _ => keeps_bind (keeps_runIf ?_) fun _ =>
      keeps_bind (keeps_runIf ?_) fun _ => keeps_bind (keeps_runIf (stays_updateRow hf)) fun _ =>
        keeps_pure _
    · refine keeps_bind (keeps_select _) fun guest => ?_
      split
      · exact keeps_raise _
      · exact keeps_raiseIf _
    · unfold releaseLoaded
      split
      · exact keeps_raise _
      · exact keeps_release hf.booked

theorem stays_patchNotes {b : Booking} {notes : Option (Option String)} :
    Keeps f (patchNotes b notes) := by
  refine keeps_bind (keeps_raiseIf _) fun _ => ?_
  split
  · exact keeps_pure _
  · split
    · exact keeps_pure _
    · exact stays_updateRow hf

/-- A patch of the status alone. -/
theorem stays_patchBooking {env : Env} {bid : UUID} {s : String} :
    Keeps f (OpenPms.patchBooking env bid { status := some (some s) }) := by
  unfold OpenPms.patchBooking
  split
  · exact keeps_pure _
  · refine keeps_bind (keeps_select _) fun found => ?_
    split
    · exact keeps_raise _
    · split
      · exact keeps_bind (stays_patchCancel hf) fun _ => keeps_bind (keeps_pure _) fun _ =>
          keeps_pure _
      · refine keeps_bind ?_ fun _ => ?_
        · unfold checkInactive
          split
          · exact keeps_pure _
          · unfold checkRequestedTransition
            exact keeps_bind stays_checkTransition fun _ => keeps_raiseIf _
        · refine keeps_bind ?_ fun pl => keeps_bind ?_ fun pl => ?_
          · unfold patchDates
            rw [if_pos ⟨rfl, rfl⟩]
            exact keeps_pure _
          · unfold patchRoomAssignment
            exact keeps_pure _
          refine keeps_bind (stays_patchStatus hf) fun status => ?_
          refine keeps_bind ?_ fun warning => keeps_bind ?_ fun _ => ?_
          · unfold checkoutWarning
            split
            · exact keeps_bind (keeps_modify fun db => hf.rooms db _) fun _ =>
                keeps_bind (keeps_select _) fun _ => keeps_pure _
            · exact keeps_pure _
          · unfold flushRoomCharge
            split
            · exact keeps_pure _
            · exact keeps_setCharge hf.folio
          · exact keeps_bind (stays_patchNotes hf) fun _ => keeps_pure _

end Stays

/-- The lists by name are as before. -/
structure SameNames (t t' : Tenant) : Prop where
  catalog : catalog t'.db.toDb = catalog t.db.toDb
  columns : t'.planColumns = t.planColumns

theorem SameNames.refl (t : Tenant) : SameNames t t := ⟨rfl, rfl⟩

theorem SameNames.trans {t t' t'' : Tenant} (h : SameNames t t') (h' : SameNames t' t'') :
    SameNames t t'' := ⟨h'.catalog.trans h.catalog, h'.columns.trans h.columns⟩

theorem SameNames.roomTypes {t t' : Tenant} (h : SameNames t t') :
    t'.db.roomTypes = t.db.roomTypes := congrArg Prod.fst h.catalog

theorem SameNames.ratePlans {t t' : Tenant} (h : SameNames t t') :
    t'.db.ratePlans = t.db.ratePlans := congrArg Prod.snd h.catalog

theorem sameNames_transaction {α β : Type} {t : Tenant} {tx : Tx α} {status : Err → ℕ}
    {commit : α → Tenant → Reply β × Tenant} (htx : Relates catalog (fun c c' => c' = c) tx)
    (hcommit : ∀ a t, SameNames t (commit a t).2) :
    SameNames t (transaction t tx status commit).2 := by
  unfold transaction
  split
  · next a core hexec =>
    have hset : SameNames t (t.setCore core) := ⟨htx _ _ _ hexec, rfl⟩
    exact hset.trans (hcommit a (t.setCore core))
  · exact .refl t

theorem sameNames_openPms {draws : Draws} {q : Request} (hq : ¬ q.Naming) (t : Tenant) :
    SameNames t (openPms draws q t).2 := by
  cases q with
  | listRoomTypes | listRatePlans | listGuests | listBookings | listBookingsWindow => exact .refl t
  | createRoomType | createRatePlan => exact absurd trivial hq
  | bulkCreateRooms rt rooms =>
    simp only [openPms, bulkCreateRooms]
    split
    · refine sameNames_transaction ((keeps_createRoomsBulk
        ignoresStays_catalog.toIgnoresRooms).relates fun _ => rfl) fun a t => ?_
      simp only
      split
      · exact .refl t
      · exact ⟨rfl, rfl⟩
    · exact .refl t
  | bulkPutRates rt rp start stop price =>
    simp only [openPms, bulkPutRates]
    split
    · split
      · next hupsert => exact bulkUpsertRates_db hupsert ▸ ⟨rfl, rfl⟩
      · exact .refl t
    · exact .refl t
  | seedAvailability rt start stop =>
    simp only [openPms, seedAvailability]
    split
    · exact sameNames_transaction ((keeps_bulkSeed ignoresStays_catalog.toIgnoresRooms).relates
        fun _ => rfl) fun a t => .refl t
    · exact .refl t
  | createGuest body =>
    simp only [openPms, createGuest]
    split
    · split
      · exact .refl t
      · split
        · exact .refl t
        · exact ⟨rfl, rfl⟩
    · exact .refl t
  | patchGuest id body =>
    simp only [openPms, patchGuest]
    split
    · exact .refl t
    · split
      · exact .refl t
      · split
        · exact .refl t
        · exact ⟨rfl, rfl⟩
  | createBooking body =>
    simp only [openPms, postBooking]
    split
    · refine sameNames_transaction (stays_createBooking ignoresStays_catalog
        ((keeps_getOrCreateGuest fun _ _ => rfl).relates fun _ => rfl)) fun a t => ?_
      simp only
      split
      · exact ⟨rfl, rfl⟩
      · exact ⟨rfl, rfl⟩
    · exact .refl t
  | patchBooking id status =>
    exact sameNames_transaction ((stays_patchBooking ignoresStays_catalog).relates
      fun _ => rfl) fun a t => .refl t

/-! Names -/

/-- What a lookup by name finds. -/
theorem idsByName_isSome {rows : List NamedRow} {key : String} :
    (MigrationPipeline.idsByName rows key).isSome ↔ ∃ r ∈ rows, nameKey r.name = key := by
  unfold MigrationPipeline.idsByName
  rw [Option.isSome_map, List.find?_isSome]
  simp

def roomTypeRows (propertyId : UUID) (t : Tenant) : List NamedRow :=
  ((t.db.roomTypes.rows.filter fun r => r.propertyId = propertyId && !r.deleted).insertionSort
    fun a b => a.name ≤ b.name).map fun r => ⟨r.id, r.name⟩

def ratePlanRows (propertyId : UUID) (t : Tenant) : List NamedRow :=
  ((t.db.ratePlans.filter fun r => r.propertyId = propertyId).map fun r =>
    (⟨r.id, (t.planColumns r.id).name⟩ : NamedRow)).insertionSort fun a b => a.name ≤ b.name

theorem SameNames.roomTypeRows {t t' : Tenant} (h : SameNames t t') (propertyId : UUID) :
    roomTypeRows propertyId t' = roomTypeRows propertyId t := by
  unfold Migration.roomTypeRows
  rw [h.roomTypes]

theorem SameNames.ratePlanRows {t t' : Tenant} (h : SameNames t t') (propertyId : UUID) :
    ratePlanRows propertyId t' = ratePlanRows propertyId t := by
  unfold Migration.ratePlanRows
  rw [h.ratePlans, h.columns]

end OpenPms.Migration
