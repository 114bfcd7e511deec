import OpenPms.BookingRefinement
import OpenPms.ChannexBooking
import OpenPms.Errors

/-!
What the ingest of a revision does to the hotel. A new booking is booked like one of
the desk. A cancelled or modified revision moves the ledger for whatever the booking's
lines say, and an error that the ingest handles keeps the counters moved so far.
-/
namespace OpenPms

open KeyedTable Transaction Prog Hotel

/-! Prices of a revision -/

theorem nightlyPrices_fst (total : Money) (nights : List ℤ) :
    (nightlyPricesFromTotal total nights).map (·.1) = nights := by
  unfold nightlyPricesFromTotal
  split
  · next hlast => rw [List.getLast?_eq_none_iff.mp hlast, List.map_nil]
  · simp [Function.comp_def]
  · next lastDay cents hlast =>
    have hdecomp : nights.dropLast ++ [lastDay] = nights := List.dropLast_append_getLast? lastDay hlast
    simpa [Function.comp_def] using hdecomp

/-- The last night takes the remainder of the division, so nothing is lost. -/
theorem nightlyPrices_sum (total : Money) {nights : List ℤ} (hne : nights ≠ []) :
    ((nightlyPricesFromTotal total nights).map (·.2)).sum = total := by
  unfold nightlyPricesFromTotal
  split
  · next hlast => exact absurd (List.getLast?_eq_none_iff.mp hlast) hne
  · next hlast =>
    obtain ⟨d, rest, rfl⟩ := List.exists_cons_of_ne_nil hne
    rw [List.map_map, List.map_cons, List.sum_cons]
    exact WithTop.top_add _
  · next lastDay cents hlast =>
    have hsum : ∀ (unit : ℤ) (days : List ℤ),
        ((days.map fun d => (d, ((unit : ℤ) : Money))).map (·.2)).sum =
          ((unit * days.length : ℤ) : Money) := by
      intro unit days
      induction days with
      | nil => simp
      | cons d rest ih =>
        rw [List.map_cons, List.map_cons, List.sum_cons, ih, ← WithTop.coe_add]
        congr 1
        push_cast [List.length_cons]
        ring
    have hlen : ((nights.dropLast.length : ℕ) : ℤ) = nights.length - 1 := by
      have hpos : 0 < nights.length := List.length_pos_of_ne_nil hne
      rw [List.length_dropLast]
      omega
    rw [List.map_append, List.sum_append, hsum, hlen]
    simp only [List.map_cons, List.map_nil, List.sum_cons, List.sum_nil, add_zero]
    rw [← WithTop.coe_add]
    congr 1
    ring

/-- The nights of a revision are those of a stay, priced from its total. -/
structure Revision.Priced (rev : Revision) : Prop where
  stay : ∃ checkIn checkOut : ℤ, checkIn < checkOut ∧ checkOut - checkIn ≤ maxStayNights ∧
    rev.nights = daysBetween checkIn checkOut
  perNight : rev.perNight = nightlyPricesFromTotal rev.total rev.nights

theorem Revision.Priced.exists_stay {rev : Revision} (h : rev.Priced) :
    ∃ stay : PricedStay, stay.roomTypeId = rev.roomTypeId ∧ stay.nights = rev.nights ∧
      stay.perNight = rev.perNight ∧ stay.total = rev.total := by
  obtain ⟨ci, co, hlt, hspan, hnights⟩ := h.stay
  have hfst : rev.perNight.map (·.1) = daysBetween ci co := by
    rw [h.perNight, nightlyPrices_fst, hnights]
  refine ⟨⟨rev.roomTypeId, ci, co, rev.perNight, hlt, hspan, hfst⟩, rfl, hnights.symm, rfl, ?_⟩
  have hne : rev.nights ≠ [] := by
    rw [hnights]
    exact daysBetween_ne_nil hlt
  change (rev.perNight.map (·.2)).sum = rev.total
  rw [h.perNight, nightlyPrices_sum rev.total hne]

/-! Errors -/

/-- The errors that the ingest turns into a message on the revision. -/
def Err.Handled : Err → Prop
  | .insufficientInventory _ => True
  | .ledgerNotSeeded _ => True
  | .invalidBookingContext _ => True
  | _ => False

section Unhandled

theorem raises_updatePlanAndTotal {P : Err → Prop} {b : Booking} {ratePlan : UUID}
    {total : Money} (hdata : P .dataError) (hstale : P .staleData) :
    Raises P (updatePlanAndTotal b ratePlan total) := by
  refine raises_bind (raises_raiseIf hdata) fun _ => ?_
  split
  · exact raises_pure _
  · exact raises_updateBookingRow hstale

theorem raises_updateGuest {P : Err → Prop} {gid : UUID} {payload : GuestPayload}
    {notes : Option String} (hkey : P .integrityError) :
    Raises P (updateGuest gid payload notes) := by
  refine raises_bind (raises_select _) fun guest => ?_
  cases guest with
  | none => exact raises_pure _
  | some g =>
    exact raises_bind (raises_select _) fun _ => raises_bind (raises_raiseIf hkey) fun _ =>
      raises_modify _

theorem raises_claimRevisionRow {P : Err → Prop} {env : Env}
    {loaded : Option ChannexBookingRevision}
    {link : ChannexPropertyLink} {rid : String} {payload : ChannexBookingRevisionPayload}
    (hdata : P .dataError) (hruntime : ∀ message, P (.runtimeError message)) :
    Raises P (claimRevisionRow env loaded link rid payload) := by
  refine raises_bind (raises_raiseIf hdata) fun _ => raises_bind (raises_raiseIf (hruntime _))
    fun _ => raises_bind (raises_select _) fun present =>
      raises_bind (raises_runIf (raises_acquire _)) fun _ =>
        raises_bind (raises_select _) fun row => ?_
  split
  · exact raises_bind (raises_raiseIf (hruntime _)) fun _ => raises_bind (raises_modify _) fun _ =>
      raises_pure _
  · split
    · exact raises_pure _
    · exact raises_pure _
    · exact raises_pure _
    · exact raises_bind (raises_acquire _) fun _ => raises_bind (raises_modify _) fun _ =>
        raises_pure _

theorem raises_resolveMaps {P : Err → Prop} {linkId : UUID} {cxRoomType cxRatePlan : String} :
    Raises P (resolveRoomAndRateMaps linkId cxRoomType cxRatePlan) := by
  refine raises_bind (raises_select _) fun rtm => ?_
  split
  · exact raises_pure _
  · exact raises_bind (raises_select _) fun _ => raises_pure _

theorem raises_decimalAmount {P : Err → Prop} {amount : RawAmount} (hinvalid : P .invalidOperation) :
    Raises P (ofExcept (decimalAmount amount) : Tx Money) := by
  unfold decimalAmount
  split
  · exact raises_pure _
  · exact raises_raise hinvalid
  · exact raises_pure _
  · simp only
    split
    · exact raises_raise hinvalid
    · exact raises_pure _

theorem raises_guestPayload {P : Err → Prop} {payload : ChannexBookingRevisionPayload}
    {key : String} (hinvalid : P .validationError) :
    Raises P (ofExcept (guestPayloadFromChannex payload key) : Tx GuestPayload) := by
  unfold guestPayloadFromChannex
  simp only
  split
  · exact raises_raise hinvalid
  · exact raises_pure _

theorem TaxError.not_handled {e : Err} (h : TaxError e) : ¬ e.Handled := by
  cases h with
  | signal s => cases s <;> exact id
  | refused => exact id

/-- Once the inventory is claimed, no error of the inserts is handled. -/
theorem unhandled_insertBooking {env : Env} {b : Booking} {rt : UUID}
    {perNight : List (ℤ × Money)} {description : String} :
    Raises (¬ Err.Handled ·) (insertBooking env b rt perNight description) := by
  refine raises_bind (raises_insertRows id id (fun _ => TaxError.not_handled) id) fun _ =>
    raises_bind raises_pickFirstFreeRoom fun picked => ?_
  cases picked with
  | none => exact raises_pure _
  | some room =>
    change Raises _ (assignBookingRoom b.id (some room))
    exact raises_assignBookingRoom fun _ _ => id

end Unhandled

/-! What the counters cannot change -/

/-- Everything of the hotel but the booked counters. -/
def Db.capacity (db : Db) :=
  (({ db.hotel with ledger := .empty } : Hotel), fun rt d =>
    (db.ledger.row rt d).map fun c => (c.totalRooms, c.blockedRooms))

theorem capacity_eq {db db' : Db} (h : db'.capacity = db.capacity) :
    db'.hotel = { db.hotel with ledger := db'.ledger } ∧ db.ledger.SameCapacity db'.ledger := by
  obtain ⟨hhotel, hrows⟩ := Prod.mk.inj h
  constructor
  · exact congrArg (fun h : Hotel => ({ h with ledger := db'.ledger } : Hotel)) hhotel
  · intro rt d
    exact congrFun (congrFun hrows rt) d

theorem capacity_setBooked (db : Db) (rt : UUID) (d n : ℤ) :
    (db.setBooked rt d n).capacity = db.capacity := by
  refine Prod.ext rfl ?_
  funext r x
  simp only [Db.capacity, Db.setBooked, Ledger.adjust_row, Option.map_map]
  congr 1
  funext c
  simp only [Function.comp_apply]
  split <;> rfl

theorem keeps_lockAndValidate {γ : Type} {f : Db → γ} {rt : UUID} {nights : List ℤ} {n : ℤ} :
    Keeps f (lockAndValidateAvailability rt nights n) := by
  unfold lockAndValidateAvailability selectLedgerForUpdate
  split
  · exact keeps_pure _
  · exact keeps_bind (keeps_bind (keeps_select _) fun _ =>
      keeps_bind (keeps_forEach fun _ => keeps_acquire _) fun _ => keeps_select _) fun _ =>
        keeps_bind (keeps_raiseIf _) fun _ => keeps_bind (keeps_raiseIf _) fun _ => keeps_pure _

/-- What neither the counters nor the guests show in. -/
structure IgnoresCounters {γ : Type} (f : Db → γ) : Prop where
  booked : ∀ (db : Db) rt d n, f (db.setBooked rt d n) = f db
  guests : ∀ (db : Db) guests, f { db with guests := guests } = f db

theorem ignoresCounters_capacity : IgnoresCounters Db.capacity :=
  ⟨capacity_setBooked, fun _ _ => rfl⟩

section Counters
variable {γ : Type} {f : Db → γ}

theorem keeps_increment {rows : List AvailabilityLedger} {delta : ℤ}
    (hf : ∀ (db : Db) rt d n, f (db.setBooked rt d n) = f db) :
    Keeps f (incrementBookedRooms rows delta) :=
  keeps_forEach fun _ => keeps_modify fun db => hf db _ _ _

theorem keeps_decrement {rows : List AvailabilityLedger} {delta : ℤ}
    (hf : ∀ (db : Db) rt d n, f (db.setBooked rt d n) = f db) :
    Keeps f (decrementBookedRooms rows delta) :=
  keeps_forEach fun _ => keeps_bind (keeps_modify fun db => hf db _ _ _) fun _ =>
    keeps_raiseIf _

theorem keeps_release {lines : List BookingLine}
    (hf : ∀ (db : Db) rt d n, f (db.setBooked rt d n) = f db) :
    Keeps f (releaseBookingInventory lines) := by
  unfold releaseBookingInventory
  split
  · exact keeps_bind keeps_lockAndValidate fun _ => keeps_decrement hf
  · exact keeps_pure _

theorem keeps_flushGuest {guest : Guest}
    (hf : ∀ (db : Db) guests, f { db with guests := guests } = f db) :
    Keeps f (flushGuest guest) := by
  refine keeps_bind (keeps_select _) fun clash => ?_
  split
  · exact keeps_pure _
  · exact keeps_bind (keeps_modify fun db => hf db _) fun _ => keeps_pure _

theorem keeps_getOrCreateGuest {env : Env} {payload : GuestPayload} {force : Bool}
    (hf : ∀ (db : Db) guests, f { db with guests := guests } = f db) :
    Keeps f (getOrCreateGuestForBooking env payload force) := by
  unfold getOrCreateGuestForBooking
  split
  · exact keeps_bind (keeps_flushGuest hf) fun _ => keeps_bind (keeps_raiseIf _) fun _ =>
      keeps_pure _
  · refine keeps_bind (keeps_select _) fun existing => ?_
    split
    · exact keeps_pure _
    · refine keeps_bind (keeps_flushGuest hf) fun inserted => ?_
      split
      · exact keeps_pure _
      · refine keeps_bind (keeps_select _) fun again => ?_
        split
        · exact keeps_pure _
        · exact keeps_raise _

/-! A handled error is raised after writes of counters and guests only -/

theorem keepsOn_ingestCancelled (hf : IgnoresCounters f) (rev : Revision) :
    KeepsOn f Err.Handled (ingestCancelled rev) := by
  refine keepsOn_bind (keeps_select _) fun found => ?_
  split
  · exact (raises_bind (raises_modify _) fun _ => raises_pure _).on
  · split
    · refine keepsOn_bind (keeps_release hf.booked) fun _ => Raises.on ?_
      exact raises_bind (raises_updateBookingRow id) fun _ =>
        raises_bind (raises_modify _) fun _ => raises_pure _
    · exact (raises_bind (raises_modify _) fun _ => raises_pure _).on

theorem keepsOn_ingestModified (hf : IgnoresCounters f) (env : Env) (rev : Revision) :
    KeepsOn f Err.Handled (ingestModified env rev) := by
  refine keepsOn_bind (keeps_select _) fun found => ?_
  split
  · exact (raises_bind (raises_modify _) fun _ => raises_pure _).on
  · split
    · refine keepsOn_bind keeps_lockAndValidate fun _ =>
        keepsOn_bind (keeps_decrement hf.booked) fun _ =>
          keepsOn_bind keeps_lockAndValidate fun _ =>
            keepsOn_bind (keeps_increment hf.booked) fun _ => Raises.on ?_
      exact raises_bind (raises_modify _) fun _ =>
        raises_bind (raises_updatePlanAndTotal id id) fun _ =>
          raises_bind (raises_flushLines id id) fun _ =>
            raises_bind (raises_replaceTaxes id (fun _ => TaxError.not_handled) id) fun _ =>
              raises_bind (raises_folioCharge id) fun _ =>
              raises_bind (raises_updateGuest id) fun _ =>
                raises_bind (raises_modify _) fun _ => raises_pure _
    · exact (raises_bind (raises_modify _) fun _ => raises_pure _).on

theorem keepsOn_ingestNew (hf : IgnoresCounters f) (env : Env) (rev : Revision) :
    KeepsOn f Err.Handled (ingestNew env rev) := by
  refine keepsOn_bind (keeps_select _) fun existing => ?_
  split
  · exact (raises_bind (raises_modify _) fun _ => raises_pure _).on
  · refine keepsOn_bind keeps_lockAndValidate fun _ =>
      keepsOn_bind (keeps_increment hf.booked) fun _ =>
        keepsOn_bind (keeps_getOrCreateGuest hf.guests) fun guest => Raises.on ?_
    exact raises_bind (raises_modify _) fun _ => raises_bind unhandled_insertBooking fun _ =>
      raises_bind (raises_modify _) fun _ => raises_pure _

end Counters

/-! The branches, when they return -/

section Branches
variable {db db' : Db}

/-- The ledger after the release of some lines; untouched without a single room type. -/
def Ledger.released (l : Ledger) (lines : List BookingLine) : Ledger :=
  match lineRoomTypes lines with
  | [rt] => l.shift rt (lines.map (·.date)) (-1)
  | _ => l

theorem Ledger.released_of_single {lines : List BookingLine} {rt : UUID} (l : Ledger)
    (h : lineRoomTypes lines = [rt]) :
    l.released lines = l.shift rt (lines.map (·.date)) (-1) := by
  rw [Ledger.released, h]

theorem Ledger.released_of_mixed {lines : List BookingLine} (l : Ledger)
    (h : ∀ rt, lineRoomTypes lines ≠ [rt]) : l.released lines = l := by
  unfold Ledger.released
  split
  · next rt hrt => exact absurd hrt (h rt)
  · rfl

theorem exec_release_ledger {lines : List BookingLine} {u : Unit}
    (h : (releaseBookingInventory lines).exec db = (.ok u, db')) :
    db' = db.setLedger (db.ledger.released lines) ∧
      ∀ rt, lineRoomTypes lines = [rt] → db.ledger.Releasable rt (lines.map (·.date)) := by
  unfold releaseBookingInventory at h
  split at h
  · next rt hrt =>
    obtain ⟨hrel, hdb⟩ := exec_lock_decrement_ok.mp h
    rw [db.ledger.released_of_single hrt]
    refine ⟨hdb, ?_⟩
    intro rt' hrt'
    cases hrt.symm.trans hrt'
    exact hrel
  · next hmixed =>
    cases h
    rw [db.ledger.released_of_mixed hmixed]
    exact ⟨rfl, fun rt hrt => absurd hrt (hmixed rt)⟩

theorem find_of_external {external : String} {b : Booking}
    (h : findByExternal external db = some b) : db.bookings.find b.id = some b :=
  Table.find_of_mem (List.mem_of_find?_eq_some h)

theorem exec_ingestCancelled_ok {rev : Revision} {r : ChannexIngestResult}
    (h : (ingestCancelled rev).exec db = (.ok r, db')) :
    r.success = false ∧ db'.hotel = db.hotel ∨
      r.success = true ∧ ∃ b, findByExternal rev.external db = some b ∧
        (b.status = .cancelled ∧ db'.hotel = db.hotel ∨
          b.status ≠ .cancelled ∧
            (∀ rt, lineRoomTypes b.lines = [rt] → db.ledger.Releasable rt b.nights) ∧
            db'.hotel = { db.hotel with
              bookings := db.bookings.update b.id (setStatus .cancelled) (id_setStatus _)
              ledger := db.ledger.released b.lines }) := by
  simp only [ingestCancelled, exec_bind_ok, exec_select, Prod.mk.injEq, Except.ok.injEq] at h
  obtain ⟨found, _, ⟨hfound, rfl⟩, h⟩ := h
  cases hb : found with
  | none =>
    rw [hb] at h
    cases h
    exact .inl ⟨rfl, rfl⟩
  | some b =>
    rw [hb] at h hfound
    right
    simp only at h
    split at h
    · next hstatus =>
      simp only [exec_bind_ok, exec_updateBookingRow_ok] at h
      obtain ⟨_, _, hrel, _, _, ⟨-, rfl⟩, _, _, hfin, hret⟩ := h
      obtain ⟨rfl, hreleasable⟩ := exec_release_ledger hrel
      cases hfin
      cases hret
      exact ⟨rfl, b, hfound, .inr ⟨hstatus, hreleasable, rfl⟩⟩
    · next hstatus =>
      cases h
      exact ⟨rfl, b, hfound, .inl ⟨not_not.mp hstatus, rfl⟩⟩

theorem exec_updatePlanAndTotal_ok {b : Booking} {ratePlan : UUID} {total : Money} {u : Unit}
    (h : (updatePlanAndTotal b ratePlan total).exec db = (.ok u, db')) :
    HeaderSet db db' b total (some ratePlan) := by
  simp only [updatePlanAndTotal, exec_bind_ok, exec_raiseIf_ok] at h
  obtain ⟨_, _, ⟨-, rfl⟩, h⟩ := h
  split at h
  · next heq =>
    cases h
    refine ⟨id, fun _ => rfl, ?_, by simp [clearLines, ← heq.1, ← heq.2]⟩
    rw [Db.updateBooking, Table.update_id]
  · rw [exec_updateBookingRow_ok] at h
    obtain ⟨-, rfl⟩ := h
    exact ⟨_, _, rfl, rfl⟩

theorem hotel_updateGuest {gid : UUID} {payload : GuestPayload} {notes : Option String}
    {u : Unit} (h : (updateGuest gid payload notes).exec db = (.ok u, db')) :
    db'.hotel = db.hotel := by
  simp only [updateGuest, exec_bind_ok, exec_select, Prod.mk.injEq, Except.ok.injEq] at h
  obtain ⟨found, _, ⟨-, rfl⟩, h⟩ := h
  cases found with
  | none =>
    cases h
    rfl
  | some g =>
    simp only [exec_bind_ok, exec_select, exec_raiseIf_ok, exec_modify, Prod.mk.injEq,
      Except.ok.injEq] at h
    obtain ⟨_, _, ⟨rfl, rfl⟩, _, _, ⟨-, rfl⟩, -, rfl⟩ := h
    rfl

/-- A modified revision that is applied rebooks the booking, whatever its status. -/
theorem exec_ingestModified_ok {env : Env} {rev : Revision} {r : ChannexIngestResult}
    {stay : PricedStay} (hrt : stay.roomTypeId = rev.roomTypeId) (hnights : stay.nights = rev.nights)
    (hper : stay.perNight = rev.perNight) (htotal : stay.total = rev.total)
    (h : (ingestModified env rev).exec db = (.ok r, db')) :
    r.success = false ∧ db'.hotel = db.hotel ∨
      r.success = true ∧ ∃ b rt, findByExternal rev.external db = some b ∧
        lineRoomTypes b.lines = [rt] ∧ db.ledger.Releasable rt b.nights ∧
        (db.ledger.shift rt b.nights (-1)).Open stay.roomTypeId stay.nights 1 ∧
        db'.hotel = { db.hotel with
          bookings := db.bookings.update b.id (setLines stay (some rev.ratePlanId))
            (id_setLines _ _)
          ledger := (db.ledger.shift rt b.nights (-1)).shift stay.roomTypeId stay.nights 1 } := by
  simp only [ingestModified, exec_bind_ok, exec_select, Prod.mk.injEq, Except.ok.injEq] at h
  obtain ⟨found, _, ⟨hfound, rfl⟩, h⟩ := h
  cases hb : found with
  | none =>
    rw [hb] at h
    cases h
    exact .inl ⟨rfl, rfl⟩
  | some b =>
    rw [hb] at h hfound
    simp only at h
    split at h
    · next rt hsingle =>
      right
      simp only [exec_bind_ok, deleteLines, exec_updateFolioCharge_ok, finishRevision,
        updateRevision, exec_modify, exec_pure, Prod.mk.injEq] at h
      obtain ⟨_, _, hlock, _, _, hdec, _, _, hlock', _, _, hinc, _, _, ⟨-, rfl⟩, _, _, hplan,
        _, _, hlines, _, _, htax, _, _, ⟨-, rfl⟩, _, _, hguest, _, _, ⟨-, rfl⟩, hret, rfl⟩ := h
      cases hret
      obtain ⟨hrel, rfl⟩ := exec_release_nights_ok hlock hdec
      obtain ⟨hopen, rfl⟩ := exec_claim_nights_ok hlock' hinc
      obtain ⟨-, rfl⟩ := exec_flushLines_ok hlines
      have hheader := exec_updatePlanAndTotal_ok hplan
      have hrebuild := hotel_rebuild stay (by exact find_of_external hfound) htotal.symm hheader
      refine ⟨rfl, b, rt, hfound, hsingle, hrel, ?_, ?_⟩
      · rw [hrt, hnights]
        exact hopen
      · have hstay : newLines rev.roomTypeId rev.perNight = stay.lines := by
          rw [PricedStay.lines, hrt, hper]
        rw [hstay] at htax
        have hhotel := (hotel_updateGuest hguest).trans ((hotel_replaceTaxes htax).trans hrebuild)
        rw [hrt, hnights]
        exact hhotel
    · cases h
      exact .inl ⟨rfl, rfl⟩

/-- A new revision is a booking of the desk, or the answer to a repeated one. -/
theorem exec_ingestNew_ok {env : Env} {rev : Revision} {r : ChannexIngestResult}
    {stay : PricedStay} (hrt : stay.roomTypeId = rev.roomTypeId) (hnights : stay.nights = rev.nights)
    (hper : stay.perNight = rev.perNight) (htotal : stay.total = rev.total)
    (h : (ingestNew env rev).exec db = (.ok r, db')) :
    r.success = true ∧ Sales db.hotel db'.hotel := by
  simp only [ingestNew, exec_bind_ok, exec_select, Prod.mk.injEq, Except.ok.injEq] at h
  obtain ⟨found, _, ⟨hfound, rfl⟩, h⟩ := h
  cases hb : found with
  | some b =>
    rw [hb] at h
    cases h
    exact ⟨rfl, .refl⟩
  | none =>
    rw [hb] at h
    simp only [exec_bind_ok, exec_modify, finishRevision, updateRevision, exec_pure,
      Prod.mk.injEq] at h
    obtain ⟨_, _, hlock, _, _, hinc, ⟨guest, merged⟩, _, hguest, _, _, ⟨-, rfl⟩, _, _, hinsert,
      _, _, ⟨-, rfl⟩, hret, rfl⟩ := h
    cases hret
    obtain ⟨hopen, rfl⟩ := exec_claim_nights_ok hlock hinc
    have hhotel := hotel_getOrCreateGuest hguest
    rw [← hnights] at hopen hhotel
    have hactive : BookingStatus.confirmed.Active := by decide
    have hsales := insertBooking_sales db stay hrt hper htotal.symm (by exact hactive) rfl
      hopen (by exact hhotel) hinsert
    exact ⟨rfl, hsales⟩

/-! The whole ingest -/

/-- The key that a revision finds its booking by. -/
def externalKey (payload : ChannexBookingRevisionPayload) : String :=
  orText (some (Text.strip (orText payload.bookingId ""))) (Text.strip payload.id)

/-- The revision that the branches get for a payload that passes the checks. -/
def revisionOf (link : ChannexPropertyLink) (payload : ChannexBookingRevisionPayload)
    (roomTypeId ratePlanId : UUID) (nights : List ℤ) (total : Money) (guest : GuestPayload) :
    Revision where
  id := Text.strip payload.id
  external := externalKey payload
  link := link
  roomTypeId := roomTypeId
  ratePlanId := ratePlanId
  nights := nights
  total := total
  perNight := nightlyPricesFromTotal total nights
  source := sourceChannel payload
  guest := guest
  notes := payload.notes

theorem external_revisionOf {link : ChannexPropertyLink} {payload : ChannexBookingRevisionPayload}
    {roomTypeId ratePlanId : UUID} {nights : List ℤ} {total : Money} {guest : GuestPayload} :
    (revisionOf link payload roomTypeId ratePlanId nights total guest).external =
      externalKey payload := by
  rw [revisionOf]

theorem findByExternal_revisions {external : String}
    {revisions : Table ChannexBookingRevision.channexRevisionId} :
    findByExternal external { db with revisions := revisions } = findByExternal external db := rfl

theorem exec_failRevision {rid : String} {e : RevisionError} {r r' : ChannexIngestResult}
    (h : (failRevision rid e >>= fun _ => (pure r' : Tx ChannexIngestResult)).exec db =
      (.ok r, db')) : r = r' ∧ db'.hotel = db.hotel := by
  cases h
  exact ⟨rfl, rfl⟩

theorem exec_ingestMapped_ok {env : Env} {link : ChannexPropertyLink}
    {payload : ChannexBookingRevisionPayload} {roomTypeId ratePlanId : UUID}
    {r : ChannexIngestResult}
    (h : (ingestMapped env link (Text.strip payload.id) payload roomTypeId ratePlanId).exec db =
      (.ok r, db')) :
    r.success = false ∧ db'.hotel = db.hotel ∨
      ∃ checkIn checkOut total guest, checkInOut payload = (some checkIn, some checkOut) ∧
        checkIn < checkOut ∧ checkOut - checkIn ≤ maxStayNights ∧
        decimalAmount payload.amount = .ok total ∧
        guestPayloadFromChannex payload (externalKey payload) = .ok guest ∧
        (applyRevision env (revisionKind payload) (revisionOf link payload roomTypeId ratePlanId
          (daysBetween checkIn checkOut) total guest)).exec db = (.ok r, db') := by
  unfold ingestMapped at h
  simp only at h
  split at h
  · next checkIn checkOut hdates =>
    split at h
    · obtain ⟨rfl, hhotel⟩ := exec_failRevision h
      exact .inl ⟨rfl, hhotel⟩
    · simp only [exec_bind_ok, exec_stayNights_ok] at h
      obtain ⟨nights, _, ⟨hnights, rfl⟩, h⟩ := h
      obtain ⟨hlt, hspan, rfl⟩ := iterStayNights_ok hnights
      split at h
      · obtain ⟨rfl, hhotel⟩ := exec_failRevision h
        exact .inl ⟨rfl, hhotel⟩
      · simp only [exec_bind_ok, exec_ofExcept_ok] at h
        obtain ⟨total, _, ⟨htotal, rfl⟩, guest, _, ⟨hguest, rfl⟩, h⟩ := h
        exact .inr ⟨checkIn, checkOut, total, guest, hdates, hlt, hspan, htotal, hguest, h⟩
  · obtain ⟨rfl, hhotel⟩ := exec_failRevision h
    exact .inl ⟨rfl, hhotel⟩

/-- A mapped revision ends with an error on its row, raises, or is applied. -/
theorem ingestMapped_rule {S : Tx ChannexIngestResult → Prop} {env : Env}
    {link : ChannexPropertyLink} {payload : ChannexBookingRevisionPayload}
    {roomTypeId ratePlanId : UUID}
    (hfail : ∀ rid e r, S (failRevision rid e >>= fun _ => pure r)) (hraise : ∀ e, S (raise e))
    (happly : ∀ rev, rev.external = externalKey payload →
      S (applyRevision env (revisionKind payload) rev)) :
    S (ingestMapped env link (Text.strip payload.id) payload roomTypeId ratePlanId) := by
  have hof : ∀ {α : Type} (x : Except Err α) (f : α → Tx ChannexIngestResult),
      (∀ a, S (f a)) → S (ofExcept x >>= f) := by
    intro α x f hf
    cases x with
    | error e => exact hraise e
    | ok a => exact hf a
  unfold ingestMapped
  simp only
  split
  · split
    · exact hfail _ _ _
    · refine hof _ _ fun nights => ?_
      split
      · exact hfail _ _ _
      · exact hof _ _ fun total => hof _ _ fun guest => happly _ (by simp only [externalKey])
  · exact hfail _ _ _

/-- The revision is neither done nor being processed. -/
def Claimable (db : Db) (rid : String) : Prop :=
  ∀ row, db.revisions.find rid = some row →
    row.processingStatus ≠ .done ∧ row.processingStatus ≠ .processing

/-- Looking for the key and waiting for its inserter change nothing alone. -/
theorem exec_claimRevisionRow {env : Env} {loaded : Option ChannexBookingRevision}
    {link : ChannexPropertyLink} {rid : String} {payload : ChannexBookingRevisionPayload}
    {claimed : Bool}
    (h : (claimRevisionRow env loaded link rid payload).exec db = (.ok claimed, db')) :
    (∀ row, db.revisions.find rid = some row → claimed = true →
      ((loaded.filter fun l => l.channexRevisionId = rid).getD row).processingStatus ≠ .done ∧
      ((loaded.filter fun l => l.channexRevisionId = rid).getD row).processingStatus ≠
        .processing) ∧
    (claimed = false → ∃ row, db.revisions.find rid = some row ∧
      (((loaded.filter fun l => l.channexRevisionId = rid).getD row).processingStatus = .done ∨
      ((loaded.filter fun l => l.channexRevisionId = rid).getD row).processingStatus =
        .processing)) ∧
    ∃ revisions, db' = { db with revisions := revisions } := by
  simp only [claimRevisionRow, exec_bind_ok, exec_raiseIf_ok, exec_select, Prod.mk.injEq,
    Except.ok.injEq] at h
  obtain ⟨_, _, ⟨-, rfl⟩, _, _, ⟨-, rfl⟩, present, _, ⟨-, rfl⟩, _, db₁, hwait, existing, _,
    ⟨hfind, rfl⟩, h⟩ := h
  have hlock : (runIf (present = false) (acquire (.revision rid)) : Tx Unit).exec db =
      (.ok (), db) := by
    unfold runIf
    split <;> rfl
  obtain rfl : db = db₁ := congrArg Prod.snd (hlock.symm.trans hwait)
  rw [hfind]
  cases existing with
  | none =>
    simp only [exec_bind_ok, exec_raiseIf_ok] at h
    obtain ⟨_, _, ⟨-, rfl⟩, _, _, hins, hret⟩ := h
    cases hins
    cases hret
    exact ⟨by simp, by simp, _, rfl⟩
  | some row =>
    simp only at h
    split at h
    all_goals
      next hstatus =>
        cases h
        exact ⟨by simp [hstatus], by simp [hstatus], _, rfl⟩

theorem exec_claimRevisionRow_ok {env : Env} {link : ChannexPropertyLink} {rid : String}
    {payload : ChannexBookingRevisionPayload} {claimed : Bool}
    (h : (claimRevisionRow env none link rid payload).exec db = (.ok claimed, db')) :
    (claimed = true ↔ Claimable db rid) ∧ ∃ revisions, db' = { db with revisions := revisions } := by
  obtain ⟨hclaim, hskip, hrevisions⟩ := exec_claimRevisionRow h
  refine ⟨⟨?_, ?_⟩, hrevisions⟩
  · intro htrue row hfind
    exact hclaim row hfind htrue
  · intro hclaimable
    by_contra hfalse
    obtain ⟨row, hfind, hdone | hprocessing⟩ := hskip (by simpa using hfalse)
    · exact (hclaimable row hfind).1 hdone
    · exact (hclaimable row hfind).2 hprocessing

/-- The room type that the first room of the payload maps to, when both maps exist. -/
def mappedRoomType (link : ChannexPropertyLink) (payload : ChannexBookingRevisionPayload)
    (db : Db) : Option UUID := do
  let (cxRoomType, cxRatePlan) ← roomAndRateIds payload
  let rtm ← db.roomTypeMaps.find? fun m =>
    m.propertyLinkId = link.id && m.channexRoomTypeId = Text.strip cxRoomType
  let _ ← db.ratePlanMaps.find? fun m =>
    m.roomTypeMapId = rtm.id && m.channexRatePlanId = Text.strip cxRatePlan
  pure rtm.roomTypeId

theorem exec_resolveMaps_ok {linkId : UUID} {cxRoomType cxRatePlan : String}
    {maps : Option (ChannexRoomTypeMap × ChannexRatePlanMap)}
    (h : (resolveRoomAndRateMaps linkId cxRoomType cxRatePlan).exec db = (.ok maps, db')) :
    db = db' ∧ ∀ rtm rpm, maps = some (rtm, rpm) →
      (db.roomTypeMaps.find? fun m =>
        m.propertyLinkId = linkId && m.channexRoomTypeId = Text.strip cxRoomType) = some rtm ∧
      (db.ratePlanMaps.find? fun m =>
        m.roomTypeMapId = rtm.id && m.channexRatePlanId = Text.strip cxRatePlan) = some rpm := by
  simp only [resolveRoomAndRateMaps, exec_bind_ok, exec_select, Prod.mk.injEq,
    Except.ok.injEq] at h
  obtain ⟨found, _, ⟨hfound, rfl⟩, h⟩ := h
  cases found with
  | none =>
    cases h
    exact ⟨rfl, fun _ _ hmaps => (nomatch hmaps)⟩
  | some rtm =>
    simp only [exec_bind_ok, exec_select, exec_pure, Prod.mk.injEq, Except.ok.injEq] at h
    obtain ⟨rpm, _, ⟨hrpm, rfl⟩, rfl, rfl⟩ := h
    refine ⟨rfl, ?_⟩
    intro rtm' rpm' hmaps
    obtain ⟨rpm₀, hrpm₀, hpair⟩ := Option.map_eq_some_iff.mp hmaps
    cases hpair
    exact ⟨hfound, hrpm.trans hrpm₀⟩

/-- The stay of a revision that gets as far as its branch. -/
structure Entered (db : Db) (link : ChannexPropertyLink) (payload : ChannexBookingRevisionPayload)
    (rtm : ChannexRoomTypeMap) (rpm : ChannexRatePlanMap) (checkIn checkOut : ℤ) (total : Money)
    (guest : GuestPayload) : Prop where
  claimable : Claimable db (Text.strip payload.id)
  mapped : ∃ cxRoomType cxRatePlan, roomAndRateIds payload = some (cxRoomType, cxRatePlan) ∧
    (db.roomTypeMaps.find? fun m =>
      m.propertyLinkId = link.id && m.channexRoomTypeId = Text.strip cxRoomType) = some rtm ∧
    (db.ratePlanMaps.find? fun m =>
      m.roomTypeMapId = rtm.id && m.channexRatePlanId = Text.strip cxRatePlan) = some rpm
  dates : checkInOut payload = (some checkIn, some checkOut)
  lt : checkIn < checkOut
  span : checkOut - checkIn ≤ maxStayNights
  total : decimalAmount payload.amount = .ok total
  guest : guestPayloadFromChannex payload (externalKey payload) = .ok guest

theorem Entered.mappedRoomType {link : ChannexPropertyLink}
    {payload : ChannexBookingRevisionPayload} {rtm : ChannexRoomTypeMap} {rpm : ChannexRatePlanMap}
    {checkIn checkOut : ℤ} {total : Money} {guest : GuestPayload}
    (h : Entered db link payload rtm rpm checkIn checkOut total guest) :
    OpenPms.mappedRoomType link payload db = some rtm.roomTypeId := by
  obtain ⟨cxRoomType, cxRatePlan, hids, hrtm, hrpm⟩ := h.mapped
  simp [OpenPms.mappedRoomType, hids, hrtm, hrpm]

/-- An ingest that returns was skipped, failed before it touched the hotel, or its
revision has entered its branch. -/
theorem exec_ingest_entered {env : Env} {link : ChannexPropertyLink}
    {flat : Option ChannexBookingRevisionPayload} {r : ChannexIngestResult}
    (h : (ingestChannexBooking env link flat).exec db = (.ok r, db')) :
    db'.hotel = db.hotel ∧ (r.success = false ∨
        ∃ payload, flat = some payload ∧ ¬ Claimable db (Text.strip payload.id)) ∨
      ∃ payload rtm rpm checkIn checkOut total guest revisions, flat = some payload ∧
        Entered db link payload rtm rpm checkIn checkOut total guest ∧
        (applyRevision env (revisionKind payload) (revisionOf link payload rtm.roomTypeId
          rpm.ratePlanId (daysBetween checkIn checkOut) total guest)).exec
            { db with revisions := revisions } = (.ok r, db') := by
  unfold ingestChannexBooking ingestInSession at h
  split at h
  · cases h
    exact .inl ⟨rfl, .inl rfl⟩
  · next payload =>
    simp only at h
    split at h
    · cases h
      exact .inl ⟨rfl, .inl rfl⟩
    · obtain ⟨claimed, db₁, hclaim, h⟩ := exec_bind_ok.mp h
      obtain ⟨hclaimed, revisions, rfl⟩ := exec_claimRevisionRow_ok hclaim
      split at h
      · next hskip =>
        cases h
        refine .inl ⟨rfl, .inr ⟨payload, rfl, fun hok => ?_⟩⟩
        rw [hclaimed.mpr hok] at hskip
        cases hskip
      · next hrun =>
        have hok : Claimable db (Text.strip payload.id) := hclaimed.mp (by simpa using hrun)
        unfold ingestClaimed at h
        split at h
        · obtain ⟨rfl, hhotel⟩ := exec_failRevision h
          exact .inl ⟨hhotel, .inl rfl⟩
        · next cxRoomType cxRatePlan hids =>
          obtain ⟨maps, db₂, hmaps, h⟩ := exec_bind_ok.mp h
          obtain ⟨hdb₂, hfound⟩ := exec_resolveMaps_ok hmaps
          subst hdb₂
          split at h
          · obtain ⟨rfl, hhotel⟩ := exec_failRevision h
            exact .inl ⟨hhotel, .inl rfl⟩
          · next rtm rpm =>
            obtain ⟨hrtm, hrpm⟩ := hfound rtm rpm rfl
            rcases exec_ingestMapped_ok h with ⟨hfail, hhotel⟩ | happly
            · exact .inl ⟨hhotel, .inl hfail⟩
            · obtain ⟨ci, co, total, guest, hdates, hlt, hspan, htotal, hguest, happly⟩ := happly
              have hentered : Entered db link payload rtm rpm ci co total guest :=
                ⟨hok, ⟨cxRoomType, cxRatePlan, hids, hrtm, hrpm⟩, hdates, hlt, hspan, htotal, hguest⟩
              exact .inr ⟨payload, rtm, rpm, ci, co, total, guest, revisions, rfl, hentered, happly⟩

/-- An ingest that returns was skipped, failed before it touched the hotel, or has
applied the revision of its payload. -/
theorem exec_ingest_ok {env : Env} {link : ChannexPropertyLink}
    {flat : Option ChannexBookingRevisionPayload} {r : ChannexIngestResult}
    (h : (ingestChannexBooking env link flat).exec db = (.ok r, db')) :
    db'.hotel = db.hotel ∧ (r.success = false ∨
        ∃ payload, flat = some payload ∧ ¬ Claimable db (Text.strip payload.id)) ∨
      ∃ payload roomTypeId ratePlanId checkIn checkOut total guest revisions,
        flat = some payload ∧ Claimable db (Text.strip payload.id) ∧
        mappedRoomType link payload db = some roomTypeId ∧
        checkInOut payload = (some checkIn, some checkOut) ∧
        checkIn < checkOut ∧ checkOut - checkIn ≤ maxStayNights ∧
        (applyRevision env (revisionKind payload) (revisionOf link payload roomTypeId ratePlanId
          (daysBetween checkIn checkOut) total guest)).exec { db with revisions := revisions } =
            (.ok r, db') := by
  rcases exec_ingest_entered h with hkept | happlied
  · exact .inl hkept
  · obtain ⟨payload, rtm, rpm, ci, co, total, guest, revisions, hflat, hentered, happly⟩ := happlied
    exact .inr ⟨payload, rtm.roomTypeId, rpm.ratePlanId, ci, co, total, guest, revisions, hflat,
      hentered.claimable, hentered.mappedRoomType, hentered.dates, hentered.lt, hentered.span,
      happly⟩

theorem priced_revisionOf {link : ChannexPropertyLink} {payload : ChannexBookingRevisionPayload}
    {roomTypeId ratePlanId : UUID} {checkIn checkOut : ℤ} {total : Money} {guest : GuestPayload}
    (hlt : checkIn < checkOut) (hspan : checkOut - checkIn ≤ maxStayNights) :
    (revisionOf link payload roomTypeId ratePlanId (daysBetween checkIn checkOut) total
      guest).Priced :=
  ⟨⟨checkIn, checkOut, hlt, hspan, rfl⟩, rfl⟩

/-- The handler answers the errors it knows with a failed result. -/
theorem exec_handleIngestError_ok {rev : Revision} {e : Err} {r : ChannexIngestResult}
    (h : (handleIngestError rev e).exec db = (.ok r, db')) :
    e.Handled ∧ r.success = false ∧ db'.hotel = db.hotel := by
  unfold handleIngestError at h
  split at h
  · obtain ⟨rfl, hhotel⟩ := exec_failRevision h
    exact ⟨trivial, rfl, hhotel⟩
  · obtain ⟨rfl, hhotel⟩ := exec_failRevision h
    exact ⟨trivial, rfl, hhotel⟩
  · obtain ⟨rfl, hhotel⟩ := exec_failRevision h
    exact ⟨trivial, rfl, hhotel⟩
  · cases h
  · cases h

end Branches

/-! The ingest as a sequence of actions -/

section Ingest
variable {db db' : Db}

theorem Ledger.sameCapacity_shift (l : Ledger) (rt : UUID) (nights : List ℤ) (n : ℤ) :
    l.SameCapacity (l.shift rt nights n) := by
  intro r d
  simp only [Ledger.shift, Ledger.adjust_row, Option.map_map]
  congr 1
  funext c
  simp only [Function.comp_apply]
  split <;> rfl

theorem Ledger.SameCapacity.trans {l l' l'' : Ledger} (h : l.SameCapacity l')
    (h' : l'.SameCapacity l'') : l.SameCapacity l'' :=
  fun rt d => (h' rt d).trans (h rt d)

theorem ingestCancelled_changes {rev : Revision} {r : ChannexIngestResult}
    (hshape : Shaped db.hotel) (h : (ingestCancelled rev).exec db = (.ok r, db')) :
    Changes db.hotel db'.hotel := by
  rcases exec_ingestCancelled_ok h with ⟨-, hsame⟩ | ⟨-, b, hfound, hcases⟩
  · rw [hsame]
  · have hfind := find_of_external hfound
    rcases hcases with ⟨-, hsame⟩ | ⟨-, hrel, hhotel⟩
    · rw [hsame]
    · obtain ⟨rt, hrt⟩ := (hshape b (Table.find_eq_some.mp hfind).1).lineRoomTypes
      rw [hhotel, db.ledger.released_of_single hrt]
      by_cases hactive : b.status.Active
      · exact .single (.inl (.release hfind hactive (by decide) hrt (hrel rt hrt)))
      · exact .single (.inr (.cancelAgain hfind hactive (db.ledger.sameCapacity_shift rt _ _)))

theorem ingestModified_changes {env : Env} {rev : Revision} {r : ChannexIngestResult}
    (hpriced : rev.Priced) (h : (ingestModified env rev).exec db = (.ok r, db')) :
    Changes db.hotel db'.hotel := by
  obtain ⟨stay, hrt, hnights, hper, htotal⟩ := hpriced.exists_stay
  rcases exec_ingestModified_ok hrt hnights hper htotal h with ⟨-, hsame⟩ | ⟨-, b, rt, hmod⟩
  · rw [hsame]
  · obtain ⟨hfound, hsingle, hrel, hopen, hhotel⟩ := hmod
    have hfind := find_of_external hfound
    rw [hhotel]
    by_cases hactive : b.status.Active
    · exact .single (.inl (.rebook stay _ hfind hactive hsingle hrel hopen))
    · refine .single (.inr (.rebookInactive stay _ hfind hactive ?_))
      exact (db.ledger.sameCapacity_shift rt _ _).trans (Ledger.sameCapacity_shift _ _ _ _)

theorem applyRevision_changes {env : Env} {kind : RevisionKind} {rev : Revision}
    {r : ChannexIngestResult} (hpriced : rev.Priced) (hshape : Shaped db.hotel)
    (h : (applyRevision env kind rev).exec db = (.ok r, db')) : Changes db.hotel db'.hotel := by
  unfold applyRevision at h
  rw [exec_tryCatch] at h
  split at h
  · next hexec =>
    cases h
    cases kind with
    | cancelled => exact ingestCancelled_changes hshape hexec
    | modified => exact ingestModified_changes hpriced hexec
    | new =>
      obtain ⟨stay, hrt, hnights, hper, htotal⟩ := hpriced.exists_stay
      exact Steps.changes (Sales.steps (exec_ingestNew_ok hrt hnights hper htotal hexec).2)
  · next e db₁ hexec =>
    obtain ⟨hhandled, -, hhotel⟩ := exec_handleIngestError_ok h
    have hcap : db₁.capacity = db.capacity := by
      cases kind with
      | cancelled => exact keepsOn_ingestCancelled ignoresCounters_capacity rev db e db₁ hexec hhandled
      | modified => exact keepsOn_ingestModified ignoresCounters_capacity env rev db e db₁ hexec hhandled
      | new => exact keepsOn_ingestNew ignoresCounters_capacity env rev db e db₁ hexec hhandled
    obtain ⟨hkept, hledger⟩ := capacity_eq hcap
    rw [hhotel, hkept]
    exact .single (.inr (.counters hledger))

theorem ingest_changes {env : Env} {link : ChannexPropertyLink}
    {flat : Option ChannexBookingRevisionPayload} {r : ChannexIngestResult}
    (hshape : Shaped db.hotel)
    (h : (ingestChannexBooking env link flat).exec db = (.ok r, db')) :
    Changes db.hotel db'.hotel := by
  rcases exec_ingest_ok h with ⟨hsame, -⟩ | happlied
  · rw [hsame]
  · obtain ⟨payload, _, _, ci, co, _, _, revisions, -, -, -, -, hlt, hspan, happly⟩ := happlied
    have hshape' : Shaped ({ db with revisions := revisions } : Db).hotel := hshape
    have hchanges := applyRevision_changes (priced_revisionOf hlt hspan) hshape' happly
    exact hchanges

end Ingest

end OpenPms
