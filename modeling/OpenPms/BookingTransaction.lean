import OpenPms.Claiming
import OpenPms.FolioPostings
import OpenPms.Lib.Serial

/-!
Concurrent transactions on one booking. They lock the ledger rows of its nights but
select the booking itself without a lock. Everything else that they read is changed by
none of them, so a commit that finds the booking as it was selected is an execution of
the request at that moment.
-/
namespace OpenPms

open KeyedTable Transaction Prog Interleaving

/-- The tables that the statements on a booking read. -/
def Db.view (db : Db) := (db.hotel, db.rates, db.guests)

def Room.plain (r : Room) : Room := { r with housekeepingStatus := "" }

/-- Nothing but the bookings `B`, the counters of ledger rows and the housekeeping of
rooms has changed. -/
structure Elsewhere (B : Set UUID) (s s' : Db) : Prop where
  bookings : ∀ id, id ∉ B → s'.bookings.find id = s.bookings.find id
  seeded : ∀ rt d, (s'.ledger.row rt d).isSome = (s.ledger.row rt d).isSome
  rates : s'.rates = s.rates
  rooms : s'.rooms.rows.map Room.plain = s.rooms.rows.map Room.plain
  roomTypes : s'.roomTypes = s.roomTypes
  guests : s'.guests = s.guests

variable {B : Set UUID} {bid : UUID} {s s' s'' : Db}

theorem elsewhere_refl : Elsewhere B s s :=
  ⟨fun _ _ => rfl, fun _ _ => rfl, rfl, rfl, rfl, rfl⟩

theorem Elsewhere.trans (h : Elsewhere B s s') (h' : Elsewhere B s' s'') :
    Elsewhere B s s'' where
  bookings id hne := (h'.bookings id hne).trans (h.bookings id hne)
  seeded rt d := (h'.seeded rt d).trans (h.seeded rt d)
  rates := h'.rates.trans h.rates
  rooms := h'.rooms.trans h.rooms
  roomTypes := h'.roomTypes.trans h.roomTypes
  guests := h'.guests.trans h.guests

/-- Transactions on the bookings `B` change the ledger rows that they have locked. -/
def bookingProtocol (B : Set UUID) : Protocol Db RowKey where
  kept L s s' := Elsewhere B s s' ∧ ∀ rt d, RowKey.ledger rt d ∈ L →
    s'.ledger.row rt d = s.ledger.row rt d
  frame L s s' := Elsewhere B s s' ∧ ∀ rt d, RowKey.ledger rt d ∉ L →
    s'.ledger.row rt d = s.ledger.row rt d
  kept_refl _ _ := ⟨elsewhere_refl, fun _ _ _ => rfl⟩
  kept_trans h h' := ⟨h.1.trans h'.1, fun rt d hkey => (h'.2 rt d hkey).trans (h.2 rt d hkey)⟩
  kept_anti hL h := ⟨h.1, fun rt d hkey => h.2 rt d (hL hkey)⟩
  frame_refl _ _ := ⟨elsewhere_refl, fun _ _ _ => rfl⟩
  frame_trans h h' := ⟨h.1.trans h'.1, fun rt d hkey => (h'.2 rt d hkey).trans (h.2 rt d hkey)⟩
  frame_mono hL h := ⟨h.1, fun rt d hkey => h.2 rt d fun hold => hkey (hL hold)⟩
  kept_of_frame hdisj h :=
    ⟨h.1, fun rt d hkey => h.2 rt d (Set.disjoint_left.mp hdisj hkey)⟩

def SameBookings (B : Set UUID) (s s' : Db) : Prop :=
  ∀ id ∈ B, s'.bookings.find id = s.bookings.find id

/-- The bookings, and which of them have a room charge. -/
def SameChargedBookings (B : Set UUID) (s s' : Db) : Prop :=
  SameBookings B s s' ∧ ∀ id ∈ B, s'.charges.2 id = s.charges.2 id

/-- A program on the bookings `B`, all of whose other reads are settled. -/
abbrev OnBookings (B : Set UUID) (L : Set RowKey) {α : Type} (p : Tx α) : Prop :=
  Orderly (bookingProtocol B) (SameChargedBookings B) L p

/-! Statements -/

section Statements
variable {L : Set RowKey} {α : Type}

/-- A write of tables that nobody reads, but for the room charges: those that were the same
before it are the same after it. -/
structure Aside (f : Db → Db) : Prop where
  view : ∀ db, (f db).view = db.view
  charges : ∀ s s' id, s'.charges.2 id = s.charges.2 id → (f s').charges.2 id = (f s).charges.2 id

/-- A write that leaves the room charges too. -/
def Quiet (f : Db → Db) : Prop := ∀ db, ((f db).view, (f db).charges) = (db.view, db.charges)

section Quiet
variable {f : Db → Db}

theorem Aside.hotel (hf : Aside f) (db : Db) : (f db).hotel = db.hotel :=
  congrArg Prod.fst (hf.view db)

theorem Aside.bookings (hf : Aside f) (db : Db) : (f db).bookings = db.bookings :=
  congrArg Hotel.bookings (hf.hotel db)

theorem Aside.ledger (hf : Aside f) (db : Db) : (f db).ledger = db.ledger :=
  congrArg Hotel.ledger (hf.hotel db)

theorem Aside.rooms (hf : Aside f) (db : Db) : (f db).rooms = db.rooms :=
  congrArg Hotel.rooms (hf.hotel db)

theorem Aside.roomTypes (hf : Aside f) (db : Db) : (f db).roomTypes = db.roomTypes :=
  congrArg Hotel.roomTypes (hf.hotel db)

theorem Aside.rates (hf : Aside f) (db : Db) : (f db).rates = db.rates :=
  congrArg (fun v => v.2.1) (hf.view db)

theorem Aside.guests (hf : Aside f) (db : Db) : (f db).guests = db.guests :=
  congrArg (fun v => v.2.2) (hf.view db)

theorem Quiet.charges (hf : Quiet f) (db : Db) : (f db).charges = db.charges :=
  congrArg Prod.snd (hf db)

theorem Quiet.aside (hf : Quiet f) : Aside f where
  view db := congrArg Prod.fst (hf db)
  charges s s' id h := by rwa [hf.charges, hf.charges]

theorem Quiet.hotel (hf : Quiet f) (db : Db) : (f db).hotel = db.hotel := hf.aside.hotel db

theorem Quiet.bookings (hf : Quiet f) (db : Db) : (f db).bookings = db.bookings :=
  hf.aside.bookings db

theorem quiet_folio {g : List FolioTransaction → List FolioTransaction} (hg : KeepsRoomCharges g) :
    Quiet fun db => { db with folio := g db.folio } :=
  fun db => congrArg (Prod.mk db.view) (charges_folio hg db)

theorem Quiet.comp {g : Db → Db} (hf : Quiet f) (hg : Quiet g) : Quiet (f ∘ g) :=
  fun db => (hf (g db)).trans (hg db)

theorem Aside.frame (hf : Aside f) (s : Db) : (bookingProtocol B).frame L s (f s) := by
  refine ⟨⟨?_, ?_, hf.rates s, ?_, hf.roomTypes s, hf.guests s⟩, ?_⟩
  · intro id _
    rw [hf.bookings]
  · intro rt d
    rw [hf.ledger]
  · rw [hf.rooms]
  · intro rt d _
    rw [hf.ledger]

theorem Aside.respects (hf : Aside f) : Respects (bookingProtocol B) (SameChargedBookings B) f := by
  rintro K s s' ⟨⟨hsame, hcharges⟩, helse, hrows⟩
  refine ⟨⟨?_, ?_⟩, ⟨?_, ?_, ?_, ?_, ?_, ?_⟩, ?_⟩
  · intro id hid
    rw [hf.bookings, hf.bookings]
    exact hsame id hid
  · intro id hid
    exact hf.charges s s' id (hcharges id hid)
  · intro id hid
    rw [hf.bookings, hf.bookings]
    exact helse.bookings id hid
  · intro rt d
    rw [hf.ledger, hf.ledger]
    exact helse.seeded rt d
  · rw [hf.rates, hf.rates, helse.rates]
  · rw [hf.rooms, hf.rooms, helse.rooms]
  · rw [hf.roomTypes, hf.roomTypes, helse.roomTypes]
  · rw [hf.guests, hf.guests, helse.guests]
  · intro rt d hkey
    rw [hf.ledger, hf.ledger]
    exact hrows rt d hkey

theorem onBookings_aside (hf : Aside f) : OnBookings B L (modify f : Tx Unit) :=
  orderly_modify hf.respects hf.frame

theorem onBookings_quiet (hf : Quiet f) : OnBookings B L (modify f : Tx Unit) :=
  onBookings_aside hf.aside

end Quiet

theorem onBookings_find (hbid : bid ∈ B) :
    OnBookings B L (select fun db => db.bookings.find bid) :=
  orderly_select fun _ _ h => (h.1.1 bid hbid).symm

/-- A write of the booking itself. -/
theorem onBookings_update {g : Booking → Booking} {hg : ∀ b, (g b).id = b.id} (hbid : bid ∈ B) :
    OnBookings B L (modify fun db => db.updateBooking bid g hg) := by
  have hother : ∀ (db : Db) id, id ≠ bid →
      (db.updateBooking bid g hg).bookings.find id = db.bookings.find id := by
    intro db id hne
    rw [Db.updateBooking, Table.find_update_of_ne hne]
  have hsame : ∀ (s s' : Db) id, s'.bookings.find id = s.bookings.find id →
      (s'.updateBooking bid g hg).bookings.find id =
        (s.updateBooking bid g hg).bookings.find id := by
    intro s s' id heq
    by_cases hid : id = bid
    · subst hid
      change (s'.bookings.update id g hg).find id = (s.bookings.update id g hg).find id
      rw [Table.find_update_self, Table.find_update_self, heq]
    · rw [hother s' id hid, hother s id hid, heq]
  refine orderly_modify ?_ ?_
  · rintro K s s' ⟨⟨hbook, hcharges⟩, helse, hrows⟩
    exact ⟨⟨fun id hid => hsame s s' id (hbook id hid), hcharges⟩,
      ⟨fun id hid => hsame s s' id (helse.bookings id hid), helse.seeded, helse.rates, helse.rooms,
        helse.roomTypes, helse.guests⟩, hrows⟩
  · intro s
    refine ⟨⟨?_, fun _ _ => rfl, rfl, rfl, rfl, rfl⟩, fun _ _ _ => rfl⟩
    rintro id hid
    refine hother s id ?_
    rintro rfl
    exact hid hbid

theorem onBookings_erase (hbid : bid ∈ B) :
    OnBookings B L (modify fun db => { db with bookings := db.bookings.erase bid }) := by
  have hsame : ∀ (t t' : Table Booking.id) id, t'.find id = t.find id →
      (t'.erase bid).find id = (t.erase bid).find id := by
    intro t t' id heq
    by_cases hid : id = bid
    · subst hid
      rw [Table.find_erase_self, Table.find_erase_self]
    · rw [Table.find_erase_of_ne hid, Table.find_erase_of_ne hid, heq]
  refine orderly_modify ?_ ?_
  · rintro K s s' ⟨⟨hbook, hcharges⟩, helse, hrows⟩
    exact ⟨⟨fun id hid => hsame _ _ id (hbook id hid), hcharges⟩,
      ⟨fun id hid => hsame _ _ id (helse.bookings id hid), helse.seeded, helse.rates, helse.rooms,
        helse.roomTypes, helse.guests⟩, hrows⟩
  · intro s
    refine ⟨⟨?_, fun _ _ => rfl, rfl, rfl, rfl, rfl⟩, fun _ _ _ => rfl⟩
    intro id hid
    refine Table.find_erase_of_ne ?_
    rintro rfl
    exact hid hbid

theorem any_roomCharge_erase {id : UUID} {folio : List FolioTransaction} :
    (folio.filter fun ft => ft.bookingId ≠ bid).any (isRoomCharge id) =
      (folio.any (isRoomCharge id) && decide (id ≠ bid)) := by
  have hrow : ∀ ft : FolioTransaction, (decide (ft.bookingId ≠ bid) && isRoomCharge id ft) =
      (isRoomCharge id ft && decide (id ≠ bid)) := by
    intro ft
    by_cases hid : ft.bookingId = id
    · rw [hid, Bool.and_comm]
    · have hother : isRoomCharge id ft = false := by simp [isRoomCharge, hid]
      rw [hother, Bool.and_false, Bool.false_and]
  rw [List.any_filter, funext hrow]
  induction folio with
  | nil => rfl
  | cons ft rest ih => rw [List.any_cons, List.any_cons, ih, Bool.and_or_distrib_right]

/-- The folio of a booking goes, with rows of tables that nobody reads. -/
theorem onBookings_eraseFolio {f : Db → Db} (hview : ∀ db, (f db).view = db.view)
    (hfolio : ∀ db, (f db).folio = db.folio.filter fun ft => ft.bookingId ≠ bid) :
    OnBookings B L (modify f : Tx Unit) := by
  refine onBookings_aside ⟨hview, fun s s' id h => ?_⟩
  change (f s').folio.any _ = (f s).folio.any _
  change s'.folio.any _ = s.folio.any _ at h
  rw [hfolio, hfolio, any_roomCharge_erase, any_roomCharge_erase, h]

/-- A locked row gets a new counter. -/
theorem onBookings_setBooked {rt : UUID} {d n : ℤ} (hkey : RowKey.ledger rt d ∈ L) :
    OnBookings B L (modify fun db => db.setBooked rt d n) := by
  have hsome : ∀ (db : Db) r x,
      ((db.setBooked rt d n).ledger.row r x).isSome = (db.ledger.row r x).isSome := by
    intro db r x
    simp [Db.setBooked]
  refine orderly_modify ?_ ?_
  · rintro K s s' ⟨hsame, helse, hrows⟩
    refine ⟨hsame, ⟨helse.bookings, ?_, helse.rates, helse.rooms, helse.roomTypes, helse.guests⟩, ?_⟩
    · intro r x
      rw [hsome, hsome, helse.seeded]
    · intro r x hlocked
      simp only [Db.setBooked, Ledger.adjust_row, hrows r x hlocked]
  · intro s
    refine ⟨⟨fun _ _ => rfl, hsome s, rfl, rfl, rfl, rfl⟩, ?_⟩
    intro r x hfree
    have hne : ¬ (r = rt ∧ x = d) := by
      rintro ⟨rfl, rfl⟩
      exact hfree hkey
    simp [Db.setBooked, hne]

/-! Inventory -/

theorem selectLedger_congr {rt : UUID} {days : List ℤ}
    (h : ∀ d ∈ days, s'.ledger.row rt d = s.ledger.row rt d) :
    selectLedger rt days s = selectLedger rt days s' := by
  unfold selectLedger
  apply List.filterMap_congr
  intro d hd
  rw [h d (mem_sortedDates.mp hd)]

/-- The rows that a locking SELECT returns are the locked ones, as they are. -/
theorem onBookings_selectForUpdate {rt : UUID} {nights : List ℤ}
    {f : List AvailabilityLedger → Tx α}
    (hf : ∀ rows, (∀ row ∈ rows, row.roomTypeId = rt) →
      OnBookings B (L ∪ {r | ∃ row ∈ rows, .ledger rt row.date = r}) (f rows)) :
    OnBookings B L (selectLedgerForUpdate rt nights >>= f) := by
  have hprog : selectLedgerForUpdate rt nights >>= f = .read fun s =>
      (fun days : List ℤ => forEach days (fun d => (acquire (.ledger rt d) : Tx Unit)) >>=
        fun _ => select (selectLedger rt days) >>= f) ((selectLedger rt nights s).map (·.date)) := by
    unfold selectLedgerForUpdate
    simp only [bind_assoc]
    rfl
  rw [hprog]
  refine .read ?_ ?_
  · intro s s' h
    have hdates : (selectLedger rt nights s).map (·.date) =
        (selectLedger rt nights s').map (·.date) := by
      simp only [map_date_selectLedger, h.2.1.seeded]
    rw [hdates]
  · intro s
    refine orderly_acquireAll (fun d => RowKey.ledger rt d) (.read ?_ ?_)
    · intro t t' h
      have hrows : selectLedger rt ((selectLedger rt nights s).map (·.date)) t =
          selectLedger rt ((selectLedger rt nights s).map (·.date)) t' :=
        selectLedger_congr fun d hd => h.2.2 rt d (.inr ⟨d, hd, rfl⟩)
      exact congrArg f hrows
    · intro t
      refine (hf _ fun row hrow => (mem_selectLedger.mp hrow).1).mono ?_
      rintro r (hr | ⟨row, hrow, rfl⟩)
      · exact .inl hr
      · exact .inr ⟨row.date, (mem_selectLedger.mp hrow).2.1, rfl⟩

/-- A validated lock and a loop over its rows. -/
theorem onBookings_locked {rt : UUID} {nights : List ℤ} {n : ℤ}
    {f : List AvailabilityLedger → Tx α}
    (hf : ∀ rows K, (∀ row ∈ rows, RowKey.ledger row.roomTypeId row.date ∈ K) → L ⊆ K →
      OnBookings B K (f rows)) :
    OnBookings B L (lockAndValidateAvailability rt nights n >>= f) := by
  unfold lockAndValidateAvailability
  split
  · exact hf [] L (by simp) subset_rfl
  · rw [bind_assoc]
    refine onBookings_selectForUpdate fun rows hrt => ?_
    rw [bind_assoc]
    refine orderly_bind (orderly_raiseIf _) fun _ => ?_
    rw [bind_assoc]
    refine orderly_bind (orderly_raiseIf _) fun _ => ?_
    refine hf rows _ ?_ Set.subset_union_left
    intro row hrow
    rw [hrt row hrow]
    exact .inr ⟨row, hrow, rfl⟩

theorem onBookings_decrement {rows : List AvailabilityLedger} {delta : ℤ}
    (hrows : ∀ row ∈ rows, RowKey.ledger row.roomTypeId row.date ∈ L) :
    OnBookings B L (decrementBookedRooms rows delta) :=
  orderly_forEach fun row hrow =>
    orderly_bind (onBookings_setBooked (hrows row hrow)) fun _ => orderly_raiseIf _

theorem onBookings_increment {rows : List AvailabilityLedger} {delta : ℤ}
    (hrows : ∀ row ∈ rows, RowKey.ledger row.roomTypeId row.date ∈ L) :
    OnBookings B L (incrementBookedRooms rows delta) :=
  orderly_forEach fun row hrow => onBookings_setBooked (hrows row hrow)

theorem onBookings_release {lines : List BookingLine} :
    OnBookings B L (releaseBookingInventory lines) := by
  unfold releaseBookingInventory
  split
  · exact onBookings_locked fun _ _ hrows _ => onBookings_decrement hrows
  · exact orderly_pure _

theorem onBookings_giveBack {rt : UUID} {nights : List ℤ} {rest : Tx α}
    (hrest : OnBookings B L rest) :
    OnBookings B L (lockAndValidateAvailability rt nights 0 >>= fun rows =>
      decrementBookedRooms rows 1 >>= fun _ => rest) :=
  onBookings_locked fun _ _ hrows hL =>
    orderly_bind (onBookings_decrement hrows) fun _ => hrest.mono hL

theorem onBookings_take {rt : UUID} {nights : List ℤ} {rest : Tx α}
    (hrest : OnBookings B L rest) :
    OnBookings B L (lockAndValidateAvailability rt nights 1 >>= fun rows =>
      incrementBookedRooms rows 1 >>= fun _ => rest) :=
  onBookings_locked fun _ _ hrows hL =>
    orderly_bind (onBookings_increment hrows) fun _ => hrest.mono hL

/-! Rows of the bookings -/

theorem onBookings_updateRow {g : Booking → Booking} {hg : ∀ b, (g b).id = b.id} (hbid : bid ∈ B) :
    OnBookings B L (updateBookingRow bid g hg) :=
  orderly_bind (orderly_acquire _) fun _ => orderly_bind (onBookings_find hbid) fun _ =>
    orderly_bind (orderly_raiseIf _) fun _ => onBookings_update hbid

theorem onBookings_flushLines {lines : List BookingLine} (hbid : bid ∈ B) :
    OnBookings B L (flushLines bid lines) :=
  orderly_bind (orderly_raiseIf _) fun _ => orderly_bind (onBookings_find hbid) fun _ =>
    orderly_bind (orderly_raiseIf _) fun _ => onBookings_update hbid

theorem onBookings_patchNotes {b : Booking} {notes : Option (Option String)} (hb : b.id ∈ B) :
    OnBookings B L (patchNotes b notes) := by
  refine orderly_bind (orderly_raiseIf _) fun _ => ?_
  split
  · exact orderly_pure _
  · split
    · exact orderly_pure _
    · exact onBookings_updateRow hb

theorem onBookings_folioCharge {amount : Money} (hbid : bid ∈ B) :
    OnBookings B L (updateFolioChargeAmount bid amount) :=
  orderly_bind (orderly_select fun _ _ h => (h.1.2 bid hbid).symm) fun _ =>
    orderly_bind (orderly_raiseIf _) fun _ =>
    onBookings_quiet (quiet_folio keepsRoomCharges_setFirst)

theorem onBookings_replaceTaxes {env : Env} {propertyId : UUID} {base : Money} (hbid : bid ∈ B) :
    OnBookings B L (replaceCountryPackTaxCharges env bid propertyId base) := by
  refine orderly_bind (orderly_bind (onBookings_find hbid) fun _ => orderly_raiseIf _) fun _ =>
    orderly_bind (onBookings_quiet (quiet_folio keepsRoomCharges_withoutTaxes)) fun _ =>
      orderly_bind (orderly_ofExcept _) fun posting => ?_
  cases posting with
  | none => exact orderly_pure _
  | some q =>
    exact orderly_bind (orderly_raiseIf _) fun _ =>
      orderly_bind (onBookings_quiet (quiet_folio keepsRoomCharges_taxRows)) fun _ => orderly_pure _

theorem onBookings_sumRates {rt ratePlan : UUID} {checkIn checkOut : ℤ} :
    OnBookings B L (sumRatesForStay rt ratePlan checkIn checkOut) := by
  refine orderly_bind (orderly_ofExcept _) fun _ => orderly_bind (orderly_select ?_) fun _ =>
    orderly_bind (orderly_raiseIf _) fun _ => orderly_pure _
  intro s s' h
  rw [h.2.1.rates]

theorem onBookings_rebuildLines {env : Env} {b : Booking} {rt : UUID} {total : Money}
    {perNight : List (ℤ × Money)} {notes : Option (Option String)} (hb : b.id ∈ B) :
    OnBookings B L (rebuildLines env b rt total perNight notes) := by
  refine orderly_bind (onBookings_update hb) fun _ => orderly_bind (orderly_raiseIf _) fun _ =>
    orderly_bind (orderly_bind (orderly_raiseIf _) fun _ => ?_) fun _ =>
      orderly_bind (onBookings_flushLines hb) fun _ =>
        orderly_bind (onBookings_folioCharge hb) fun _ => onBookings_replaceTaxes hb
  split
  · exact orderly_pure _
  · exact onBookings_updateRow hb

/-! Rooms -/

theorem mem_rows_congr {t t' : Table Booking.id} (h : ∀ id, t'.find id = t.find id) (b : Booking) :
    b ∈ t.rows ↔ b ∈ t'.rows := by
  have hfind := h b.id
  constructor
  · intro hb
    rw [Table.find_of_mem hb] at hfind
    exact (Table.find_eq_some.mp hfind).1
  · intro hb
    rw [Table.find_of_mem hb] at hfind
    exact (Table.find_eq_some.mp hfind.symm).1

theorem roomTaken_congr {room : UUID} {nights : List ℤ}
    (h : ∀ id, s'.bookings.find id = s.bookings.find id) :
    RoomTaken s room nights bid ↔ RoomTaken s' room nights bid := by
  constructor
  · rintro ⟨b, hb, hrest⟩
    exact ⟨b, (mem_rows_congr h b).mp hb, hrest⟩
  · rintro ⟨b, hb, hrest⟩
    exact ⟨b, (mem_rows_congr h b).mpr hb, hrest⟩

/-- Validated or left alone, no booking looks different. -/
theorem find_congr {id : UUID} (h : Agree (bookingProtocol B) (SameChargedBookings B) L s s') :
    s'.bookings.find id = s.bookings.find id := by
  by_cases hid : id ∈ B
  · exact h.1.1 id hid
  · exact h.2.1.bookings id hid

/-- A room is looked up by its identity. -/
theorem Elsewhere.room_congr (h : Elsewhere B s s') (rid : UUID) :
    (s.rooms.rows.find? fun r => r.id = rid && !r.deleted).map Room.plain =
      (s'.rooms.rows.find? fun r => r.id = rid && !r.deleted).map Room.plain := by
  have hplain : ∀ rows : List Room, (rows.find? fun r => r.id = rid && !r.deleted).map Room.plain =
      (rows.map Room.plain).find? fun r => r.id = rid && !r.deleted := by
    intro rows
    rw [List.find?_map]
    rfl
  rw [hplain, hplain, h.rooms]

theorem onBookings_assignRoom {b : Booking} {rt : UUID} {roomId : Option UUID} (hbid : bid ∈ B) :
    OnBookings B L (assignRoomOfType bid b rt roomId) := by
  unfold assignRoomOfType
  split
  · exact onBookings_update hbid
  · refine orderly_select_bind ?_ fun room => ?_
    · intro s s' h
      have hroom := h.2.1.room_congr ‹_›
      revert hroom
      generalize List.find? _ s.rooms.rows = r
      generalize List.find? _ s'.rooms.rows = r'
      intro hroom
      -- only the type of the room is used
      cases r with
      | none =>
        cases r' with
        | none => rfl
        | some r' => cases hroom
      | some r =>
        cases r' with
        | none => cases hroom
        | some r' =>
          have hplain : r.plain = r'.plain := Option.some.inj hroom
          have htype : r.plain.roomTypeId = r'.plain.roomTypeId := by rw [hplain]
          change r.roomTypeId = r'.roomTypeId at htype
          simp only [htype]
    · split
      · exact orderly_raise _
      · refine orderly_bind (orderly_raiseIf _) fun _ => orderly_bind (orderly_select ?_) fun _ =>
          orderly_bind (orderly_raiseIf _) fun _ => orderly_bind ?_ fun _ => onBookings_update hbid
        · intro s s' h
          rw [h.2.1.roomTypes]
        · unfold assertNoRoomConflict
          split
          · exact orderly_pure _
          · refine orderly_bind (orderly_select ?_) fun _ => orderly_raiseIf _
            intro s s' h
            exact decide_eq_decide.mpr (roomTaken_congr fun _ => find_congr h)

theorem onBookings_assign {roomId : Option UUID} (hbid : bid ∈ B) :
    OnBookings B L (assignBookingRoom bid roomId) := by
  refine orderly_bind (onBookings_find hbid) fun found => ?_
  split
  · exact orderly_raise _
  · refine orderly_bind (orderly_raiseIf _) fun _ => orderly_bind (orderly_raiseIf _) fun _ => ?_
    split
    · exact onBookings_assignRoom hbid
    · exact orderly_raise _

theorem plain_markRoomDirty (rooms : List UUID) (r : Room) :
    (markRoomDirty rooms r).plain = r.plain := by
  unfold markRoomDirty
  split <;> rfl

theorem onBookings_markDirty {rooms : List UUID} :
    OnBookings B L (markAssignedRoomsDirtyOnCheckout rooms) := by
  have hplain : ∀ t : Table Room.id,
      (t.updateAll (markRoomDirty rooms) (id_markRoomDirty rooms)).rows.map Room.plain =
        t.rows.map Room.plain := by
    intro t
    simp [Table.updateAll, plain_markRoomDirty]
  refine orderly_modify ?_ ?_
  · rintro K s s' ⟨hbook, helse, hrows⟩
    refine ⟨hbook, ⟨helse.bookings, helse.seeded, helse.rates, ?_, helse.roomTypes, helse.guests⟩,
      hrows⟩
    exact (hplain s'.rooms).trans (helse.rooms.trans (hplain s.rooms).symm)
  · intro s
    exact ⟨⟨fun _ _ => rfl, fun _ _ => rfl, rfl, hplain s.rooms, rfl, rfl⟩, fun _ _ _ => rfl⟩

/-! Requests -/

theorem onBookings_checkTransition {old : BookingStatus} {target : String} :
    OnBookings B L (checkTransition old target) := by
  unfold checkTransition
  exact orderly_ofExcept _

theorem onBookings_patchCancel {b : Booking} (hb : b.id ∈ B) : OnBookings B L (patchCancel b) := by
  unfold patchCancel
  split
  · exact orderly_bind onBookings_checkTransition fun _ => orderly_bind onBookings_release fun _ =>
      onBookings_updateRow hb
  · exact orderly_pure _

theorem onBookings_checkInactive {b : Booking} {body : BookingPatchRequest} :
    OnBookings B L (checkInactive b body) := by
  unfold checkInactive
  split
  · exact orderly_pure _
  · refine orderly_bind ?_ fun _ => orderly_raiseIf _
    unfold checkRequestedTransition
    split
    · exact orderly_pure _
    · exact onBookings_checkTransition

theorem onBookings_rebookNights {env : Env} {b : Booking} {ratePlan rt : UUID} {ci co : ℤ}
    {notes : Option (Option String)} (hb : b.id ∈ B) :
    OnBookings B L (rebookNights env b ratePlan rt ci co notes) := by
  refine onBookings_giveBack (orderly_bind (orderly_tryCatch onBookings_sumRates fun e => ?_)
    fun _ => orderly_bind (orderly_ofExcept _) fun _ => onBookings_take (onBookings_rebuildLines hb))
  split <;> exact orderly_raise _

theorem onBookings_patchDates {env : Env} {b : Booking} {body : BookingPatchRequest}
    (hb : b.id ∈ B) : OnBookings B L (patchDates env b body) := by
  unfold patchDates
  split
  · exact orderly_pure _
  · refine orderly_bind (orderly_raiseIf _) fun _ => ?_
    simp only
    split
    · refine orderly_bind (orderly_raiseIf _) fun _ => orderly_bind (orderly_raiseIf _) fun _ => ?_
      split
      · unfold changeDates
        split
        · exact orderly_raise _
        · split
          · refine orderly_bind (onBookings_rebookNights hb) fun _ => ?_
            unfold restoreRoom
            split
            · exact orderly_pure _
            · refine orderly_bind (onBookings_assign hb) fun _ =>
                orderly_bind (orderly_select ?_) fun _ => orderly_pure _
              intro s s' h
              rw [h.1.1 b.id hb]
          · exact orderly_raise _
      · exact orderly_pure _
    · exact orderly_raise _

theorem onBookings_patchRoom {body : BookingPatchRequest} {pl : PatchLines} (hbid : bid ∈ B) :
    OnBookings B L (patchRoomAssignment bid body pl) := by
  unfold patchRoomAssignment
  split
  · exact orderly_pure _
  · refine orderly_bind (onBookings_assign hbid) fun _ => ?_
    split
    · exact orderly_pure _
    · refine orderly_bind (orderly_select ?_) fun _ => orderly_pure _
      intro s s' h
      rw [h.1.1 bid hbid]

theorem onBookings_patchStatus {env : Env} {b : Booking} {body : BookingPatchRequest}
    {pl : PatchLines} (hb : b.id ∈ B) : OnBookings B L (patchStatus env b body pl) := by
  unfold patchStatus
  split
  · exact orderly_pure _
  · refine orderly_bind onBookings_checkTransition fun _ => orderly_bind (orderly_runIf ?_) fun _ =>
      orderly_bind (orderly_runIf ?_) fun _ =>
        orderly_bind (orderly_runIf (onBookings_updateRow hb)) fun _ => orderly_pure _
    · refine orderly_bind (orderly_select ?_) fun guest => ?_
      · intro s s' h
        rw [h.2.1.guests]
      · split
        · exact orderly_raise _
        · exact orderly_raiseIf _
    · unfold releaseLoaded
      split
      · exact orderly_raise _
      · exact onBookings_release

/-- The balance of the folio is for the answer of the request only. -/
theorem onBookings_checkoutWarning {b : Booking} {status : BookingStatus} {pl : PatchLines}
    {p : Tx α} (hp : OnBookings B L p) :
    OnBookings B L (checkoutWarning b status pl >>= fun _ => p) := by
  unfold checkoutWarning
  split
  · rw [bind_assoc]
    refine orderly_bind onBookings_markDirty fun _ => ?_
    rw [bind_assoc]
    exact orderly_select_bind (fun _ _ _ => rfl) fun _ => hp
  · exact hp

/-- A patch of a booking, as a transaction without its answer. -/
theorem onBookings_patch {env : Env} {body : BookingPatchRequest} (hbid : bid ∈ B) {a : α} :
    OnBookings B L (patchBooking env bid body >>= fun _ => pure a) := by
  unfold patchBooking
  split
  · exact orderly_pure _
  · rw [bind_assoc]
    refine .read (fun s s' h => ?_) fun s => ?_
    · simp only [Prog.bind]
      rw [h.1.1 bid hbid]
    · simp only [Prog.bind]
      split
      · exact orderly_raise _
      · next b hfind =>
        have hb : b.id ∈ B := by
          rw [(Table.find_eq_some.mp hfind).2]
          exact hbid
        split
        · exact orderly_bind (orderly_bind (onBookings_patchNotes hb) fun _ => orderly_pure _)
            fun _ => orderly_pure _
        · split
          · exact orderly_bind (orderly_bind (onBookings_patchCancel hb) fun _ =>
              orderly_bind (onBookings_patchNotes hb) fun _ => orderly_pure _)
                fun _ => orderly_pure _
          · simp only [bind_assoc, pure_bind]
            refine orderly_bind onBookings_checkInactive fun _ =>
              orderly_bind (onBookings_patchDates hb) fun pl =>
                orderly_bind (onBookings_patchRoom hbid) fun pl' =>
                  orderly_bind (onBookings_patchStatus hb) fun st =>
                    onBookings_checkoutWarning ?_
            refine orderly_bind ?_ fun _ => orderly_bind (onBookings_patchNotes hb) fun _ =>
              orderly_pure _
            unfold flushRoomCharge
            split
            · exact orderly_pure _
            · exact onBookings_folioCharge hbid

theorem onBookings_delete (hbid : bid ∈ B) : OnBookings B L (deleteBooking bid) := by
  refine orderly_bind (onBookings_find hbid) fun found => ?_
  split
  · exact orderly_raise _
  · refine orderly_bind (orderly_raiseIf _) fun _ => orderly_bind (orderly_runIf onBookings_release)
      fun _ => orderly_bind ?_ fun _ => orderly_pure _
    exact orderly_bind (onBookings_eraseFolio (fun _ => rfl) fun _ => rfl) fun _ =>
      orderly_bind (onBookings_update hbid) fun _ => orderly_bind (orderly_acquire _) fun _ =>
        onBookings_erase hbid

theorem onBookings_markNoShow {env : Env} (hbid : bid ∈ B) :
    OnBookings B L (markNoShow env bid) := by
  refine orderly_tryCatch (onBookings_patch hbid) fun e => ?_
  split
  · exact orderly_pure _
  · exact orderly_raise _

theorem onBookings_markNoShows {env : Env} {ids : List UUID} (hids : ∀ id ∈ ids, id ∈ B) :
    OnBookings B L (markNoShows env ids) := by
  induction ids with
  | nil => exact orderly_pure _
  | cons bid rest ih =>
    exact orderly_bind (onBookings_markNoShow (hids bid (List.mem_cons_self ..))) fun _ =>
      orderly_bind (ih fun id hid => hids id (List.mem_cons_of_mem _ hid)) fun _ => orderly_pure _

/-- What a cancelled revision does with the booking that it has found. -/
def cancelFound (rev : Revision) (booking : Booking) : Tx ChannexIngestResult :=
  if booking.status ≠ .cancelled then do
    releaseBookingInventory booking.lines
    updateBookingRow booking.id (setStatus .cancelled) (id_setStatus _)
    finishRevision rev.id booking.id
    let released := if (lineRoomTypes booking.lines).length = 1
      then booking.lines.map (·.date) else []
    pure (rev.applied released none (some booking.id))
  else do
    finishRevision rev.id booking.id
    pure (rev.applied [] none none)

theorem onBookings_cancelFound {rev : Revision} {b : Booking} (hb : b.id ∈ B) :
    OnBookings B L ((cancelFound rev b).tryCatch (handleIngestError rev)) := by
  refine orderly_tryCatch ?_ fun e => ?_
  · unfold cancelFound
    split
    · exact orderly_bind onBookings_release fun _ => orderly_bind (onBookings_updateRow hb) fun _ =>
        orderly_bind (onBookings_quiet fun _ => rfl) fun _ => orderly_pure _
    · exact orderly_bind (onBookings_quiet fun _ => rfl) fun _ => orderly_pure _
  · unfold handleIngestError
    split
    · exact orderly_bind (onBookings_quiet fun _ => rfl) fun _ => orderly_pure _
    · exact orderly_bind (onBookings_quiet fun _ => rfl) fun _ => orderly_pure _
    · exact orderly_bind (onBookings_quiet fun _ => rfl) fun _ => orderly_pure _
    · exact orderly_raise _
    · exact orderly_raise _

end Statements

end OpenPms
