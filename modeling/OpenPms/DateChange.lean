import OpenPms.AutomaticPostings
import OpenPms.Release

/-!
A date change from both sides: when it goes through, and what it leaves behind. The old
nights are given back before the new ones are checked, so the nights in common are free.
-/
namespace OpenPms

open KeyedTable Transaction Prog Hotel

/-! The requested stay -/

/-- The bounds that a request asks for: an absent field keeps the booking's own, and null
is no date. -/
def requestedBounds (b : Booking) (body : BookingPatchRequest) : Option ℤ × Option ℤ :=
  (body.checkIn.getD (some (stayBounds b.lines).1), body.checkOut.getD (some (stayBounds b.lines).2))

theorem foldl_min_le (dates : List ℤ) (d : ℤ) :
    dates.foldl min d ≤ d ∧ ∀ x ∈ dates, dates.foldl min d ≤ x := by
  induction dates generalizing d with
  | nil => simp
  | cons y rest ih =>
    obtain ⟨hacc, hrest⟩ := ih (min d y)
    rw [List.foldl_cons]
    refine ⟨hacc.trans (min_le_left d y), fun x hx => ?_⟩
    rcases List.mem_cons.mp hx with rfl | hx
    · exact hacc.trans (min_le_right d x)
    · exact hrest x hx

theorem le_foldl_max (dates : List ℤ) (d : ℤ) :
    d ≤ dates.foldl max d ∧ ∀ x ∈ dates, x ≤ dates.foldl max d := by
  induction dates generalizing d with
  | nil => simp
  | cons y rest ih =>
    obtain ⟨hacc, hrest⟩ := ih (max d y)
    rw [List.foldl_cons]
    refine ⟨(le_max_left d y).trans hacc, fun x hx => ?_⟩
    rcases List.mem_cons.mp hx with rfl | hx
    · exact (le_max_right d x).trans hacc
    · exact hrest x hx

theorem foldl_min_mem (dates : List ℤ) (d : ℤ) : dates.foldl min d ∈ d :: dates := by
  induction dates generalizing d with
  | nil => simp
  | cons y rest ih =>
    rw [List.foldl_cons]
    rcases List.mem_cons.mp (ih (min d y)) with heq | hmem
    · rw [heq]
      rcases min_choice d y with hmin | hmin <;> simp [hmin]
    · exact List.mem_cons_of_mem _ (List.mem_cons_of_mem _ hmem)

theorem foldl_max_mem (dates : List ℤ) (d : ℤ) : dates.foldl max d ∈ d :: dates := by
  induction dates generalizing d with
  | nil => simp
  | cons y rest ih =>
    rw [List.foldl_cons]
    rcases List.mem_cons.mp (ih (max d y)) with heq | hmem
    · rw [heq]
      rcases max_choice d y with hmax | hmax <;> simp [hmax]
    · exact List.mem_cons_of_mem _ (List.mem_cons_of_mem _ hmem)

/-- The bounds enclose the nights, and the first and the last of these are at the bounds. -/
theorem stayBounds_spec {lines : List BookingLine} (hne : lines ≠ []) :
    (∀ ln ∈ lines, (stayBounds lines).1 ≤ ln.date ∧ ln.date < (stayBounds lines).2) ∧
      (stayBounds lines).1 ∈ lines.map (·.date) ∧
      (stayBounds lines).2 - 1 ∈ lines.map (·.date) := by
  cases lines with
  | nil => exact absurd rfl hne
  | cons first rest =>
    have hmin := foldl_min_le (rest.map (·.date)) first.date
    have hmax := le_foldl_max (rest.map (·.date)) first.date
    have hmem := foldl_min_mem (rest.map (·.date)) first.date
    have hmem' := foldl_max_mem (rest.map (·.date)) first.date
    simp only [stayBounds, List.map_cons, add_sub_cancel_right]
    refine ⟨fun ln hln => ?_, hmem, hmem'⟩
    rcases List.mem_cons.mp hln with rfl | hln
    · omega
    · have hle := hmin.2 ln.date (List.mem_map_of_mem hln)
      have hge := hmax.2 ln.date (List.mem_map_of_mem hln)
      omega

theorem mem_nights {b : Booking} {d : ℤ} : d ∈ b.nights ↔ ∃ ln ∈ b.lines, ln.date = d :=
  List.mem_map

/-- For one interval the bounds are its ends. -/
theorem Booking.Shape.mem_nights_iff {b : Booking} (h : b.Shape) (d : ℤ) :
    d ∈ b.nights ↔ (stayBounds b.lines).1 ≤ d ∧ d < (stayBounds b.lines).2 := by
  obtain ⟨hall, hfirst, hlast⟩ := stayBounds_spec h.lines_ne_nil
  obtain ⟨ci, co, -, -, hnights⟩ := h.stay
  constructor
  · intro hd
    obtain ⟨ln, hln, rfl⟩ := mem_nights.mp hd
    exact hall ln hln
  · intro hd
    have hci : (stayBounds b.lines).1 ∈ b.nights := hfirst
    have hco : (stayBounds b.lines).2 - 1 ∈ b.nights := hlast
    rw [hnights, mem_daysBetween] at hci hco ⊢
    omega

/-! Rates -/

section Statements
variable {db db' : Db}

/-- The prices of the stay are the stored rates of its nights. -/
def PricedStay.RatedBy (stay : PricedStay) (ratePlan : UUID) (db : Db) : Prop :=
  ∀ np ∈ stay.perNight, db.rates stay.roomTypeId ratePlan np.1 = some np.2

theorem PricedStay.RatedBy.perNight_eq {stay : PricedStay} {ratePlan : UUID}
    (h : stay.RatedBy ratePlan db) : stay.nights.map (fun d =>
      (d, (db.rates stay.roomTypeId ratePlan d).getD 0)) = stay.perNight := by
  rw [PricedStay.nights, ← stay.perNight_fst, List.map_map]
  refine (List.map_congr_left fun np hnp => ?_).trans (List.map_id stay.perNight)
  simp [h np hnp]

/-- The rates price an interval in one way. -/
theorem PricedStay.RatedBy.unique {stay stay' : PricedStay} {ratePlan : UUID}
    (h : stay.RatedBy ratePlan db) (h' : stay'.RatedBy ratePlan db)
    (hrt : stay'.roomTypeId = stay.roomTypeId) (hci : stay'.checkIn = stay.checkIn)
    (hco : stay'.checkOut = stay.checkOut) : stay' = stay := by
  have hnights : stay'.perNight = stay.perNight := by
    rw [← h.perNight_eq, ← h'.perNight_eq, PricedStay.nights, PricedStay.nights, hrt, hci, hco]
  cases stay
  cases stay'
  simp only at hrt hci hco hnights
  subst hrt hci hco hnights
  rfl

/-- What the columns can hold. -/
structure PricedStay.Fits (stay : PricedStay) : Prop where
  total : stay.total.fits = true
  prices : ∀ np ∈ stay.perNight, np.2.fits = true

/-- An interval is priced exactly when it is a stay with a rate for every night. -/
theorem exec_sumRates_iff {rt ratePlan : UUID} {ci co : ℤ} {total : Money}
    {perNight : List (ℤ × Money)} :
    (sumRatesForStay rt ratePlan ci co).exec db = (.ok (total, perNight), db') ↔
      db = db' ∧ ∃ stay : PricedStay, stay.roomTypeId = rt ∧ stay.checkIn = ci ∧
        stay.checkOut = co ∧ stay.perNight = perNight ∧ stay.total = total ∧
        stay.RatedBy ratePlan db := by
  constructor
  · intro h
    obtain ⟨rfl, hnights, htotal⟩ := exec_sumRates_ok h
    obtain ⟨hlt, hspan, hfst⟩ := iterStayNights_ok hnights
    refine ⟨rfl, ⟨rt, ci, co, perNight, hlt, hspan, hfst⟩, rfl, rfl, rfl, rfl, htotal.symm, ?_⟩
    simp only [sumRatesForStay, exec_bind_ok, exec_stayNights_ok, exec_select, exec_raiseIf_ok,
      exec_pure, Prod.mk.injEq, Except.ok.injEq, ne_eq, not_not] at h
    obtain ⟨nights, _, ⟨-, rfl⟩, _, _, ⟨rfl, rfl⟩, _, _, ⟨hrated, rfl⟩, ⟨-, rfl⟩, -⟩ := h
    intro np hnp
    obtain ⟨d, hd, rfl⟩ := List.mem_map.mp hnp
    have hrate : db.rates rt ratePlan d ≠ none := by
      simpa using List.filter_eq_nil_iff.mp hrated d hd
    obtain ⟨price, hprice⟩ := Option.ne_none_iff_exists'.mp hrate
    simp [hprice]
  · rintro ⟨rfl, stay, rfl, rfl, rfl, rfl, rfl, hrated⟩
    have hnights := iterStayNights_of_span stay.checkIn_lt stay.span_le
    have hback := hrated.perNight_eq
    rw [PricedStay.nights] at hback
    simp only [sumRatesForStay, exec_bind_ok, exec_stayNights_ok, exec_select, exec_raiseIf_ok,
      exec_pure, Prod.mk.injEq, Except.ok.injEq, ne_eq, not_not]
    refine ⟨_, db, ⟨hnights, rfl⟩, _, db, ⟨rfl, rfl⟩, (), db, ⟨?_, rfl⟩, ⟨?_, hback⟩, rfl⟩
    · refine List.filter_eq_nil_iff.mpr fun d hd => ?_
      rw [← stay.perNight_fst] at hd
      obtain ⟨np, hnp, rfl⟩ := List.mem_map.mp hd
      simp [hrated np hnp]
    · rw [hback]
      rfl

/-! The new lines -/

/-- The booking has the lines and the total of the stay, and its taxes are posted anew. -/
def Db.rebuilt (env : Env) (b : Booking) (stay : PricedStay) (db : Db) : Db :=
  { db with
    bookings := db.bookings.update b.id (setLines stay b.ratePlanId) (id_setLines _ _)
    folio := withoutTaxes b.id (setFirstAmount (isRoomCharge b.id) stay.total db.folio) ++
      taxRows env b.id (posting env b.propertyId stay.total).2 }

theorem exec_updateTotal_iff {b b₁ : Booking} {total : Money} {u : Unit}
    (hfind : db.bookings.find b.id = some b₁) (htotal : b₁.totalAmount = b.totalAmount) :
    (updateTotal b total).exec db = (.ok u, db') ↔
      total.fits = true ∧ db' = db.updateBooking b.id (setTotal total) (id_setTotal total) := by
  simp only [updateTotal, exec_bind_ok, exec_raiseIf_ok, Bool.not_eq_false]
  split
  · next heq =>
    have hsame : db.updateBooking b.id (setTotal total) (id_setTotal total) = db := by
      have hid : db.bookings.update b.id (setTotal total) (id_setTotal total) = db.bookings := by
        refine (Table.update_congr fun v hv => ?_).trans
          (@Table.update_id _ _ _ _ db.bookings b.id fun _ => rfl)
        cases hfind.symm.trans hv
        rw [setTotal, heq, ← htotal]
        rfl
      rw [Db.updateBooking, hid]
    rw [hsame]
    constructor
    · rintro ⟨_, _, ⟨hfits, rfl⟩, hpure⟩
      cases hpure
      exact ⟨hfits, rfl⟩
    · rintro ⟨hfits, rfl⟩
      exact ⟨(), db', ⟨hfits, rfl⟩, rfl⟩
  · next hne =>
    simp only [exec_updateBookingRow_ok]
    constructor
    · rintro ⟨_, _, ⟨hfits, rfl⟩, -, rfl⟩
      exact ⟨hfits, rfl⟩
    · rintro ⟨hfits, rfl⟩
      exact ⟨(), db, ⟨hfits, rfl⟩, ⟨b₁, hfind⟩, rfl⟩

theorem exec_flushLines_iff {bid : UUID} {lines : List BookingLine} {u : Unit} :
    (flushLines bid lines).exec db = (.ok u, db') ↔
      (∀ ln ∈ lines, ln.priceForDate.fits = true) ∧ (∃ b, db.bookings.find bid = some b) ∧
        db' = db.updateBooking bid (addLines lines) (id_addLines lines) := by
  simp only [flushLines, exec_bind_ok, exec_select, exec_raiseIf_ok, exec_modify,
    Prod.mk.injEq, Except.ok.injEq, not_exists, not_and, Bool.not_eq_false]
  constructor
  · rintro ⟨_, _, ⟨hfits, rfl⟩, _, _, ⟨rfl, rfl⟩, _, _, ⟨hfound, rfl⟩, -, rfl⟩
    exact ⟨hfits, Option.ne_none_iff_exists'.mp hfound, rfl⟩
  · rintro ⟨hfits, hfound, rfl⟩
    exact ⟨(), db, ⟨hfits, rfl⟩, _, db, ⟨rfl, rfl⟩, (), db,
      ⟨Option.ne_none_iff_exists'.mpr hfound, rfl⟩, trivial, rfl⟩

/-- Deleting the lines, setting the total and adding the new lines is one update. -/
theorem update_lines {b : Booking} (stay : PricedStay)
    (hfind : db.bookings.find b.id = some b) :
    ((db.updateBooking b.id clearLines id_clearLines).updateBooking b.id (setTotal stay.total)
      (id_setTotal _)).updateBooking b.id (addLines stay.lines) (id_addLines _) =
        db.updateBooking b.id (setLines stay b.ratePlanId) (id_setLines _ _) := by
  simp only [Db.updateBooking]
  rw [Table.update_update, Table.update_update]
  have hsame : db.bookings.update b.id
      (addLines stay.lines ∘ setTotal stay.total ∘ clearLines) (fun _ => rfl) =
        db.bookings.update b.id (setLines stay b.ratePlanId) (id_setLines _ _) := by
    apply Table.update_congr
    intro v hv
    cases hfind.symm.trans hv
    simp [addLines, clearLines, setLines, setTotal]
  exact congrArg (fun t => { db with bookings := t }) hsame

/-- The rows of the stay can be written: the columns take the notes, the total, the prices and
the taxes, for which the engine of the pack returns. -/
structure Rebuilds (env : Env) (b : Booking) (stay : PricedStay)
    (notes : Option (Option String)) : Prop where
  notes : notesStorable notes = true
  fits : stay.Fits
  posts : env.Posts b.propertyId stay.total

theorem exec_rebuildLines_iff {env : Env} {b : Booking} {stay : PricedStay}
    {notes : Option (Option String)} {charge : Money} (hfind : db.bookings.find b.id = some b) :
    (rebuildLines env b stay.roomTypeId stay.total stay.perNight notes).exec db =
        (.ok charge, db') ↔
      Rebuilds env b stay notes ∧ charge = (posting env b.propertyId stay.total).1 ∧
        db' = db.rebuilt env b stay := by
  have hclear := @find_updateBooking db b.id clearLines id_clearLines b hfind
  have hset := @find_updateBooking _ b.id (setTotal stay.total) (id_setTotal stay.total) _ hclear
  have hprices : (∀ ln ∈ stay.lines, ln.priceForDate.fits = true) ↔
      ∀ np ∈ stay.perNight, np.2.fits = true := List.forall_mem_map
  have hfolio : (((db.updateBooking b.id (setLines stay b.ratePlanId)
      (id_setLines _ _)).bookings.find b.id)).isSome := by
    rw [find_updateBooking hfind]
    rfl
  have hpost : ∀ db₁, db₁ = { db.updateBooking b.id (setLines stay b.ratePlanId) (id_setLines _ _)
        with folio := setFirstAmount (isRoomCharge b.id) stay.total db.folio } →
      ((replaceCountryPackTaxCharges env b.id b.propertyId stay.total).exec db₁ =
          (.ok charge, db') ↔ env.Posts b.propertyId stay.total ∧
        charge = (posting env b.propertyId stay.total).1 ∧ db' = db.rebuilt env b stay) := by
    rintro _ rfl
    exact exec_replaceTaxes.trans (and_iff_right hfolio)
  simp only [rebuildLines, deleteLines, exec_bind_ok, exec_raiseIf_ok, exec_modify,
    exec_updateFolioCharge_ok, Prod.mk.injEq, Bool.not_eq_false]
  constructor
  · rintro ⟨_, _, ⟨-, rfl⟩, _, _, ⟨hnotes, rfl⟩, _, _, htot, _, _, hlines, _, _, ⟨-, rfl⟩, htax⟩
    obtain ⟨htotal, rfl⟩ := (exec_updateTotal_iff hclear rfl).mp htot
    obtain ⟨hfits, -, rfl⟩ := exec_flushLines_iff.mp hlines
    obtain ⟨hposts, rfl, rfl⟩ := (hpost _ (by rw [← update_lines stay hfind]; rfl)).mp htax
    exact ⟨⟨hnotes, ⟨htotal, hprices.mp hfits⟩, hposts⟩, rfl, rfl⟩
  · rintro ⟨hbuild, rfl, rfl⟩
    refine ⟨(), _, ⟨trivial, rfl⟩, (), _, ⟨hbuild.notes, rfl⟩, (), _,
      (exec_updateTotal_iff hclear rfl).mpr ⟨hbuild.fits.total, rfl⟩, (), _,
      exec_flushLines_iff.mpr ⟨hprices.mpr hbuild.fits.prices, ⟨_, hset⟩, rfl⟩, (), _,
      ⟨fun _ => hbuild.fits.total, rfl⟩, ?_⟩
    exact (hpost _ (by rw [← update_lines stay hfind]; rfl)).mpr ⟨hbuild.posts, rfl, rfl⟩

/-! The new nights -/

theorem exec_release_nights {rt : UUID} {nights : List ℤ} (h : db.ledger.Releasable rt nights) :
    (lockAndValidateAvailability rt (sortedDates nights) 0 >>= fun rows =>
      decrementBookedRooms rows 1).exec db =
        (.ok (), db.setLedger (db.ledger.shift rt nights (-1))) := by
  rw [Ledger.shift_congr fun d => mem_sortedDates.symm]
  exact exec_lock_decrement_ok.mpr ⟨fun d hd => h d (mem_sortedDates.mp hd), rfl⟩

/-- Nothing stands in the way of the date change. -/
structure Rebooks (env : Env) (db : Db) (b : Booking) (ratePlan : UUID) (stay : PricedStay)
    (notes : Option (Option String)) : Prop where
  releasable : db.ledger.Releasable stay.roomTypeId b.nights
  rated : stay.RatedBy ratePlan db
  vacant : (db.ledger.shift stay.roomTypeId b.nights (-1)).Open stay.roomTypeId stay.nights 1
  rebuilds : Rebuilds env b stay notes

/-- The booking is moved to the stay, with the room charge as it was flushed. -/
def Db.rebooked (env : Env) (b : Booking) (stay : PricedStay) (db : Db) : Db :=
  (db.setLedger ((db.ledger.shift stay.roomTypeId b.nights (-1)).shift stay.roomTypeId
    stay.nights 1)).rebuilt env b stay

theorem exec_rebookNights_iff {env : Env} {b : Booking} {ratePlan rt : UUID} {ci co : ℤ}
    {notes : Option (Option String)} {charge : Money} (hfind : db.bookings.find b.id = some b) :
    (rebookNights env b ratePlan rt ci co notes).exec db = (.ok charge, db') ↔
      ∃ stay : PricedStay, stay.roomTypeId = rt ∧ stay.checkIn = ci ∧ stay.checkOut = co ∧
        Rebooks env db b ratePlan stay notes ∧
        charge = (posting env b.propertyId stay.total).1 ∧ db' = db.rebooked env b stay := by
  simp only [rebookNights, exec_bind_ok, exec_stayNights_ok]
  constructor
  · rintro ⟨oldRows, _, hlock, _, _, hdec, ⟨total, perNight⟩, _, hsum, newNights, _, ⟨hiter, rfl⟩,
      newRows, _, hlock', _, _, hinc, hrebuild⟩
    obtain ⟨hrel, rfl⟩ := exec_release_nights_ok hlock hdec
    rw [exec_tryCatch_ok_of_raises (by intro e; split <;> exact ⟨_, rfl⟩)] at hsum
    obtain ⟨rfl, stay, rfl, rfl, rfl, rfl, rfl, hrated⟩ := exec_sumRates_iff.mp hsum
    rw [iterStayNights_of_span stay.checkIn_lt stay.span_le] at hiter
    cases hiter
    obtain ⟨hopen, rfl⟩ := exec_claim_nights_ok hlock' hinc
    obtain ⟨hbuild, rfl, rfl⟩ := (exec_rebuildLines_iff (by exact hfind)).mp hrebuild
    exact ⟨stay, rfl, rfl, rfl, ⟨hrel, hrated, hopen, hbuild⟩, rfl, rfl⟩
  · rintro ⟨stay, rfl, rfl, rfl, hbook, rfl, rfl⟩
    obtain ⟨oldRows, db₁, hlock, hdec⟩ := exec_bind_ok.mp (exec_release_nights hbook.releasable)
    have hclaim := (@exec_lock_increment_ok stay.roomTypeId stay.nights (db.setLedger
      (db.ledger.shift stay.roomTypeId b.nights (-1))) _ ()).mpr ⟨hbook.vacant, rfl⟩
    obtain ⟨newRows, db₂, hlock', hinc⟩ := exec_bind_ok.mp hclaim
    have hsum := (@exec_sumRates_iff (db.setLedger (db.ledger.shift stay.roomTypeId
      b.nights (-1))) _ stay.roomTypeId ratePlan stay.checkIn stay.checkOut stay.total
      stay.perNight).mpr ⟨rfl, stay, rfl, rfl, rfl, rfl, rfl, hbook.rated⟩
    refine ⟨oldRows, db₁, hlock, (), _, hdec, (stay.total, stay.perNight), _, ?_, stay.nights, _,
      ⟨iterStayNights_of_span stay.checkIn_lt stay.span_le, rfl⟩, newRows, db₂, hlock', (), _, hinc,
      (exec_rebuildLines_iff (by exact hfind)).mpr ⟨hbook.rebuilds, rfl, rfl⟩⟩
    rw [exec_tryCatch_ok_of_raises (by intro e; split <;> exact ⟨_, rfl⟩)]
    exact hsum

/-! The dates of a request -/

section Dates
variable {env : Env} {b : Booking} {body : BookingPatchRequest} {pl : PatchLines}

theorem requestedBounds_null :
    (requestedBounds b body).1 = none ∨ (requestedBounds b body).2 = none ↔
      body.checkIn = some none ∨ body.checkOut = some none := by
  have hgetD : ∀ (field : Option (Option ℤ)) (d : ℤ), field.getD (some d) = none ↔
      field = some none := by
    intro field d
    cases field <;> simp
  exact or_congr (hgetD _ _) (hgetD _ _)

/-- The request leaves the interval as it is. -/
inductive KeepsDates (b : Booking) (body : BookingPatchRequest) : Prop
  | absent (hci : body.checkIn = none) (hco : body.checkOut = none)
  | same {ci co : ℤ} (hlines : b.lines ≠ []) (hbounds : requestedBounds b body = (some ci, some co))
      (hsame : (ci, co) = stayBounds b.lines) (hspan : co - ci ≤ maxStayNights)

/-- The request asks for another stay, in the one room type of the booking. -/
structure AsksFor (b : Booking) (body : BookingPatchRequest) (stay : PricedStay) : Prop where
  dates : body.checkIn ≠ none ∨ body.checkOut ≠ none
  bounds : requestedBounds b body = (some stay.checkIn, some stay.checkOut)
  changed : (stay.checkIn, stay.checkOut) ≠ stayBounds b.lines
  roomType : lineRoomTypes b.lines = [stay.roomTypeId]

theorem AsksFor.lines_ne_nil {stay : PricedStay} (h : AsksFor b body stay) : b.lines ≠ [] := by
  intro hnil
  have hrt := h.roomType
  rw [hnil] at hrt
  cases hrt

/-- A new interval returns when it is one of up to 365 nights that can be rebooked. -/
theorem exec_changeDates_iff {ci co : ℤ} (hfind : db.bookings.find b.id = some b) :
    (changeDates env b body ci co).exec db = (.ok pl, db') ↔
      ∃ stay ratePlan, stay.checkIn = ci ∧ stay.checkOut = co ∧
        lineRoomTypes b.lines = [stay.roomTypeId] ∧ b.ratePlanId = some ratePlan ∧
        Rebooks env db b ratePlan stay body.notes ∧
        (restoreRoom b.id (posting env b.propertyId stay.total).1
          (priorRoomToRestore b body)).exec (db.rebooked env b stay) = (.ok pl, db') := by
  unfold changeDates
  constructor
  · intro h
    split at h
    · cases h
    · next ratePlan hplan =>
      split at h
      · next rt hrt =>
        obtain ⟨charge, db₁, hrebook, hrestore⟩ := exec_bind_ok.mp h
        obtain ⟨stay, rfl, rfl, rfl, hbook, rfl, rfl⟩ := (exec_rebookNights_iff hfind).mp hrebook
        exact ⟨stay, ratePlan, rfl, rfl, hrt, hplan, hbook, hrestore⟩
      · cases h
  · rintro ⟨stay, ratePlan, rfl, rfl, hrt, hplan, hbook, hrestore⟩
    simp only [hplan, hrt]
    exact exec_bind_ok.mpr ⟨_, _, (exec_rebookNights_iff hfind).mpr
      ⟨stay, rfl, rfl, rfl, hbook, rfl, rfl⟩, hrestore⟩

theorem requested_ne {ci co : ℤ} : (ci ≠ (stayBounds b.lines).1 ∨ co ≠ (stayBounds b.lines).2) ↔
    (ci, co) ≠ stayBounds b.lines := by
  rw [ne_eq, ne_eq, ne_eq, Prod.ext_iff, not_and_or]

/-- The dates of a request that returns are kept, or the booking is rebooked. -/
theorem exec_patchDates_iff (hfind : db.bookings.find b.id = some b) :
    (patchDates env b body).exec db = (.ok pl, db') ↔
      KeepsDates b body ∧ pl = .ofBooking b ∧ db' = db ∨
      ∃ stay ratePlan, AsksFor b body stay ∧ b.ratePlanId = some ratePlan ∧
        Rebooks env db b ratePlan stay body.notes ∧
        (restoreRoom b.id (posting env b.propertyId stay.total).1
          (priorRoomToRestore b body)).exec (db.rebooked env b stay) = (.ok pl, db') := by
  unfold patchDates
  constructor
  · intro h
    split at h
    · next habsent =>
      cases h
      exact .inl ⟨.absent habsent.1 habsent.2, rfl, rfl⟩
    · next hdates =>
      simp only [exec_bind_ok, exec_raiseIf_ok] at h
      obtain ⟨_, _, ⟨hlines, rfl⟩, h⟩ := h
      split at h
      · next ci co hci hco =>
        have hbounds : requestedBounds b body = (some ci, some co) := Prod.ext hci hco
        simp only [exec_bind_ok, exec_raiseIf_ok, not_le, not_lt] at h
        obtain ⟨_, _, ⟨-, rfl⟩, _, _, ⟨hspan, rfl⟩, h⟩ := h
        split at h
        · next hchanged =>
          obtain ⟨stay, ratePlan, rfl, rfl, hrt, hplan, hbook, hrestore⟩ :=
            (exec_changeDates_iff hfind).mp h
          exact .inr ⟨stay, ratePlan,
            ⟨not_and_or.mp hdates, hbounds, requested_ne.mp hchanged, hrt⟩, hplan, hbook, hrestore⟩
        · next hsame =>
          cases h
          rw [requested_ne, not_not] at hsame
          exact .inl ⟨.same hlines hbounds hsame hspan, rfl, rfl⟩
      · cases h
  · rintro (⟨hkeeps, rfl, rfl⟩ | ⟨stay, ratePlan, hask, hplan, hbook, hrestore⟩)
    · cases hkeeps with
      | absent hci hco =>
        rw [if_pos ⟨hci, hco⟩]
        rfl
      | @same ci co hlines hbounds hsame hspan =>
        split
        · rfl
        · obtain ⟨hci, hco⟩ := Prod.mk.inj hbounds
          obtain ⟨hall, hfirst, -⟩ := stayBounds_spec hlines
          obtain ⟨ln, hln, -⟩ := List.mem_map.mp hfirst
          have hlt : ¬ co ≤ ci := by
            have hin := hall ln hln
            rw [← hsame] at hin
            omega
          have hno : ¬ (ci ≠ (stayBounds b.lines).1 ∨ co ≠ (stayBounds b.lines).2) := by
            rw [requested_ne, not_not]
            exact hsame
          simp only [hci, hco, raiseIf, hlines, hlt, hspan.not_gt, hno, if_false]
          rfl
    · obtain ⟨hci, hco⟩ := Prod.mk.inj hask.bounds
      have hdates : ¬ (body.checkIn = none ∧ body.checkOut = none) := not_and_or.mpr hask.dates
      have hyes := requested_ne.mpr hask.changed
      simp only [hdates, hci, hco, raiseIf, hask.lines_ne_nil, stay.checkIn_lt.not_ge,
        stay.span_le.not_gt, hyes, if_false, if_true]
      exact (exec_changeDates_iff hfind).mpr
        ⟨stay, ratePlan, rfl, rfl, hask.roomType, hplan, hbook, hrestore⟩

end Dates

/-! The patch -/

/-- The notes set on the object are written by the last flush. -/
def Db.annotated (b : Booking) (notes : Option (Option String)) (db : Db) : Db :=
  match notes with
  | none => db
  | some text =>
    if notesColumn text = b.notes then db
    else db.updateBooking b.id (setNotes (notesColumn text)) (id_setNotesColumn text)

theorem ledger_annotated (b : Booking) (notes : Option (Option String)) :
    (db.annotated b notes).ledger = db.ledger := by
  cases notes with
  | none => rfl
  | some text =>
    unfold Db.annotated
    simp only
    split <;> rfl

theorem exec_patchNotes_iff {b b₁ : Booking} {notes : Option (Option String)} {u : Unit}
    (hfind : db.bookings.find b.id = some b₁) :
    (patchNotes b notes).exec db = (.ok u, db') ↔
      notesStorable notes = true ∧ db' = db.annotated b notes := by
  simp only [patchNotes, exec_bind_ok, exec_raiseIf_ok, Bool.not_eq_false]
  have hlast : ∀ {db₁}, (match notes with
      | none => (pure () : Tx Unit)
      | some notes =>
        if notesColumn notes = b.notes then pure ()
        else updateBookingRow b.id (setNotes (notesColumn notes)) (id_setNotesColumn notes)).exec
          db = (.ok u, db₁) ↔ db₁ = db.annotated b notes := by
    intro db₁
    cases notes with
    | none => simp [Db.annotated, eq_comm]
    | some text =>
      unfold Db.annotated
      simp only
      split
      · simp [eq_comm]
      · exact exec_updateBookingRow_ok.trans (and_iff_right ⟨b₁, hfind⟩)
  constructor
  · rintro ⟨_, _, ⟨hnotes, rfl⟩, hrest⟩
    exact ⟨hnotes, hlast.mp hrest⟩
  · rintro ⟨hnotes, heq⟩
    exact ⟨(), db, ⟨hnotes, rfl⟩, hlast.mpr heq⟩

/-- Notes that the request leaves out take no statement. -/
theorem patchNotes_absent (b : Booking) : patchNotes b none = pure () := rfl

/-- The room charge is written. -/
def Db.charged (bid : UUID) (charge : Option Money) (db : Db) : Db :=
  match charge with
  | none => db
  | some amount => { db with folio := setFirstAmount (isRoomCharge bid) amount db.folio }

/-- A booking's room charge, if it has one, takes the amount. -/
def Db.TakesCharge (db : Db) (bid : UUID) (amount : Money) : Prop :=
  (∃ ft ∈ db.folio, isRoomCharge bid ft = true) → amount.fits = true

theorem exec_flushRoomCharge_iff {bid : UUID} {charge : Option Money} {u : Unit} :
    (flushRoomCharge bid charge).exec db = (.ok u, db') ↔
      (∀ amount ∈ charge, db.TakesCharge bid amount) ∧ db' = db.charged bid charge := by
  cases charge with
  | none => simp [flushRoomCharge, Db.charged, eq_comm]
  | some amount =>
    have htakes : (∀ a ∈ some amount, db.TakesCharge bid a) ↔ db.TakesCharge bid amount := by simp
    rw [flushRoomCharge, exec_updateFolioCharge_ok, htakes]
    rfl

theorem takesCharge_congr {db₁ : Db} {bid : UUID} {amount : Money}
    (h : db₁.folio.any (isRoomCharge bid) = db.folio.any (isRoomCharge bid)) :
    db₁.TakesCharge bid amount ↔ db.TakesCharge bid amount := by
  have hiff : (∃ ft ∈ db₁.folio, isRoomCharge bid ft = true) ↔
      ∃ ft ∈ db.folio, isRoomCharge bid ft = true := by
    rw [← List.any_eq_true, h, List.any_eq_true]
  exact imp_congr_left hiff

/-- The rows that the date change posts are no room charges. -/
theorem any_roomCharge_rebooked {env : Env} {b : Booking} {stay : PricedStay} (bid : UUID) :
    (db.rebooked env b stay).folio.any (isRoomCharge bid) = db.folio.any (isRoomCharge bid) := by
  show (withoutTaxes b.id _ ++ taxRows env b.id _).any (isRoomCharge bid) = _
  rw [any_roomCharge_taxRows, any_roomCharge_withoutTaxes]
  exact any_setFirstAmount fun _ => rfl

theorem exec_patchBooking_notes {env : Env} {b : Booking} {body : BookingPatchRequest}
    (hfind : db.bookings.find b.id = some b)
    (hnotes : { body with notes := none } = ({} : BookingPatchRequest)) :
    (patchBooking env b.id body).exec db =
      (patchNotes b body.notes >>= fun _ => (pure none : Tx (Option Money))).exec db := by
  by_cases hempty : body = {}
  · subst hempty
    rfl
  · rw [patchBooking, if_neg hempty, exec_bind, exec_select]
    simp only [hfind, hnotes, if_true]

theorem exec_patchBooking_cancels {env : Env} {b : Booking} {body : BookingPatchRequest}
    (hfind : db.bookings.find b.id = some b) (hcancel : cancels body = true) :
    (patchBooking env b.id body).exec db = (do
      patchCancel b
      patchNotes b body.notes
      pure none : Tx (Option Money)).exec db := by
  obtain ⟨hempty, hne⟩ := cancels_ne hcancel
  rw [patchBooking, if_neg hempty, exec_bind, exec_select]
  simp only [hfind, hne, hcancel, if_false, if_true]

/-- The parts of a patch that does more than set notes and does not cancel. -/
theorem exec_patchBooking_parts {env : Env} {b : Booking} {body : BookingPatchRequest}
    (hfind : db.bookings.find b.id = some b)
    (hne : { body with notes := none } ≠ ({} : BookingPatchRequest))
    (hcancel : cancels body = false) :
    (patchBooking env b.id body).exec db = (do
      checkInactive b body
      let pl ← patchDates env b body
      let pl ← patchRoomAssignment b.id body pl
      let status ← patchStatus env b body pl
      let warning ← checkoutWarning b status pl
      flushRoomCharge b.id pl.roomCharge
      patchNotes b body.notes
      pure warning : Tx (Option Money)).exec db := by
  have hne' : body ≠ {} := by
    rintro rfl
    exact hne rfl
  rw [patchBooking, if_neg hne', exec_bind, exec_select]
  simp only [hfind, hne, hcancel, if_false, Bool.false_eq_true]

/-- The request moves the booking to the stay and asks for nothing else, notes apart; the
booking has no room and its rate plan has rates for all new nights. -/
structure MovesTo (db : Db) (b : Booking) (ratePlan : UUID) (stay : PricedStay)
    (body : BookingPatchRequest) : Prop where
  found : db.bookings.find b.id = some b
  shape : b.Shape
  active : b.status.Active
  plan : b.ratePlanId = some ratePlan
  roomType : lineRoomTypes b.lines = [stay.roomTypeId]
  noRoom : ∀ ln ∈ b.lines, ln.roomId = none
  rated : stay.RatedBy ratePlan db
  dates : body.checkIn ≠ none ∨ body.checkOut ≠ none
  bounds : requestedBounds b body = (some stay.checkIn, some stay.checkOut)
  roomId : body.roomId = none
  status : body.status = none

section MovesTo
variable {env : Env} {b : Booking} {ratePlan : UUID} {stay : PricedStay}
  {body : BookingPatchRequest}

theorem unifiedRoomId_none {lines : List BookingLine} (h : ∀ ln ∈ lines, ln.roomId = none) :
    unifiedRoomId lines = none := by
  have hrooms : lines.filterMap (·.roomId) = [] := List.filterMap_eq_nil_iff.mpr h
  rw [unifiedRoomId, hrooms]
  rfl

/-- The dates are compared with the bounds; then the nights are rebooked. -/
theorem MovesTo.exec_patchDates (h : MovesTo db b ratePlan stay body) :
    (patchDates env b body).exec db =
      if (stay.checkIn, stay.checkOut) = stayBounds b.lines then (.ok (.ofBooking b), db)
      else (rebookNights env b ratePlan stay.roomTypeId stay.checkIn stay.checkOut
        body.notes >>= fun charge => pure ⟨none, [], some charge⟩).exec db := by
  obtain ⟨hci, hco⟩ := Prod.mk.inj h.bounds
  have hlt := stay.checkIn_lt
  have hspan := stay.span_le
  have hdates : ¬ (body.checkIn = none ∧ body.checkOut = none) := by
    rcases h.dates with hd | hd <;> simp [hd]
  have hlines : ¬ b.lines = [] := h.shape.lines_ne_nil
  have hprior : priorRoomToRestore b body = none := by
    rw [priorRoomToRestore, if_pos h.roomId, unifiedRoomId_none h.noRoom]
  rw [patchDates, if_neg hdates]
  simp only [hci, hco, raiseIf, hlines, hlt.not_ge, hspan.not_gt, if_false, changeDates, h.plan,
    h.roomType, hprior, restoreRoom]
  by_cases hsame : (stay.checkIn, stay.checkOut) = stayBounds b.lines
  · rw [if_pos hsame]
    have hno : ¬ (stay.checkIn ≠ (stayBounds b.lines).1 ∨ stay.checkOut ≠ (stayBounds b.lines).2) := by
      simp [← hsame]
    simp only [hno, if_false]
    rfl
  · rw [if_neg hsame]
    have hyes : stay.checkIn ≠ (stayBounds b.lines).1 ∨ stay.checkOut ≠ (stayBounds b.lines).2 := by
      by_contra hnot
      push Not at hnot
      exact hsame (Prod.ext hnot.1 hnot.2)
    simp only [hyes, if_true]
    rfl

theorem MovesTo.exec_patch (h : MovesTo db b ratePlan stay body) :
    (patchBooking env b.id body).exec db = (patchDates env b body >>= fun pl => do
      flushRoomCharge b.id pl.roomCharge
      patchNotes b body.notes
      pure none : Tx (Option Money)).exec db := by
  have hne : { body with notes := none } ≠ ({} : BookingPatchRequest) := by
    intro heq
    rcases h.dates with hd | hd
    · exact hd (congrArg BookingPatchRequest.checkIn heq)
    · exact hd (congrArg BookingPatchRequest.checkOut heq)
  have hcancel : cancels body = false := by simp only [cancels, h.status]
  have hinactive : checkInactive b body = pure () := if_pos h.active
  have hroom : ∀ pl, patchRoomAssignment b.id body pl = pure pl := by
    intro pl
    rw [patchRoomAssignment, h.roomId]
  have hstatus : ∀ pl, patchStatus env b body pl = pure b.status := by
    intro pl
    rw [patchStatus, h.status]
  have hwarn : ∀ pl, checkoutWarning b b.status pl = pure none :=
    fun pl => if_neg fun hand => hand.2 hand.1
  rw [exec_patchBooking_parts h.found hne hcancel]
  simp only [hinactive, hroom, hstatus, hwarn, pure_bind]

/-- The booking is moved, and the room charge has taken what the taxes leave. -/
def Db.moved (env : Env) (b : Booking) (stay : PricedStay) (db : Db) : Db :=
  { db.rebooked env b stay with
    folio := setFirstAmount (isRoomCharge b.id) (posting env b.propertyId stay.total).1
      (db.rebooked env b stay).folio }

theorem find_moved (env : Env) (hfind : db.bookings.find b.id = some b) :
    (db.moved env b stay).bookings.find b.id = some (setLines stay b.ratePlanId b) := by
  show (db.bookings.update b.id (setLines stay b.ratePlanId) (id_setLines _ _)).find b.id = _
  rw [Table.find_update_self, hfind]
  rfl

/-- The request goes through when the bounds are as before or the nights can be rebooked, and
the columns take the notes and the room charge. -/
theorem MovesTo.exec_ok_iff (h : MovesTo db b ratePlan stay body) {w : Option Money} :
    (patchBooking env b.id body).exec db = (.ok w, db') ↔ w = none ∧
      if (stay.checkIn, stay.checkOut) = stayBounds b.lines then
        notesStorable body.notes = true ∧ db' = db.annotated b body.notes
      else Rebooks env db b ratePlan stay body.notes ∧
        db.TakesCharge b.id (posting env b.propertyId stay.total).1 ∧
        db' = (db.moved env b stay).annotated b body.notes := by
  rw [h.exec_patch, exec_bind, h.exec_patchDates]
  by_cases hsame : (stay.checkIn, stay.checkOut) = stayBounds b.lines
  · rw [if_pos hsame, if_pos hsame]
    show (patchNotes b body.notes >>= fun _ => (pure none : Tx (Option Money))).exec db = _ ↔ _
    simp only [exec_bind_ok, exec_patchNotes_iff h.found, exec_pure, Prod.mk.injEq,
      Except.ok.injEq]
    constructor
    · rintro ⟨_, _, hnotes, rfl, rfl⟩
      exact ⟨rfl, hnotes⟩
    · rintro ⟨rfl, hnotes⟩
      exact ⟨(), db', hnotes, rfl, rfl⟩
  · rw [if_neg hsame, if_neg hsame]
    have hlast : ∀ db₁, db₁ = db.rebooked env b stay → ((do
        flushRoomCharge b.id (some (posting env b.propertyId stay.total).1)
        patchNotes b body.notes
        pure none : Tx (Option Money)).exec db₁ = (.ok w, db') ↔ w = none ∧
          db.TakesCharge b.id (posting env b.propertyId stay.total).1 ∧
          notesStorable body.notes = true ∧
          db' = (db.moved env b stay).annotated b body.notes) := by
      rintro _ rfl
      have hnotes := @exec_patchNotes_iff (db.moved env b stay) db' b
        (setLines stay b.ratePlanId b) body.notes () (find_moved env h.found)
      have htakes : (db.rebooked env b stay).TakesCharge b.id
          (posting env b.propertyId stay.total).1 ↔
            db.TakesCharge b.id (posting env b.propertyId stay.total).1 :=
        takesCharge_congr (any_roomCharge_rebooked b.id)
      simp only [exec_bind_ok, exec_flushRoomCharge_iff, exec_pure, Prod.mk.injEq,
        Except.ok.injEq]
      constructor
      · rintro ⟨_, _, ⟨htake, rfl⟩, _, _, hdone, rfl, rfl⟩
        exact ⟨rfl, htakes.mp (htake _ rfl), hnotes.mp hdone⟩
      · rintro ⟨rfl, htake, hdone⟩
        refine ⟨(), db.moved env b stay, ⟨?_, rfl⟩, (), db', hnotes.mpr hdone, rfl, rfl⟩
        intro amount hamount
        cases hamount
        exact htakes.mpr htake
    rw [← exec_bind, bind_assoc, exec_bind_ok]
    constructor
    · rintro ⟨charge, db₁, hrebook, hrest⟩
      obtain ⟨stay', hrt, hci, hco, hbook, rfl, rfl⟩ := (exec_rebookNights_iff h.found).mp hrebook
      cases h.rated.unique hbook.rated hrt hci hco
      obtain ⟨rfl, htake, -, rfl⟩ := (hlast _ rfl).mp hrest
      exact ⟨rfl, hbook, htake, rfl⟩
    · rintro ⟨rfl, hbook, htake, rfl⟩
      exact ⟨_, _, (exec_rebookNights_iff h.found).mpr ⟨stay, rfl, rfl, rfl, hbook, rfl, rfl⟩,
        (hlast _ rfl).mpr ⟨rfl, htake, hbook.rebuilds.notes, rfl⟩⟩

/-! What the date change moves -/

/-- No row counts more rooms than it has. -/
def Ledger.WithinCapacity (l : Ledger) : Prop :=
  ∀ rt d c, l.row rt d = some c → c.bookedRooms + c.blockedRooms ≤ c.totalRooms

/-- The nights have rows that count a booking. -/
def Ledger.Counts (l : Ledger) (rt : UUID) (nights : List ℤ) : Prop :=
  ∀ d ∈ nights, ∃ c, l.row rt d = some c ∧ 1 ≤ c.bookedRooms

/-- One more on the nights that are new, one less on those that are given up. -/
def difference (rt : UUID) (old new : List ℤ) (r : UUID) (d : ℤ) : ℤ :=
  if r = rt ∧ d ∈ new ∧ d ∉ old then 1
  else if r = rt ∧ d ∈ old ∧ d ∉ new then -1
  else 0

theorem difference_eq (rt : UUID) (old new : List ℤ) (r : UUID) (d : ℤ) :
    difference rt old new r d = -1 * onNights rt old r d + 1 * onNights rt new r d := by
  unfold difference onNights
  by_cases hr : r = rt
  · by_cases hold : d ∈ old
    · by_cases hnew : d ∈ new <;> simp [hr, hold, hnew]
    · by_cases hnew : d ∈ new <;> simp [hr, hold, hnew]
  · simp [hr]

theorem Ledger.movesBy_rebooked (l : Ledger) (rt : UUID) (old new : List ℤ) :
    l.MovesBy ((l.shift rt old (-1)).shift rt new 1) (difference rt old new) := by
  have hmove := (l.movesBy_shift rt old (-1)).trans ((l.shift rt old (-1)).movesBy_shift rt new 1)
  rwa [← funext fun r => funext fun d => difference_eq rt old new r d] at hmove

/-- Among rows within capacity the nights can be exchanged exactly when the new ones that
the booking does not hold are free. -/
theorem rebooks_iff {notes : Option (Option String)} (hplan : stay.RatedBy ratePlan db)
    (hbuild : Rebuilds env b stay notes) (hcap : db.ledger.WithinCapacity)
    (hheld : db.ledger.Counts stay.roomTypeId b.nights) :
    Rebooks env db b ratePlan stay notes ↔ ∀ d ∈ stay.nights, d ∉ b.nights →
      ∃ c, db.ledger.row stay.roomTypeId d = some c ∧ 1 ≤ c.available := by
  have hrow : ∀ d, (db.ledger.shift stay.roomTypeId b.nights (-1)).row stay.roomTypeId d =
      (db.ledger.row stay.roomTypeId d).map fun c =>
        if d ∈ b.nights then { c with bookedRooms := c.bookedRooms + -1 } else c := by
    intro d
    simp [Ledger.shift]
  constructor
  · intro hbook d hd hnew
    obtain ⟨c, hc, havail⟩ := hbook.vacant d hd
    rw [hrow] at hc
    obtain ⟨c₀, hc₀, rfl⟩ := Option.map_eq_some_iff.mp hc
    rw [if_neg hnew] at havail
    exact ⟨c₀, hc₀, havail⟩
  · intro hfree
    refine ⟨fun d hd => ?_, hplan, fun d hd => ?_, hbuild⟩
    · obtain ⟨c, hc, hpos⟩ := hheld d hd
      have hle := hcap _ _ c hc
      refine ⟨c, hc, ?_, hpos⟩
      unfold Counts.available
      omega
    · by_cases hold : d ∈ b.nights
      · obtain ⟨c, hc, -⟩ := hheld d hold
        have hle := hcap _ _ c hc
        refine ⟨_, by rw [hrow, hc, Option.map_some, if_pos hold], ?_⟩
        unfold Counts.available
        simp only
        omega
      · obtain ⟨c, hc, havail⟩ := hfree d hd hold
        exact ⟨c, by rw [hrow, hc, Option.map_some, if_neg hold], havail⟩

/-- The same bounds are the same nights. -/
theorem MovesTo.nights_of_same (h : MovesTo db b ratePlan stay body)
    (hsame : (stay.checkIn, stay.checkOut) = stayBounds b.lines) (d : ℤ) :
    d ∈ stay.nights ↔ d ∈ b.nights := by
  obtain ⟨hci, hco⟩ := Prod.mk.inj (hsame.trans (Prod.mk.eta).symm)
  rw [h.shape.mem_nights_iff, PricedStay.nights, mem_daysBetween, hci, hco]

/-- A date change whose rows can be written goes through exactly when each new night that the
booking does not hold has a free room, moves the counters by the difference of the nights, and
is undone when it fails. -/
theorem date_change_moves_difference (h : MovesTo db b ratePlan stay body)
    (hbuild : Rebuilds env b stay body.notes)
    (hcharge : db.TakesCharge b.id (posting env b.propertyId stay.total).1)
    (hcap : db.ledger.WithinCapacity) (hheld : db.ledger.Counts stay.roomTypeId b.nights) :
    ((∃ w db', (patchBooking env b.id body).exec db = (.ok w, db')) ↔
      ∀ d ∈ stay.nights, d ∉ b.nights →
        ∃ c, db.ledger.row stay.roomTypeId d = some c ∧ 1 ≤ c.available) ∧
    (∀ w db', (patchBooking env b.id body).exec db = (.ok w, db') →
      db.ledger.MovesBy db'.ledger (difference stay.roomTypeId b.nights stay.nights)) ∧
    ∀ e db', (patchBooking env b.id body).exec db = (.error e, db') →
      (patchBooking env b.id body).transact db = db := by
  refine ⟨?_, ?_, fun e db' hexec => transact_error hexec⟩
  · by_cases hsame : (stay.checkIn, stay.checkOut) = stayBounds b.lines
    · have hok := @MovesTo.exec_ok_iff db (db.annotated b body.notes) env b ratePlan stay body h
        none
      rw [if_pos hsame] at hok
      refine iff_of_true ⟨none, _, hok.mpr ⟨rfl, hbuild.notes, rfl⟩⟩ fun d hd hnew => ?_
      exact absurd ((h.nights_of_same hsame d).mp hd) hnew
    · rw [← rebooks_iff h.rated hbuild hcap hheld]
      constructor
      · rintro ⟨w, db', hexec⟩
        have hok := (h.exec_ok_iff.mp hexec).2
        rw [if_neg hsame] at hok
        exact hok.1
      · intro hbook
        have hok := @MovesTo.exec_ok_iff db ((db.moved env b stay).annotated b body.notes) env b
          ratePlan stay body h none
        rw [if_neg hsame] at hok
        exact ⟨none, _, hok.mpr ⟨rfl, hbook, hcharge, rfl⟩⟩
  · intro w db' hexec
    have hok := (h.exec_ok_iff.mp hexec).2
    by_cases hsame : (stay.checkIn, stay.checkOut) = stayBounds b.lines
    · rw [if_pos hsame] at hok
      rw [hok.2, ledger_annotated]
      have hzero : difference stay.roomTypeId b.nights stay.nights = fun _ _ => 0 := by
        funext r d
        have hiff := h.nights_of_same hsame d
        unfold difference
        by_cases hd : d ∈ b.nights <;> simp [hiff, hd]
      rw [hzero]
      exact db.ledger.movesBy_refl
    · rw [if_neg hsame] at hok
      rw [hok.2.2, ledger_annotated]
      exact db.ledger.movesBy_rebooked _ _ _

end MovesTo

end Statements

/-! Two nights of one room -/

namespace Demo

/-- A booking of night 3 whose rate plan asks the same for every night. -/
def onNight3 : Booking where
  id := 1000
  propertyId := 1
  guestId := 2000
  ratePlanId := some 5
  externalBookingId := none
  status := .confirmed
  source := "desk"
  totalAmount := (10000 : ℤ)
  notes := none
  lines := [⟨3, 10, none, (10000 : ℤ)⟩]

def twoNights (rate booked : ℤ) : Db :=
  { Db.empty 0 with
    rates := fun _ _ _ => some rate
    bookings := Table.empty.insert onNight3
    folio := [roomChargeRow (env 0 0 0) 1000 (10000 : ℤ) "Room charge (stay)"]
    ledger := (Ledger.empty.upsert 10 [3] ⟨1, booked, 0⟩ id).upsert 10 [4] ⟨1, 0, 0⟩ id }

/-- The property's pack has one tax, within the price. -/
def within (rate : String) : Env :=
  { env 0 0 0 with
    countryPack := fun _ => some (.arr [.obj [("code", .str "vat"), ("rate", .str rate),
      ("inclusive", .bool true), ("applies_to", .arr [.str "all"])]], .inclusive) }

def bothNights (rate : ℤ) : PricedStay where
  roomTypeId := 10
  checkIn := 3
  checkOut := 5
  perNight := [(3, rate), (4, rate)]
  checkIn_lt := by decide
  span_le := by decide
  perNight_fst := rfl

def extend : BookingPatchRequest := { checkOut := some (some 5) }

theorem twoNights_row (rate booked : ℤ) (rt : UUID) (d : ℤ) :
    (twoNights rate booked).ledger.row rt d =
      if rt = 10 ∧ d = 4 then some ⟨1, 0, 0⟩
      else if rt = 10 ∧ d = 3 then some ⟨1, booked, 0⟩ else none := by
  simp only [twoNights, Ledger.upsert_row, List.mem_singleton, Ledger.empty]
  by_cases hrt : rt = 10
  · by_cases h4 : d = 4
    · simp [hrt, h4]
    · by_cases h3 : d = 3 <;> simp [hrt, h3, h4]
  · simp [hrt]

theorem twoNights_capacity {rate booked : ℤ} (h : booked ≤ 1) :
    (twoNights rate booked).ledger.WithinCapacity := by
  intro rt d c hc
  rw [twoNights_row] at hc
  split at hc
  · cases hc
    decide
  · split at hc
    · cases hc
      simpa using h
    · cases hc

theorem movesTo_bothNights (rate booked : ℤ) :
    MovesTo (twoNights rate booked) onNight3 5 (bothNights rate) extend where
  found := rfl
  shape := ⟨⟨3, 4, by decide, by decide, rfl⟩, ⟨10, by simp [onNight3]⟩,
    ⟨none, by simp [onNight3]⟩, rfl⟩
  active := by decide
  plan := rfl
  roomType := rfl
  noRoom := by simp [onNight3]
  rated := by simp [PricedStay.RatedBy, bothNights, twoNights]
  dates := .inr (by decide)
  bounds := rfl
  roomId := rfl
  status := rfl

theorem night4_free (rate booked : ℤ) : ∀ d ∈ (bothNights rate).nights, d ∉ onNight3.nights →
    ∃ c, (twoNights rate booked).ledger.row 10 d = some c ∧ 1 ≤ c.available := by
  intro d hd hnew
  have hbounds := mem_daysBetween.mp hd
  have hne : d ≠ 3 := by
    rintro rfl
    exact hnew (by decide)
  have h4 : d = 4 := by
    simp only [bothNights] at hbounds
    omega
  subst h4
  exact ⟨⟨1, 0, 0⟩, by simp [twoNights_row], by decide⟩

end Demo

theorem date_change_moves_difference_extend :
    ∃ w db', (patchBooking (Demo.within "0.1") 1000 Demo.extend).exec (Demo.twoNights 10000 1) =
      (.ok w, db') :=
  (date_change_moves_difference (Demo.movesTo_bothNights 10000 1)
    ⟨by decide, ⟨by decide, by decide⟩, by decide +kernel⟩ (fun _ => by decide +kernel)
    (Demo.twoNights_capacity le_rfl) (by
      intro d hd
      obtain rfl : d = 3 := by simpa [Demo.onNight3, Booking.nights] using hd
      exact ⟨⟨1, 1, 0⟩, by simp [Demo.twoNights_row, Demo.bothNights], le_rfl⟩)).1.mpr
    (Demo.night4_free 10000 1)

/-- The added night is free, and yet the total is too large for its column, the night that is
given back is not counted, the rate of the property's tax is no number, or the room charge that
a negative rate leaves is too large. -/
theorem date_change_refused :
    (MovesTo (Demo.twoNights 60000000000000 1) Demo.onNight3 5 (Demo.bothNights 60000000000000)
        Demo.extend ∧
      (Demo.twoNights 60000000000000 1).ledger.WithinCapacity ∧
      (∀ d ∈ (Demo.bothNights 60000000000000).nights, d ∉ Demo.onNight3.nights →
        ∃ c, (Demo.twoNights 60000000000000 1).ledger.row 10 d = some c ∧ 1 ≤ c.available) ∧
      ((patchBooking (Demo.env 0 0 0) 1000 Demo.extend).exec
        (Demo.twoNights 60000000000000 1)).1 = .error .dataError) ∧
    (MovesTo (Demo.twoNights 10000 0) Demo.onNight3 5 (Demo.bothNights 10000) Demo.extend ∧
      (Demo.twoNights 10000 0).ledger.WithinCapacity ∧
      (∀ d ∈ (Demo.bothNights 10000).nights, d ∉ Demo.onNight3.nights →
        ∃ c, (Demo.twoNights 10000 0).ledger.row 10 d = some c ∧ 1 ≤ c.available) ∧
      ((patchBooking (Demo.env 0 0 0) 1000 Demo.extend).exec (Demo.twoNights 10000 0)).1 =
        .error (.insufficientInventory "booked_rooms would go negative for a ledger date")) ∧
    (MovesTo (Demo.twoNights 10000 1) Demo.onNight3 5 (Demo.bothNights 10000) Demo.extend ∧
      (Demo.twoNights 10000 1).ledger.WithinCapacity ∧
      (∀ d ∈ (Demo.bothNights 10000).nights, d ∉ Demo.onNight3.nights →
        ∃ c, (Demo.twoNights 10000 1).ledger.row 10 d = some c ∧ 1 ≤ c.available) ∧
      ((patchBooking (Demo.within "high") 1000 Demo.extend).exec (Demo.twoNights 10000 1)).1 =
        .error .invalidOperation) ∧
    (MovesTo (Demo.twoNights 45000000000000 1) Demo.onNight3 5 (Demo.bothNights 45000000000000)
        Demo.extend ∧
      (Demo.twoNights 45000000000000 1).ledger.WithinCapacity ∧
      (∀ d ∈ (Demo.bothNights 45000000000000).nights, d ∉ Demo.onNight3.nights →
        ∃ c, (Demo.twoNights 45000000000000 1).ledger.row 10 d = some c ∧ 1 ≤ c.available) ∧
      ((patchBooking (Demo.within "-0.2") 1000 Demo.extend).exec
        (Demo.twoNights 45000000000000 1)).1 = .error .dataError) :=
  ⟨⟨Demo.movesTo_bothNights _ _, Demo.twoNights_capacity le_rfl, Demo.night4_free _ _,
      by decide⟩,
    ⟨Demo.movesTo_bothNights _ _, Demo.twoNights_capacity (by decide), Demo.night4_free _ _,
      by decide⟩,
    ⟨Demo.movesTo_bothNights _ _, Demo.twoNights_capacity le_rfl, Demo.night4_free _ _,
      by decide +kernel⟩,
    Demo.movesTo_bothNights _ _, Demo.twoNights_capacity le_rfl, Demo.night4_free _ _,
    by decide +kernel⟩

end OpenPms
