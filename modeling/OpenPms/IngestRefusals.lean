import OpenPms.IngestPushes
import OpenPms.DateChange

/-!
The errors of the three branches of the ingest that no handler of its try block knows. They
come from the rows, once the ledger has let the revision through: a total that the column
cannot hold, taxes that cannot be posted, an e-mail address that another guest has, a room of a
deleted type.
-/
namespace OpenPms

open KeyedTable Transaction Prog

/-- An error that passes the handlers of the ingest. -/
def Unhandled (e : Err) : Prop := ¬ e.Handled

theorem handled_of_inventory {e : Err} (h : InventoryError e) : e.Handled := by
  rcases h with ⟨message, rfl⟩ | ⟨message, rfl⟩
  · trivial
  · trivial

theorem exec_updateBookingRow_found {db : Db} {bid : UUID} {b : Booking} {f : Booking → Booking}
    {hf : ∀ b, (f b).id = b.id} (hfind : db.bookings.find bid = some b) :
    (updateBookingRow bid f hf).exec db = (.ok (), db.updateBooking bid f hf) :=
  exec_updateBookingRow_ok.mpr ⟨⟨b, hfind⟩, rfl⟩

theorem not_fails_inventory {α : Type} {p : Tx α} {db : Db} (h : Raises InventoryError p) :
    ¬ FailsWith Unhandled p db := by
  rintro ⟨e, db', hexec, hno⟩
  exact hno (handled_of_inventory (h db e db' hexec))

/-! The rows of a modification -/

section Rows
variable {db : Db} {env : Env} {b b₁ : Booking}

def PriceRefused (rev : Revision) : Prop := ∃ np ∈ rev.perNight, np.2.fits = false

/-- Another guest has the address that the guest is given. -/
def EmailTaken (db : Db) (gid : UUID) (email : String) : Prop :=
  (db.guests.find gid).isSome ∧ ∃ g ∈ db.guests.rows, g.id ≠ gid ∧ g.email = email

theorem exec_updatePlanAndTotal {rev : Revision} (hfind : db.bookings.find b.id = some b₁)
    (h : ¬ rev.total.fits = false) : ∃ db' b₂,
      (updatePlanAndTotal b rev.ratePlanId rev.total).exec db = (.ok (), db') ∧
      db'.bookings.find b.id = some b₂ ∧ db'.guests = db.guests ∧ db'.folio = db.folio := by
  unfold updatePlanAndTotal
  by_cases hsame : b.ratePlanId = some rev.ratePlanId ∧ b.totalAmount = rev.total
  · rw [if_pos hsame]
    exact ⟨db, b₁, exec_bind_ok.mpr ⟨(), db, exec_raiseIf_ok.mpr ⟨h, rfl⟩, rfl⟩, hfind, rfl, rfl⟩
  · rw [if_neg hsame]
    exact ⟨_, _, exec_bind_ok.mpr ⟨(), db, exec_raiseIf_ok.mpr ⟨h, rfl⟩,
      exec_updateBookingRow_found hfind⟩, find_updateBooking hfind, rfl, rfl⟩

theorem fails_updatePlanAndTotal {rev : Revision} (h : rev.total.fits = false) :
    FailsWith Unhandled (updatePlanAndTotal b rev.ratePlanId rev.total) db :=
  failsWith_bind.mpr (.inl (failsWith_raiseIf.mpr ⟨h, id⟩))

/-- The taxes of a booking that is there are refused when they cannot be posted. -/
theorem fails_replaceTaxes {bid propertyId : UUID} {base : Money}
    (hfind : db.bookings.find bid = some b₁) :
    FailsWith Unhandled (replaceCountryPackTaxCharges env bid propertyId base) db ↔
      ¬ env.Posts propertyId base := by
  have hraises : Raises Unhandled (replaceCountryPackTaxCharges env bid propertyId base) :=
    raises_replaceTaxes id (fun _ => TaxError.not_handled) id
  have hsome : (db.bookings.find bid).isSome := by
    rw [hfind]
    rfl
  rw [hraises.failsWith_iff]
  constructor
  · exact fun hnot hposts => hnot _ _ (exec_replaceTaxes.mpr ⟨hsome, hposts, rfl, rfl⟩)
  · exact fun hnot _ _ hok => hnot (exec_replaceTaxes.mp hok).2.1

theorem fails_folioCharge {bid : UUID} {amount : Money} :
    FailsWith Unhandled (updateFolioChargeAmount bid amount) db ↔ ¬ db.TakesCharge bid amount := by
  have hraises : Raises Unhandled (updateFolioChargeAmount bid amount) := raises_folioCharge id
  rw [hraises.failsWith_iff]
  constructor
  · exact fun hnot htakes => hnot () _ (exec_updateFolioCharge_ok.mpr ⟨htakes, rfl⟩)
  · exact fun hnot _ _ hok => hnot (exec_updateFolioCharge_ok.mp hok).1

/-- Deleted and new tax rows are no room charges. -/
theorem takesCharge_taxed {bid bid' : UUID} {taxes : List (Money × String)} {amount : Money} :
    Db.TakesCharge { db with folio := withoutTaxes bid db.folio ++ taxRows env bid taxes } bid'
      amount ↔ db.TakesCharge bid' amount :=
  takesCharge_congr (any_roomCharge_taxRows.trans any_roomCharge_withoutTaxes)

theorem newLines_fit (rt : UUID) (perNight : List (ℤ × Money)) :
    (∃ ln ∈ newLines rt perNight, ln.priceForDate.fits = false) ↔
      ∃ np ∈ perNight, np.2.fits = false := by
  simp [newLines]

theorem fails_flushLines {bid rt : UUID} {perNight : List (ℤ × Money)}
    (hfind : db.bookings.find bid = some b₁) :
    FailsWith Unhandled (flushLines bid (newLines rt perNight)) db ↔
      ∃ np ∈ perNight, np.2.fits = false := by
  rw [← newLines_fit rt]
  unfold flushLines
  rw [failsWith_bind, failsWith_raiseIf]
  constructor
  · rintro (⟨hno, -⟩ | ⟨_, db₁, hok, hrest⟩)
    · exact hno
    · obtain ⟨-, rfl⟩ := exec_raiseIf_ok.mp hok
      rw [failsWith_bind_of_ok (exec_select ..), hfind] at hrest
      have hlast : ∀ db₁ : Db, ¬ FailsWith Unhandled (do
          raiseIf ((some b₁ : Option Booking) = none) .integrityError
          modify fun db => db.updateBooking bid (addLines (newLines rt perNight))
            (id_addLines _) : Tx Unit) db₁ := fun _ => not_failsWith_of_ok rfl
      exact absurd hrest (hlast db)
  · exact fun hno => .inl ⟨hno, id⟩

theorem exec_flushLines {bid rt : UUID} {perNight : List (ℤ × Money)}
    (hfind : db.bookings.find bid = some b₁) (h : ¬ ∃ np ∈ perNight, np.2.fits = false) :
    (flushLines bid (newLines rt perNight)).exec db =
      (.ok (), db.updateBooking bid (addLines (newLines rt perNight)) (id_addLines _)) := by
  rw [← newLines_fit rt] at h
  refine exec_bind_ok.mpr ⟨(), db, exec_raiseIf_ok.mpr ⟨h, rfl⟩, ?_⟩
  refine exec_bind_ok.mpr ⟨_, db, exec_select .., exec_bind_ok.mpr ⟨(), db, ?_, rfl⟩⟩
  rw [hfind]
  rfl

theorem fails_updateGuest {gid : UUID} {payload : GuestPayload} {notes : Option String} :
    FailsWith Unhandled (updateGuest gid payload notes) db ↔
      EmailTaken db gid (Text.lower (Text.strip payload.email)) := by
  unfold updateGuest EmailTaken
  rw [failsWith_bind_of_ok (exec_select ..)]
  cases db.guests.find gid with
  | none => exact iff_of_false (not_failsWith_of_ok rfl) (by simp)
  | some g =>
    simp only [Option.isSome_some, true_and]
    rw [failsWith_bind_of_ok (exec_select ..), failsWith_bind, failsWith_raiseIf]
    constructor
    · rintro (⟨hclash, -⟩ | ⟨_, db₁, -, hrest⟩)
      · simpa using hclash
      · exact absurd hrest (not_failsWith_of_ok rfl)
    · rintro ⟨g', hg', hne, hemail⟩
      exact .inl ⟨by simpa using ⟨g', hg', hne, hemail⟩, id⟩

/-- The posting of the taxes and of the room charge that is left. -/
theorem fails_postings {bid propertyId : UUID} {base : Money}
    (hfind : db.bookings.find bid = some b₁) :
    FailsWith Unhandled (replaceCountryPackTaxCharges env bid propertyId base >>=
      updateFolioChargeAmount bid) db ↔ ¬ env.Posts propertyId base ∨
        ¬ db.TakesCharge bid (posting env propertyId base).1 := by
  rw [failsWith_bind, fails_replaceTaxes hfind]
  constructor
  · rintro (hposts | ⟨_, _, htax, hcharge⟩)
    · exact .inl hposts
    · obtain ⟨-, -, rfl, rfl⟩ := exec_replaceTaxes.mp htax
      exact .inr fun htakes => fails_folioCharge.mp hcharge (takesCharge_taxed.mpr htakes)
  · rintro (hposts | hcharge)
    · exact .inl hposts
    · by_cases hposts : env.Posts propertyId base
      · refine .inr ⟨_, _, exec_replaceTaxes.mpr ⟨by rw [hfind]; rfl, hposts, rfl, rfl⟩, ?_⟩
        exact fails_folioCharge.mpr fun htakes => hcharge (takesCharge_taxed.mp htakes)
      · exact .inl hposts

end Rows

/-! The nights -/

section Ledger
variable {α : Type} {db : Db} {rest : Tx α} {rt : UUID} {nights : List ℤ}

theorem fails_giveBack : FailsWith Unhandled
    (lockAndValidateAvailability rt (sortedDates nights) 0 >>= fun rows =>
      decrementBookedRooms rows 1 >>= fun _ => rest) db ↔
    db.ledger.Releasable rt nights ∧
      FailsWith Unhandled rest (db.setLedger (db.ledger.shift rt nights (-1))) := by
  have hraises : Raises InventoryError
      (lockAndValidateAvailability rt (sortedDates nights) 0 >>= fun rows =>
        decrementBookedRooms rows 1) :=
    raises_bind (raises_lockAndValidate fun _ he => he) fun _ => raises_decrement fun _ he => he
  rw [← bind_assoc, failsWith_bind, or_iff_right (not_fails_inventory hraises)]
  constructor
  · rintro ⟨_, db₁, hgive, hrest⟩
    obtain ⟨rows, db₂, hlock, hdec⟩ := exec_bind_ok.mp hgive
    obtain ⟨hreleasable, rfl⟩ := exec_release_nights_ok hlock hdec
    exact ⟨hreleasable, hrest⟩
  · rintro ⟨hreleasable, hrest⟩
    exact ⟨(), _, exec_release_nights hreleasable, hrest⟩

theorem fails_take : FailsWith Unhandled
    (lockAndValidateAvailability rt nights 1 >>= fun rows =>
      incrementBookedRooms rows 1 >>= fun _ => rest) db ↔
    db.ledger.Open rt nights 1 ∧
      FailsWith Unhandled rest (db.setLedger (db.ledger.shift rt nights 1)) := by
  have hraises : Raises InventoryError (lockAndValidateAvailability rt nights 1 >>= fun rows =>
      incrementBookedRooms rows 1) :=
    raises_bind (raises_lockAndValidate fun _ he => he) fun _ => raises_increment
  rw [← bind_assoc, failsWith_bind, or_iff_right (not_fails_inventory hraises)]
  constructor
  · rintro ⟨_, db₁, htake, hrest⟩
    obtain ⟨hopen, rfl⟩ := exec_lock_increment_ok.mp htake
    exact ⟨hopen, hrest⟩
  · rintro ⟨hopen, hrest⟩
    exact ⟨(), _, exec_lock_increment_ok.mpr ⟨hopen, rfl⟩, hrest⟩

end Ledger

/-! A cancellation and a modification -/

section Branches
variable {db : Db} {env : Env} {rev : Revision}

theorem not_fails_cancelled : ¬ FailsWith Unhandled (ingestCancelled rev) db := by
  unfold ingestCancelled
  rw [failsWith_bind_of_ok (exec_select ..)]
  cases hfound : findByExternal rev.external db with
  | none => exact not_failsWith_of_ok rfl
  | some b =>
    have hfind : db.bookings.find b.id = some b := find_of_external hfound
    simp only
    split
    · intro hfails
      rcases failsWith_bind.mp hfails with hrel | ⟨_, db₁, hrel, hrest⟩
      · exact not_fails_inventory (raises_release fun _ he => he) hrel
      · have hkept : db₁.bookings = db.bookings := (keeps_release fun _ _ _ _ => rfl).eq hrel
        have hfind₁ : db₁.bookings.find b.id = some b := by rw [hkept, hfind]
        rw [failsWith_bind_of_ok (exec_updateBookingRow_found hfind₁)] at hrest
        exact not_failsWith_of_ok rfl hrest
    · exact not_failsWith_of_ok rfl

/-- The modification gives its old nights back and gets the new ones. -/
structure Modifies (db : Db) (rev : Revision) (b : Booking) (old : UUID) : Prop where
  found : findByExternal rev.external db = some b
  single : lineRoomTypes b.lines = [old]
  releasable : db.ledger.Releasable old b.nights
  vacant : (db.ledger.shift old b.nights (-1)).Open rev.roomTypeId rev.nights 1

/-- The rows of the modified booking, of its folio or of its guest are refused. -/
inductive ModificationRefused (db : Db) (env : Env) (rev : Revision) (b : Booking) : Prop
  | total (h : rev.total.fits = false)
  | price (h : PriceRefused rev)
  | taxes (h : ¬ env.Posts b.propertyId rev.total)
  | roomCharge (h : ¬ db.TakesCharge b.id (posting env b.propertyId rev.total).1)
  | email (h : EmailTaken db b.guestId (Text.lower (Text.strip rev.guest.email)))

theorem emailTaken_congr {db' : Db} (h : db'.guests = db.guests) (gid : UUID) (email : String) :
    EmailTaken db' gid email ↔ EmailTaken db gid email := by
  rw [EmailTaken, EmailTaken, h]

theorem fails_guestRows {gid bid : UUID} {payload : GuestPayload} {notes : Option String}
    {rid : String} {out : ChannexIngestResult} : FailsWith Unhandled (do
      updateGuest gid payload notes
      finishRevision rid bid
      pure out : Tx ChannexIngestResult) db ↔
      EmailTaken db gid (Text.lower (Text.strip payload.email)) := by
  rw [failsWith_bind, fails_updateGuest]
  refine or_iff_left ?_
  rintro ⟨_, db₁, -, hlast⟩
  exact not_failsWith_of_ok rfl hlast

theorem fails_modifiedRows {db₀ : Db} {b : Booking} (hfind : db.bookings.find b.id = some b)
    (hguests₀ : db.guests = db₀.guests) (hfolio₀ : db.folio = db₀.folio)
    {out : ChannexIngestResult} : FailsWith Unhandled (do
      deleteLines b.id
      updatePlanAndTotal b rev.ratePlanId rev.total
      flushLines b.id (newLines rev.roomTypeId rev.perNight)
      let roomCharge ← replaceCountryPackTaxCharges env b.id b.propertyId rev.total
      updateFolioChargeAmount b.id roomCharge
      updateGuest b.guestId rev.guest rev.notes
      finishRevision rev.id b.id
      pure out : Tx ChannexIngestResult) db ↔ ModificationRefused db₀ env rev b := by
  have hdeleted := @find_updateBooking db b.id clearLines id_clearLines b hfind
  rw [failsWith_bind_of_ok (show (deleteLines b.id).exec db =
    (.ok (), db.updateBooking b.id clearLines id_clearLines) from rfl)]
  by_cases htotal : rev.total.fits = false
  · exact iff_of_true (failsWith_bind.mpr (.inl (fails_updatePlanAndTotal htotal))) (.total htotal)
  obtain ⟨db₁, b₁, htot, hfind₁, hguests, hfolio⟩ := exec_updatePlanAndTotal hdeleted htotal
  rw [failsWith_bind_of_ok htot]
  by_cases hprice : PriceRefused rev
  · exact iff_of_true (failsWith_bind.mpr (.inl ((fails_flushLines hfind₁).mpr hprice)))
      (.price hprice)
  have hfind₂ := @find_updateBooking db₁ b.id (addLines (newLines rev.roomTypeId rev.perNight))
    (id_addLines _) b₁ hfind₁
  rw [failsWith_bind_of_ok (exec_flushLines hfind₁ hprice)]
  by_cases hposts : env.Posts b.propertyId rev.total
  swap
  · exact iff_of_true (failsWith_bind.mpr (.inl ((fails_replaceTaxes hfind₂).mpr hposts)))
      (.taxes hposts)
  have hsame : ∀ amount, db₁.TakesCharge b.id amount ↔ db₀.TakesCharge b.id amount :=
    fun amount => takesCharge_congr (by rw [hfolio, ← hfolio₀]; rfl)
  rw [failsWith_bind_of_ok (exec_replaceTaxes.mpr ⟨by rw [hfind₂]; rfl, hposts, rfl, rfl⟩)]
  by_cases hcharge : db₀.TakesCharge b.id (posting env b.propertyId rev.total).1
  swap
  · refine iff_of_true (failsWith_bind.mpr (.inl (fails_folioCharge.mpr fun htakes => ?_)))
      (.roomCharge hcharge)
    exact hcharge ((hsame _).mp (takesCharge_taxed.mp htakes))
  have htakes : (db₁.updateBooking b.id (addLines (newLines rev.roomTypeId rev.perNight))
      (id_addLines _)).TakesCharge b.id (posting env b.propertyId rev.total).1 :=
    (hsame _).mpr hcharge
  rw [failsWith_bind_of_ok (exec_updateFolioCharge_ok (u := ()) |>.mpr
    ⟨takesCharge_taxed.mpr htakes, rfl⟩), fails_guestRows]
  have hemail := @emailTaken_congr db₀
    { db₁.updateBooking b.id (addLines (newLines rev.roomTypeId rev.perNight)) (id_addLines _) with
      folio := setFirstAmount (isRoomCharge b.id) (posting env b.propertyId rev.total).1
        (withoutTaxes b.id db₁.folio ++ taxRows env b.id (posting env b.propertyId rev.total).2) }
    (hguests.trans hguests₀) b.guestId (Text.lower (Text.strip rev.guest.email))
  refine hemail.trans ?_
  constructor
  · exact .email
  · rintro (h | h | h | h | h)
    · exact absurd h htotal
    · exact absurd h hprice
    · exact absurd hposts h
    · exact absurd hcharge h
    · exact h

/-- A modification passes the handlers when it has passed the ledger, and its rows are
refused. -/
theorem fails_modified : FailsWith Unhandled (ingestModified env rev) db ↔
    ∃ b old, Modifies db rev b old ∧ ModificationRefused db env rev b := by
  unfold ingestModified
  rw [failsWith_bind_of_ok (exec_select ..)]
  cases hfound : findByExternal rev.external db with
  | none =>
    refine iff_of_false (not_failsWith_of_ok rfl) ?_
    rintro ⟨b, old, h, -⟩
    cases hfound.symm.trans h.found
  | some b =>
    have hfind : db.bookings.find b.id = some b := find_of_external hfound
    simp only
    split
    · next old hold =>
      have hrows := fun l : Ledger =>
        @fails_modifiedRows (db.setLedger l) env rev db b hfind rfl rfl
      rw [fails_giveBack, fails_take, Db.setLedger_setLedger, hrows]
      constructor
      · rintro ⟨hreleasable, hopen, hrows⟩
        exact ⟨b, old, ⟨hfound, hold, hreleasable, hopen⟩, hrows⟩
      · rintro ⟨b', old', h, hrows⟩
        cases hfound.symm.trans h.found
        cases hold.symm.trans h.single
        exact ⟨h.releasable, h.vacant, hrows⟩
    · next hmixed =>
      refine iff_of_false (not_failsWith_of_ok rfl) ?_
      rintro ⟨b', old, h, -⟩
      cases hfound.symm.trans h.found
      exact hmixed old h.single

end Branches

/-! A new booking -/

/-- The guest of the payload is known, or can be created. -/
def Guested (db : Db) (env : Env) (payload : GuestPayload) : Prop :=
  (findGuestByEmail (Text.lower (Text.strip payload.email)) db).isSome ∨
    db.guests.find env.guestId = none

/-- A room of the type is free, and the type is deleted, which picking a room does not see
and assigning it does. -/
structure RoomRefused (db : Db) (propertyId rt : UUID) (nights : List ℤ) (bid : UUID) : Prop where
  free : ∃ r ∈ candidateRooms propertyId rt db, ¬ RoomTaken db r.id nights bid
  deleted : ∃ t, db.roomTypes.find rt = some t ∧ t.deleted = true

/-- The revision gets its nights and its guest. -/
structure Accepts (db : Db) (env : Env) (rev : Revision) : Prop where
  unknown : findByExternal rev.external db = none
  vacant : db.ledger.Open rev.roomTypeId rev.nights 1
  guested : Guested db env rev.guest

section New
variable {db : Db} {env : Env} {rev : Revision} {b : Booking}

theorem exec_getGuest {payload : GuestPayload} :
    (Guested db env payload ∧ ∃ r guests,
      (getOrCreateGuestForBooking env payload false).exec db =
        (.ok r, { db with guests := guests })) ∨
    (¬ Guested db env payload ∧ ∃ message,
      (getOrCreateGuestForBooking env payload false).exec db =
        (.error (.invalidBookingContext message), db)) := by
  unfold getOrCreateGuestForBooking Guested
  simp only [Bool.false_eq_true, if_false]
  rw [exec_bind, exec_select]
  simp only
  cases hknown : findGuestByEmail (payload.toGuest env.guestId).email db with
  | some g =>
    refine .inl ⟨.inl ?_, (g, true), db.guests, rfl⟩
    exact Option.isSome_iff_exists.mpr ⟨g, hknown⟩
  | none =>
    have hunknown : ¬ (findGuestByEmail (Text.lower (Text.strip payload.email)) db).isSome := by
      rw [show findGuestByEmail (Text.lower (Text.strip payload.email)) db = none from hknown]
      exact Bool.false_ne_true
    rw [or_iff_right hunknown]
    simp only
    rw [exec_bind, flushGuest, exec_bind, exec_select, hknown]
    cases hused : db.guests.find env.guestId with
    | none =>
      rw [show db.guests.find (payload.toGuest env.guestId).id = none from hused]
      exact .inl ⟨rfl, _, _, rfl⟩
    | some g =>
      rw [show db.guests.find (payload.toGuest env.guestId).id = some g from hused]
      refine .inr ⟨(by intro h; cases h), "could not create or resolve guest by email", ?_⟩
      show ((select (findGuestByEmail (payload.toGuest env.guestId).email)) >>= _).exec db = _
      rw [exec_bind, exec_select, hknown]
      rfl

/-- The rows of a new booking and of its folio are refused. -/
inductive RowsRefused (db : Db) (env : Env) (b : Booking) (perNight : List (ℤ × Money)) : Prop
  | total (h : b.totalAmount.fits = false)
  | identifier (h : (db.bookings.find b.id).isSome)
  | price (h : ∃ np ∈ perNight, np.2.fits = false)
  | taxes (h : ¬ env.Posts b.propertyId b.totalAmount)
  | roomCharge (h : (posting env b.propertyId b.totalAmount).1.fits = false)

theorem fails_insertRows {rt : UUID} {perNight : List (ℤ × Money)} {description : String} :
    FailsWith Unhandled (insertRows env b rt perNight description) db ↔
      RowsRefused db env b perNight := by
  unfold insertRows flushBooking
  simp only [bind_assoc]
  rw [failsWith_raiseIf_bind, failsWith_bind_of_ok (exec_select ..), failsWith_raiseIf_bind]
  by_cases htotal : b.totalAmount.fits = false
  · exact iff_of_true (.inl ⟨htotal, id⟩) (.total htotal)
  rw [or_iff_right fun h => htotal h.1, and_iff_right htotal]
  cases hused : db.bookings.find b.id with
  | some old =>
    refine iff_of_true (.inl ⟨Option.some_ne_none old, id⟩) (.identifier ?_)
    rw [hused]
    rfl
  | none =>
    rw [or_iff_right fun h => h.1 rfl, and_iff_right (not_not.mpr rfl), failsWith_bind_of_ok rfl]
    have hfind : ({ db with bookings := db.bookings.insert b } : Db).bookings.find b.id =
        some b := Table.find_insert_self hused
    by_cases hprice : ∃ np ∈ perNight, np.2.fits = false
    · exact iff_of_true (failsWith_bind.mpr (.inl ((fails_flushLines hfind).mpr hprice)))
        (.price hprice)
    have hcharged : ∃ ft ∈ db.folio ++ [roomChargeRow env b.id b.totalAmount description],
        isRoomCharge b.id ft = true :=
      ⟨_, List.mem_append_right _ (List.mem_singleton.mpr rfl), by
        simp [isRoomCharge, roomChargeRow]⟩
    rw [failsWith_bind_of_ok (exec_flushLines hfind hprice), failsWith_bind_of_ok rfl]
    have hfind₂ := @find_updateBooking { db with bookings := db.bookings.insert b } b.id
      (addLines (newLines rt perNight)) (id_addLines _) b hfind
    refine (fails_postings (by exact hfind₂)).trans ?_
    constructor
    · rintro (h | h)
      · exact .taxes h
      · exact .roomCharge (by simpa using fun hfits => h fun _ => hfits)
    · rintro (h | h | h | h | h)
      · exact absurd h htotal
      · rw [hused] at h
        cases h
      · exact absurd h hprice
      · exact .inl h
      · refine .inr fun htakes => ?_
        rw [htakes hcharged] at h
        cases h

theorem exec_insertRows_ok {rt : UUID} {perNight : List (ℤ × Money)} {description : String}
    {u : Unit} {db' : Db} (hlines : b.lines = [])
    (h : (insertRows env b rt perNight description).exec db = (.ok u, db')) :
    db.bookings.find b.id = none ∧ db'.hotel = { db.hotel with
      bookings := db.bookings.insert { b with lines := newLines rt perNight } } := by
  simp only [insertRows, exec_bind_ok, exec_modify, exec_updateFolioCharge_ok,
    Prod.mk.injEq] at h
  obtain ⟨_, _, hbooking, _, _, hflush, _, _, ⟨-, rfl⟩, _, db₂, htax, -, rfl⟩ := h
  obtain ⟨hfresh, rfl⟩ := exec_flushBooking_ok hbooking
  obtain ⟨-, rfl⟩ := exec_flushLines_ok hflush
  exact ⟨hfresh, (hotel_replaceTaxes htax).trans (hotel_insert_lines db rfl hfresh hlines)⟩

/-- The rows of a booking that is not refused. -/
theorem exec_insertRows {rt : UUID} {perNight : List (ℤ × Money)} {description : String}
    (hlines : b.lines = [])
    (h : ¬ FailsWith Unhandled (insertRows env b rt perNight description) db) :
    ∃ db₁, (insertRows env b rt perNight description).exec db = (.ok (), db₁) ∧
      db₁.hotel = { db.hotel with
        bookings := db.bookings.insert { b with lines := newLines rt perNight } } ∧
      db.bookings.find b.id = none := by
  have hraises : Raises Unhandled (insertRows env b rt perNight description) :=
    raises_insertRows id id (fun _ => TaxError.not_handled) id
  obtain ⟨_, db₁, hexec⟩ : ∃ u db₁, (insertRows env b rt perNight description).exec db =
      (.ok u, db₁) := by
    by_contra hnot
    exact h (hraises.failsWith_iff.mpr fun u db₁ hok => hnot ⟨u, db₁, hok⟩)
  obtain ⟨hfresh, hhotel⟩ := exec_insertRows_ok hlines hexec
  exact ⟨db₁, hexec, hhotel, hfresh⟩

theorem exec_assertConflict {room : UUID} {nights : List ℤ} {exclude : UUID} (hne : nights ≠ []) :
    (assertNoRoomConflict room nights exclude).exec db =
      if RoomTaken db room nights exclude then (.error (.assignBookingRoom
        "room is already used by another active booking on overlapping nights" 409), db)
      else (.ok (), db) := by
  rw [assertNoRoomConflict, if_neg hne, exec_bind, exec_select]
  simp only
  rw [exec_raiseIf]
  simp only [decide_eq_true_eq]

/-- Looking for a room answers with the first one that is not taken. -/
theorem exec_firstFreeRoom {nights : List ℤ} {exclude : UUID} {rooms : List Room}
    (hne : nights ≠ []) : (firstFreeRoom nights exclude rooms).exec db =
      (.ok ((rooms.find? fun r => ¬ RoomTaken db r.id nights exclude).map (·.id)), db) := by
  induction rooms with
  | nil => rfl
  | cons room rest ih =>
    rw [firstFreeRoom, exec_tryCatch, exec_bind, exec_assertConflict hne]
    by_cases htaken : RoomTaken db room.id nights exclude
    · rw [List.find?_cons_of_neg (by simpa using htaken), if_pos htaken]
      exact ih
    · rw [List.find?_cons_of_pos (by simpa using htaken), if_neg htaken]
      rfl

/-- A free room of the booking's type is refused exactly when the type is deleted. -/
theorem fails_assignFree {r : Room} {t : RoomType} (hfind : db.bookings.find b.id = some b)
    (hactive : b.status.Active) (hlines : b.lines ≠ [])
    (htypes : lineRoomTypes b.lines = [r.roomTypeId]) (hroom : r ∈ db.rooms.rows)
    (hkept : r.deleted = false) (htype : db.roomTypes.find r.roomTypeId = some t)
    (hproperty : t.propertyId = b.propertyId)
    (hfree : ¬ RoomTaken db r.id (sortedDates (b.lines.map (·.date))) b.id) :
    FailsWith Unhandled (assignBookingRoom b.id (some r.id)) db ↔ t.deleted = true := by
  unfold assignBookingRoom
  rw [failsWith_bind_of_ok (exec_select ..), hfind]
  simp only
  rw [failsWith_raiseIf_bind, failsWith_raiseIf_bind]
  simp only [not_true_eq_false, hactive, hlines, false_and, not_false_eq_true, true_and, false_or]
  rw [htypes]
  have hfindRoom : db.rooms.rows.find? (fun r' => r'.id = r.id && !r'.deleted) = some r := by
    have hfound : db.rooms.find r.id = some r := Table.find_of_mem hroom
    rw [Table.find?_and, hfound]
    simp [hkept]
  have hfindType : db.roomTypes.rows.find? (fun t' => t'.id = r.roomTypeId && !t'.deleted) =
      if t.deleted = true then none else some t := by
    rw [Table.find?_and, htype]
    cases hdeleted : t.deleted with
    | false => simp [hdeleted]
    | true => simp [hdeleted]
  simp only [assignRoomOfType]
  rw [failsWith_bind_of_ok (exec_select ..), hfindRoom]
  simp only
  rw [failsWith_raiseIf_bind, failsWith_bind_of_ok (exec_select ..), hfindType,
    failsWith_raiseIf_bind]
  simp only [ne_eq, not_true_eq_false, false_and, not_false_eq_true, true_and, false_or]
  have hne : sortedDates (b.lines.map (·.date)) ≠ [] := by
    obtain ⟨ln, hln⟩ := List.exists_mem_of_ne_nil _ hlines
    exact List.ne_nil_of_mem (mem_sortedDates.mpr (List.mem_map_of_mem hln))
  have hrest : ¬ FailsWith Unhandled (do
      assertNoRoomConflict r.id (sortedDates (b.lines.map (·.date))) b.id
      setLineRooms b.id (some r.id) : Tx Unit) db := by
    rw [failsWith_bind_of_ok ((exec_assertConflict hne).trans (if_neg hfree))]
    exact not_failsWith_of_ok rfl
  rw [or_iff_left fun h => hrest h.2]
  by_cases hdeleted : t.deleted = true
  · simp only [hdeleted, if_true, reduceCtorEq, false_implies, implies_true, true_and, iff_true]
    exact id
  · simp [hdeleted, hproperty]

theorem mem_candidateRooms {propertyId rt : UUID} {r : Room} :
    r ∈ candidateRooms propertyId rt db ↔ r ∈ db.rooms.rows ∧ r.roomTypeId = rt ∧
      r.deleted = false ∧ ∃ t, db.roomTypes.find rt = some t ∧ t.propertyId = propertyId := by
  unfold candidateRooms
  rw [List.mem_insertionSort, List.mem_filter]
  simp only [Bool.and_eq_true, decide_eq_true_eq, Bool.not_eq_true', List.any_eq_true, and_assoc]
  refine and_congr_right fun _ => ?_
  constructor
  · rintro ⟨rfl, hkept, t, ht, hid, hproperty⟩
    exact ⟨rfl, hkept, t, Table.find_eq_some.mpr ⟨ht, hid⟩, hproperty⟩
  · rintro ⟨rfl, hkept, t, ht, hproperty⟩
    exact ⟨rfl, hkept, t, (Table.find_eq_some.mp ht).1, (Table.find_eq_some.mp ht).2, hproperty⟩

/-- The booking itself does not take the room from itself. -/
theorem roomTaken_insert {room : UUID} {nights : List ℤ}
    (hfresh : db.bookings.find b.id = none) {db₁ : Db}
    (hbookings : db₁.bookings = db.bookings.insert b) :
    RoomTaken db₁ room (sortedDates nights) b.id ↔ RoomTaken db room nights b.id := by
  simp only [RoomTaken, hbookings, Table.mem_insert hfresh, mem_sortedDates]
  constructor
  · rintro ⟨b', hb' | rfl, hne, hrest⟩
    · exact ⟨b', hb', hne, hrest⟩
    · exact absurd rfl hne
  · rintro ⟨b', hb', hrest⟩
    exact ⟨b', .inl hb', hrest⟩

theorem lineRoomTypes_newLines {rt : UUID} {perNight : List (ℤ × Money)} (hne : perNight ≠ []) :
    lineRoomTypes (newLines rt perNight) = [rt] := by
  have hmap : (newLines rt perNight).map (·.roomTypeId) = List.replicate perNight.length rt := by
    simp [newLines, Function.comp_def]
  rw [lineRoomTypes, hmap, List.replicate_dedup (List.length_pos_of_ne_nil hne).ne']

theorem exec_pick {propertyId rt bid : UUID} {nights : List ℤ} (hne : sortedDates nights ≠ []) :
    (pickFirstFreeRoomForStay propertyId rt nights bid).exec db =
      (.ok (((candidateRooms propertyId rt db).find? fun r =>
        ¬ RoomTaken db r.id (sortedDates nights) bid).map (·.id)), db) := by
  rw [pickFirstFreeRoomForStay, if_neg hne, exec_bind, exec_select]
  exact exec_firstFreeRoom hne

/-- The pick for a booking without a room, and the assignment of what is picked. -/
theorem fails_pickAndAssign {rt : UUID} (hfind : db.bookings.find b.id = some b)
    (hactive : b.status.Active) (htypes : lineRoomTypes b.lines = [rt]) :
    FailsWith Unhandled (pickFirstFreeRoomForStay b.propertyId rt b.nights b.id >>=
      fun picked => assignPicked b.id picked) db ↔
    (∃ r ∈ candidateRooms b.propertyId rt db, ¬ RoomTaken db r.id (sortedDates b.nights) b.id) ∧
      ∃ t, db.roomTypes.find rt = some t ∧ t.deleted = true := by
  have hlines : b.lines ≠ [] := by
    rintro hnil
    rw [hnil] at htypes
    cases htypes
  have hne : sortedDates b.nights ≠ [] := by
    obtain ⟨ln, hln⟩ := List.exists_mem_of_ne_nil _ hlines
    exact List.ne_nil_of_mem (mem_sortedDates.mpr (List.mem_map_of_mem hln))
  rw [failsWith_bind_of_ok (exec_pick hne)]
  cases hpick : (candidateRooms b.propertyId rt db).find? fun r =>
      ¬ RoomTaken db r.id (sortedDates b.nights) b.id with
  | none =>
    refine iff_of_false (not_failsWith_of_ok rfl) ?_
    rintro ⟨⟨r, hr, hfree⟩, -⟩
    exact List.find?_eq_none.mp hpick r hr (by simpa using hfree)
  | some r =>
    have hr := List.mem_of_find?_eq_some hpick
    have hfree : ¬ RoomTaken db r.id (sortedDates b.nights) b.id := by
      simpa using List.find?_some hpick
    obtain ⟨hroom, hrt, hkept, t, ht, hproperty⟩ := mem_candidateRooms.mp hr
    subst hrt
    refine (fails_assignFree hfind hactive hlines htypes hroom hkept ht hproperty hfree).trans ?_
    constructor
    · exact fun hdeleted => ⟨⟨r, hr, hfree⟩, t, ht, hdeleted⟩
    · rintro ⟨-, t', ht', hdeleted⟩
      cases ht.symm.trans ht'
      exact hdeleted

theorem fails_insertBooking {rt : UUID} {perNight : List (ℤ × Money)} {description : String}
    (hlines : b.lines = []) (hactive : b.status.Active) (hne : perNight ≠ []) :
    FailsWith Unhandled (insertBooking env b rt perNight description) db ↔
      RowsRefused db env b perNight ∨
        RoomRefused db b.propertyId rt (perNight.map (·.1)) b.id := by
  unfold insertBooking
  by_cases hrows : FailsWith Unhandled (insertRows env b rt perNight description) db
  · exact iff_of_true (failsWith_bind.mpr (.inl hrows)) (.inl (fails_insertRows.mp hrows))
  rw [← @fails_insertRows db env b rt perNight description, or_iff_right hrows]
  obtain ⟨db₁, hexec, hhotel, hfresh⟩ := exec_insertRows hlines hrows
  rw [failsWith_bind_of_ok hexec]
  have hbookings : db₁.bookings = db.bookings.insert { b with lines := newLines rt perNight } :=
    congrArg Hotel.bookings hhotel
  have hrooms : db₁.rooms = db.rooms := congrArg Hotel.rooms hhotel
  have htypes : db₁.roomTypes = db.roomTypes := congrArg Hotel.roomTypes hhotel
  have hfind : db₁.bookings.find b.id = some { b with lines := newLines rt perNight } := by
    rw [hbookings]
    exact Table.find_insert_self (v := { b with lines := newLines rt perNight }) hfresh
  have hnights : Booking.nights { b with lines := newLines rt perNight } =
      perNight.map (·.1) := by
    simp [Booking.nights, newLines]
  have hpick := @fails_pickAndAssign db₁ { b with lines := newLines rt perNight } rt hfind hactive
    (lineRoomTypes_newLines hne)
  rw [hnights, htypes] at hpick
  refine hpick.trans ?_
  have hcandidates : candidateRooms b.propertyId rt db₁ = candidateRooms b.propertyId rt db := by
    unfold candidateRooms
    rw [hrooms, htypes]
  have htaken : ∀ room, RoomTaken db₁ room (sortedDates (perNight.map (·.1))) b.id ↔
      RoomTaken db room (perNight.map (·.1)) b.id := fun room =>
    @roomTaken_insert db { b with lines := newLines rt perNight } room _ hfresh db₁ hbookings
  simp only [hcandidates, htaken]
  exact ⟨fun h => ⟨h.1, h.2⟩, fun h => ⟨h.free, h.deleted⟩⟩

/-- The booking of a new revision. -/
def Revision.booking (env : Env) (rev : Revision) (gid : UUID) : Booking where
  id := env.bookingId
  propertyId := rev.link.propertyId
  guestId := gid
  ratePlanId := some rev.ratePlanId
  externalBookingId := some (Text.take 128 rev.external)
  status := .confirmed
  source := rev.source
  totalAmount := rev.total
  notes := none
  lines := []

/-- What is left of a new revision once it has its nights and its guest. -/
inductive NewRefused (db : Db) (env : Env) (rev : Revision) : Prop
  | total (h : rev.total.fits = false)
  | identifier (h : (db.bookings.find env.bookingId).isSome)
  | price (h : PriceRefused rev)
  | taxes (h : ¬ env.Posts rev.link.propertyId rev.total)
  | roomCharge (h : (posting env rev.link.propertyId rev.total).1.fits = false)
  | room (h : RoomRefused db rev.link.propertyId rev.roomTypeId rev.nights env.bookingId)

theorem roomRefused_congr {db₀ : Db} {propertyId rt bid : UUID} {nights : List ℤ}
    (hbookings : db.bookings = db₀.bookings) (hrooms : db.rooms = db₀.rooms)
    (htypes : db.roomTypes = db₀.roomTypes) :
    RoomRefused db propertyId rt nights bid ↔ RoomRefused db₀ propertyId rt nights bid := by
  have hcandidates : candidateRooms propertyId rt db = candidateRooms propertyId rt db₀ := by
    rw [candidateRooms, candidateRooms, hrooms, htypes]
  have htaken : ∀ room, RoomTaken db room nights bid ↔ RoomTaken db₀ room nights bid := by
    intro room
    rw [RoomTaken, RoomTaken, hbookings]
  constructor
  · rintro ⟨⟨r, hr, hfree⟩, t, ht, hdeleted⟩
    exact ⟨⟨r, hcandidates ▸ hr, fun h => hfree ((htaken r.id).mpr h)⟩, t, htypes ▸ ht, hdeleted⟩
  · rintro ⟨⟨r, hr, hfree⟩, t, ht, hdeleted⟩
    exact ⟨⟨r, hcandidates ▸ hr, fun h => hfree ((htaken r.id).mp h)⟩, t, htypes ▸ ht, hdeleted⟩

theorem fails_newRows (db₀ : Db) {gid : UUID} (hpriced : rev.Priced)
    (hbookings : db.bookings = db₀.bookings) (hrooms : db.rooms = db₀.rooms)
    (htypes : db.roomTypes = db₀.roomTypes) : FailsWith Unhandled (do
      insertBooking env (rev.booking env gid) rev.roomTypeId rev.perNight
        "Room charge (Channex OTA)"
      finishRevision rev.id env.bookingId
      pure (rev.applied rev.nights (some env.bookingId) none) :
        Tx ChannexIngestResult) db ↔ NewRefused db₀ env rev := by
  have hdates : rev.perNight.map (·.1) = rev.nights := by
    rw [hpriced.perNight, nightlyPrices_fst]
  have hne : rev.perNight ≠ [] := by
    obtain ⟨ci, co, hlt, -, hnights⟩ := hpriced.stay
    have hnil := daysBetween_ne_nil hlt
    rw [← hnights, ← hdates] at hnil
    exact fun h => hnil (by rw [h, List.map_nil])
  have hlast : ∀ db₁ : Db, ¬ FailsWith Unhandled (do
      finishRevision rev.id env.bookingId
      pure (rev.applied rev.nights (some env.bookingId) none) : Tx ChannexIngestResult) db₁ :=
    fun db₁ => not_failsWith_of_ok rfl
  rw [failsWith_bind, or_iff_left fun ⟨_, db₁, _, hfails⟩ => hlast db₁ hfails,
    fails_insertBooking rfl InitialStatus.confirmed.active hne, hdates]
  have hroom := @roomRefused_congr db db₀ rev.link.propertyId rev.roomTypeId env.bookingId
    rev.nights hbookings hrooms htypes
  constructor
  · rintro ((h | h | h | h | h) | h)
    · exact .total h
    · exact .identifier (hbookings ▸ h)
    · exact .price h
    · exact .taxes h
    · exact .roomCharge h
    · exact .room (hroom.mp h)
  · rintro (h | h | h | h | h | h)
    · exact .inl (.total h)
    · exact .inl (.identifier (hbookings ▸ h))
    · exact .inl (.price h)
    · exact .inl (.taxes h)
    · exact .inl (.roomCharge h)
    · exact .inr (hroom.mpr h)

/-- A new booking passes the handlers when it has its nights and its guest, and its rows or
its room are refused. -/
theorem fails_new (hpriced : rev.Priced) :
    FailsWith Unhandled (ingestNew env rev) db ↔ Accepts db env rev ∧ NewRefused db env rev := by
  unfold ingestNew
  rw [failsWith_bind_of_ok (exec_select ..)]
  cases hfound : findByExternal rev.external db with
  | some b =>
    refine iff_of_false (not_failsWith_of_ok rfl) ?_
    rintro ⟨h, -⟩
    cases hfound.symm.trans h.unknown
  | none =>
    simp only
    rw [fails_take]
    rcases @exec_getGuest (db.setLedger (db.ledger.shift rev.roomTypeId rev.nights 1)) env
        rev.guest with ⟨hguested, ⟨guest, merged⟩, guests, hexec⟩ | ⟨hno, message, hexec⟩
    · rw [failsWith_bind_of_ok hexec]
      simp only
      rw [failsWith_bind_of_ok rfl]
      refine (and_congr_right fun _ => by exact fails_newRows db hpriced rfl rfl rfl).trans
        (?_ : _ ∧ NewRefused db env rev ↔ _)
      constructor
      · rintro ⟨hopen, hrows⟩
        exact ⟨⟨hfound, hopen, hguested⟩, hrows⟩
      · rintro ⟨h, hrows⟩
        exact ⟨h.vacant, hrows⟩
    · refine iff_of_false ?_ fun h => hno h.1.guested
      rintro ⟨-, hfails⟩
      rcases failsWith_bind.mp hfails with ⟨e, db₁, herr, hunhandled⟩ | ⟨_, _, hok, -⟩
      · cases hexec.symm.trans herr
        exact hunhandled trivial
      · cases hexec.symm.trans hok

end New

end OpenPms
