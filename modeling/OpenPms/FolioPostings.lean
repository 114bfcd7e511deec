import OpenPms.FolioService
import OpenPms.Statements
import OpenPms.ChannexRefinement

/-!
What the services post automatically: the room charge of a booking and the taxes of its
property's country pack. Each of them either leaves the books as they are, opens those of
a new booking, or prices those of one booking anew.
-/
namespace OpenPms

open KeyedTable Transaction Prog

/-- The room charge and the tax lines of a base: all of it, and none, without a pack. -/
def posting (env : Env) (propertyId : UUID) (base : Money) : Money × List (Money × String) :=
  match env.taxPosting propertyId base with
  | .ok (some p) => p
  | _ => (base, [])

/-- The engine of the pack returns, and the columns take its rows. -/
def Env.Posts (env : Env) (propertyId : UUID) (base : Money) : Prop :=
  (env.taxPosting propertyId base).isOk = true ∧ TaxesFit (posting env propertyId base).2

instance (env : Env) (propertyId : UUID) (base : Money) : Decidable (env.Posts propertyId base) :=
  inferInstanceAs (Decidable (_ ∧ _))

def taxRows (env : Env) (bid : UUID) (taxes : List (Money × String)) : List FolioTransaction :=
  taxes.mapIdx fun i line =>
    { id := env.folioId (i + 1), bookingId := bid, transactionType := .charge,
      amount := line.1, paymentMethod := none,
      description := some (taxDescription line.2), category := "tax" }

def withoutTaxes (bid : UUID) (folio : List FolioTransaction) : List FolioTransaction :=
  folio.filter fun ft => !isCountryPackTax bid ft

/-- The folio after the taxes are replaced and the room charge is updated. -/
def reprice (env : Env) (bid propertyId : UUID) (base : Money) (folio : List FolioTransaction) :
    List FolioTransaction :=
  setFirstAmount (isRoomCharge bid) (posting env propertyId base).1
    (withoutTaxes bid folio ++ taxRows env bid (posting env propertyId base).2)

def roomChargeRow (env : Env) (bid : UUID) (total : Money) (description : String) :
    FolioTransaction where
  id := env.folioId 0
  bookingId := bid
  transactionType := .charge
  amount := total
  paymentMethod := none
  description := some description
  category := "room_charge"

/-- The booking's folio is posted for a new total. -/
def Repriced (env : Env) (bid : UUID) (b b' : Books) : Prop :=
  ∃ account total, b.account bid = some account ∧
    b' = ⟨reprice env bid account.propertyId total b.folio,
      Function.update b.account bid (some { account with total := total })⟩

/-- A booking is there that was not there before, with its room charge and taxes. -/
def Opened (env : Env) (b b' : Books) : Prop :=
  ∃ account description, b.account env.bookingId = none ∧
    b' = ⟨reprice env env.bookingId account.propertyId account.total
        (b.folio ++ [roomChargeRow env env.bookingId account.total description]),
      Function.update b.account env.bookingId (some account)⟩

/-! The first row of a kind -/

section SetFirst
variable {p q : FolioTransaction → Bool} {amount amount' : Money}
  {folio folio' : List FolioTransaction}

theorem setFirstAmount_pos {ft : FolioTransaction} (h : p ft = true) :
    setFirstAmount p amount (ft :: folio) = { ft with amount := amount } :: folio := if_pos h

theorem setFirstAmount_neg {ft : FolioTransaction} (h : ¬ p ft = true) :
    setFirstAmount p amount (ft :: folio) = ft :: setFirstAmount p amount folio := if_neg h

theorem setFirstAmount_append (hnone : ∀ ft ∈ folio', ¬ p ft = true) :
    setFirstAmount p amount (folio ++ folio') = setFirstAmount p amount folio ++ folio' := by
  have hid : setFirstAmount p amount folio' = folio' := by
    induction folio' with
    | nil => rfl
    | cons ft rest ih =>
      rw [setFirstAmount_neg (hnone ft (List.mem_cons_self ..)),
        ih fun u hu => hnone u (List.mem_cons_of_mem _ hu)]
  induction folio with
  | nil => exact hid
  | cons ft rest ih =>
    by_cases hft : p ft = true
    · rw [List.cons_append, setFirstAmount_pos hft, setFirstAmount_pos hft, List.cons_append]
    · rw [List.cons_append, setFirstAmount_neg hft, setFirstAmount_neg hft, ih, List.cons_append]

theorem setFirstAmount_again (hp : ∀ ft, p { ft with amount := amount } = p ft) :
    setFirstAmount p amount' (setFirstAmount p amount folio) = setFirstAmount p amount' folio := by
  induction folio with
  | nil => rfl
  | cons ft rest ih =>
    by_cases hft : p ft = true
    · rw [setFirstAmount_pos hft, setFirstAmount_pos ((hp ft).trans hft), setFirstAmount_pos hft]
    · rw [setFirstAmount_neg hft, setFirstAmount_neg hft, setFirstAmount_neg hft, ih]

/-- A filter that keeps the row that is looked for. -/
theorem filter_setFirstAmount (hq : ∀ ft, folio.find? p = some ft → q ft = true)
    (hamount : ∀ ft, q { ft with amount := amount } = q ft) :
    (setFirstAmount p amount folio).filter q = setFirstAmount p amount (folio.filter q) := by
  induction folio with
  | nil => rfl
  | cons ft rest ih =>
    by_cases hft : p ft = true
    · have hkeep : q ft = true := hq ft (List.find?_cons_of_pos hft)
      rw [setFirstAmount_pos hft, List.filter_cons_of_pos ((hamount ft).trans hkeep),
        List.filter_cons_of_pos hkeep, setFirstAmount_pos hft]
    · rw [List.find?_cons_of_neg hft] at hq
      rw [setFirstAmount_neg hft]
      by_cases hkeep : q ft = true
      · rw [List.filter_cons_of_pos hkeep, List.filter_cons_of_pos hkeep, setFirstAmount_neg hft,
          ih hq]
      · rw [List.filter_cons_of_neg hkeep, List.filter_cons_of_neg hkeep, ih hq]

/-- A filter that drops all rows of the kind. -/
theorem filter_setFirstAmount_of_not (hq : ∀ ft, p ft = true → ¬ q ft = true)
    (hamount : ∀ ft, q { ft with amount := amount } = q ft) :
    (setFirstAmount p amount folio).filter q = folio.filter q := by
  induction folio with
  | nil => rfl
  | cons ft rest ih =>
    by_cases hft : p ft = true
    · have hdrop := hq ft hft
      rw [setFirstAmount_pos hft, List.filter_cons_of_neg hdrop,
        List.filter_cons_of_neg (by rwa [hamount ft])]
    · rw [setFirstAmount_neg hft, List.filter_cons, List.filter_cons, ih]

theorem find_setFirstAmount (hp : ∀ ft, p { ft with amount := amount } = p ft) :
    (setFirstAmount p amount folio).find? p =
      (folio.find? p).map fun ft => { ft with amount := amount } := by
  induction folio with
  | nil => rfl
  | cons ft rest ih =>
    by_cases hft : p ft = true
    · rw [setFirstAmount_pos hft, List.find?_cons_of_pos ((hp ft).trans hft),
        List.find?_cons_of_pos hft, Option.map_some]
    · rw [setFirstAmount_neg hft, List.find?_cons_of_neg hft, List.find?_cons_of_neg hft, ih]

/-- The amount of one row changes, the first one of its kind. -/
theorem mem_setFirstAmount {ft : FolioTransaction} (h : ft ∈ folio)
    (hother : folio.find? p ≠ some ft) : ft ∈ setFirstAmount p amount folio := by
  induction folio with
  | nil => cases h
  | cons u rest ih =>
    by_cases hu : p u = true
    · rw [setFirstAmount_pos hu]
      rw [List.find?_cons_of_pos hu] at hother
      rcases List.mem_cons.mp h with rfl | hrest
      · exact absurd rfl hother
      · exact List.mem_cons_of_mem _ hrest
    · rw [setFirstAmount_neg hu]
      rw [List.find?_cons_of_neg hu] at hother
      rcases List.mem_cons.mp h with rfl | hrest
      · exact List.mem_cons_self ..
      · exact List.mem_cons_of_mem _ (ih hrest hother)

theorem map_id_setFirstAmount : (setFirstAmount p amount folio).map (·.id) = folio.map (·.id) := by
  induction folio with
  | nil => rfl
  | cons ft rest ih =>
    unfold setFirstAmount
    split
    · rfl
    · rw [List.map_cons, List.map_cons, ih]

end SetFirst

theorem not_tax_of_roomCharge {bid bid' : UUID} {ft : FolioTransaction}
    (h : isRoomCharge bid ft = true) : isCountryPackTax bid' ft = false := by
  simp only [isRoomCharge, Bool.and_eq_true, decide_eq_true_eq] at h
  simp [isCountryPackTax, h.2]

theorem tax_of_mem_taxRows {env : Env} {bid : UUID} {taxes : List (Money × String)}
    {ft : FolioTransaction} (h : ft ∈ taxRows env bid taxes) : isCountryPackTax bid ft = true := by
  obtain ⟨i, hi, rfl⟩ := List.mem_mapIdx.mp h
  simp [isCountryPackTax, taxDescription]

theorem roomCharge_of_mem_taxRows {env : Env} {bid bid' : UUID} {taxes : List (Money × String)}
    {ft : FolioTransaction} (h : ft ∈ taxRows env bid taxes) : ¬ isRoomCharge bid' ft = true := by
  obtain ⟨i, hi, rfl⟩ := List.mem_mapIdx.mp h
  simp [isRoomCharge]

theorem reprice_eq (env : Env) (bid propertyId : UUID) (base : Money)
    (folio : List FolioTransaction) : reprice env bid propertyId base folio =
      setFirstAmount (isRoomCharge bid) (posting env propertyId base).1 (withoutTaxes bid folio) ++
        taxRows env bid (posting env propertyId base).2 :=
  setFirstAmount_append fun _ => roomCharge_of_mem_taxRows

/-- An amount that the room charge has had before does not matter. -/
theorem reprice_setFirstAmount (env : Env) (bid propertyId : UUID) (base amount : Money)
    (folio : List FolioTransaction) :
    reprice env bid propertyId base (setFirstAmount (isRoomCharge bid) amount folio) =
      reprice env bid propertyId base folio := by
  have hfilter : withoutTaxes bid (setFirstAmount (isRoomCharge bid) amount folio) =
      setFirstAmount (isRoomCharge bid) amount (withoutTaxes bid folio) := by
    refine filter_setFirstAmount (fun ft hft => ?_) fun _ => rfl
    rw [not_tax_of_roomCharge (List.find?_some hft)]
    rfl
  rw [reprice_eq, reprice_eq, hfilter, setFirstAmount_again fun _ => rfl]

/-! Statements -/

section Statements
variable {db db' : Db}

/-- The taxes of a booking are replaced exactly when its base can be posted. -/
theorem exec_replaceTaxes {env : Env} {bid propertyId : UUID} {base amount : Money} :
    (replaceCountryPackTaxCharges env bid propertyId base).exec db = (.ok amount, db') ↔
      (db.bookings.find bid).isSome ∧ env.Posts propertyId base ∧
        amount = (posting env propertyId base).1 ∧
        db' = { db with
          folio := withoutTaxes bid db.folio ++
            taxRows env bid (posting env propertyId base).2 } := by
  simp only [replaceCountryPackTaxCharges, exec_bind_ok, exec_requireBooking_ok, exec_modify,
    Prod.mk.injEq, exec_ofExcept_ok, Env.Posts, posting]
  constructor
  · rintro ⟨_, _, ⟨hbooking, rfl⟩, _, _, ⟨-, rfl⟩, p, _, ⟨hp, rfl⟩, h⟩
    rw [hp]
    refine ⟨hbooking, ?_⟩
    cases p with
    | none =>
      cases h
      exact ⟨⟨rfl, by simp [TaxesFit]⟩, rfl, by simp [taxRows, withoutTaxes]⟩
    | some q =>
      simp only [exec_bind_ok, exec_raiseIf_ok, not_not, exec_modify, exec_pure, Prod.mk.injEq,
        Except.ok.injEq] at h
      obtain ⟨_, _, ⟨hfit, rfl⟩, _, _, ⟨-, rfl⟩, rfl, rfl⟩ := h
      exact ⟨⟨rfl, hfit⟩, rfl, rfl⟩
  · rintro ⟨hbooking, ⟨hreturns, hfit⟩, rfl, rfl⟩
    refine ⟨(), db, ⟨hbooking, rfl⟩, (), _, ⟨trivial, rfl⟩, ?_⟩
    cases hp : env.taxPosting propertyId base with
    | error e =>
      rw [hp] at hreturns
      cases hreturns
    | ok p =>
      rw [hp] at hfit
      refine ⟨p, _, ⟨rfl, rfl⟩, ?_⟩
      cases p with
      | none => simp [taxRows, withoutTaxes]
      | some q =>
        simp only [exec_bind_ok, exec_raiseIf_ok, not_not, exec_modify, exec_pure, Prod.mk.injEq]
        exact ⟨(), _, ⟨hfit, rfl⟩, (), _, ⟨trivial, rfl⟩, trivial, rfl⟩

theorem exec_replaceTaxes_books {env : Env} {bid propertyId : UUID} {base amount : Money}
    (h : (replaceCountryPackTaxCharges env bid propertyId base).exec db = (.ok amount, db')) :
    amount = (posting env propertyId base).1 ∧ db'.books =
      ⟨withoutTaxes bid db.folio ++ taxRows env bid (posting env propertyId base).2,
        db.books.account⟩ := by
  obtain ⟨-, -, hamount, rfl⟩ := exec_replaceTaxes.mp h
  exact ⟨hamount, rfl⟩

theorem exec_folioCharge_books {bid : UUID} {amount : Money} {u : Unit}
    (h : (updateFolioChargeAmount bid amount).exec db = (.ok u, db')) :
    db'.books = ⟨setFirstAmount (isRoomCharge bid) amount db.folio, db.books.account⟩ := by
  obtain ⟨-, rfl⟩ := exec_updateFolioCharge_ok.mp h
  rfl

theorem exec_flushBooking_books {b : Booking} {u : Unit}
    (h : (flushBooking b).exec db = (.ok u, db')) : db.books.account b.id = none ∧
      db'.books = ⟨db.folio, Function.update db.books.account b.id (some b.account)⟩ := by
  obtain ⟨hnew, rfl⟩ := exec_flushBooking_ok h
  refine ⟨congrArg (Option.map _) hnew, congrArg (Books.mk db.folio) (funext fun id => ?_)⟩
  show ((db.bookings.insert b).find id).map _ = _
  by_cases hid : id = b.id
  · subst hid
    rw [Table.find_insert_self hnew, Function.update_self]
    rfl
  · rw [Table.find_insert_of_ne hid, Function.update_of_ne hid]
    rfl

/-- The header of a loaded booking takes a new total. -/
theorem books_header {b : Booking} {total : Money} {ratePlan : Option UUID}
    (hfind : db.bookings.find b.id = some b)
    (h : HeaderSet (db.updateBooking b.id clearLines id_clearLines) db' b total ratePlan) :
    db'.books = ⟨db.folio, Function.update db.books.account b.id
      (some { b.account with total := total })⟩ := by
  obtain ⟨f, hf, rfl, hfb⟩ := h
  refine congrArg (Books.mk db.folio) (funext fun id => ?_)
  show (((db.bookings.update b.id clearLines id_clearLines).update b.id f hf).find id).map _ = _
  by_cases hid : id = b.id
  · subst hid
    rw [Table.find_update_self, Table.find_update_self, hfind, Function.update_self]
    simp only [Option.map_some, hfb]
    rfl
  · rw [Table.find_update_of_ne hid, Table.find_update_of_ne hid, Function.update_of_ne hid]
    rfl

end Statements

/-! Patches -/

section Patch
variable {db db' : Db} {env : Env} {b : Booking}

theorem keeps_patchCancel : Keeps Db.books (patchCancel b) := by
  unfold patchCancel
  split
  · exact keeps_bind (keeps_ofExcept _) fun _ => keeps_bind (keeps_counts counts_release) fun _ =>
      keeps_plain plain_setStatus
  · exact keeps_pure _

theorem keeps_patchStatus {body : BookingPatchRequest} {pl : PatchLines} :
    Keeps Db.books (patchStatus env b body pl) := by
  unfold patchStatus
  split
  · exact keeps_pure _
  · refine keeps_bind (keeps_ofExcept _) fun _ => keeps_bind (keeps_runIf ?_) fun _ =>
      keeps_bind (keeps_runIf ?_) fun _ => keeps_bind (keeps_runIf (keeps_plain plain_setStatus))
        fun _ => keeps_pure _
    · refine keeps_bind (keeps_select _) fun guest => ?_
      split
      · exact keeps_raise _
      · exact keeps_raiseIf _
    · unfold releaseLoaded
      split
      · exact keeps_raise _
      · exact keeps_counts counts_release

theorem keeps_warnCheckout {s : BookingStatus} {pl : PatchLines} :
    Keeps Db.books (checkoutWarning b s pl) := by
  unfold checkoutWarning
  split
  · exact keeps_bind (keeps_plain plain_markDirty) fun _ => keeps_bind (keeps_select _) fun _ =>
      keeps_pure _
  · exact keeps_pure _

theorem exec_restoreRoom_books {bid : UUID} {roomCharge : Money} {room : Option UUID}
    {pl : PatchLines} (h : (restoreRoom bid roomCharge room).exec db = (.ok pl, db')) :
    pl.roomCharge = some roomCharge ∧ db'.books = db.books := by
  cases room with
  | none =>
    cases h
    exact ⟨rfl, rfl⟩
  | some room =>
    simp only [restoreRoom, exec_bind_ok, exec_select, exec_pure, Prod.mk.injEq,
      Except.ok.injEq] at h
    obtain ⟨_, _, hassign, _, _, ⟨-, rfl⟩, rfl, rfl⟩ := h
    exact ⟨rfl, (keeps_plain plain_assignBookingRoom).eq hassign⟩

theorem exec_patchRoom_books {bid : UUID} {body : BookingPatchRequest} {pl pl' : PatchLines}
    (h : (patchRoomAssignment bid body pl).exec db = (.ok pl', db')) :
    pl'.roomCharge = pl.roomCharge ∧ db'.books = db.books := by
  unfold patchRoomAssignment at h
  split at h
  · cases h
    exact ⟨rfl, rfl⟩
  · obtain ⟨_, db₁, hassign, h⟩ := exec_bind_ok.mp h
    have hbooks := (keeps_plain plain_assignBookingRoom).eq hassign
    split at h
    · cases h
      exact ⟨rfl, hbooks⟩
    · cases h
      exact ⟨rfl, hbooks⟩

/-- A date change has set the total and replaced the taxes, and knows the room charge that
is still to be flushed. -/
def DatesPosted (env : Env) (b : Booking) (db db' : Db) (roomCharge : Money) : Prop :=
  ∃ total, roomCharge = (posting env b.propertyId total).1 ∧ db'.books =
    ⟨withoutTaxes b.id (setFirstAmount (isRoomCharge b.id) total db.folio) ++
        taxRows env b.id (posting env b.propertyId total).2,
      Function.update db.books.account b.id (some { b.account with total := total })⟩

theorem rebookNights_posted {ratePlan rt : UUID} {ci co : ℤ} {notes : Option (Option String)}
    {roomCharge : Money}
    (hfind : db.bookings.find b.id = some b)
    (h : (rebookNights env b ratePlan rt ci co notes).exec db = (.ok roomCharge, db')) :
    DatesPosted env b db db' roomCharge := by
  simp only [rebookNights, exec_bind_ok, exec_stayNights_ok] at h
  obtain ⟨oldRows, db₁, hlock, _, db₂, hdec, ⟨total, perNight⟩, db₃, hsum, newNights, _,
    ⟨-, rfl⟩, newRows, db₅, hlock', _, db₆, hinc, hrebuild⟩ := h
  obtain ⟨-, rfl⟩ := exec_release_nights_ok hlock hdec
  rw [exec_tryCatch_ok_of_raises] at hsum
  · obtain ⟨rfl, -, -⟩ := exec_sumRates_ok hsum
    obtain ⟨-, rfl⟩ := exec_claim_nights_ok hlock' hinc
    simp only [rebuildLines, deleteLines, exec_bind_ok, exec_raiseIf_ok, exec_modify,
      Prod.mk.injEq] at hrebuild
    obtain ⟨_, _, ⟨-, rfl⟩, _, _, ⟨-, rfl⟩, hrebuild⟩ := hrebuild
    obtain ⟨_, db₇, htotal, _, db₈, hlines, _, db₉, hset, htax⟩ := hrebuild
    obtain ⟨hcharge, hbooks'⟩ := exec_replaceTaxes_books htax
    have hheader := books_header (by exact hfind) (exec_updateTotal_ok htotal)
    have hbooks := ((keeps_plain plain_flushLines).eq hlines).trans hheader
    have hbooks₉ := exec_folioCharge_books hset
    have hfolio : db₈.folio = db.folio := congrArg Books.folio hbooks
    have hfolio₉ : db₉.folio = _ := congrArg Books.folio hbooks₉
    refine ⟨total, hcharge, ?_⟩
    rw [hbooks', hfolio₉, hfolio, hbooks₉, hbooks]
    rfl
  · intro e
    split
    · exact ⟨_, rfl⟩
    · exact ⟨_, rfl⟩

/-- The patch asks for another first or last day than the stay has. -/
def ChangesDates (b : Booking) (body : BookingPatchRequest) : Prop :=
  let bounds := stayBounds b.lines
  body.checkIn.getD (some bounds.1) ≠ some bounds.1 ∨
    body.checkOut.getD (some bounds.2) ≠ some bounds.2

theorem exec_patchDates_books {body : BookingPatchRequest} {pl : PatchLines}
    (hfind : db.bookings.find b.id = some b)
    (h : (patchDates env b body).exec db = (.ok pl, db')) :
    pl.roomCharge = none ∧ db'.books = db.books ∨ ChangesDates b body ∧
      ∃ roomCharge, pl.roomCharge = some roomCharge ∧ DatesPosted env b db db' roomCharge := by
  unfold patchDates at h
  split at h
  · cases h
    exact .inl ⟨rfl, rfl⟩
  · simp only [exec_bind_ok, exec_raiseIf_ok] at h
    obtain ⟨_, _, ⟨-, rfl⟩, h⟩ := h
    split at h
    · next newCi newCo hci hco =>
      simp only [exec_bind_ok, exec_raiseIf_ok] at h
      obtain ⟨_, _, ⟨-, rfl⟩, _, _, ⟨-, rfl⟩, h⟩ := h
      split at h
      · next hdates =>
        right
        refine ⟨?_, ?_⟩
        · simp only [ChangesDates, hci, hco, ne_eq, Option.some.injEq]
          exact hdates
        unfold changeDates at h
        split at h
        · cases h
        · split at h
          · obtain ⟨roomCharge, db₁, hrebook, h⟩ := exec_bind_ok.mp h
            obtain ⟨hcharge, hbooks⟩ := exec_restoreRoom_books h
            obtain ⟨total, hposting, hposted⟩ := rebookNights_posted hfind hrebook
            exact ⟨roomCharge, hcharge, total, hposting, hbooks.trans hposted⟩
          · cases h
      · cases h
        exact .inl ⟨rfl, rfl⟩
    · cases h

/-- A patch prices its booking anew when it changes the dates, and leaves the books as they
are otherwise. -/
theorem patchBooking_books {bid : UUID} {body : BookingPatchRequest} {r : Option Money}
    (h : (patchBooking env bid body).exec db = (.ok r, db')) :
    db'.books = db.books ∨ (∃ b, db.bookings.find bid = some b ∧ ChangesDates b body) ∧
      Repriced env bid db.books db'.books := by
  unfold patchBooking at h
  split at h
  · cases h
    exact .inl rfl
  · simp only [exec_bind_ok, exec_select, Prod.mk.injEq, Except.ok.injEq] at h
    obtain ⟨found, _, ⟨hfound, rfl⟩, h⟩ := h
    split at h
    · cases h
    · next b =>
      obtain ⟨-, rfl⟩ := Table.find_eq_some.mp hfound
      split at h
      · simp only [exec_bind_ok, exec_pure, Prod.mk.injEq] at h
        obtain ⟨_, _, hnotes, -, rfl⟩ := h
        exact .inl ((keeps_plain plain_patchNotes).eq hnotes)
      · split at h
        · simp only [exec_bind_ok, exec_pure, Prod.mk.injEq] at h
          obtain ⟨_, _, hcancel, _, _, hnotes, -, rfl⟩ := h
          have hbooks := keeps_patchCancel.eq hcancel
          exact .inl (((keeps_plain plain_patchNotes).eq hnotes).trans hbooks)
        · simp only [exec_bind_ok, exec_pure, Prod.mk.injEq] at h
          obtain ⟨_, db₁, hinactive, pl, db₂, hdates, pl', db₃, hroom, s, db₄, hstatus, w, db₅,
            hwarn, _, db₆, hcharge, _, _, hnotes, -, rfl⟩ := h
          obtain ⟨rfl, -⟩ := exec_checkInactive_ok hinactive
          obtain ⟨hsame, hbooks₃⟩ := exec_patchRoom_books hroom
          have hbooks₅ : db₅.books = db₂.books :=
            (keeps_warnCheckout.eq hwarn).trans ((keeps_patchStatus.eq hstatus).trans hbooks₃)
          have hbooks' := (keeps_plain plain_patchNotes).eq hnotes
          rcases exec_patchDates_books hfound hdates with ⟨hnone, hbooks₂⟩ | ⟨hdiffer, roomCharge,
            hsome, total, hposting, hposted⟩
          · rw [hsame, hnone] at hcharge
            cases hcharge
            exact .inl (hbooks'.trans (hbooks₅.trans hbooks₂))
          · rw [hsame, hsome] at hcharge
            right
            refine ⟨⟨b, hfound, hdiffer⟩, b.account, total, congrArg (Option.map _) hfound, ?_⟩
            have hfolio : db₅.folio = _ := congrArg Books.folio (hbooks₅.trans hposted)
            rw [hbooks', exec_folioCharge_books hcharge, hfolio, hbooks₅, hposted, hposting]
            exact congrArg₂ Books.mk
              (reprice_setFirstAmount env b.id b.propertyId total total db.folio) rfl

end Patch

/-! Which bookings have a room charge -/

/-- Which bookings there are, and which of them have a room charge. -/
def Books.charges (b : Books) : (UUID → Bool) × (UUID → Bool) :=
  (fun bid => (b.account bid).isSome, fun bid => b.folio.any (isRoomCharge bid))

abbrev Db.charges (db : Db) : (UUID → Bool) × (UUID → Bool) := db.books.charges

section Charges
variable {env : Env} {b : Booking} {bid propertyId : UUID} {base amount : Money}

theorem any_setFirstAmount {p q : FolioTransaction → Bool} {folio : List FolioTransaction}
    (hq : ∀ ft, q { ft with amount := amount } = q ft) :
    (setFirstAmount p amount folio).any q = folio.any q := by
  induction folio with
  | nil => rfl
  | cons ft rest ih =>
    by_cases hft : p ft = true
    · rw [setFirstAmount_pos hft, List.any_cons, List.any_cons, hq]
    · rw [setFirstAmount_neg hft, List.any_cons, List.any_cons, ih]

theorem any_roomCharge_withoutTaxes {bid' : UUID} {folio : List FolioTransaction} :
    (withoutTaxes bid folio).any (isRoomCharge bid') = folio.any (isRoomCharge bid') := by
  rw [withoutTaxes, List.any_filter]
  congr 1
  funext ft
  cases hft : isRoomCharge bid' ft with
  | false => rw [Bool.and_false]
  | true => rw [not_tax_of_roomCharge hft, Bool.not_false, Bool.and_self]

theorem any_roomCharge_taxRows {bid' : UUID} {taxes : List (Money × String)}
    {folio : List FolioTransaction} :
    (folio ++ taxRows env bid taxes).any (isRoomCharge bid') = folio.any (isRoomCharge bid') := by
  have hnone : (taxRows env bid taxes).any (isRoomCharge bid') = false :=
    List.any_eq_false.mpr fun _ => roomCharge_of_mem_taxRows
  rw [List.any_append, hnone, Bool.or_false]

/-- Other rows of the folio are written. -/
def KeepsRoomCharges (g : List FolioTransaction → List FolioTransaction) : Prop :=
  ∀ folio bid, (g folio).any (isRoomCharge bid) = folio.any (isRoomCharge bid)

theorem keepsRoomCharges_setFirst : KeepsRoomCharges (setFirstAmount (isRoomCharge bid) amount) :=
  fun _ _ => any_setFirstAmount fun _ => rfl

theorem keepsRoomCharges_withoutTaxes : KeepsRoomCharges (withoutTaxes bid) :=
  fun _ _ => any_roomCharge_withoutTaxes

theorem keepsRoomCharges_taxRows {taxes : List (Money × String)} :
    KeepsRoomCharges (· ++ taxRows env bid taxes) :=
  fun _ _ => any_roomCharge_taxRows

theorem charges_folio {g : List FolioTransaction → List FolioTransaction}
    (hg : KeepsRoomCharges g) (db : Db) : Db.charges { db with folio := g db.folio } = db.charges :=
  congrArg (Prod.mk _) (funext (hg db.folio))

theorem keeps_charges {α : Type} {p : Tx α} (h : Keeps Db.books p) : Keeps Db.charges p :=
  h.comp Books.charges

theorem charges_updateBooking {f : Booking → Booking} {hf : ∀ b, (f b).id = b.id} (db : Db) :
    (db.updateBooking bid f hf).charges = db.charges := by
  refine congrArg (Prod.mk · _) (funext fun id => ?_)
  show (((db.bookings.update bid f hf).find id).map _).isSome = ((db.bookings.find id).map _).isSome
  rw [Option.isSome_map, Option.isSome_map]
  by_cases hid : id = bid
  · rw [hid, Table.find_update_self, Option.isSome_map]
  · rw [Table.find_update_of_ne hid]

theorem charges_updateBookingRow {f : Booking → Booking} {hf : ∀ b, (f b).id = b.id} :
    Keeps Db.charges (updateBookingRow bid f hf) :=
  keeps_bind (keeps_acquire _) fun _ => keeps_bind (keeps_select _) fun _ =>
    keeps_bind (keeps_raiseIf _) fun _ => keeps_modify charges_updateBooking

theorem charges_folioCharge : Keeps Db.charges (updateFolioChargeAmount bid amount) :=
  keeps_bind (keeps_select _) fun _ => keeps_bind (keeps_raiseIf _) fun _ =>
    keeps_modify (charges_folio keepsRoomCharges_setFirst)

theorem charges_replaceTaxes :
    Keeps Db.charges (replaceCountryPackTaxCharges env bid propertyId base) := by
  refine keeps_bind (keeps_bind (keeps_select _) fun _ => keeps_raiseIf _) fun _ =>
    keeps_bind (keeps_modify (charges_folio keepsRoomCharges_withoutTaxes)) fun _ =>
      keeps_bind (keeps_ofExcept _) fun posting => ?_
  cases posting with
  | none => exact keeps_pure _
  | some q =>
    exact keeps_bind (keeps_raiseIf _) fun _ =>
      keeps_bind (keeps_modify (charges_folio keepsRoomCharges_taxRows)) fun _ => keeps_pure _

theorem charges_rebuildLines {rt : UUID} {total : Money} {perNight : List (ℤ × Money)}
    {notes : Option (Option String)} :
    Keeps Db.charges (rebuildLines env b rt total perNight notes) := by
  have htotal : Keeps Db.charges (updateTotal b total) := by
    refine keeps_bind (keeps_raiseIf _) fun _ => ?_
    split
    · exact keeps_pure _
    · exact charges_updateBookingRow
  exact keeps_bind (keeps_charges (keeps_plain plain_deleteLines)) fun _ =>
    keeps_bind (keeps_raiseIf _) fun _ => keeps_bind htotal fun _ =>
      keeps_bind (keeps_charges (keeps_plain plain_flushLines)) fun _ =>
        keeps_bind charges_folioCharge fun _ => charges_replaceTaxes

theorem charges_rebookNights {ratePlan rt : UUID} {ci co : ℤ} {notes : Option (Option String)} :
    Keeps Db.charges (rebookNights env b ratePlan rt ci co notes) := by
  refine keeps_bind keeps_lockAndValidate fun _ =>
    keeps_bind (keeps_charges (keeps_counts counts_decrement)) fun _ =>
      keeps_bind (keeps_tryCatch (keeps_charges (keeps_plain plain_sumRates)) fun e => ?_) fun _ =>
        keeps_bind (keeps_ofExcept _) fun _ => keeps_bind keeps_lockAndValidate fun _ =>
          keeps_bind (keeps_charges (keeps_counts counts_increment)) fun _ => charges_rebuildLines
  split <;> exact keeps_raise _

theorem charges_patchDates {body : BookingPatchRequest} :
    Keeps Db.charges (patchDates env b body) := by
  unfold patchDates
  split
  · exact keeps_pure _
  · refine keeps_bind (keeps_raiseIf _) fun _ => ?_
    simp only
    split
    · refine keeps_bind (keeps_raiseIf _) fun _ => keeps_bind (keeps_raiseIf _) fun _ => ?_
      split
      · unfold changeDates
        split
        · exact keeps_raise _
        · split
          · refine keeps_bind charges_rebookNights fun _ => ?_
            unfold restoreRoom
            split
            · exact keeps_pure _
            · exact keeps_bind (keeps_charges (keeps_plain plain_assignBookingRoom)) fun _ =>
                keeps_bind (keeps_select _) fun _ => keeps_pure _
          · exact keeps_raise _
      · exact keeps_pure _
    · exact keeps_raise _

theorem charges_patchRoom {body : BookingPatchRequest} {pl : PatchLines} :
    Keeps Db.charges (patchRoomAssignment bid body pl) := by
  unfold patchRoomAssignment
  split
  · exact keeps_pure _
  · refine keeps_bind (keeps_charges (keeps_plain plain_assignBookingRoom)) fun _ => ?_
    split
    · exact keeps_pure _
    · exact keeps_bind (keeps_select _) fun _ => keeps_pure _

theorem charges_flushRoomCharge {amount : Option Money} :
    Keeps Db.charges (flushRoomCharge bid amount) := by
  unfold flushRoomCharge
  split
  · exact keeps_pure _
  · exact charges_folioCharge

/-- A patch opens and closes no room charge, also when it is refused. -/
theorem charges_patchBooking {body : BookingPatchRequest} :
    Keeps Db.charges (patchBooking env bid body) := by
  unfold patchBooking
  split
  · exact keeps_pure _
  · refine keeps_bind (keeps_select _) fun found => ?_
    split
    · exact keeps_raise _
    · next b =>
      have hnotes : ∀ {notes}, Keeps Db.charges (patchNotes b notes) :=
        keeps_charges (keeps_plain plain_patchNotes)
      have hinactive : Keeps Db.charges (checkInactive b body) := by
        unfold checkInactive
        split
        · exact keeps_pure _
        · refine keeps_bind ?_ fun _ => keeps_raiseIf _
          unfold checkRequestedTransition
          split
          · exact keeps_pure _
          · exact keeps_ofExcept _
      split
      · exact keeps_bind hnotes fun _ => keeps_pure _
      · split
        · exact keeps_bind (keeps_charges keeps_patchCancel) fun _ =>
            keeps_bind hnotes fun _ => keeps_pure _
        · exact keeps_bind hinactive fun _ => keeps_bind charges_patchDates fun _ =>
            keeps_bind charges_patchRoom fun _ =>
              keeps_bind (keeps_charges keeps_patchStatus) fun _ =>
                keeps_bind (keeps_charges keeps_warnCheckout) fun _ =>
                  keeps_bind charges_flushRoomCharge fun _ => keeps_bind hnotes fun _ =>
                    keeps_pure _

theorem charges_markNoShows {ids : List UUID} : Keeps Db.charges (markNoShows env ids) := by
  induction ids with
  | nil => exact keeps_pure _
  | cons bid rest ih =>
    refine keeps_bind (keeps_tryCatch (keeps_bind charges_patchBooking fun _ => keeps_pure _)
      fun e => ?_) fun _ => keeps_bind ih fun _ => keeps_pure _
    split
    · exact keeps_pure _
    · exact keeps_raise _

end Charges

/-! New bookings -/

section Create
variable {env : Env}

/-- The rows of a new booking open its books. -/
theorem relates_insertBooking {b : Booking} {rt : UUID} {perNight : List (ℤ × Money)}
    {description : String} (hid : b.id = env.bookingId) :
    Relates Db.books (Opened env) (insertBooking env b rt perNight description) := by
  refine relates_bind_keeps ?_ fun _ => keeps_bind (keeps_plain plain_pickFirstFreeRoom) fun _ =>
    keeps_plain plain_assignPicked
  intro db u db' h
  simp only [insertRows, exec_bind_ok] at h
  obtain ⟨_, db₁, hflush, _, db₂, hlines, _, db₃, hcharge, amount, db₄, htax, hset⟩ := h
  obtain ⟨hnew, hbooks₁⟩ := exec_flushBooking_books hflush
  have hbooks₂ := ((keeps_plain plain_flushLines).eq hlines).trans hbooks₁
  have hbooks₃ : db₃.books = ⟨db₂.folio ++ [roomChargeRow env b.id b.totalAmount description],
      db₂.books.account⟩ := by
    cases hcharge
    rfl
  obtain ⟨rfl, hbooks₄⟩ := exec_replaceTaxes_books htax
  have hfolio₂ : db₂.folio = db.folio := congrArg Books.folio hbooks₂
  have hfolio₃ : db₃.folio = _ := congrArg Books.folio hbooks₃
  have hfolio₄ : db₄.folio = _ := congrArg Books.folio hbooks₄
  refine ⟨b.account, description, hid ▸ hnew, ?_⟩
  rw [exec_folioCharge_books hset, hfolio₄, hfolio₃, hfolio₂, hbooks₄, hbooks₃, hbooks₂, ← hid]
  rfl

theorem createBooking_opened {body : BookingCreateRequest} :
    Relates Db.books (Opened env) (createBooking env body) := by
  unfold createBooking
  refine relates_keeps_bind (keeps_ofExcept _) fun _ => ?_
  refine relates_keeps_bind (keeps_select _) fun _ => ?_
  refine relates_keeps_bind (keeps_raiseIf _) fun _ => ?_
  refine relates_keeps_bind (keeps_bind (keeps_select _) fun _ => keeps_raiseIf _) fun _ => ?_
  refine relates_keeps_bind (keeps_bind (keeps_select _) fun _ => keeps_raiseIf _) fun _ => ?_
  refine relates_keeps_bind (keeps_plain plain_sumRates) fun _ => ?_
  refine relates_keeps_bind (keeps_counts counts_claim) fun _ => ?_
  refine relates_keeps_bind (keeps_plain plain_getOrCreateGuest) fun _ => ?_
  exact relates_bind_keeps (relates_insertBooking rfl) fun _ => keeps_pure _

end Create

/-! Revisions -/

section Ingest
variable {env : Env}

theorem ignoresCounters_books : IgnoresCounters Db.books := ⟨fun _ _ _ _ => rfl, fun _ _ => rfl⟩

/-- What a revision may do to the books: a modified one prices the booking that has its
external id, and a new one opens the books of a booking. -/
inductive RevisionPosts (env : Env) (kind : RevisionKind) (external : String) (b b' : Books) : Prop
  | same (h : b' = b)
  | modified (bid : UUID) (account : Account) (hkind : kind = .modified)
      (hfind : b.account bid = some account) (hexternal : account.external = some external)
      (h : Repriced env bid b b')
  | new (hkind : kind = .new) (h : Opened env b b')

theorem keeps_failRevision {rid : String} {e : RevisionError} {r : ChannexIngestResult} :
    Keeps Db.books (failRevision rid e >>= fun _ => (pure r : Tx ChannexIngestResult)) :=
  keeps_marks marks_failRevision

theorem keeps_ingestCancelled (rev : Revision) : Keeps Db.books (ingestCancelled rev) := by
  unfold ingestCancelled
  refine keeps_bind (keeps_select _) fun found => ?_
  split
  · exact keeps_failRevision
  · split
    · exact keeps_bind (keeps_counts counts_release) fun _ =>
        keeps_bind (keeps_plain plain_setStatus) fun _ =>
          keeps_bind (keeps_marks marks_updateRevision) fun _ => keeps_pure _
    · exact keeps_bind (keeps_marks marks_updateRevision) fun _ => keeps_pure _

theorem ingestModified_posts (rev : Revision) :
    Relates Db.books (RevisionPosts env .modified rev.external) (ingestModified env rev) := by
  intro db r db' h
  simp only [ingestModified, exec_bind_ok, exec_select, Prod.mk.injEq, Except.ok.injEq] at h
  obtain ⟨found, _, ⟨hfound, rfl⟩, h⟩ := h
  split at h
  · exact .same (keeps_failRevision.eq h)
  · next b =>
    split at h
    · simp only [exec_bind_ok, deleteLines, exec_modify, exec_pure, Prod.mk.injEq] at h
      obtain ⟨_, _, hlock, _, _, hdec, _, _, hlock', _, _, hinc, _, _, ⟨-, rfl⟩, _, db₁, hplan,
        _, db₂, hlines, amount, db₃, htax, _, db₄, hset, _, db₅, hguest, _, _, hfinish, -,
        rfl⟩ := h
      obtain ⟨-, rfl⟩ := exec_release_nights_ok hlock hdec
      obtain ⟨-, rfl⟩ := exec_claim_nights_ok hlock' hinc
      obtain ⟨rfl, hbooks₃⟩ := exec_replaceTaxes_books htax
      have hfind := find_of_external hfound
      have hexternal : b.externalBookingId = some rev.external := by
        simpa using List.find?_some hfound
      have hheader := books_header (by exact hfind) (exec_updatePlanAndTotal_ok hplan)
      have hbooks₂ := ((keeps_plain plain_flushLines).eq hlines).trans hheader
      have hfolio₂ : db₂.folio = db.folio := congrArg Books.folio hbooks₂
      have hfolio₃ : db₃.folio = _ := congrArg Books.folio hbooks₃
      refine .modified b.id b.account rfl (congrArg (Option.map _) hfind) hexternal ?_
      refine ⟨b.account, rev.total, congrArg (Option.map _) hfind, ?_⟩
      rw [(keeps_marks marks_updateRevision).eq hfinish, (keeps_plain plain_updateGuest).eq hguest,
        exec_folioCharge_books hset, hfolio₃, hfolio₂, hbooks₃, hbooks₂]
      rfl
    · exact .same (keeps_failRevision.eq h)

theorem ingestNew_posts (rev : Revision) :
    Relates Db.books (RevisionPosts env .new rev.external) (ingestNew env rev) := by
  unfold ingestNew
  refine relates_keeps_bind (keeps_select _) fun existing => ?_
  split
  · exact (keeps_bind (keeps_marks marks_updateRevision) fun _ => keeps_pure _).relates
      fun _ => .same rfl
  · refine relates_keeps_bind keeps_lockAndValidate fun _ => ?_
    refine relates_keeps_bind (keeps_counts counts_increment) fun _ => ?_
    refine relates_keeps_bind (keeps_plain plain_getOrCreateGuest) fun guest => ?_
    refine relates_keeps_bind (keeps_modify fun _ => rfl) fun _ => ?_
    refine relates_bind_keeps ?_ fun _ =>
      keeps_bind (keeps_marks marks_updateRevision) fun _ => keeps_pure _
    exact fun db r db' h => .new rfl (relates_insertBooking rfl db r db' h)

theorem applyRevision_posts (kind : RevisionKind) (rev : Revision) :
    Relates Db.books (RevisionPosts env kind rev.external) (applyRevision env kind rev) := by
  unfold applyRevision
  refine relates_tryCatch (P := Err.Handled) ?_ ?_ (fun _ => .same rfl) ?_
  · cases kind with
    | cancelled => exact (keeps_ingestCancelled rev).relates fun _ => .same rfl
    | modified => exact ingestModified_posts rev
    | new => exact ingestNew_posts rev
  · cases kind with
    | cancelled => exact keepsOn_ingestCancelled ignoresCounters_books rev
    | modified => exact keepsOn_ingestModified ignoresCounters_books env rev
    | new => exact keepsOn_ingestNew ignoresCounters_books env rev
  · intro e db r db' h
    exact ⟨(exec_handleIngestError_ok h).1, (keeps_marks (marks_handleIngestError e)).eq h⟩

theorem ingestMapped_posts {link : ChannexPropertyLink} {payload : ChannexBookingRevisionPayload}
    {roomTypeId ratePlanId : UUID} :
    Relates Db.books (RevisionPosts env (revisionKind payload) (externalKey payload))
      (ingestMapped env link (Text.strip payload.id) payload roomTypeId ratePlanId) := by
  have hfail : ∀ {rid : String} {e : RevisionError} {r : ChannexIngestResult},
      Relates Db.books (RevisionPosts env (revisionKind payload) (externalKey payload))
        (failRevision rid e >>= fun _ => (pure r : Tx ChannexIngestResult)) :=
    keeps_failRevision.relates fun _ => .same rfl
  unfold ingestMapped
  simp only
  split
  · split
    · exact hfail
    · refine relates_keeps_bind (keeps_ofExcept _) fun nights => ?_
      split
      · exact hfail
      · refine relates_keeps_bind (keeps_ofExcept _) fun total => ?_
        refine relates_keeps_bind (keeps_ofExcept _) fun guest => ?_
        have hposts := @applyRevision_posts env (revisionKind payload)
          (revisionOf link payload roomTypeId ratePlanId nights total guest)
        rw [external_revisionOf] at hposts
        exact hposts
  · exact hfail

/-- The books after an ingest. -/
theorem ingest_posts {link : ChannexPropertyLink} {payload : ChannexBookingRevisionPayload} :
    Relates Db.books (RevisionPosts env (revisionKind payload) (externalKey payload))
      (ingestChannexBooking env link (some payload)) := by
  unfold ingestChannexBooking ingestInSession
  simp only
  split
  · exact (keeps_pure _).relates fun _ => .same rfl
  · refine relates_keeps_bind (keeps_marks marks_claimRevisionRow) fun claimed => ?_
    split
    · exact (keeps_pure _).relates fun _ => .same rfl
    · unfold ingestClaimed
      split
      · exact keeps_failRevision.relates fun _ => .same rfl
      · refine relates_keeps_bind (keeps_plain plain_resolveMaps) fun maps => ?_
        split
        · exact keeps_failRevision.relates fun _ => .same rfl
        · exact ingestMapped_posts

end Ingest

/-! Deletion -/

theorem deleteBooking_books {bid : UUID} {r : Booking} {db db' : Db}
    (h : (deleteBooking bid).exec db = (.ok r, db')) :
    db'.books = ⟨db.folio.filter fun ft => ft.bookingId ≠ bid,
      Function.update db.books.account bid none⟩ := by
  simp only [deleteBooking, exec_bind_ok, exec_select, Prod.mk.injEq, Except.ok.injEq] at h
  obtain ⟨found, _, ⟨hfound, rfl⟩, h⟩ := h
  split at h
  · cases h
  · next b =>
    simp only [exec_bind_ok, exec_raiseIf_ok, exec_pure, Prod.mk.injEq] at h
    obtain ⟨_, _, ⟨-, rfl⟩, _, db₁, hrel, _, _, herase, -, rfl⟩ := h
    have hbooks := (keeps_runIf (keeps_counts counts_release)).eq hrel
    have hfolio : db₁.folio = db.folio := congrArg Books.folio hbooks
    cases herase
    refine congrArg₂ Books.mk ?_ (funext fun id => ?_)
    · show db₁.folio.filter _ = _
      rw [hfolio]
    · show (((db₁.bookings.update bid clearLines id_clearLines).erase bid).find id).map _ = _
      by_cases hid : id = bid
      · subst hid
        rw [Table.find_erase_self, Function.update_self]
        rfl
      · rw [Table.find_erase_of_ne hid, Table.find_update_of_ne hid, Function.update_of_ne hid]
        exact congrFun (congrArg Books.account hbooks) id

end OpenPms
