import OpenPms.PatchPasses

/-!
Which errors of a patch the route answers. It catches those of the assignment, of the patch
and of insufficient inventory; whatever else the service raises leaves it.
-/
namespace OpenPms

open KeyedTable Transaction Prog Hotel

/-- The status codes of the `except` clauses of `patch_booking_by_id`. -/
def patchStatusCode : Err → Option ℕ
  | .assignBookingRoom _ code => some code
  | .patchBooking _ code => some code
  | .insufficientInventory _ => some 409
  | _ => none

/-- A clause of the route answers the error, with a code of a client error. -/
def Answered (e : Err) : Prop := ∃ code, patchStatusCode e = some code ∧ 400 ≤ code ∧ code < 500

/-- The error leaves the route. -/
def Escaping (e : Err) : Prop := ¬ Answered e

theorem answered_patch (detail : Detail) (code : ℕ) (h : 400 ≤ code ∧ code < 500) :
    ¬ Escaping (.patchBooking detail code) := fun hnot => hnot ⟨code, rfl, h⟩

theorem answered_assign (detail : String) (code : ℕ) (h : 400 ≤ code ∧ code < 500) :
    ¬ Escaping (.assignBookingRoom detail code) := fun hnot => hnot ⟨code, rfl, h⟩

theorem answered_insufficient (message : String) : ¬ Escaping (.insufficientInventory message) :=
  fun hnot => hnot ⟨409, rfl, by omega, by omega⟩

theorem not_fails_patch {α : Type} {db : Db} (detail : Detail) (code : ℕ)
    (h : 400 ≤ code ∧ code < 500) :
    ¬ FailsWith Escaping (raise (.patchBooking detail code) : Tx α) db := by
  rintro ⟨e, db', hexec, he⟩
  cases hexec
  exact answered_patch detail code h he

theorem escaping_of_none {e : Err} (h : patchStatusCode e = none) : Escaping e := by
  rintro ⟨code, hcode, -⟩
  rw [h] at hcode
  cases hcode

/-- Nothing that the tax engine raises is caught. -/
theorem TaxError.escaping {e : Err} (h : TaxError e) : Escaping e := by
  cases h with
  | signal s => cases s <;> exact escaping_of_none rfl
  | refused => exact escaping_of_none rfl

/-! Nights -/

section Statements
variable {db : Db} {rt : UUID} {nights : List ℤ}

/-- Some night has no row. -/
def Ledger.Unseeded (l : Ledger) (rt : UUID) (nights : List ℤ) : Prop :=
  ∃ d ∈ nights, l.row rt d = none

theorem Ledger.unseeded_shift {l : Ledger} {rt' : UUID} {dates : List ℤ} {n : ℤ} :
    (l.shift rt' dates n).Unseeded rt nights ↔ l.Unseeded rt nights := by
  simp [Ledger.Unseeded, Ledger.shift]

/-- The selected rows are not those of all nights exactly when one of them has none. -/
theorem selectLedger_incomplete :
    ((selectLedger rt nights db).map (·.date)).toFinset ≠ nights.toFinset ↔
      db.ledger.Unseeded rt nights := by
  have hmem : ∀ d, d ∈ ((selectLedger rt nights db).map (·.date)).toFinset ↔
      d ∈ nights ∧ (db.ledger.row rt d).isSome := by
    intro d
    rw [List.mem_toFinset, map_date_selectLedger, List.mem_filter, mem_sortedDates]
  rw [← not_iff_not, not_not, Finset.ext_iff]
  simp only [hmem, List.mem_toFinset, Ledger.Unseeded, not_exists, not_and,
    and_iff_left_iff_imp, ← Option.ne_none_iff_isSome, ne_eq]

theorem fails_lock {n : ℤ} :
    FailsWith Escaping (lockAndValidateAvailability rt nights n) db ↔
      db.ledger.Unseeded rt nights := by
  unfold lockAndValidateAvailability
  split
  · next hnil =>
    subst hnil
    refine iff_of_false (not_failsWith_of_ok rfl) ?_
    rintro ⟨d, hd, -⟩
    exact absurd hd List.not_mem_nil
  · simp only [failsWith_bind, exec_selectLedgerForUpdate, failsWith_raiseIf, exec_raiseIf_ok,
      Prod.mk.injEq, Except.ok.injEq]
    constructor
    · rintro (hsel | ⟨_, _, ⟨rfl, rfl⟩, ⟨hmissing, -⟩ | ⟨_, _, -, ⟨-, hno⟩ | ⟨_, _, -, hno⟩⟩⟩)
      · exact absurd hsel (not_failsWith_of_ok (exec_selectLedgerForUpdate ..))
      · exact selectLedger_incomplete.mp hmissing
      · exact absurd hno (answered_insufficient _)
      · exact absurd hno (not_failsWith_of_ok rfl)
    · intro hunseeded
      exact .inr ⟨_, db, ⟨rfl, rfl⟩,
        .inl ⟨selectLedger_incomplete.mpr hunseeded, escaping_of_none rfl⟩⟩

theorem raises_decrement_answered {rows : List AvailabilityLedger} {n : ℤ} :
    Raises (¬ Escaping ·) (decrementBookedRooms rows n) := by
  induction rows with
  | nil => exact raises_pure _
  | cons row rest ih =>
    exact raises_bind (raises_bind (raises_modify _) fun _ =>
      raises_raiseIf (answered_insufficient _)) fun _ => ih

theorem fails_release_nights :
    FailsWith Escaping (lockAndValidateAvailability rt nights 0 >>= fun rows =>
      decrementBookedRooms rows 1) db ↔ db.ledger.Unseeded rt nights := by
  rw [failsWith_bind, fails_lock]
  refine or_iff_left ?_
  rintro ⟨rows, db₁, -, hdec⟩
  exact absurd hdec raises_decrement_answered.not_failsWith

theorem fails_claim_nights :
    FailsWith Escaping (lockAndValidateAvailability rt nights 1 >>= fun rows =>
      incrementBookedRooms rows 1) db ↔ db.ledger.Unseeded rt nights := by
  rw [failsWith_bind, fails_lock]
  refine or_iff_left ?_
  rintro ⟨rows, db₁, -, hinc⟩
  exact absurd hinc raises_increment.not_failsWith

/-- The release of seeded nights fails with nothing but an inventory that is too small. -/
theorem fails_release {lines : List BookingLine}
    (hseeded : ∀ ln ∈ lines, (db.ledger.row ln.roomTypeId ln.date).isSome) :
    ¬ FailsWith Escaping (releaseBookingInventory lines) db := by
  unfold releaseBookingInventory
  split
  · next rt hrt =>
    rw [fails_release_nights]
    rintro ⟨d, hd, hnone⟩
    obtain ⟨ln, hln, rfl⟩ := List.mem_map.mp hd
    have hsome := hseeded ln hln
    rw [roomTypeId_of_single hrt hln, hnone] at hsome
    cases hsome
  · exact not_failsWith_of_ok rfl

/-! Dates -/

variable {env : Env} {b : Booking}

theorem fails_rebuildLines {stay : PricedStay} {notes : Option (Option String)}
    (hfind : db.bookings.find b.id = some b) :
    FailsWith Escaping (rebuildLines env b stay.roomTypeId stay.total stay.perNight notes) db ↔
      ¬ Rebuilds env b stay notes := by
  have hraises : Raises Escaping
      (rebuildLines env b stay.roomTypeId stay.total stay.perNight notes) :=
    raises_rebuildLines (escaping_of_none rfl) (escaping_of_none rfl) (escaping_of_none rfl)
      (fun _ => TaxError.escaping) (escaping_of_none rfl)
  rw [hraises.failsWith_iff]
  constructor
  · intro hnot hbuild
    exact hnot _ _ ((exec_rebuildLines_iff hfind).mpr ⟨hbuild, rfl, rfl⟩)
  · intro hnot charge db' hexec
    exact hnot ((exec_rebuildLines_iff hfind).mp hexec).1

/-- Missing rates are answered, and there is no other error. -/
theorem raises_pricing {ratePlan : UUID} {ci co : ℤ} (hlt : ci < co)
    (hspan : co - ci ≤ maxStayNights) {handler : Err → Tx (Money × List (ℤ × Money))}
    (hhandler : ∀ dates, handler (.missingRates dates) =
      raise (.patchBooking (.missingRates dates) 422)) :
    Raises (¬ Escaping ·) ((sumRatesForStay rt ratePlan ci co).tryCatch handler) := by
  have hsum : Raises (fun e => ∃ dates, e = .missingRates dates)
      (sumRatesForStay rt ratePlan ci co) := by
    unfold sumRatesForStay
    rw [stayNights_of_span hlt hspan]
    exact raises_bind (raises_pure _) fun _ => raises_bind (raises_select _) fun _ =>
      raises_bind (raises_raiseIf ⟨_, rfl⟩) fun _ => raises_pure _
  refine raises_tryCatch hsum ?_
  rintro _ ⟨dates, rfl⟩
  rw [hhandler]
  exact raises_raise (answered_patch _ _ (by omega))

/-- The ways out of a date change: nights that the ledger has no row for, and rows that cannot
be written. -/
theorem fails_rebookNights {ratePlan : UUID} {ci co : ℤ} {notes : Option (Option String)}
    (hfind : db.bookings.find b.id = some b) (hlt : ci < co) (hspan : co - ci ≤ maxStayNights) :
    FailsWith Escaping (rebookNights env b ratePlan rt ci co notes) db ↔
      db.ledger.Unseeded rt b.nights ∨ db.ledger.Releasable rt b.nights ∧
        ∃ stay : PricedStay, stay.roomTypeId = rt ∧ stay.checkIn = ci ∧ stay.checkOut = co ∧
          stay.RatedBy ratePlan db ∧ (db.ledger.Unseeded rt stay.nights ∨
            (db.ledger.shift rt b.nights (-1)).Open rt stay.nights 1 ∧
              ¬ Rebuilds env b stay notes) := by
  obtain ⟨refuse, hrefuse, hmissing, hgroup⟩ : ∃ refuse : Err → Tx (Money × List (ℤ × Money)),
      (∀ e, ∃ e', refuse e = raise e') ∧ (∀ dates, refuse (.missingRates dates) =
        raise (.patchBooking (.missingRates dates) 422)) ∧
        rebookNights env b ratePlan rt ci co notes =
        (lockAndValidateAvailability rt (sortedDates b.nights) 0 >>= fun rows =>
          decrementBookedRooms rows 1) >>= fun _ =>
        (sumRatesForStay rt ratePlan ci co).tryCatch refuse >>= fun priced =>
        (lockAndValidateAvailability rt (daysBetween ci co) 1 >>= fun rows =>
          incrementBookedRooms rows 1) >>= fun _ =>
        rebuildLines env b rt priced.1 priced.2 notes := by
    simp only [rebookNights, stayNights_of_span hlt hspan, pure_bind, bind_assoc]
    refine ⟨_, ?_, fun _ => rfl, rfl⟩
    intro e
    split <;> exact ⟨_, rfl⟩
  have hold : db.ledger.Unseeded rt (sortedDates b.nights) ↔ db.ledger.Unseeded rt b.nights := by
    simp only [Ledger.Unseeded, mem_sortedDates]
  rw [hgroup, failsWith_bind, fails_release_nights, hold]
  refine or_congr_right ?_
  constructor
  · rintro ⟨_, db₁, hrelease, hrest⟩
    obtain ⟨rows, db₂, hlock, hdec⟩ := exec_bind_ok.mp hrelease
    obtain ⟨hrel, rfl⟩ := exec_release_nights_ok hlock hdec
    refine ⟨hrel, ?_⟩
    rcases failsWith_bind.mp hrest with hpricing | ⟨⟨total, perNight⟩, db₂, hsum, hrest⟩
    · exact absurd hpricing (raises_pricing hlt hspan hmissing).not_failsWith
    · rw [exec_tryCatch_ok_of_raises hrefuse] at hsum
      obtain ⟨rfl, stay, rfl, rfl, rfl, rfl, rfl, hrated⟩ := exec_sumRates_iff.mp hsum
      refine ⟨stay, rfl, rfl, rfl, hrated, ?_⟩
      rcases failsWith_bind.mp hrest with hclaim | ⟨_, db₃, hclaim, hrebuild⟩
      · exact .inl (Ledger.unseeded_shift.mp (fails_claim_nights.mp hclaim))
      · obtain ⟨hopen, rfl⟩ := exec_lock_increment_ok.mp hclaim
        exact .inr ⟨hopen, (fails_rebuildLines (by exact hfind)).mp hrebuild⟩
  · rintro ⟨hrel, stay, rfl, rfl, rfl, hrated, hlast⟩
    refine ⟨(), db.setLedger (db.ledger.shift stay.roomTypeId b.nights (-1)),
      exec_release_nights hrel, failsWith_bind.mpr (.inr ⟨(stay.total, stay.perNight),
        db.setLedger (db.ledger.shift stay.roomTypeId b.nights (-1)), ?_, failsWith_bind.mpr ?_⟩)⟩
    · rw [exec_tryCatch_ok_of_raises hrefuse]
      exact exec_sumRates_iff.mpr ⟨rfl, stay, rfl, rfl, rfl, rfl, rfl, hrated⟩
    · rcases hlast with hunseeded | ⟨hopen, hover⟩
      · exact .inl (fails_claim_nights.mpr (Ledger.unseeded_shift.mpr hunseeded))
      · exact .inr ⟨(), _, exec_lock_increment_ok.mpr ⟨hopen, rfl⟩,
          (fails_rebuildLines (by exact hfind)).mpr hover⟩

/-! The parts of a patch -/

theorem raises_assign_answered {bid : UUID} {roomId : Option UUID} :
    Raises (¬ Escaping ·) (assignBookingRoom bid roomId) := by
  refine raises_bind (raises_select _) fun found => ?_
  cases found with
  | none => exact raises_raise (answered_assign _ _ (by omega))
  | some booking =>
    refine raises_bind (raises_raiseIf (answered_assign _ _ (by omega))) fun _ =>
      raises_bind (raises_raiseIf (answered_assign _ _ (by omega))) fun _ => ?_
    split
    · exact raises_assignRoomOfType (answered_assign _ _ (by omega))
        (answered_assign _ _ (by omega)) (answered_assign _ _ (by omega))
        (answered_assign _ _ (by omega))
    · exact raises_raise (answered_assign _ _ (by omega))

theorem raises_inactive_answered {body : BookingPatchRequest} :
    Raises (¬ Escaping ·) (checkInactive b body) :=
  raises_checkInactive (fun _ => answered_patch _ _ (by omega)) (answered_patch _ _ (by omega))

theorem raises_restore_answered {bid : UUID} {charge : Money} {room : Option UUID} :
    Raises (¬ Escaping ·) (restoreRoom bid charge room) := by
  cases room with
  | none => exact raises_pure _
  | some room =>
    exact raises_bind raises_assign_answered fun _ => raises_bind (raises_select _) fun _ =>
      raises_pure _

theorem raises_patchRoom_answered {bid : UUID} {body : BookingPatchRequest} {pl : PatchLines} :
    Raises (¬ Escaping ·) (patchRoomAssignment bid body pl) := by
  unfold patchRoomAssignment
  split
  · exact raises_pure _
  · refine raises_bind raises_assign_answered fun _ => ?_
    split
    · exact raises_pure _
    · exact raises_bind (raises_select _) fun _ => raises_pure _

variable {body : BookingPatchRequest} {pl : PatchLines}

/-- The old nights are released and all new ones have rates. -/
structure Reprices (db : Db) (b : Booking) (body : BookingPatchRequest) (stay : PricedStay) :
    Prop where
  asked : AsksFor b body stay
  rated : ∃ ratePlan, b.ratePlanId = some ratePlan ∧ stay.RatedBy ratePlan db
  releasable : db.ledger.Releasable stay.roomTypeId b.nights

/-- The new nights can be claimed on the ledger without the old ones. -/
def Vacant (db : Db) (b : Booking) (stay : PricedStay) : Prop :=
  (db.ledger.shift stay.roomTypeId b.nights (-1)).Open stay.roomTypeId stay.nights 1

/-- The date fields of a request leave the service: null is compared with a date, a night
has no ledger row, or a row of the stay cannot be written. -/
inductive DatesEscape (env : Env) (db : Db) (b : Booking) (body : BookingPatchRequest) : Prop
  | null (hnull : body.checkIn = some none ∨ body.checkOut = some none) (hlines : b.lines ≠ [])
  | unseeded (stay : PricedStay) (h : Reprices db b body stay)
      (hunseeded : db.ledger.Unseeded stay.roomTypeId stay.nights)
  | unwritten (stay : PricedStay) (h : Reprices db b body stay) (hvacant : Vacant db b stay)
      (hrows : ¬ Rebuilds env b stay body.notes)

theorem fails_changeDates {ci co : ℤ} (hfind : db.bookings.find b.id = some b)
    (hseeded : ∀ ln ∈ b.lines, (db.ledger.row ln.roomTypeId ln.date).isSome)
    (hdates : body.checkIn ≠ none ∨ body.checkOut ≠ none)
    (hbounds : requestedBounds b body = (some ci, some co)) (hlt : ci < co)
    (hspan : co - ci ≤ maxStayNights) (hchanged : (ci, co) ≠ stayBounds b.lines) :
    FailsWith Escaping (changeDates env b body ci co) db ↔ ∃ stay, Reprices db b body stay ∧
      (db.ledger.Unseeded stay.roomTypeId stay.nights ∨
        Vacant db b stay ∧ ¬ Rebuilds env b stay body.notes) := by
  unfold changeDates
  split
  · next hplan =>
    refine iff_of_false (not_fails_patch _ _ (by omega)) ?_
    rintro ⟨stay, h, -⟩
    obtain ⟨ratePlan, hsome, -⟩ := h.rated
    rw [hplan] at hsome
    cases hsome
  · next ratePlan hplan =>
    split
    · next rt hrt =>
      have hold : ¬ db.ledger.Unseeded rt b.nights := by
        rintro ⟨d, hd, hnone⟩
        obtain ⟨ln, hln, rfl⟩ := mem_nights.mp hd
        have hsome := hseeded ln hln
        rw [roomTypeId_of_single hrt hln, hnone] at hsome
        cases hsome
      rw [failsWith_bind, fails_rebookNights hfind hlt hspan, or_iff_right hold]
      constructor
      · rintro (⟨hrel, stay, rfl, rfl, rfl, hrated, hlast⟩ | ⟨charge, db₁, -, hrestore⟩)
        · exact ⟨stay, ⟨⟨hdates, hbounds, hchanged, hrt⟩, ⟨ratePlan, hplan, hrated⟩, hrel⟩, hlast⟩
        · exact absurd hrestore raises_restore_answered.not_failsWith
      · rintro ⟨stay, h, hlast⟩
        obtain ⟨ratePlan', hplan', hrated⟩ := h.rated
        cases hplan.symm.trans hplan'
        cases hrt.symm.trans h.asked.roomType
        cases hbounds.symm.trans h.asked.bounds
        exact .inl ⟨h.releasable, stay, rfl, rfl, rfl, hrated, hlast⟩
    · next hmany =>
      refine iff_of_false (not_fails_patch _ _ (by omega)) ?_
      rintro ⟨stay, h, -⟩
      exact hmany _ h.asked.roomType

theorem datesEscape_iff {ci co : ℤ} (hbounds : requestedBounds b body = (some ci, some co)) :
    DatesEscape env db b body ↔ ∃ stay, Reprices db b body stay ∧
      (db.ledger.Unseeded stay.roomTypeId stay.nights ∨
        Vacant db b stay ∧ ¬ Rebuilds env b stay body.notes) := by
  constructor
  · intro hescape
    cases hescape with
    | null hnull _ =>
      rw [← requestedBounds_null, hbounds] at hnull
      rcases hnull with hnull | hnull <;> cases hnull
    | unseeded stay h hunseeded => exact ⟨stay, h, .inl hunseeded⟩
    | unwritten stay h hvacant hrows => exact ⟨stay, h, .inr ⟨hvacant, hrows⟩⟩
  · rintro ⟨stay, h, hunseeded | ⟨hvacant, hrows⟩⟩
    · exact .unseeded stay h hunseeded
    · exact .unwritten stay h hvacant hrows

theorem fails_patchDates (hfind : db.bookings.find b.id = some b)
    (hseeded : ∀ ln ∈ b.lines, (db.ledger.row ln.roomTypeId ln.date).isSome) :
    FailsWith Escaping (patchDates env b body) db ↔ DatesEscape env db b body := by
  unfold patchDates
  by_cases habsent : body.checkIn = none ∧ body.checkOut = none
  · rw [if_pos habsent]
    refine iff_of_false (not_failsWith_of_ok rfl) fun hescape => ?_
    cases hescape with
    | null hnull _ => rcases hnull with hnull | hnull <;> simp [habsent] at hnull
    | unseeded stay h _ => exact h.asked.dates.elim (· habsent.1) (· habsent.2)
    | unwritten stay h _ _ => exact h.asked.dates.elim (· habsent.1) (· habsent.2)
  · rw [if_neg habsent]
    have hdates : body.checkIn ≠ none ∨ body.checkOut ≠ none := not_and_or.mp habsent
    by_cases hlines : b.lines = []
    · simp only [hlines, raiseIf, if_true]
      refine iff_of_false (not_fails_patch _ _ (by omega)) fun hescape => ?_
      cases hescape with
      | null _ hne => exact hne hlines
      | unseeded stay h _ => exact h.asked.lines_ne_nil hlines
      | unwritten stay h _ _ => exact h.asked.lines_ne_nil hlines
    · simp only [raiseIf, hlines, if_false]
      have hnull : (requestedBounds b body).1 = none ∨ (requestedBounds b body).2 = none →
          DatesEscape env db b body := fun h => .null (requestedBounds_null.mp h) hlines
      have htype : FailsWith Escaping (raise .typeError : Tx PatchLines) db :=
        ⟨_, _, rfl, escaping_of_none rfl⟩
      rcases hbounds : requestedBounds b body with ⟨_ | ci, _ | co⟩ <;>
        obtain ⟨hci, hco⟩ := Prod.mk.inj hbounds <;> rw [hci, hco]
      · exact iff_of_true htype (hnull (by simp [hbounds]))
      · exact iff_of_true htype (hnull (by simp [hbounds]))
      · exact iff_of_true htype (hnull (by simp [hbounds]))
      · rw [datesEscape_iff hbounds]
        simp only
        by_cases hlt : co ≤ ci
        · simp only [hlt, if_true]
          refine iff_of_false (not_fails_patch _ _ (by omega)) ?_
          rintro ⟨stay, h, -⟩
          cases hbounds.symm.trans h.asked.bounds
          exact absurd stay.checkIn_lt hlt.not_gt
        · by_cases hspan : (maxStayNights : ℤ) < co - ci
          · simp only [hlt, hspan, if_false, if_true]
            refine iff_of_false (not_fails_patch _ _ (by omega)) ?_
            rintro ⟨stay, h, -⟩
            cases hbounds.symm.trans h.asked.bounds
            exact absurd stay.span_le hspan.not_ge
          · simp only [hlt, hspan, if_false]
            by_cases hsame : (ci, co) = stayBounds b.lines
            · have hno : ¬ (ci ≠ (stayBounds b.lines).1 ∨ co ≠ (stayBounds b.lines).2) := by
                simp [← hsame]
              simp only [hno, if_false]
              refine iff_of_false (not_failsWith_of_ok rfl) ?_
              rintro ⟨stay, h, -⟩
              cases hbounds.symm.trans h.asked.bounds
              exact h.asked.changed hsame
            · have hyes : ci ≠ (stayBounds b.lines).1 ∨ co ≠ (stayBounds b.lines).2 := by
                by_contra hnot
                push Not at hnot
                exact hsame (Prod.ext hnot.1 hnot.2)
              simp only [hyes, if_true]
              exact fails_changeDates hfind hseeded hdates hbounds (not_le.mp hlt)
                (not_lt.mp hspan) hsame

/-! The status -/

theorem raises_transition_answered {old : BookingStatus} {target : String} :
    Raises (¬ Escaping ·) (checkTransition old target) :=
  raises_checkTransition fun _ => answered_patch _ _ (by omega)

theorem raises_checkin_answered : Raises (¬ Escaping ·) (checkinRequirements env b) := by
  refine raises_bind (raises_select _) fun guest => ?_
  cases guest with
  | none => exact raises_raise (answered_patch _ _ (by omega))
  | some g => exact raises_raiseIf (answered_patch _ _ (by omega))

theorem not_fails_update {bid : UUID} {b₁ : Booking} {f : Booking → Booking}
    {hf : ∀ b, (f b).id = b.id} (hfind : db.bookings.find bid = some b₁) :
    ¬ FailsWith Escaping (updateBookingRow bid f hf) db := by
  have hok : (updateBookingRow bid f hf).exec db = (.ok (), db.updateBooking bid f hf) :=
    exec_updateBookingRow_ok.mpr ⟨⟨b₁, hfind⟩, rfl⟩
  exact not_failsWith_of_ok hok

/-- Expired lines cannot be loaded; loaded ones are released. -/
theorem fails_releaseLoaded {loaded : Option (List BookingLine)}
    (hseeded : ∀ ls, loaded = some ls →
      ∀ ln ∈ ls, (db.ledger.row ln.roomTypeId ln.date).isSome) :
    FailsWith Escaping (releaseLoaded loaded) db ↔ loaded = none := by
  cases loaded with
  | none => exact iff_of_true ⟨_, db, rfl, escaping_of_none rfl⟩ rfl
  | some ls => exact iff_of_false (fails_release (hseeded ls rfl)) (by simp)

theorem find_releaseLoaded {loaded : Option (List BookingLine)} {u : Unit} {db' : Db}
    (h : (releaseLoaded loaded).exec db = (.ok u, db')) : db'.bookings = db.bookings := by
  cases loaded with
  | none => cases h
  | some ls =>
    rcases exec_release_cases h with rfl | ⟨rt, -, -, rfl⟩
    · rfl
    · rfl

theorem exec_transition_no_show (db : Db) :
    (checkTransition .confirmed "no_show").exec db = (.ok (), db) := by
  have hvalid : validateStatusTransition BookingStatus.confirmed.text "no_show" = .ok () := by
    decide
  rw [checkTransition, hvalid]
  rfl

/-- The way out of a status change is a no-show of a confirmed booking whose lines have
expired. -/
theorem fails_patchStatus {b₁ : Booking} (hfind : db.bookings.find b.id = some b₁)
    (hseeded : b.status = .confirmed → ∀ ls, pl.loaded = some ls →
      ∀ ln ∈ ls, (db.ledger.row ln.roomTypeId ln.date).isSome) :
    FailsWith Escaping (patchStatus env b body pl) db ↔
      pl.loaded = none ∧ AsksForNoShow body ∧ b.status = .confirmed := by
  unfold patchStatus
  split
  · next hbody =>
    refine iff_of_false (not_failsWith_of_ok rfl) ?_
    rintro ⟨-, ⟨text, hsome, -⟩, -⟩
    rw [hbody] at hsome
    cases hsome
  · next text hbody =>
    rw [failsWith_bind, or_iff_right raises_transition_answered.not_failsWith]
    constructor
    · rintro ⟨_, db₁, hcheck, hrest⟩
      obtain ⟨rfl, -⟩ := exec_checkTransition_ok hcheck
      rcases failsWith_bind.mp hrest with hreq | ⟨_, db₂, hreq, hrest⟩
      · exact absurd (failsWith_runIf.mp hreq).2 raises_checkin_answered.not_failsWith
      · have hdb₂ : db = db₂ := by
          rcases exec_runIf_ok.mp hreq with ⟨-, hreq⟩ | ⟨-, hreq⟩
          · exact exec_checkinRequirements_ok hreq
          · exact hreq
        subst hdb₂
        rcases failsWith_bind.mp hrest with hrel | ⟨_, db₃, hrel, hrest⟩
        · obtain ⟨⟨hnew, hconf⟩, hrel⟩ := failsWith_runIf.mp hrel
          rw [hconf] at hnew
          exact ⟨(fails_releaseLoaded (hseeded hconf)).mp hrel, asksForNoShow_of_status hbody hnew,
            hconf⟩
        · have hbookings : db₃.bookings = db.bookings := by
            rcases exec_runIf_ok.mp hrel with ⟨-, hrel⟩ | ⟨-, rfl⟩
            · exact find_releaseLoaded hrel
            · rfl
          rcases failsWith_bind.mp hrest with hupd | ⟨_, _, -, hpure⟩
          · exact absurd (failsWith_runIf.mp hupd).2 (not_fails_update (hbookings ▸ hfind))
          · exact absurd hpure (not_failsWith_of_ok rfl)
    · rintro ⟨hnone, ⟨t, hsome, ht⟩, hconf⟩
      cases hbody.symm.trans hsome
      rw [statusText, ht, hconf]
      refine ⟨(), db, exec_transition_no_show db, failsWith_bind.mpr (.inr ⟨(), db, rfl,
        failsWith_bind.mpr (.inl (failsWith_runIf.mpr ⟨⟨rfl, rfl⟩, ?_⟩))⟩)⟩
      exact (fails_releaseLoaded (hseeded hconf)).mpr hnone

/-! The parts after the dates -/

theorem SameNights.seeded {lines lines' : List BookingLine} (h : SameNights lines lines')
    (hseeded : ∀ ln ∈ lines', (db.ledger.row ln.roomTypeId ln.date).isSome) :
    ∀ ln ∈ lines, (db.ledger.row ln.roomTypeId ln.date).isSome := by
  intro ln hln
  have hmem : (ln.roomTypeId, ln.date) ∈ lines.map fun ln => (ln.roomTypeId, ln.date) :=
    List.mem_map_of_mem hln
  rw [h] at hmem
  obtain ⟨ln', hln', heq⟩ := List.mem_map.mp hmem
  obtain ⟨hrt, hd⟩ := Prod.mk.inj heq
  rw [← hrt, ← hd]
  exact hseeded ln' hln'

/-- The last flush has a column that takes neither the notes nor the room charge. -/
theorem fails_rest {b₁ : Booking} {s : BookingStatus} (hfind : db.bookings.find b.id = some b₁) :
    FailsWith Escaping (checkoutWarning b s pl >>= fun warning =>
      flushRoomCharge b.id pl.roomCharge >>= fun _ => patchNotes b body.notes >>= fun _ =>
      (pure warning : Tx (Option Money))) db ↔
      (∃ amount ∈ pl.roomCharge, ¬ db.TakesCharge b.id amount) ∨
        notesStorable body.notes = false := by
  have hwarn : ∃ w db₁, (checkoutWarning b s pl).exec db = (.ok w, db₁) ∧
      db₁.bookings = db.bookings ∧ db₁.folio = db.folio := by
    unfold checkoutWarning
    split
    · exact ⟨_, _, rfl, rfl, rfl⟩
    · exact ⟨_, _, rfl, rfl, rfl⟩
  obtain ⟨w, db₁, hwarn, hbookings, hfolio⟩ := hwarn
  have htakes : ∀ amount, db₁.TakesCharge b.id amount ↔ db.TakesCharge b.id amount :=
    fun amount => takesCharge_congr (by rw [hfolio])
  have hraises : Raises Escaping (flushRoomCharge b.id pl.roomCharge >>= fun _ =>
      patchNotes b body.notes >>= fun _ => (pure w : Tx (Option Money))) := by
    refine raises_bind ?_ fun _ => raises_bind (raises_patchNotes (escaping_of_none rfl)
      (escaping_of_none rfl)) fun _ => raises_pure _
    cases pl.roomCharge with
    | none => exact raises_pure _
    | some amount => exact raises_folioCharge (escaping_of_none rfl)
  rw [failsWith_bind_of_ok hwarn, hraises.failsWith_iff]
  constructor
  · intro hnot
    by_contra hno
    push Not at hno
    obtain ⟨htake, hnotes⟩ := hno
    have hfind₁ : (db₁.charged b.id pl.roomCharge).bookings.find b.id = some b₁ := by
      rw [bookings_charged, hbookings, hfind]
    refine hnot w _ (exec_bind_ok.mpr ⟨(), _, exec_flushRoomCharge_iff.mpr ⟨?_, rfl⟩,
      exec_bind_ok.mpr ⟨(), _, (exec_patchNotes_iff hfind₁).mpr ⟨by simpa using hnotes, rfl⟩, rfl⟩⟩)
    exact fun amount hamount => (htakes amount).mpr (htake amount hamount)
  · intro hno w' db' hexec
    obtain ⟨_, _, hcharge, hrest⟩ := exec_bind_ok.mp hexec
    obtain ⟨htake, rfl⟩ := exec_flushRoomCharge_iff.mp hcharge
    obtain ⟨_, _, hnotes, -⟩ := exec_bind_ok.mp hrest
    have hfind₁ : (db₁.charged b.id pl.roomCharge).bookings.find b.id = some b₁ := by
      rw [bookings_charged, hbookings, hfind]
    rcases hno with ⟨amount, hamount, hnot⟩ | hnot
    · exact hnot ((htakes amount).mp (htake amount hamount))
    · rw [((exec_patchNotes_iff hfind₁).mp hnotes).1] at hnot
      cases hnot

/-- After dates and room the ways out are a no-show while the lines are expired, and the last
flush. -/
theorem fails_finish {lines : List BookingLine} (hon : OnNights db b.id lines pl)
    (hseeded : b.status = .confirmed →
      ∀ ln ∈ lines, (db.ledger.row ln.roomTypeId ln.date).isSome) :
    FailsWith Escaping (do
      let status ← patchStatus env b body pl
      let warning ← checkoutWarning b status pl
      flushRoomCharge b.id pl.roomCharge
      patchNotes b body.notes
      pure warning : Tx (Option Money)) db ↔
      (pl.loaded = none ∧ AsksForNoShow body ∧ b.status = .confirmed) ∨
      StatusPasses env db db.ledger b body pl.loaded ∧
        ((∃ amount ∈ pl.roomCharge, ¬ db.TakesCharge b.id amount) ∨
          notesStorable body.notes = false) := by
  obtain ⟨b₁, hfind, -⟩ := hon.found
  have hstatus := @fails_patchStatus _ env b body pl b₁ hfind
    fun hconf ls hls => (hon.loaded ls hls).seeded (hseeded hconf)
  rw [failsWith_bind, hstatus, ← exec_patchStatus_iff hfind]
  refine or_congr_right ?_
  have hrest : ∀ {s db₁}, (patchStatus env b body pl).exec db = (.ok s, db₁) →
      (FailsWith Escaping (checkoutWarning b s pl >>= fun warning =>
        flushRoomCharge b.id pl.roomCharge >>= fun _ => patchNotes b body.notes >>= fun _ =>
        (pure warning : Tx (Option Money))) db₁ ↔
        (∃ amount ∈ pl.roomCharge, ¬ db.TakesCharge b.id amount) ∨
          notesStorable body.notes = false) := by
    intro s db₁ hdone
    obtain ⟨b₂, hfind₂, -⟩ := (hon.status hdone).1.found
    have hfolio := (exec_patchStatus_ok hdone).1
    have htakes : ∀ amount, db₁.TakesCharge b.id amount ↔ db.TakesCharge b.id amount :=
      fun amount => takesCharge_congr (by rw [hfolio])
    rw [fails_rest hfind₂]
    simp only [htakes]
  constructor
  · rintro ⟨s, db₁, hdone, hfails⟩
    exact ⟨⟨s, db₁, hdone⟩, (hrest hdone).mp hfails⟩
  · rintro ⟨⟨s, db₁, hdone⟩, hlast⟩
    exact ⟨s, db₁, hdone, (hrest hdone).mpr hlast⟩

/-- The requests of a booking whose error leaves the route: those of the dates, a change of
dates with a no-show when no room is assigned again in between, and those that go through up to
the last flush, where a column does not take the notes or the room charge of the new dates. -/
inductive PatchEscapes (env : Env) (db : Db) (b : Booking) (body : BookingPatchRequest) : Prop
  | dates (hcancel : cancels body = false) (hactive : b.status.Active)
      (h : DatesEscape env db b body)
  | expired (stay : PricedStay) (h : Reprices db b body stay) (hvacant : Vacant db b stay)
      (hrows : Rebuilds env b stay body.notes) (hroom : roomAfterMove b body = none)
      (hask : AsksForNoShow body) (hconf : b.status = .confirmed)
  | roomCharge (stay : PricedStay) (hcancel : cancels body = false) (hactive : b.status.Active)
      (h : Reprices db b body stay) (hvacant : Vacant db b stay)
      (hrows : Rebuilds env b stay body.notes)
      (hroom : ∀ room, roomAfterMove b body = some room →
        Assigns db (setLines stay b.ratePlanId b) room)
      (hstatus : StatusPasses env db
        ((db.ledger.shift stay.roomTypeId b.nights (-1)).shift stay.roomTypeId stay.nights 1) b body
        (movedLines env b body stay).loaded)
      (hcharge : ¬ db.TakesCharge b.id (posting env b.propertyId stay.total).1)
  | notes (hcancel : cancels body = false) (hinactive : InactivePasses b body)
      (hkeeps : KeepsDates b body) (hroom : ∀ room, body.roomId = some room → Assigns db b room)
      (hstatus : StatusPasses env db db.ledger b body (some b.lines))
      (hnotes : notesStorable body.notes = false)
  | cancelNotes (hcancel : cancels body = true) (h : CancelPasses db b)
      (hnotes : notesStorable body.notes = false)

theorem fails_notes {b₁ : Booking} {w : Option Money} (hfind : db.bookings.find b.id = some b₁) :
    FailsWith Escaping (patchNotes b body.notes >>= fun _ => (pure w : Tx (Option Money))) db ↔
      notesStorable body.notes = false := by
  have hraises : Raises Escaping (patchNotes b body.notes >>= fun _ =>
      (pure w : Tx (Option Money))) :=
    raises_bind (raises_patchNotes (escaping_of_none rfl) (escaping_of_none rfl)) fun _ =>
      raises_pure _
  rw [hraises.failsWith_iff]
  constructor
  · intro hnot
    by_contra hno
    exact hnot w _ (exec_bind_ok.mpr ⟨(), _,
      (exec_patchNotes_iff hfind).mpr ⟨by simpa using hno, rfl⟩, rfl⟩)
  · intro hno w' db' hexec
    obtain ⟨_, _, hnotes, -⟩ := exec_bind_ok.mp hexec
    rw [((exec_patchNotes_iff hfind).mp hnotes).1] at hno
    cases hno

/-- Only an active booking gets as far as its nights. -/
theorem fails_patchCancel (hfind : db.bookings.find b.id = some b)
    (hseeded : b.status.Active → ∀ ln ∈ b.lines, (db.ledger.row ln.roomTypeId ln.date).isSome) :
    ¬ FailsWith Escaping (patchCancel b) db := by
  unfold patchCancel
  split
  · next hne =>
    rw [failsWith_bind, or_iff_right raises_transition_answered.not_failsWith]
    rintro ⟨_, db₁, hcheck, hrest⟩
    obtain ⟨rfl, new, hnew, hcase⟩ := exec_checkTransition_ok hcheck
    rw [normalizeBookingStatus_text] at hnew
    have hcancelled : new = .cancelled := (text_injective hnew).symm
    rw [hcancelled] at hcase
    have hactive := active_of_allowed (hcase.resolve_left (Ne.symm hne))
    rcases failsWith_bind.mp hrest with hrel | ⟨_, db₁, hrel, hupd⟩
    · exact fails_release (hseeded hactive) hrel
    · have hbookings : db₁.bookings = db.bookings :=
        @find_releaseLoaded db (some b.lines) _ _ hrel
      exact not_fails_update (hbookings ▸ hfind) hupd
  · exact not_failsWith_of_ok rfl

theorem not_cancels_of_no_show (hask : AsksForNoShow body) : cancels body ≠ true := by
  obtain ⟨text, hbody, htext⟩ := hask
  rw [cancels, hbody]
  simp only [htext]
  decide

theorem fails_datesAndRoom (hfind : db.bookings.find b.id = some b)
    (hseeded : ∀ ln ∈ b.lines, (db.ledger.row ln.roomTypeId ln.date).isSome) :
    FailsWith Escaping (patchDates env b body >>= patchRoomAssignment b.id body) db ↔
      DatesEscape env db b body := by
  rw [failsWith_bind, fails_patchDates hfind hseeded]
  refine or_iff_left ?_
  rintro ⟨pl, db₁, -, hroom⟩
  exact absurd hroom raises_patchRoom_answered.not_failsWith

theorem onNights_assigned {room : Option (Option UUID)} {b₁ : Booking}
    (hfind : db.bookings.find b.id = some b₁)
    (hloaded : ∀ ls, pl.loaded = some ls → SameNights ls b₁.lines) :
    OnNights (db.assigned b.id room) b.id b₁.lines pl :=
  ⟨⟨_, find_assigned hfind, sameNights_assigned⟩, hloaded⟩

theorem statusPasses_assigned {room : Option (Option UUID)} {loaded : Option (List BookingLine)} :
    StatusPasses env (db.assigned b.id room) (db.assigned b.id room).ledger b body loaded ↔
      StatusPasses env db db.ledger b body loaded := by
  cases room with
  | none => exact Iff.rfl
  | some r => exact ⟨fun h => ⟨h.transition, h.checkIn, h.noShow⟩,
      fun h => ⟨h.transition, h.checkIn, h.noShow⟩⟩

theorem takesCharge_assigned {room : Option (Option UUID)} {bid : UUID} {amount : Money} :
    (db.assigned b.id room).TakesCharge bid amount ↔ db.TakesCharge bid amount :=
  takesCharge_congr (by rw [folio_assigned])

/-- A request that keeps the dates has the last flush as its only way out. -/
theorem fails_kept (hfind : db.bookings.find b.id = some b)
    (hseeded : b.status = .confirmed →
      ∀ ln ∈ b.lines, (db.ledger.row ln.roomTypeId ln.date).isSome) :
    FailsWith Escaping (do
      let status ← patchStatus env b body (.ofBooking b)
      let warning ← checkoutWarning b status (.ofBooking b)
      flushRoomCharge b.id (PatchLines.ofBooking b).roomCharge
      patchNotes b body.notes
      pure warning : Tx (Option Money)) (db.assigned b.id body.roomId) ↔
      StatusPasses env db db.ledger b body (some b.lines) ∧ notesStorable body.notes = false := by
  have hon : OnNights (db.assigned b.id body.roomId) b.id b.lines (.ofBooking b) := by
    refine onNights_assigned hfind fun ls hls => ?_
    cases hls
    rfl
  have hledger : (db.assigned b.id body.roomId).ledger = db.ledger := by
    cases body.roomId <;> rfl
  rw [fails_finish hon (by rw [hledger]; exact hseeded), statusPasses_assigned]
  simp [PatchLines.ofBooking]

/-- A request that moves the booking can meet expired lines, and then the last flush. -/
theorem fails_moved {stay : PricedStay} (hfind : db.bookings.find b.id = some b)
    (hvacant : Vacant db b stay) (hnotes : notesStorable body.notes = true) :
    FailsWith Escaping (do
      let status ← patchStatus env b body (movedLines env b body stay)
      let warning ← checkoutWarning b status (movedLines env b body stay)
      flushRoomCharge b.id (movedLines env b body stay).roomCharge
      patchNotes b body.notes
      pure warning : Tx (Option Money))
        ((db.rebooked env b stay).assigned b.id (roomAfterMove b body)) ↔
      (roomAfterMove b body = none ∧ AsksForNoShow body ∧ b.status = .confirmed) ∨
      StatusPasses env db
        ((db.ledger.shift stay.roomTypeId b.nights (-1)).shift stay.roomTypeId stay.nights 1) b body
        (movedLines env b body stay).loaded ∧
        ¬ db.TakesCharge b.id (posting env b.propertyId stay.total).1 := by
  have hfind₁ : (db.rebooked env b stay).bookings.find b.id =
      some (setLines stay b.ratePlanId b) := find_rebooked hfind
  have hon : OnNights ((db.rebooked env b stay).assigned b.id (roomAfterMove b body)) b.id
      (setLines stay b.ratePlanId b).lines (movedLines env b body stay) := by
    refine onNights_assigned hfind₁ fun ls hls => ?_
    obtain ⟨room, -, rfl⟩ := Option.map_eq_some_iff.mp hls
    exact sameNights_setRoom room _
  have hledger : ((db.rebooked env b stay).assigned b.id (roomAfterMove b body)).ledger =
      (db.ledger.shift stay.roomTypeId b.nights (-1)).shift stay.roomTypeId stay.nights 1 := by
    cases roomAfterMove b body <;> rfl
  have hrows : ∀ ln ∈ (setLines stay b.ratePlanId b).lines,
      ((((db.rebooked env b stay).assigned b.id (roomAfterMove b body)).ledger.row
        ln.roomTypeId ln.date)).isSome := by
    intro ln hln
    rw [hledger, Ledger.isSome_shift]
    exact stay.isSome_of_open hvacant hln
  have hstatus : StatusPasses env (db.rebooked env b stay) (db.rebooked env b stay).ledger b body
      (movedLines env b body stay).loaded ↔ StatusPasses env db
        ((db.ledger.shift stay.roomTypeId b.nights (-1)).shift stay.roomTypeId stay.nights 1) b body
        (movedLines env b body stay).loaded :=
    ⟨fun h => ⟨h.transition, h.checkIn, h.noShow⟩, fun h => ⟨h.transition, h.checkIn, h.noShow⟩⟩
  have htakes : ∀ amount, ((db.rebooked env b stay).assigned b.id
      (roomAfterMove b body)).TakesCharge b.id amount ↔ db.TakesCharge b.id amount :=
    fun amount => takesCharge_assigned.trans (takesCharge_congr (any_roomCharge_rebooked b.id))
  have hloaded : (movedLines env b body stay).loaded = none ↔ roomAfterMove b body = none :=
    Option.map_eq_none_iff
  have hcharge : (∃ amount ∈ (movedLines env b body stay).roomCharge,
      ¬ ((db.rebooked env b stay).assigned b.id (roomAfterMove b body)).TakesCharge b.id amount) ↔
      ¬ db.TakesCharge b.id (posting env b.propertyId stay.total).1 := by
    simp [movedLines, htakes]
  rw [fails_finish hon fun _ => hrows, statusPasses_assigned, hstatus, hloaded, hcharge]
  simp [hnotes]

theorem fails_parts (hfind : db.bookings.find b.id = some b) (hcancel : cancels body = false)
    (hseeded : b.status.Active → ∀ ln ∈ b.lines, (db.ledger.row ln.roomTypeId ln.date).isSome) :
    FailsWith Escaping (do
      checkInactive b body
      let pl ← patchDates env b body
      let pl ← patchRoomAssignment b.id body pl
      let status ← patchStatus env b body pl
      let warning ← checkoutWarning b status pl
      flushRoomCharge b.id pl.roomCharge
      patchNotes b body.notes
      pure warning : Tx (Option Money)) db ↔ PatchEscapes env db b body := by
  have hactive_of : b.status = .confirmed → b.status.Active := by
    intro hconf
    rw [hconf]
    decide
  have hgroup : ∀ {α : Type} {f : PatchLines → Tx α}, (patchDates env b body >>= fun pl =>
      patchRoomAssignment b.id body pl >>= f) =
        (patchDates env b body >>= patchRoomAssignment b.id body) >>= f :=
    fun {_ _} => (bind_assoc ..).symm
  rw [hgroup, failsWith_bind, or_iff_right raises_inactive_answered.not_failsWith]
  constructor
  · rintro ⟨_, db₁, hinactive, hrest⟩
    obtain ⟨hpasses, rfl⟩ := exec_checkInactive_iff.mp hinactive
    have hactive : ∀ {stay : PricedStay}, AsksFor b body stay → b.status.Active := fun hask =>
      hpasses.resolve_right fun hno => hask.dates.elim (· hno.2.1) (· hno.2.2.1)
    rcases failsWith_bind.mp hrest with hdates | ⟨pl, db₂, hdone, hafter⟩
    · rcases hpasses with hactive | ⟨-, habsent⟩
      · exact .dates hcancel hactive ((fails_datesAndRoom hfind (hseeded hactive)).mp hdates)
      · rw [patchDates, if_pos ⟨habsent.1, habsent.2.1⟩, pure_bind] at hdates
        exact absurd hdates raises_patchRoom_answered.not_failsWith
    · rcases (exec_datesAndRoom_iff hfind).mp hdone with ⟨hkeeps, hroom, rfl, rfl⟩ |
        ⟨stay, ratePlan, hask, hplan, hbook, hroom, rfl, rfl⟩
      · obtain ⟨hstatus, hnotes⟩ := (fails_kept hfind fun hc => hseeded (hactive_of hc)).mp hafter
        exact .notes hcancel hpasses hkeeps hroom hstatus hnotes
      · have hreprices : Reprices _ b body stay :=
          ⟨hask, ⟨ratePlan, hplan, hbook.rated⟩, hbook.releasable⟩
        rcases (fails_moved hfind hbook.vacant hbook.rebuilds.notes).mp hafter with
          ⟨hnone, hnoShow, hconf⟩ | ⟨hstatus, hcharge⟩
        · exact .expired stay hreprices hbook.vacant hbook.rebuilds hnone hnoShow hconf
        · exact .roomCharge stay hcancel (hactive hask) hreprices hbook.vacant hbook.rebuilds hroom
            hstatus hcharge
  · have hrun : InactivePasses b body → (checkInactive b body).exec db = (.ok (), db) :=
      fun hpasses => exec_checkInactive_iff.mpr ⟨hpasses, rfl⟩
    have hmoved : ∀ {stay : PricedStay}, Reprices db b body stay → Vacant db b stay →
        Rebuilds env b stay body.notes → (∀ room, roomAfterMove b body = some room →
          Assigns db (setLines stay b.ratePlanId b) room) →
        (patchDates env b body >>= patchRoomAssignment b.id body).exec db =
          (.ok (movedLines env b body stay),
            (db.rebooked env b stay).assigned b.id (roomAfterMove b body)) := by
      intro stay h hvacant hrows hroom
      obtain ⟨ratePlan, hplan, hrated⟩ := h.rated
      exact (exec_datesAndRoom_iff hfind).mpr (.inr ⟨stay, ratePlan, h.asked, hplan,
        ⟨h.releasable, hrated, hvacant, hrows⟩, hroom, rfl, rfl⟩)
    intro hescape
    cases hescape with
    | dates _ hactive h =>
      exact ⟨(), db, hrun (.inl hactive), failsWith_bind.mpr (.inl
        ((fails_datesAndRoom hfind (hseeded hactive)).mpr h))⟩
    | expired stay h hvacant hrows hroom hask hconf =>
      refine ⟨(), db, hrun (.inl (hactive_of hconf)), failsWith_bind.mpr (.inr ⟨_, _,
        hmoved h hvacant hrows ?_, (fails_moved hfind hvacant hrows.notes).mpr
          (.inl ⟨hroom, hask, hconf⟩)⟩)⟩
      intro room hsome
      rw [hroom] at hsome
      cases hsome
    | roomCharge stay _ hactive h hvacant hrows hroom hstatus hcharge =>
      exact ⟨(), db, hrun (.inl hactive), failsWith_bind.mpr (.inr ⟨_, _,
        hmoved h hvacant hrows hroom, (fails_moved hfind hvacant hrows.notes).mpr
          (.inr ⟨hstatus, hcharge⟩)⟩)⟩
    | notes _ hpasses hkeeps hroom hstatus hnotes =>
      have hdone : (patchDates env b body >>= patchRoomAssignment b.id body).exec db =
          (.ok (.ofBooking b), db.assigned b.id body.roomId) :=
        (exec_datesAndRoom_iff hfind).mpr (.inl ⟨hkeeps, hroom, rfl, rfl⟩)
      exact ⟨(), db, hrun hpasses, failsWith_bind.mpr (.inr ⟨_, _, hdone,
        (fails_kept hfind fun hc => hseeded (hactive_of hc)).mpr ⟨hstatus, hnotes⟩⟩)⟩
    | cancelNotes hyes _ _ =>
      rw [hcancel] at hyes
      cases hyes

/-- Notes that cannot be stored are refused by the last statement of a cancellation. -/
theorem fails_cancels (hfind : db.bookings.find b.id = some b)
    (hseeded : b.status.Active → ∀ ln ∈ b.lines, (db.ledger.row ln.roomTypeId ln.date).isSome) :
    FailsWith Escaping (do
      patchCancel b
      patchNotes b body.notes
      pure none : Tx (Option Money)) db ↔
      CancelPasses db b ∧ notesStorable body.notes = false := by
  rw [failsWith_bind, or_iff_right (fails_patchCancel hfind hseeded), ← exec_patchCancel_iff hfind]
  have hnotes : ∀ {u db₁}, (patchCancel b).exec db = (.ok u, db₁) →
      (FailsWith Escaping (patchNotes b body.notes >>= fun _ => (pure none : Tx (Option Money)))
        db₁ ↔ notesStorable body.notes = false) := by
    intro u db₁ hdone
    obtain ⟨b₁, hfind₁, -⟩ := (OnNights.cancel hfind hdone).1.found
    exact fails_notes hfind₁
  constructor
  · rintro ⟨u, db₁, hdone, hfails⟩
    exact ⟨⟨u, db₁, hdone⟩, (hnotes hdone).mp hfails⟩
  · rintro ⟨⟨u, db₁, hdone⟩, hlast⟩
    exact ⟨u, db₁, hdone, (hnotes hdone).mpr hlast⟩

theorem fails_patchBooking (hfind : db.bookings.find b.id = some b)
    (hseeded : b.status.Active → ∀ ln ∈ b.lines, (db.ledger.row ln.roomTypeId ln.date).isSome) :
    FailsWith Escaping (patchBooking env b.id body) db ↔ PatchEscapes env db b body := by
  by_cases hnotes : { body with notes := none } = ({} : BookingPatchRequest)
  · have hci : body.checkIn = none := congrArg BookingPatchRequest.checkIn hnotes
    have hco : body.checkOut = none := congrArg BookingPatchRequest.checkOut hnotes
    have hroomId : body.roomId = none := congrArg BookingPatchRequest.roomId hnotes
    have hstatus : body.status = none := congrArg BookingPatchRequest.status hnotes
    have hcancel : cancels body = false := by rw [cancels, hstatus]
    have hasks : ∀ stay, ¬ AsksFor b body stay := fun stay h => h.dates.elim (· hci) (· hco)
    rw [failsWith_congr (exec_patchBooking_notes hfind hnotes), fails_notes hfind]
    constructor
    · intro hno
      refine .notes hcancel (.inr ⟨?_, hci, hco, hroomId⟩) (.absent hci hco) ?_ ⟨?_, ?_, ?_⟩ hno
      · simp [hstatus]
      · simp [hroomId]
      · simp [hstatus]
      · simp [ChecksIn, hstatus]
      · simp [AsksForNoShow, hstatus]
    · intro hescape
      cases hescape with
      | dates _ _ h =>
        cases h with
        | null hnull _ => simp [hci, hco] at hnull
        | unseeded stay h _ => exact absurd h.asked (hasks stay)
        | unwritten stay h _ _ => exact absurd h.asked (hasks stay)
      | expired stay h => exact absurd h.asked (hasks stay)
      | roomCharge stay _ _ h => exact absurd h.asked (hasks stay)
      | notes _ _ _ _ _ hno => exact hno
      | cancelNotes _ _ hno => exact hno
  · by_cases hcancel : cancels body = true
    · rw [failsWith_congr (exec_patchBooking_cancels hfind hcancel), fails_cancels hfind hseeded]
      constructor
      · rintro ⟨hpasses, hno⟩
        exact .cancelNotes hcancel hpasses hno
      · intro hescape
        cases hescape with
        | dates hno _ _ => simp [hcancel] at hno
        | expired _ _ _ _ _ hask _ => exact absurd hcancel (not_cancels_of_no_show hask)
        | roomCharge _ hno => simp [hcancel] at hno
        | notes hno => simp [hcancel] at hno
        | cancelNotes _ hpasses hno => exact ⟨hpasses, hno⟩
    · rw [failsWith_congr (exec_patchBooking_parts hfind hnotes (by simpa using hcancel))]
      exact fails_parts hfind (by simpa using hcancel) hseeded

end Statements

/-- The lines of an active booking have their rows in every run. -/
theorem Reachable.seeded_lines {db : Db} {b : Booking} (h : Reachable anyOp db)
    (hfind : db.bookings.find b.id = some b) (hactive : b.status.Active) :
    ∀ ln ∈ b.lines, (db.ledger.row ln.roomTypeId ln.date).isSome := by
  intro ln hln
  have hmem : b ∈ db.bookings.rows := (Table.find_eq_some.mp hfind).1
  exact h.seeded ln (mem_activeLines.mpr ⟨b, hmem, hactive, hln⟩)

/-- In every state of a run the route answers the errors of a patch exactly when the
request is not one that escapes. -/
theorem patch_answered_iff {db : Db} (h : Reachable anyOp db) (env : Env) (bid : UUID)
    (body : BookingPatchRequest) :
    (∀ e db', (patchBooking env bid body).exec db = (.error e, db') → Answered e) ↔
      ∀ b, db.bookings.find bid = some b → ¬ PatchEscapes env db b body := by
  have hall : (∀ e db', (patchBooking env bid body).exec db = (.error e, db') → Answered e) ↔
      ¬ FailsWith Escaping (patchBooking env bid body) db := by
    simp only [FailsWith, Escaping, not_exists, not_and, not_not]
  rw [hall]
  cases hfind : db.bookings.find bid with
  | none =>
    refine iff_of_true ?_ fun b hb => nomatch hb
    rw [patchBooking]
    split
    · exact not_failsWith_of_ok rfl
    · rw [failsWith_bind]
      rintro (hsel | ⟨found, db₁, hsel, hrest⟩)
      · exact not_failsWith_of_ok (exec_select ..) hsel
      · cases hsel
        simp only [hfind] at hrest
        exact not_fails_patch _ _ (by omega) hrest
  | some b =>
    obtain rfl : b.id = bid := (Table.find_eq_some.mp hfind).2
    rw [fails_patchBooking hfind (h.seeded_lines hfind)]
    exact ⟨fun hnot b' hb' => Option.some.inj hb' ▸ hnot, fun hnot => hnot b rfl⟩

/-! One booking without a room -/

namespace Demo

/-- Booking 1000 for the night of day 3 has given up its room. -/
def roomless : Db := run (.empty 0) (twoTypes ++ [.assignBookingRoom 1000 none])

theorem roomless_reachable : Reachable anyOp roomless :=
  (twoTypes_reachable (by simp [Op.Api])).mono fun _ _ _ => trivial

end Demo

/-- A status is not a date. -/
theorem patch_answered_check_in : Reachable anyOp Demo.roomless ∧
    ∀ e db', (patchBooking (Demo.env 0 0 0) 1000 { status := some (some "checked_in") }).exec
      Demo.roomless = (.error e, db') → Answered e := by
  refine ⟨Demo.roomless_reachable, (patch_answered_iff Demo.roomless_reachable _ _ _).mpr ?_⟩
  intro b _ hescape
  have hasks : ∀ stay, ¬ AsksFor b { status := some (some "checked_in") } stay :=
    fun stay h => h.dates.elim (· rfl) (· rfl)
  cases hescape with
  | dates _ _ h =>
    cases h with
    | null hnull _ => simp at hnull
    | unseeded stay h _ => exact hasks stay h.asked
    | unwritten stay h _ _ => exact hasks stay h.asked
  | expired stay h => exact hasks stay h.asked
  | roomCharge stay _ _ h => exact hasks stay h.asked
  | notes _ _ _ _ _ hno => cases hno
  | cancelNotes _ _ hno => cases hno

/-- A null date, nights that the ledger does not have yet, a no-show together with new dates,
a pack with a rate that is no number, and notes with a NUL character. -/
theorem patch_escapes :
    Reachable anyOp Demo.roomless ∧
    ((patchBooking (Demo.env 0 0 0) 1000 { checkIn := some none }).exec Demo.roomless).1 =
      .error .typeError ∧ ¬ Answered .typeError ∧
    ((patchBooking (Demo.env 0 0 0) 1000
      { checkIn := some (some 800), checkOut := some (some 801) }).exec Demo.roomless).1 =
        .error notSeeded ∧ ¬ Answered notSeeded ∧
    ((patchBooking (Demo.env 0 0 0) 1000
      { status := some (some "no_show"), checkIn := some (some 5), checkOut := some (some 6) }
        ).exec Demo.roomless).1 = .error .missingGreenlet ∧ ¬ Answered .missingGreenlet ∧
    ((patchBooking (Demo.within "high") 1000
      { checkIn := some (some 5), checkOut := some (some 6) }).exec Demo.roomless).1 =
        .error .invalidOperation ∧ ¬ Answered .invalidOperation ∧
    ((patchBooking (Demo.env 0 0 0) 1000 { notes := some (some "late\x00") }).exec
      Demo.roomless).1 = .error .dataError ∧ ¬ Answered .dataError :=
  ⟨Demo.roomless_reachable, by decide +kernel, escaping_of_none rfl, by decide +kernel,
    escaping_of_none rfl, by decide +kernel, escaping_of_none rfl, by decide +kernel,
    escaping_of_none rfl, by decide +kernel, escaping_of_none rfl⟩

end OpenPms
