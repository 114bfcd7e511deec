import OpenPms.Runs

/-!
Every booking of every run has the shape of a stay. The branches that answer a booking
without lines or with several room types are therefore never taken.
-/
namespace OpenPms

open KeyedTable Transaction Prog Hotel

/-- The answers that only a booking of another shape gets. -/
def Err.BadShape (e : Err) : Prop :=
  e = .assignBookingRoom "booking has no lines" 400 ∨
    e = .assignBookingRoom "booking lines must share a single room type" 409 ∨
    e = .patchBooking (.text "booking has no lines") 409 ∨
    e = .patchBooking (.text "booking lines must share a single room type") 409

instance (e : Err) : Decidable e.BadShape := inferInstanceAs (Decidable (_ ∨ _ ∨ _ ∨ _))

theorem not_badShape_of_inventory {e : Err} (h : InventoryError e) : ¬ e.BadShape := by
  rcases h with ⟨_, rfl⟩ | ⟨_, rfl⟩ <;> simp [Err.BadShape]

theorem TaxError.not_badShape {e : Err} (h : TaxError e) : ¬ e.BadShape := by
  cases h with
  | signal s => cases s <;> decide
  | refused => decide

theorem Raises.not_badShape {α : Type} {p : Tx α} {db db' : Db} {e : Err}
    (hp : Raises (¬ Err.BadShape ·) p) (h : p.exec db = (.error e, db')) : ¬ e.BadShape :=
  hp db e db' h

theorem not_badShape_transition (e : TransitionError) :
    ¬ (Err.patchBooking (.transition e) 409).BadShape := by
  simp [Err.BadShape]

/-- The booking of the request is loaded from a hotel of shaped bookings. -/
def ShapedDb (db : Db) : Prop := Shaped db.hotel

theorem ShapedDb.of_steps {db db' : Db} (h : ShapedDb db) (hsteps : Steps db.hotel db'.hotel) :
    ShapedDb db' :=
  steps_invariant Shaped.step h hsteps

theorem assign_not_badShape (bid : UUID) (roomId : Option UUID) :
    RaisesFrom ShapedDb (¬ Err.BadShape ·) (assignBookingRoom bid roomId) := by
  intro db e db' hshape h
  rw [assignBookingRoom, exec_bind, exec_select] at h
  simp only at h
  cases hfind : db.bookings.find bid with
  | none =>
    rw [hfind] at h
    cases h
    decide
  | some b =>
    rw [hfind] at h
    have hb : b.Shape := hshape b (Table.find_eq_some.mp hfind).1
    obtain ⟨rt, hrt⟩ := hb.lineRoomTypes
    rcases exec_bind_error.mp h with hinactive | ⟨_, _, -, h⟩
    · obtain ⟨-, he, -⟩ := exec_raiseIf_error.mp hinactive
      rw [← he]
      decide
    · rcases exec_bind_error.mp h with hnil | ⟨_, db₁, -, h⟩
      · exact absurd (exec_raiseIf_error.mp hnil).1 hb.lines_ne_nil
      · rw [hrt] at h
        have hraises : Raises (¬ Err.BadShape ·) (assignRoomOfType bid b rt roomId) :=
          raises_assignRoomOfType (by decide) (by decide) (by decide) (by decide)
        exact hraises db₁ e db' h

/-! Patch -/

/-- The loaded booking is the one of the state. -/
def Loaded (b : Booking) (db : Db) : Prop := ShapedDb db ∧ db.bookings.find b.id = some b

theorem Loaded.shape {b : Booking} {db : Db} (h : Loaded b db) : b.Shape :=
  h.1 b (Table.find_eq_some.mp h.2).1

theorem changeDates_not_badShape {env : Env} {b : Booking} {body : BookingPatchRequest}
    {ci co : ℤ} (hactive : b.status.Active) :
    RaisesFrom (Loaded b) (¬ Err.BadShape ·) (changeDates env b body ci co) := by
  intro db e db' hload h
  obtain ⟨rt, hrt⟩ := hload.shape.lineRoomTypes
  unfold changeDates at h
  rw [hrt] at h
  split at h
  · cases h
    decide
  · next ratePlan _ =>
    rcases exec_bind_error.mp h with hrebook | ⟨roomCharge, db₁, hrebook, h⟩
    · have hraises : Raises (¬ Err.BadShape ·) (rebookNights env b ratePlan rt ci co body.notes) :=
        raises_rebookNights (fun _ => not_badShape_of_inventory) (by simp [Err.BadShape])
          (by simp [Err.BadShape]) (by decide) (by decide) (by decide)
          (fun _ => TaxError.not_badShape) (by decide)
      exact hraises db e db' hrebook
    · obtain ⟨hstep, -⟩ := rebookNights_step hload.2 hactive hrt hrebook
      have hshape₁ : ShapedDb db₁ := hload.1.of_steps (.single hstep)
      cases hroom : priorRoomToRestore b body with
      | none =>
        rw [hroom] at h
        cases h
      | some room =>
        rw [hroom] at h
        rcases exec_bind_error.mp h with hassign | ⟨_, _, -, hrest⟩
        · exact assign_not_badShape b.id (some room) db₁ e db' hshape₁ hassign
        · cases hrest

theorem patchDates_not_badShape {env : Env} {b : Booking} {body : BookingPatchRequest}
    (hactive : b.status.Active ∨ body.checkIn = none ∧ body.checkOut = none) :
    RaisesFrom (Loaded b) (¬ Err.BadShape ·) (patchDates env b body) := by
  intro db e db' hload h
  unfold patchDates at h
  split at h
  · cases h
  · next hdates =>
    rcases exec_bind_error.mp h with hnil | ⟨_, _, hok, h⟩
    · exact absurd (exec_raiseIf_error.mp hnil).1 hload.shape.lines_ne_nil
    · obtain ⟨-, rfl⟩ := exec_raiseIf_ok.mp hok
      simp only at h
      split at h
      · rcases exec_bind_error.mp h with horder | ⟨_, _, hok, h⟩
        · obtain ⟨-, he, -⟩ := exec_raiseIf_error.mp horder
          rw [← he]
          decide
        · obtain ⟨-, rfl⟩ := exec_raiseIf_ok.mp hok
          rcases exec_bind_error.mp h with hspan | ⟨_, _, hok, h⟩
          · obtain ⟨-, he, -⟩ := exec_raiseIf_error.mp hspan
            rw [← he]
            decide
          · obtain ⟨-, rfl⟩ := exec_raiseIf_ok.mp hok
            split at h
            · exact changeDates_not_badShape (hactive.resolve_right hdates) db e db' hload h
            · cases h
      · cases h
        decide

theorem patchRoomAssignment_not_badShape {bid : UUID} {body : BookingPatchRequest}
    {pl : PatchLines} :
    RaisesFrom ShapedDb (¬ Err.BadShape ·) (patchRoomAssignment bid body pl) := by
  unfold patchRoomAssignment
  split
  · exact (raises_pure _).from
  · refine raisesFrom_bind (J := fun _ _ => True) (assign_not_badShape bid _)
      (fun _ _ _ _ _ => trivial) fun _ => Raises.from ?_
    split
    · exact raises_pure _
    · exact raises_bind (raises_select _) fun _ => raises_pure _

theorem raises_checkoutWarning {P : Err → Prop} {b : Booking} {status : BookingStatus}
    {pl : PatchLines} : Raises P (checkoutWarning b status pl) := by
  unfold checkoutWarning
  split
  · exact raises_bind (raises_modify _) fun _ => raises_bind (raises_select _) fun _ =>
      raises_pure _
  · exact raises_pure _

theorem patchBooking_not_badShape (env : Env) (bid : UUID) (body : BookingPatchRequest) :
    RaisesFrom ShapedDb (¬ Err.BadShape ·) (patchBooking env bid body) := by
  intro db e db' hshape h
  have hinv : ∀ e, InventoryError e → ¬ e.BadShape := fun _ => not_badShape_of_inventory
  unfold patchBooking at h
  split at h
  · cases h
  · rw [exec_bind, exec_select] at h
    simp only at h
    cases hfind : db.bookings.find bid with
    | none =>
      rw [hfind] at h
      cases h
      decide
    | some b =>
      have hload : Loaded b db := ⟨hshape, by rw [(Table.find_eq_some.mp hfind).2, hfind]⟩
      rw [hfind] at h
      simp only at h
      split at h
      · exact Raises.not_badShape
          (raises_bind (raises_patchNotes (by decide) (by decide)) fun _ => raises_pure _) h
      · split at h
        · have hraises : Raises (¬ Err.BadShape ·) (patchCancel b) :=
            raises_patchCancel hinv not_badShape_transition (by decide)
          exact Raises.not_badShape (raises_bind hraises fun _ =>
            raises_bind (raises_patchNotes (by decide) (by decide)) fun _ => raises_pure _) h
        · rcases exec_bind_error.mp h with hinactive | ⟨_, _, hok, h⟩
          · have hraises : Raises (¬ Err.BadShape ·) (checkInactive b body) :=
              raises_checkInactive not_badShape_transition (by decide)
            exact hraises db e db' hinactive
          · obtain ⟨rfl, hactive⟩ := exec_checkInactive_ok hok
            rcases exec_bind_error.mp h with hdates | ⟨pl, db₁, hdates, h⟩
            · exact patchDates_not_badShape hactive db e db' hload hdates
            · have hshape₁ := hshape.of_steps (patchDates_steps hload.2 hactive hdates).1
              rcases exec_bind_error.mp h with hroom | ⟨pl', db₂, -, h⟩
              · exact patchRoomAssignment_not_badShape db₁ e db' hshape₁ hroom
              · have hraises : Raises (¬ Err.BadShape ·) (patchStatus env b body pl') :=
                  raises_patchStatus hinv not_badShape_transition (by decide)
                    (by simp [Err.BadShape]) (by decide) (by decide)
                refine Raises.not_badShape (raises_bind hraises fun _ =>
                  raises_bind raises_checkoutWarning fun _ => raises_bind ?_ fun _ =>
                    raises_bind (raises_patchNotes (by decide) (by decide)) fun _ =>
                    raises_pure _) h
                unfold flushRoomCharge
                split
                · exact raises_pure _
                · exact raises_folioCharge (by decide)

/-! Create and ingest -/

section Insert
variable {db db' : Db} {e : Err}

/-- The rows are one booking, so the room is assigned in a shaped state. -/
theorem insertBooking_not_badShape {env : Env} {b : Booking} {rt : UUID}
    {perNight : List (ℤ × Money)} {description : String} (db₀ : Db) (stay : PricedStay)
    (hrt : stay.roomTypeId = rt) (hper : stay.perNight = perNight)
    (htotal : b.totalAmount = stay.total) (hactive : b.status.Active) (hlines : b.lines = [])
    (hopen : db₀.ledger.Open rt stay.nights 1)
    (hdb : db.hotel = { db₀.hotel with ledger := db₀.ledger.shift rt stay.nights 1 })
    (hshape : ShapedDb db₀)
    (h : (insertBooking env b rt perNight description).exec db = (.error e, db')) :
    ¬ e.BadShape := by
  rcases exec_bind_error.mp h with hrows | ⟨_, db₁, hrows, h⟩
  · have hraises : Raises (¬ Err.BadShape ·) (insertRows env b rt perNight description) :=
      raises_insertRows (by decide) (by decide) (fun _ => TaxError.not_badShape) (by decide)
    exact hraises db e db' hrows
  · have hsale := insertRows_sale db₀ stay hrt hper htotal hactive hlines hopen hdb hrows
    rcases exec_bind_error.mp h with hpick | ⟨picked, db₂, hpick, h⟩
    · exact Raises.not_badShape raises_pickFirstFreeRoom hpick
    · have hsame := exec_pickFirstFreeRoom_ok hpick
      subst hsame
      cases picked with
      | none => cases h
      | some room =>
        exact assign_not_badShape b.id (some room) db₁ e db' (hshape.of_steps (.single (.sale hsale))) h

theorem createBooking_not_badShape (env : Env) (body : BookingCreateRequest) :
    RaisesFrom ShapedDb (¬ Err.BadShape ·) (createBooking env body) := by
  intro db e db' hshape h
  have hinv : ∀ e, InventoryError e → ¬ e.BadShape := fun _ => not_badShape_of_inventory
  have hvalue : ∀ message, ¬ (Err.valueError message).BadShape := by simp [Err.BadShape]
  have hrates : ∀ dates, ¬ (Err.missingRates dates).BadShape := by simp [Err.BadShape]
  have hcontext : ∀ message, ¬ (Err.invalidBookingContext message).BadShape := by
    simp [Err.BadShape]
  rcases exec_bind_error.mp h with hnights | ⟨nights, _, hnights, h⟩
  · exact Raises.not_badShape (raises_stayNights hvalue) hnights
  obtain ⟨hiter, rfl⟩ := exec_stayNights_ok.mp hnights
  rcases exec_bind_error.mp h with hdup | ⟨_, _, hdup, h⟩
  · cases hdup
  cases hdup
  rcases exec_bind_error.mp h with hdup | ⟨_, _, hdup, h⟩
  · exact Raises.not_badShape (raises_raiseIf (by decide)) hdup
  obtain ⟨-, rfl⟩ := exec_raiseIf_ok.mp hdup
  rcases exec_bind_error.mp h with hreq | ⟨_, _, hreq, h⟩
  · exact Raises.not_badShape
      (raises_bind (raises_select _) fun _ => raises_raiseIf (hcontext _)) hreq
  have hdb₁ := exec_requireRoomTypeOnProperty_ok hreq
  subst hdb₁
  rcases exec_bind_error.mp h with hreq | ⟨_, _, hreq, h⟩
  · exact Raises.not_badShape
      (raises_bind (raises_select _) fun _ => raises_raiseIf (hcontext _)) hreq
  have hdb₂ := exec_requireRatePlanOnProperty_ok hreq
  subst hdb₂
  rcases exec_bind_error.mp h with hsum | ⟨⟨total, perNight⟩, _, hsum, h⟩
  · exact Raises.not_badShape (raises_sumRates hvalue hrates) hsum
  obtain ⟨rfl, hper, htotal⟩ := exec_sumRates_ok hsum
  rcases exec_bind_error.mp h with hclaim | ⟨_, _, hclaim, h⟩
  · exact Raises.not_badShape (raises_claim hinv) hclaim
  obtain ⟨hopen, rfl⟩ := exec_claim_ok hclaim
  rcases exec_bind_error.mp h with hguest | ⟨⟨guest, merged⟩, db₁, hguest, h⟩
  · exact Raises.not_badShape (raises_getOrCreateGuest (by decide) hcontext) hguest
  rcases exec_bind_error.mp h with hinsert | ⟨_, _, -, h⟩
  · obtain ⟨hlt, hspan, hfst⟩ := iterStayNights_ok hper
    have hsame : nights = daysBetween body.checkIn body.checkOut :=
      (Except.ok.inj (hiter.symm.trans hper)).trans hfst
    subst hsame
    exact insertBooking_not_badShape _
      ⟨body.roomTypeId, body.checkIn, body.checkOut, perNight, hlt, hspan, hfst⟩ rfl rfl htotal
      body.status.active rfl hopen (hotel_getOrCreateGuest hguest) hshape hinsert
  · cases h

theorem ingestNew_not_badShape {env : Env} {rev : Revision} (hpriced : rev.Priced) :
    RaisesFrom ShapedDb (¬ Err.BadShape ·) (ingestNew env rev) := by
  intro db e db' hshape h
  have hinv : ∀ e, InventoryError e → ¬ e.BadShape := fun _ => not_badShape_of_inventory
  have hcontext : ∀ message, ¬ (Err.invalidBookingContext message).BadShape := by
    simp [Err.BadShape]
  rcases exec_bind_error.mp h with hfound | ⟨found, _, hfound, h⟩
  · cases hfound
  cases hfound
  split at h
  · exact Raises.not_badShape (raises_bind (raises_modify _) fun _ => raises_pure _) h
  rcases exec_bind_error.mp h with hlock | ⟨_, _, hlock, h⟩
  · exact Raises.not_badShape (raises_lockAndValidate hinv) hlock
  rcases exec_bind_error.mp h with hinc | ⟨_, _, hinc, h⟩
  · exact Raises.not_badShape raises_increment hinc
  obtain ⟨hopen, rfl⟩ := exec_claim_nights_ok hlock hinc
  rcases exec_bind_error.mp h with hguest | ⟨⟨guest, merged⟩, db₁, hguest, h⟩
  · exact Raises.not_badShape (raises_getOrCreateGuest (by decide) hcontext) hguest
  rcases exec_bind_error.mp h with hnotes | ⟨_, _, hnotes, h⟩
  · cases hnotes
  cases hnotes
  rcases exec_bind_error.mp h with hinsert | ⟨_, _, -, h⟩
  · obtain ⟨stay, hrt, hnights, hper, htotal⟩ := hpriced.exists_stay
    have hhotel := hotel_getOrCreateGuest hguest
    rw [← hnights] at hopen hhotel
    have hactive : BookingStatus.confirmed.Active := by decide
    exact insertBooking_not_badShape _ stay hrt hper htotal.symm (by exact hactive) rfl hopen
      (by exact hhotel) hshape hinsert
  · exact Raises.not_badShape (raises_bind (raises_modify _) fun _ => raises_pure _) h

theorem applyRevision_not_badShape {env : Env} {kind : RevisionKind} {rev : Revision}
    (hpriced : rev.Priced) :
    RaisesFrom ShapedDb (¬ Err.BadShape ·) (applyRevision env kind rev) := by
  have hinv : ∀ e, InventoryError e → ¬ e.BadShape := fun _ => not_badShape_of_inventory
  unfold applyRevision
  refine raisesFrom_tryCatch (¬ Err.BadShape ·) ?_ ?_
  · cases kind with
    | new => exact ingestNew_not_badShape hpriced
    | cancelled =>
      refine Raises.from (raises_bind (raises_select _) fun found => ?_)
      split
      · exact raises_bind (raises_modify _) fun _ => raises_pure _
      · split
        · exact raises_bind (raises_release hinv) fun _ =>
            raises_bind (raises_updateBookingRow (by decide)) fun _ =>
              raises_bind (raises_modify _) fun _ => raises_pure _
        · exact raises_bind (raises_modify _) fun _ => raises_pure _
    | modified =>
      refine Raises.from (raises_bind (raises_select _) fun found => ?_)
      split
      · exact raises_bind (raises_modify _) fun _ => raises_pure _
      · split
        · exact raises_bind (raises_lockAndValidate hinv) fun _ =>
            raises_bind (raises_decrement hinv) fun _ =>
              raises_bind (raises_lockAndValidate hinv) fun _ =>
                raises_bind raises_increment fun _ => raises_bind (raises_modify _) fun _ =>
                  raises_bind (raises_updatePlanAndTotal (by decide) (by decide)) fun _ =>
                    raises_bind (raises_flushLines (by decide) (by decide)) fun _ =>
                      raises_bind (raises_replaceTaxes (by decide)
                        (fun _ => TaxError.not_badShape) (by decide)) fun _ =>
                        raises_bind (raises_folioCharge (by decide)) fun _ =>
                          raises_bind (raises_updateGuest (by decide)) fun _ =>
                            raises_bind (raises_modify _) fun _ => raises_pure _
        · exact raises_bind (raises_modify _) fun _ => raises_pure _
  · intro e he
    unfold handleIngestError
    split
    · exact raises_bind (raises_modify _) fun _ => raises_pure _
    · exact raises_bind (raises_modify _) fun _ => raises_pure _
    · exact raises_bind (raises_modify _) fun _ => raises_pure _
    · exact raises_raise (by decide)
    · exact raises_raise he

theorem ingestMapped_not_badShape {env : Env} {link : ChannexPropertyLink}
    {payload : ChannexBookingRevisionPayload} {roomTypeId ratePlanId : UUID} :
    RaisesFrom ShapedDb (¬ Err.BadShape ·)
      (ingestMapped env link (Text.strip payload.id) payload roomTypeId ratePlanId) := by
  have hvalue : ∀ message, ¬ (Err.valueError message).BadShape := by simp [Err.BadShape]
  have hfail : ∀ rid error (r : ChannexIngestResult), Raises (¬ Err.BadShape ·)
      (failRevision rid error >>= fun _ => (pure r : Tx ChannexIngestResult)) :=
    fun _ _ _ => raises_bind (raises_modify _) fun _ => raises_pure _
  intro db e db' hshape h
  unfold ingestMapped at h
  simp only at h
  split at h
  · next checkIn checkOut hdates =>
    split at h
    · exact Raises.not_badShape (hfail _ _ _) h
    rcases exec_bind_error.mp h with hnights | ⟨nights, _, hnights, h⟩
    · exact Raises.not_badShape (raises_stayNights hvalue) hnights
    obtain ⟨hiter, rfl⟩ := exec_stayNights_ok.mp hnights
    obtain ⟨hlt, hspan, rfl⟩ := iterStayNights_ok hiter
    split at h
    · exact Raises.not_badShape (hfail _ _ _) h
    rcases exec_bind_error.mp h with htotal | ⟨total, _, htotal, h⟩
    · exact Raises.not_badShape (raises_decimalAmount (by decide)) htotal
    obtain ⟨-, rfl⟩ := exec_ofExcept_ok.mp htotal
    rcases exec_bind_error.mp h with hguest | ⟨guest, _, hguest, h⟩
    · exact Raises.not_badShape (raises_guestPayload (by decide)) hguest
    obtain ⟨-, rfl⟩ := exec_ofExcept_ok.mp hguest
    exact applyRevision_not_badShape (priced_revisionOf hlt hspan) db e db' hshape h
  · exact Raises.not_badShape (hfail _ _ _) h

theorem ingest_not_badShape (env : Env) (link : ChannexPropertyLink)
    (flat : Option ChannexBookingRevisionPayload) :
    RaisesFrom ShapedDb (¬ Err.BadShape ·) (ingestChannexBooking env link flat) := by
  intro db e db' hshape h
  unfold ingestChannexBooking ingestInSession at h
  split at h
  · cases h
  · next payload =>
    simp only at h
    split at h
    · cases h
    rcases exec_bind_error.mp h with hclaim | ⟨claimed, db₁, hclaim, h⟩
    · exact Raises.not_badShape (raises_claimRevisionRow (by decide)
        fun _ => by simp [Err.BadShape]) hclaim
    obtain ⟨-, revisions, rfl⟩ := exec_claimRevisionRow_ok hclaim
    split at h
    · cases h
    unfold ingestClaimed at h
    split at h
    · cases h
    · rcases exec_bind_error.mp h with hmaps | ⟨maps, db₂, hmaps, h⟩
      · exact Raises.not_badShape raises_resolveMaps hmaps
      obtain ⟨hdb₂, -⟩ := exec_resolveMaps_ok hmaps
      subst hdb₂
      split at h
      · cases h
      · exact ingestMapped_not_badShape { db with revisions := revisions } e db' hshape h

end Insert

/-! Runs -/

/-- No request takes a branch that is for bookings of another shape: neither the
answers of assign, patch, create and ingest, nor the silent return of the release, on
a booking as stored or on the lines that a patch has loaded after its date change. -/
structure ShapeBranchesDead (db : Db) : Prop where
  assign : ∀ bid roomId e db', (assignBookingRoom bid roomId).exec db = (.error e, db') →
    ¬ e.BadShape
  patch : ∀ env bid body e db', (patchBooking env bid body).exec db = (.error e, db') →
    ¬ e.BadShape
  create : ∀ env body e db', (createBooking env body).exec db = (.error e, db') → ¬ e.BadShape
  ingest : ∀ env link flat e db', (ingestChannexBooking env link flat).exec db = (.error e, db') →
    ¬ e.BadShape
  release : ∀ b ∈ db.bookings.rows, ∃ rt, lineRoomTypes b.lines = [rt] ∧
    releaseBookingInventory b.lines =
      lockAndValidateAvailability rt b.nights 0 >>= fun rows => decrementBookedRooms rows 1
  releaseLoaded : ∀ env body, ∀ b ∈ db.bookings.rows, ∀ db₁ pl db₂ pl',
    (checkInactive b body).exec db = (.ok (), db) →
    (patchDates env b body).exec db = (.ok pl, db₁) →
    (patchRoomAssignment b.id body pl).exec db₁ = (.ok pl', db₂) →
    ∀ lines, pl'.loaded = some lines → ∃ rt, lineRoomTypes lines = [rt]

theorem shapeBranchesDead {db : Db} (hshape : ShapedDb db) : ShapeBranchesDead db where
  assign bid roomId e db' h := assign_not_badShape bid roomId db e db' hshape h
  patch env bid body e db' h := patchBooking_not_badShape env bid body db e db' hshape h
  create env body e db' h := createBooking_not_badShape env body db e db' hshape h
  ingest env link flat e db' h := ingest_not_badShape env link flat db e db' hshape h
  release b hb := by
    obtain ⟨rt, hrt⟩ := (hshape b hb).lineRoomTypes
    refine ⟨rt, hrt, ?_⟩
    rw [releaseBookingInventory, hrt]
    rfl
  releaseLoaded env body b hb db₁ pl db₂ pl' hinactive hdates hroom lines hlines := by
    have hfind : db.bookings.find b.id = some b := Table.find_of_mem hb
    obtain ⟨-, hactive⟩ := exec_checkInactive_ok hinactive
    obtain ⟨hsteps₁, hview₁⟩ := patchDates_steps hfind hactive hdates
    obtain ⟨hsteps₂, b', hfind', -, hsame⟩ := patchRoomAssignment_steps hview₁ hroom
    have hshape₂ : ShapedDb db₂ := (hshape.of_steps hsteps₁).of_steps hsteps₂
    obtain ⟨rt, hrt⟩ := (hshape₂ b' (Table.find_eq_some.mp hfind').1).lineRoomTypes
    exact ⟨rt, (hsame lines hlines).lineRoomTypes.trans hrt⟩

/-- Every booking of every run has one line for each night of one stay of 1 to 365
nights, one room type, one room or none, and the total of its lines; hence the
branches for other bookings are dead. -/
theorem booking_shape {db : Db} (h : Reachable anyOp db) :
    (∀ b ∈ db.bookings.rows, b.Shape) ∧ ShapeBranchesDead db :=
  ⟨h.shaped, shapeBranchesDead h.shaped⟩

theorem booking_shape_demo :
    (∀ b ∈ (run (.empty 0) (Demo.openHotel ++ [Demo.bookStay])).bookings.rows, b.Shape) ∧
      ShapeBranchesDead (run (.empty 0) (Demo.openHotel ++ [Demo.bookStay])) :=
  booking_shape (reachable_run (.empty 0) fun _ _ _ => trivial)

end OpenPms
