import OpenPms.Claiming
import OpenPms.Lib.LockOrder

/-!
The order of the row locks. A request claims its revision row first, then locks ledger rows
in the order of their dates, and writes its booking row last. The requests that lock ledger
rows in one statement therefore never wait for each other in a circle. A change of the stay
dates gives the old nights back in one statement and takes the new ones in another, so it is
not one of them; neither is a modified revision, nor a deletion, which writes the lines of
the booking before the booking.
-/
namespace OpenPms

open KeyedTable Transaction Prog Interleaving

/-- The kinds of rows one above the other, and the dates within a kind. -/
instance rankOrder : Preorder (ℕ ×ₗ ℤ) :=
  @Prod.Lex.instPreorder ℕ ℤ Nat.instPreorder Int.instLinearOrder.toPreorder

/-- Revisions below ledger rows, these by date, and bookings above them. -/
def RowKey.rank : RowKey → ℕ ×ₗ ℤ
  | .revision _ => toLex (0, 0)
  | .ledger _ date => toLex (1, date)
  | .booking _ => toLex (2, 0)

namespace RowKey

def revisions : Set RowKey := {r | ∃ id, .revision id = r}

def ledgerRows : Set RowKey := {r | ∃ rt date, .ledger rt date = r}

theorem rank_revision_lt (id : String) (rt : UUID) (date : ℤ) :
    (revision id).rank < (ledger rt date).rank :=
  Prod.Lex.left _ _ (by decide)

theorem rank_ledger_lt_booking (rt bid : UUID) (date : ℤ) :
    (ledger rt date).rank < (booking bid).rank :=
  Prod.Lex.left _ _ (by decide)

theorem rank_revision_lt_booking (id : String) (bid : UUID) :
    (revision id).rank < (booking bid).rank :=
  Prod.Lex.left _ _ (by decide)

theorem rank_ledger_lt {rt : UUID} {d d' : ℤ} (h : d < d') :
    (ledger rt d).rank < (ledger rt d').rank :=
  Prod.Lex.right _ h

end RowKey

/-- The program takes no row lock. -/
abbrev Lockless {α : Type} (p : Tx α) : Prop := Locks (∅ : Set RowKey) p

/-- The program may lock one booking row, and no other row. -/
abbrev LocksBooking {α : Type} (bid : UUID) (p : Tx α) : Prop := Locks {RowKey.booking bid} p

/-- With revision rows locked, the program locks ledger rows and then booking rows. -/
def Descends {α : Type} (p : Tx α) : Prop := ∀ L ⊆ RowKey.revisions, Ascending RowKey.rank L p

section Statements

theorem lockless_flushGuest {guest : Guest} : Lockless (flushGuest guest) := by
  refine locks_bind (locks_select _) fun clash => ?_
  split
  · exact locks_pure _
  · exact locks_bind (locks_modify _) fun _ => locks_pure _

theorem lockless_getOrCreateGuest {env : Env} {payload : GuestPayload} {force : Bool} :
    Lockless (getOrCreateGuestForBooking env payload force) := by
  unfold getOrCreateGuestForBooking
  split
  · exact locks_bind lockless_flushGuest fun _ => locks_bind (locks_raiseIf _) fun _ =>
      locks_pure _
  · refine locks_bind (locks_select _) fun existing => ?_
    split
    · exact locks_pure _
    · refine locks_bind lockless_flushGuest fun inserted => ?_
      split
      · exact locks_pure _
      · refine locks_bind (locks_select _) fun again => ?_
        split
        · exact locks_pure _
        · exact locks_raise _

theorem lockless_sumRates {rt ratePlan : UUID} {checkIn checkOut : ℤ} :
    Lockless (sumRatesForStay rt ratePlan checkIn checkOut) :=
  locks_bind (locks_ofExcept _) fun _ => locks_bind (locks_select _) fun _ =>
    locks_bind (locks_raiseIf _) fun _ => locks_pure _

theorem lockless_replaceTaxes {env : Env} {bid propertyId : UUID} {base : Money} :
    Lockless (replaceCountryPackTaxCharges env bid propertyId base) := by
  refine locks_bind (locks_bind (locks_select _) fun _ => locks_raiseIf _) fun _ =>
    locks_bind (locks_modify _) fun _ => locks_bind (locks_ofExcept _) fun posting => ?_
  cases posting with
  | none => exact locks_pure _
  | some q =>
    exact locks_bind (locks_raiseIf _) fun _ => locks_bind (locks_modify _) fun _ => locks_pure _

theorem lockless_folioCharge {bid : UUID} {amount : Money} :
    Lockless (updateFolioChargeAmount bid amount) :=
  locks_bind (locks_select _) fun _ => locks_bind (locks_raiseIf _) fun _ => locks_modify _

theorem lockless_noRoomConflict {room : UUID} {nights : List ℤ} {exclude : UUID} :
    Lockless (assertNoRoomConflict room nights exclude) := by
  unfold assertNoRoomConflict
  split
  · exact locks_pure _
  · exact locks_bind (locks_select _) fun _ => locks_raiseIf _

theorem lockless_firstFreeRoom {nights : List ℤ} {exclude : UUID} {rooms : List Room} :
    Lockless (firstFreeRoom nights exclude rooms) := by
  induction rooms with
  | nil => exact locks_pure _
  | cons room rest ih =>
    refine locks_tryCatch (locks_bind lockless_noRoomConflict fun _ => locks_pure _) fun e => ?_
    split
    · exact ih
    · exact locks_raise _

theorem lockless_pickFirstFreeRoom {propertyId rt : UUID} {nights : List ℤ} {exclude : UUID} :
    Lockless (pickFirstFreeRoomForStay propertyId rt nights exclude) := by
  unfold pickFirstFreeRoomForStay
  split
  · exact locks_pure _
  · exact locks_bind (locks_select _) fun _ => lockless_firstFreeRoom

theorem lockless_assignBookingRoom {bid : UUID} {roomId : Option UUID} :
    Lockless (assignBookingRoom bid roomId) := by
  refine locks_bind (locks_select _) fun found => ?_
  split
  · exact locks_raise _
  · refine locks_bind (locks_raiseIf _) fun _ => locks_bind (locks_raiseIf _) fun _ => ?_
    split
    · unfold assignRoomOfType
      split
      · exact locks_modify _
      · refine locks_bind (locks_select _) fun room => ?_
        split
        · exact locks_raise _
        · exact locks_bind (locks_raiseIf _) fun _ => locks_bind (locks_select _) fun _ =>
            locks_bind (locks_raiseIf _) fun _ => locks_bind lockless_noRoomConflict fun _ =>
              locks_modify _
    · exact locks_raise _

theorem lockless_insertBooking {env : Env} {b : Booking} {rt : UUID}
    {perNight : List (ℤ × Money)} {description : String} :
    Lockless (insertBooking env b rt perNight description) := by
  refine locks_bind ?_ fun _ => locks_bind lockless_pickFirstFreeRoom fun picked => ?_
  · exact locks_bind (locks_bind (locks_raiseIf _) fun _ => locks_bind (locks_select _) fun _ =>
      locks_bind (locks_raiseIf _) fun _ => locks_modify _) fun _ =>
        locks_bind (locks_bind (locks_raiseIf _) fun _ => locks_bind (locks_select _) fun _ =>
          locks_bind (locks_raiseIf _) fun _ => locks_modify _) fun _ =>
            locks_bind (locks_modify _) fun _ => locks_bind lockless_replaceTaxes fun _ =>
              lockless_folioCharge
  · cases picked with
    | none => exact locks_pure _
    | some room => exact lockless_assignBookingRoom

theorem locksBooking_updateRow {bid : UUID} {f : Booking → Booking} {hf : ∀ b, (f b).id = b.id} :
    LocksBooking bid (updateBookingRow bid f hf) :=
  locks_bind (locks_acquire rfl) fun _ => locks_bind (locks_select _) fun _ =>
    locks_bind (locks_raiseIf _) fun _ => locks_modify _

theorem locksBooking_patchNotes {b : Booking} {notes : Option (Option String)} :
    LocksBooking b.id (patchNotes b notes) := by
  refine locks_bind (locks_raiseIf _) fun _ => ?_
  split
  · exact locks_pure _
  · split
    · exact locks_pure _
    · exact locksBooking_updateRow

end Statements

/-! Ledger rows -/

section Ledger
variable {α : Type}

theorem descends_of_lockless {p : Tx α} (h : Lockless p) : Descends p :=
  fun _ _ => ascending_of_lockless h

theorem descends_of_locksBooking {p : Tx α} {bid : UUID} (h : LocksBooking bid p) :
    Descends p := by
  refine fun L hL => ascending_of_single h fun r hr => ?_
  obtain ⟨id, rfl⟩ := hL hr
  exact .inr (RowKey.rank_revision_lt_booking id bid)

theorem descends_lockless_bind {β : Type} {p : Tx α} {f : α → Tx β} (hp : Lockless p)
    (hf : ∀ a, Descends (f a)) : Descends (p >>= f) :=
  fun L hL => ascending_lockless_bind hp fun a => hf a L hL

/-- After ledger rows only a booking row may be locked. -/
theorem descends_bind {β : Type} {p : Tx α} {f : α → Tx β} (bid : UUID) (hp : Descends p)
    (hK : Locks RowKey.ledgerRows p) (hf : ∀ a, LocksBooking bid (f a)) : Descends (p >>= f) := by
  refine fun L hL => ascending_bind (hp L hL) hK fun a L' hL' => ?_
  refine ascending_of_single (hf a) fun r hr => ?_
  rcases hL' hr with hrev | ⟨rt, d, rfl⟩
  · obtain ⟨id, rfl⟩ := hL hrev
    exact .inr (RowKey.rank_revision_lt_booking id bid)
  · exact .inr (RowKey.rank_ledger_lt_booking rt bid d)

theorem descends_runIf_bind {β : Type} {c : Prop} [Decidable c] {p : Tx Unit} {f : Unit → Tx β}
    {bid : UUID} (hp : Descends p ∧ Locks RowKey.ledgerRows p)
    (hf : ∀ a, LocksBooking bid (f a)) : Descends (runIf c p >>= f) := by
  unfold runIf
  split
  · exact descends_bind bid hp.1 hp.2 hf
  · exact descends_of_locksBooking (hf ())

theorem pairwise_dates_selectLedger (rt : UUID) (nights : List ℤ) (db : Db) :
    ((selectLedger rt nights db).map (·.date)).Pairwise (· < ·) := by
  rw [map_date_selectLedger]
  refine List.Pairwise.filter _ ?_
  have hsorted : (sortedDates nights).Pairwise (· ≤ ·) :=
    List.pairwise_insertionSort (· ≤ ·) nights.dedup
  exact (hsorted.and (nodup_sortedDates nights)).imp fun h => lt_of_le_of_ne h.1 h.2

/-- The rows of one SELECT ... FOR UPDATE are locked in the order of their dates. -/
theorem descends_selectForUpdate (rt : UUID) (nights : List ℤ) :
    Descends (selectLedgerForUpdate rt nights) ∧
      Locks RowKey.ledgerRows (selectLedgerForUpdate rt nights) := by
  have hall : ∀ days : List ℤ, Locks RowKey.ledgerRows
      (forEach days fun d => (acquire (.ledger rt d) : Tx Unit)) :=
    fun days => locks_forEach fun d _ => locks_acquire ⟨rt, d, rfl⟩
  constructor
  · refine fun L hL => .read fun s => ?_
    change Ascending RowKey.rank L
      (forEach ((selectLedger rt nights s).map (·.date)) (fun d => acquire (.ledger rt d)) >>=
        fun _ => select (selectLedger rt ((selectLedger rt nights s).map (·.date))))
    refine ascending_bind ?_ (hall _) fun _ L' _ => ascending_of_lockless (locks_select _)
    refine ascending_acquireAll (fun d => RowKey.ledger rt d) ?_ ?_
    · exact (pairwise_dates_selectLedger rt nights s).imp RowKey.rank_ledger_lt
    · intro r hr d _
      obtain ⟨id, rfl⟩ := hL hr
      exact RowKey.rank_revision_lt id rt d
  · exact locks_bind (locks_select _) fun _ => locks_bind (hall _) fun _ => locks_select _

theorem lockless_increment {rows : List AvailabilityLedger} {delta : ℤ} :
    Lockless (incrementBookedRooms rows delta) :=
  locks_forEach fun _ _ => locks_modify _

theorem lockless_decrement {rows : List AvailabilityLedger} {delta : ℤ} :
    Lockless (decrementBookedRooms rows delta) :=
  locks_forEach fun _ _ => locks_bind (locks_modify _) fun _ => locks_raiseIf _

/-- A locking SELECT and what follows it without locks. -/
theorem descends_locked {rt : UUID} {nights : List ℤ} {f : List AvailabilityLedger → Tx α}
    (hf : ∀ rows, Lockless (f rows)) :
    Descends (selectLedgerForUpdate rt nights >>= f) ∧
      Locks RowKey.ledgerRows (selectLedgerForUpdate rt nights >>= f) := by
  obtain ⟨hselect, hlocks⟩ := descends_selectForUpdate rt nights
  exact ⟨fun L hL => ascending_bind (hselect L hL) hlocks fun rows L' _ =>
    ascending_of_lockless (hf rows), locks_bind hlocks fun rows => (hf rows).anywhere⟩

theorem descends_lockAndValidate (rt : UUID) (nights : List ℤ) (n : ℤ) :
    Descends (lockAndValidateAvailability rt nights n) ∧
      Locks RowKey.ledgerRows (lockAndValidateAvailability rt nights n) := by
  unfold lockAndValidateAvailability
  split
  · exact ⟨descends_of_lockless (locks_pure _), locks_pure _⟩
  · exact descends_locked fun rows => locks_bind (locks_raiseIf _) fun _ =>
      locks_bind (locks_raiseIf _) fun _ => locks_pure _

theorem descends_release {lines : List BookingLine} :
    Descends (releaseBookingInventory lines) ∧
      Locks RowKey.ledgerRows (releaseBookingInventory lines) := by
  unfold releaseBookingInventory
  split
  · obtain ⟨hlock, hlocks⟩ := descends_lockAndValidate _ _ 0
    exact ⟨fun L hL => ascending_bind (hlock L hL) hlocks fun _ L' _ =>
      ascending_of_lockless lockless_decrement, locks_bind hlocks fun _ =>
        lockless_decrement.anywhere⟩
  · exact ⟨descends_of_lockless (locks_pure _), locks_pure _⟩

theorem descends_claim {rt : UUID} {nights : List ℤ} {n : ℤ} :
    Descends (claimAvailabilityForNewBooking rt nights n) ∧
      Locks RowKey.ledgerRows (claimAvailabilityForNewBooking rt nights n) := by
  unfold claimAvailabilityForNewBooking
  split
  · exact ⟨descends_of_lockless (locks_pure _), locks_pure _⟩
  · have hrest : ∀ updated c [Decidable c], Lockless (incrementBookedRooms updated n >>=
        fun _ => (raiseIf c insufficient : Tx Unit)) :=
      fun _ _ _ => locks_bind lockless_increment fun _ => locks_raiseIf _
    exact ⟨descends_lockless_bind (locks_raiseIf _) fun _ => descends_lockless_bind
      (locks_select _) fun _ => descends_lockless_bind (locks_raiseIf _) fun _ =>
        (descends_locked fun _ => hrest _ _).1,
      locks_bind (locks_raiseIf _) fun _ => locks_bind (locks_select _) fun _ =>
        locks_bind (locks_raiseIf _) fun _ => (descends_locked fun _ => hrest _ _).2⟩

end Ledger

/-! Requests -/

section Services

theorem descends_createBooking {env : Env} {body : BookingCreateRequest} :
    Descends (createBooking env body) := by
  refine descends_lockless_bind (locks_ofExcept _) fun _ =>
    descends_lockless_bind (locks_select _) fun _ =>
      descends_lockless_bind (locks_raiseIf _) fun _ =>
        descends_lockless_bind (locks_bind (locks_select _) fun _ => locks_raiseIf _) fun _ =>
          descends_lockless_bind (locks_bind (locks_select _) fun _ => locks_raiseIf _) fun _ =>
            descends_lockless_bind lockless_sumRates fun _ => ?_
  refine descends_bind env.bookingId descends_claim.1 descends_claim.2 fun _ =>
    Locks.anywhere ?_
  exact
    locks_bind lockless_getOrCreateGuest fun _ => locks_bind lockless_insertBooking fun _ =>
      locks_pure _

theorem descends_override {body : AvailabilityOverridePutRequest} :
    Descends (applyBlockedRoomsOverride body) := by
  refine descends_lockless_bind (locks_raiseIf _) fun _ => ?_
  simp only
  split
  · exact descends_of_lockless (locks_pure _)
  · exact (descends_locked fun rows => locks_bind (locks_raiseIf _) fun _ =>
      locks_bind (locks_forEach fun _ _ => locks_bind (locks_raiseIf _) fun _ =>
        locks_modify _) fun _ => locks_pure _).1

theorem lockless_checkTransition {old : BookingStatus} {target : String} :
    Lockless (checkTransition old target) := by
  unfold checkTransition
  exact locks_ofExcept _

theorem lockless_checkInactive {b : Booking} {body : BookingPatchRequest} :
    Lockless (checkInactive b body) := by
  unfold checkInactive
  split
  · exact locks_pure _
  · refine locks_bind ?_ fun _ => locks_raiseIf _
    unfold checkRequestedTransition
    split
    · exact locks_pure _
    · exact lockless_checkTransition

theorem lockless_patchRoomAssignment {bid : UUID} {body : BookingPatchRequest}
    {pl : PatchLines} : Lockless (patchRoomAssignment bid body pl) := by
  unfold patchRoomAssignment
  split
  · exact locks_pure _
  · refine locks_bind lockless_assignBookingRoom fun _ => ?_
    split
    · exact locks_pure _
    · exact locks_bind (locks_select _) fun _ => locks_pure _

theorem lockless_checkinRequirements {env : Env} {b : Booking} :
    Lockless (checkinRequirements env b) := by
  refine locks_bind (locks_select _) fun guest => ?_
  split
  · exact locks_raise _
  · exact locks_raiseIf _

theorem lockless_checkoutWarning {b : Booking} {status : BookingStatus} {pl : PatchLines} :
    Lockless (checkoutWarning b status pl) := by
  unfold checkoutWarning
  split
  · exact locks_bind (locks_modify _) fun _ => locks_bind (locks_select _) fun _ => locks_pure _
  · exact locks_pure _

theorem lockless_flushRoomCharge {bid : UUID} {amount : Option Money} :
    Lockless (flushRoomCharge bid amount) := by
  cases amount with
  | none => exact locks_pure _
  | some amount => exact lockless_folioCharge

theorem descends_releaseLoaded {loaded : Option (List BookingLine)} :
    Descends (releaseLoaded loaded) ∧ Locks RowKey.ledgerRows (releaseLoaded loaded) := by
  cases loaded with
  | none => exact ⟨descends_of_lockless (locks_raise _), locks_raise _⟩
  | some lines => exact descends_release

/-- The release of a no-show's nights, if any, is followed by writes of its booking. -/
theorem descends_patchStatus {β : Type} {env : Env} {b : Booking} {body : BookingPatchRequest}
    {pl : PatchLines} {f : BookingStatus → Tx β} (hf : ∀ status, LocksBooking b.id (f status)) :
    Descends (patchStatus env b body pl >>= f) := by
  unfold patchStatus
  split
  · exact descends_of_locksBooking (locks_bind (locks_pure _) hf)
  · simp only [bind_assoc]
    refine descends_lockless_bind lockless_checkTransition fun _ =>
      descends_lockless_bind (locks_runIf lockless_checkinRequirements) fun _ => ?_
    exact descends_runIf_bind descends_releaseLoaded fun _ =>
      locks_bind (locks_runIf locksBooking_updateRow) fun _ => locks_bind (locks_pure _) hf

theorem descends_patchBooking {env : Env} {bid : UUID} {body : BookingPatchRequest}
    (hci : body.checkIn = none) (hco : body.checkOut = none) :
    Descends (patchBooking env bid body) := by
  unfold patchBooking
  split
  · exact descends_of_lockless (locks_pure _)
  · refine descends_lockless_bind (locks_select _) fun found => ?_
    split
    · exact descends_of_lockless (locks_raise _)
    · next b =>
      split
      · exact descends_of_locksBooking (locks_bind locksBooking_patchNotes fun _ => locks_pure _)
      · split
        · have hnotes : LocksBooking b.id (patchNotes b body.notes >>= fun _ =>
              (pure none : Tx (Option Money))) :=
            locks_bind locksBooking_patchNotes fun _ => locks_pure _
          unfold patchCancel
          split
          · simp only [bind_assoc]
            exact descends_lockless_bind lockless_checkTransition fun _ =>
              descends_bind _ descends_release.1 descends_release.2 fun _ =>
                locks_bind locksBooking_updateRow fun _ => hnotes
          · exact descends_of_locksBooking (locks_bind (locks_pure _) fun _ => hnotes)
        · have hdates : patchDates env b body = pure (.ofBooking b) := by
            unfold patchDates
            rw [if_pos ⟨hci, hco⟩]
          rw [hdates]
          refine descends_lockless_bind lockless_checkInactive fun _ =>
            descends_lockless_bind (locks_pure _) fun pl =>
              descends_lockless_bind lockless_patchRoomAssignment fun pl => ?_
          exact descends_patchStatus fun status =>
            locks_bind lockless_checkoutWarning.anywhere fun _ =>
              locks_bind lockless_flushRoomCharge.anywhere fun _ =>
                locks_bind locksBooking_patchNotes fun _ => locks_pure _

/-! Revisions -/

theorem lockless_updateRevision {rid : String}
    {f : ChannexBookingRevision → ChannexBookingRevision}
    {hf : ∀ r, (f r).channexRevisionId = r.channexRevisionId} :
    Lockless (updateRevision rid f hf) := locks_modify _

theorem lockless_failRevision {rid : String} {e : RevisionError} {r : ChannexIngestResult} :
    Lockless (failRevision rid e >>= fun _ => (pure r : Tx ChannexIngestResult)) :=
  locks_bind lockless_updateRevision fun _ => locks_pure _

theorem lockless_handleIngestError {rev : Revision} (e : Err) :
    Lockless (handleIngestError rev e) := by
  unfold handleIngestError
  split
  · exact lockless_failRevision
  · exact lockless_failRevision
  · exact lockless_failRevision
  · exact locks_raise _
  · exact locks_raise _

theorem descends_ingestCancelled {rev : Revision} : Descends (ingestCancelled rev) := by
  refine descends_lockless_bind (locks_select _) fun found => ?_
  split
  · exact descends_of_lockless lockless_failRevision
  · split
    · exact descends_bind _ descends_release.1 descends_release.2 fun _ =>
        locks_bind locksBooking_updateRow fun _ =>
          locks_bind lockless_updateRevision.anywhere fun _ => locks_pure _
    · exact descends_of_lockless (locks_bind lockless_updateRevision fun _ => locks_pure _)

theorem descends_ingestNew {env : Env} {rev : Revision} : Descends (ingestNew env rev) := by
  refine descends_lockless_bind (locks_select _) fun existing => ?_
  split
  · exact descends_of_lockless (locks_bind lockless_updateRevision fun _ => locks_pure _)
  · obtain ⟨hlock, hlocks⟩ := descends_lockAndValidate rev.roomTypeId rev.nights 1
    refine descends_bind env.bookingId hlock hlocks fun rows => Locks.anywhere ?_
    exact locks_bind lockless_increment fun _ => locks_bind lockless_getOrCreateGuest fun _ =>
      locks_bind (locks_modify _) fun _ => locks_bind lockless_insertBooking fun _ =>
        locks_bind lockless_updateRevision fun _ => locks_pure _

theorem descends_applyRevision {env : Env} {kind : RevisionKind} {rev : Revision}
    (hkind : kind ≠ .modified) : Descends (applyRevision env kind rev) := by
  intro L hL
  refine ascending_tryCatch ?_ lockless_handleIngestError
  cases kind with
  | cancelled => exact descends_ingestCancelled L hL
  | modified => exact absurd rfl hkind
  | new => exact descends_ingestNew L hL

theorem descends_ingestMapped {env : Env} {link : ChannexPropertyLink} {rid : String}
    {payload : ChannexBookingRevisionPayload} {roomTypeId ratePlanId : UUID}
    (hkind : revisionKind payload ≠ .modified) :
    Descends (ingestMapped env link rid payload roomTypeId ratePlanId) := by
  unfold ingestMapped
  simp only
  split
  · split
    · exact descends_of_lockless lockless_failRevision
    · refine descends_lockless_bind (locks_ofExcept _) fun nights => ?_
      split
      · exact descends_of_lockless lockless_failRevision
      · exact descends_lockless_bind (locks_ofExcept _) fun total =>
          descends_lockless_bind (locks_ofExcept _) fun guest => descends_applyRevision hkind
  · exact descends_of_lockless lockless_failRevision

theorem descends_ingestClaimed {env : Env} {link : ChannexPropertyLink}
    {payload : ChannexBookingRevisionPayload} (hkind : revisionKind payload ≠ .modified) :
    Descends (ingestClaimed env link payload) := by
  unfold ingestClaimed
  simp only
  split
  · exact descends_of_lockless lockless_failRevision
  · refine descends_lockless_bind ?_ fun maps => ?_
    · refine locks_bind (locks_select _) fun rtm => ?_
      split
      · exact locks_pure _
      · exact locks_bind (locks_select _) fun _ => locks_pure _
    · split
      · exact descends_of_lockless lockless_failRevision
      · exact descends_ingestMapped hkind

theorem locks_claimRevisionRow {env : Env} {loaded : Option ChannexBookingRevision}
    {link : ChannexPropertyLink} {rid : String} {payload : ChannexBookingRevisionPayload} :
    Locks {RowKey.revision rid} (claimRevisionRow env loaded link rid payload) := by
  refine locks_bind (locks_raiseIf _) fun _ => locks_bind (locks_raiseIf _) fun _ =>
    locks_bind (locks_select _) fun present => locks_bind (locks_runIf (locks_acquire rfl)) fun _ =>
      locks_bind (locks_select _) fun existing => ?_
  split
  · exact locks_bind (locks_raiseIf _) fun _ => locks_bind (locks_modify _) fun _ => locks_pure _
  · split
    · exact locks_pure _
    · exact locks_pure _
    · exact locks_pure _
    · exact locks_bind (locks_acquire rfl) fun _ =>
        locks_bind lockless_updateRevision.anywhere fun _ => locks_pure _

/-- The revision row is locked before any ledger row. -/
theorem ascending_ingest {env : Env} {link : ChannexPropertyLink}
    {flat : Option ChannexBookingRevisionPayload}
    (hkind : ∀ payload, flat = some payload → revisionKind payload ≠ .modified) :
    Ascending RowKey.rank ∅ (ingestChannexBooking env link flat) := by
  unfold ingestChannexBooking ingestInSession
  split
  · exact .ret _
  · next payload =>
    simp only
    split
    · exact .ret _
    · refine ascending_bind (ascending_of_single locks_claimRevisionRow (by simp))
        locks_claimRevisionRow fun claimed L' hL' => ?_
      split
      · exact .ret _
      · refine descends_ingestClaimed (hkind payload rfl) L' fun r hr => ?_
        rcases hL' hr with hnone | hone
        · exact absurd hnone (Set.notMem_empty r)
        · exact ⟨_, (Set.mem_singleton_iff.mp hone).symm⟩

end Services

/-! Any number of transactions -/

/-- The requests that lock ledger rows in one statement. -/
def Op.LocksOnce : Op → Prop
  | createBooking _ _ => True
  | patchBooking _ _ body => body.checkIn = none ∧ body.checkOut = none
  | ingest _ _ flat => ∀ payload, flat = some payload → revisionKind payload ≠ .modified
  | override _ => True
  | _ => False

theorem Op.LocksOnce.ascending {op : Op} (h : op.LocksOnce) :
    Ascending RowKey.rank ∅ op.prog := by
  have hempty : (∅ : Set RowKey) ⊆ RowKey.revisions := Set.empty_subset _
  cases op with
  | createBooking env body => exact ascending_answer (descends_createBooking ∅ hempty)
  | patchBooking env bid body => exact ascending_answer (descends_patchBooking h.1 h.2 ∅ hempty)
  | ingest env link flat => exact ascending_answer (ascending_ingest h)
  | override body => exact ascending_answer (descends_override ∅ hempty)
  | _ => exact h.elim

/-- In every interleaving of any finite number of them, whichever are killed, no circle of
waiting requests arises: however the run goes on, all of them end. -/
theorem requests_end {ι : Type} [DecidableEq ι] [Finite ι] {db : Db} {ops : ι → Op}
    (hops : ∀ i, (ops i).LocksOnce) {c : Config Db RowKey Err Unit ι}
    (hc : Config.Reach .any (Config.start db fun i => (ops i).prog) c) :
    c.Inevitable fun c => ∀ i, c.Ended i :=
  inevitable_of_ascending (fun i => (hops i).ascending) hc

/-- The two requests for the last room, the second waiting for the lock of the first. -/
theorem requests_end_demo :
    ∃ c, (Config.start (Demo.oneNight 1) fun i => (Demo.lastRoom i).prog).run
        (List.replicate 8 (.step false) ++ List.replicate 6 (.step true)) = some c ∧
      (c.next (.step true)).isNone = true ∧ c.Inevitable fun c => ∀ i, c.Ended i := by
  have hwaits : ((Config.start (Demo.oneNight 1) fun i => (Demo.lastRoom i).prog).run
      (List.replicate 8 (.step false) ++ List.replicate 6 (.step true))).map
        (fun c => (c.next (.step true)).isNone) = some true := by
    decide +kernel
  obtain ⟨c, hrun, hc⟩ := Option.map_eq_some_iff.mp hwaits
  have hops : ∀ i, (Demo.lastRoom i).LocksOnce := fun _ => trivial
  exact ⟨c, hrun, hc, requests_end hops (Config.reach_of_run hrun)⟩

end OpenPms
