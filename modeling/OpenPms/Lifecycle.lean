import OpenPms.ChannexLedger

/-!
Changes of the persisted booking status. Patches and the night audit ask the transition
table before they write the column; a cancelled revision writes it whatever the booking's
status is.
-/
namespace OpenPms

open KeyedTable Transaction Prog Hotel

def Db.statuses (db : Db) (id : UUID) : Option BookingStatus :=
  (db.bookings.find id).map (·.status)

/-! Statements that leave every status as it is -/

section Keeps
variable {db db' : Db} {bid : UUID}

theorem statuses_of_bookings (h : db'.bookings = db.bookings) : db'.statuses = db.statuses := by
  unfold Db.statuses
  rw [h]

theorem statuses_update {g : Booking → Booking} {hg : ∀ b, (g b).id = b.id}
    (hstatus : ∀ b, (g b).status = b.status) (db : Db) :
    (db.updateBooking bid g hg).statuses = db.statuses := by
  funext id
  unfold Db.statuses Db.updateBooking
  by_cases hid : id = bid
  · subst hid
    rw [Table.find_update_self, Option.map_map]
    exact congrFun (congrArg Option.map (funext hstatus)) _
  · rw [Table.find_update_of_ne hid]

theorem keeps_of_bookings {α : Type} {p : Tx α} (h : Keeps Db.bookings p) :
    Keeps Db.statuses p :=
  h.comp fun t id => (t.find id).map (·.status)

theorem keeps_update {g : Booking → Booking} {hg : ∀ b, (g b).id = b.id}
    (hstatus : ∀ b, (g b).status = b.status) :
    Keeps Db.statuses (modify fun db => db.updateBooking bid g hg : Tx Unit) :=
  keeps_modify (statuses_update hstatus)

theorem keeps_quiet {f : Db → Db} (hf : ∀ db, (f db).bookings = db.bookings) :
    Keeps Db.statuses (modify f : Tx Unit) :=
  keeps_of_bookings (keeps_modify hf)

theorem keeps_updateRow {g : Booking → Booking} {hg : ∀ b, (g b).id = b.id}
    (hstatus : ∀ b, (g b).status = b.status) :
    Keeps Db.statuses (updateBookingRow bid g hg) :=
  keeps_bind (keeps_acquire _) fun _ => keeps_bind (keeps_select _) fun _ =>
    keeps_bind (keeps_raiseIf _) fun _ => keeps_update hstatus

theorem keeps_releaseStatuses {lines : List BookingLine} :
    Keeps Db.statuses (releaseBookingInventory lines) := by
  unfold releaseBookingInventory
  split
  · exact keeps_bind keeps_lockAndValidate fun _ => keeps_forEach fun _ =>
      keeps_bind (keeps_quiet fun _ => rfl) fun _ => keeps_raiseIf _
  · exact keeps_pure _

theorem keeps_patchNotes {b : Booking} {notes : Option (Option String)} :
    Keeps Db.statuses (patchNotes b notes) := by
  refine keeps_bind (keeps_raiseIf _) fun _ => ?_
  split
  · exact keeps_pure _
  · split
    · exact keeps_pure _
    · exact keeps_updateRow fun _ => rfl

theorem keeps_folioCharge {amount : Money} :
    Keeps Db.statuses (updateFolioChargeAmount bid amount) :=
  keeps_bind (keeps_select _) fun _ => keeps_bind (keeps_raiseIf _) fun _ =>
    keeps_quiet fun _ => rfl

theorem keeps_flushLines {lines : List BookingLine} : Keeps Db.statuses (flushLines bid lines) :=
  keeps_bind (keeps_raiseIf _) fun _ => keeps_bind (keeps_select _) fun _ =>
    keeps_bind (keeps_raiseIf _) fun _ => keeps_update fun _ => rfl

theorem keeps_replaceTaxes {env : Env} {propertyId : UUID} {base : Money} :
    Keeps Db.statuses (replaceCountryPackTaxCharges env bid propertyId base) := by
  refine keeps_bind (keeps_bind (keeps_select _) fun _ => keeps_raiseIf _) fun _ =>
    keeps_bind (keeps_quiet fun _ => rfl) fun _ => keeps_bind (keeps_ofExcept _) fun _ => ?_
  split
  · exact keeps_pure _
  · exact keeps_bind (keeps_raiseIf _) fun _ => keeps_bind (keeps_quiet fun _ => rfl) fun _ =>
      keeps_pure _

theorem keeps_assign {roomId : Option UUID} : Keeps Db.statuses (assignBookingRoom bid roomId) := by
  refine keeps_bind (keeps_select _) fun found => ?_
  split
  · exact keeps_raise _
  · refine keeps_bind (keeps_raiseIf _) fun _ => keeps_bind (keeps_raiseIf _) fun _ => ?_
    split
    · unfold assignRoomOfType
      split
      · exact keeps_update fun _ => rfl
      · refine keeps_bind (keeps_select _) fun room => ?_
        split
        · exact keeps_raise _
        · refine keeps_bind (keeps_raiseIf _) fun _ => keeps_bind (keeps_select _) fun _ =>
            keeps_bind (keeps_raiseIf _) fun _ => keeps_bind ?_ fun _ => keeps_update fun _ => rfl
          unfold assertNoRoomConflict
          split
          · exact keeps_pure _
          · exact keeps_bind (keeps_select _) fun _ => keeps_raiseIf _
    · exact keeps_raise _

theorem keeps_checkTransition {old : BookingStatus} {target : String} :
    Keeps Db.statuses (checkTransition old target) := keeps_ofExcept _

theorem keeps_rebookNights {env : Env} {b : Booking} {ratePlan rt : UUID} {ci co : ℤ}
    {notes : Option (Option String)} :
    Keeps Db.statuses (rebookNights env b ratePlan rt ci co notes) := by
  refine keeps_bind keeps_lockAndValidate fun _ => keeps_bind (keeps_forEach fun _ =>
    keeps_bind (keeps_quiet fun _ => rfl) fun _ => keeps_raiseIf _) fun _ =>
      keeps_bind (keeps_tryCatch ?_ fun e => ?_) fun _ => keeps_bind (keeps_ofExcept _) fun _ =>
        keeps_bind keeps_lockAndValidate fun _ => keeps_bind
          (keeps_forEach fun _ => keeps_quiet fun _ => rfl) fun _ => ?_
  · exact keeps_bind (keeps_ofExcept _) fun _ => keeps_bind (keeps_select _) fun _ =>
      keeps_bind (keeps_raiseIf _) fun _ => keeps_pure _
  · split <;> exact keeps_raise _
  · refine keeps_bind (keeps_update fun _ => rfl) fun _ => keeps_bind (keeps_raiseIf _) fun _ =>
      keeps_bind (keeps_bind (keeps_raiseIf _) fun _ => ?_) fun _ =>
        keeps_bind keeps_flushLines fun _ => keeps_bind keeps_folioCharge fun _ =>
          keeps_replaceTaxes
    split
    · exact keeps_pure _
    · exact keeps_updateRow fun _ => rfl

theorem keeps_patchDates {env : Env} {b : Booking} {body : BookingPatchRequest} :
    Keeps Db.statuses (patchDates env b body) := by
  unfold patchDates
  split
  · exact keeps_pure _
  · refine keeps_bind (keeps_raiseIf _) fun _ => ?_
    simp only
    split
    · refine keeps_bind (keeps_raiseIf _) fun _ => keeps_bind (keeps_raiseIf _) fun _ => ?_
      split
      · unfold changeDates
        split
        · exact keeps_raise _
        · split
          · refine keeps_bind keeps_rebookNights fun _ => ?_
            unfold restoreRoom
            split
            · exact keeps_pure _
            · exact keeps_bind keeps_assign fun _ => keeps_bind (keeps_select _) fun _ =>
                keeps_pure _
          · exact keeps_raise _
      · exact keeps_pure _
    · exact keeps_raise _

theorem keeps_patchRoom {body : BookingPatchRequest} {pl : PatchLines} :
    Keeps Db.statuses (patchRoomAssignment bid body pl) := by
  unfold patchRoomAssignment
  split
  · exact keeps_pure _
  · refine keeps_bind keeps_assign fun _ => ?_
    split
    · exact keeps_pure _
    · exact keeps_bind (keeps_select _) fun _ => keeps_pure _

theorem keeps_checkInactive {b : Booking} {body : BookingPatchRequest} :
    Keeps Db.statuses (checkInactive b body) := by
  unfold checkInactive
  split
  · exact keeps_pure _
  · refine keeps_bind ?_ fun _ => keeps_raiseIf _
    unfold checkRequestedTransition
    split
    · exact keeps_pure _
    · exact keeps_checkTransition

theorem keeps_checkoutWarning {b : Booking} {status : BookingStatus} {pl : PatchLines} :
    Keeps Db.statuses (checkoutWarning b status pl) := by
  unfold checkoutWarning
  split
  · exact keeps_bind (keeps_quiet fun _ => rfl) fun _ => keeps_bind (keeps_select _) fun _ =>
      keeps_pure _
  · exact keeps_pure _

end Keeps

/-! The writers of the column -/

/-- No status changes, or one does along the table. -/
def StatusChange (db db' : Db) : Prop :=
  ∀ id, db'.statuses id = db.statuses id ∨
    ∃ s s', db.statuses id = some s ∧ db'.statuses id = some s' ∧ s' ∈ s.allowed

section Writers
variable {db db' db₁ db₂ : Db} {bid : UUID} {b : Booking}

theorem StatusChange.congr (h : StatusChange db₁ db₂) (hfirst : db₁.statuses = db.statuses)
    (hlast : db'.statuses = db₂.statuses) : StatusChange db db' := by
  intro id
  rw [hlast, ← hfirst]
  exact h id

theorem statusChange_of_eq (h : db'.statuses = db.statuses) : StatusChange db db' :=
  fun id => .inl (congrFun h id)

theorem statuses_of_find (hfind : db.bookings.find b.id = some b) :
    db.statuses b.id = some b.status := by
  rw [Db.statuses, hfind]
  rfl

theorem statuses_setStatus {new old : BookingStatus} (hold : db.statuses bid = some old) :
    (db.updateBooking bid (setStatus new) (id_setStatus _)).statuses =
      Function.update db.statuses bid (some new) := by
  funext id
  unfold Db.updateBooking Db.statuses at *
  by_cases hid : id = bid
  · subst hid
    obtain ⟨b, hfind, -⟩ := Option.map_eq_some_iff.mp hold
    rw [Table.find_update_self, hfind, Function.update_self]
    rfl
  · rw [Table.find_update_of_ne hid, Function.update_of_ne hid]

theorem statusChange_of_update {old new : BookingStatus} (hold : db.statuses bid = some old)
    (hnew : new = old ∨ new ∈ old.allowed)
    (h : db'.statuses = Function.update db.statuses bid (some new)) : StatusChange db db' := by
  intro id
  rw [h]
  by_cases hid : id = bid
  · subst hid
    rw [Function.update_self]
    rcases hnew with rfl | hallowed
    · exact .inl hold.symm
    · exact .inr ⟨old, new, hold, rfl, hallowed⟩
  · exact .inl (Function.update_of_ne hid _ _)

theorem exec_setStatus {old new : BookingStatus} {u : Unit} (hold : db.statuses bid = some old)
    (hnew : new = old ∨ new ∈ old.allowed)
    (h : (updateBookingRow bid (setStatus new) (id_setStatus _)).exec db = (.ok u, db')) :
    StatusChange db db' := by
  obtain ⟨-, rfl⟩ := exec_updateBookingRow_ok.mp h
  exact statusChange_of_update hold hnew (statuses_setStatus hold)

theorem patchCancel_statuses {u : Unit} (hold : db.statuses b.id = some b.status)
    (h : (patchCancel b).exec db = (.ok u, db')) : StatusChange db db' := by
  unfold patchCancel at h
  split at h
  · obtain ⟨_, db₁, hcheck, h⟩ := exec_bind_ok.mp h
    obtain ⟨rfl, new, hnew, hallowed⟩ := exec_checkTransition_ok hcheck
    rw [normalizeBookingStatus_text] at hnew
    obtain rfl : .cancelled = new := text_injective hnew
    obtain ⟨_, db₂, hrel, hset⟩ := exec_bind_ok.mp h
    have hkeep := keeps_releaseStatuses.eq hrel
    refine (exec_setStatus ?_ hallowed hset).congr hkeep rfl
    rw [hkeep]
    exact hold
  · cases h
    exact statusChange_of_eq rfl

theorem patchStatus_statuses {env : Env} {body : BookingPatchRequest} {pl : PatchLines}
    {st : BookingStatus} (hold : db.statuses b.id = some b.status)
    (h : (patchStatus env b body pl).exec db = (.ok st, db')) : StatusChange db db' := by
  unfold patchStatus at h
  split at h
  · cases h
    exact statusChange_of_eq rfl
  · next text _ =>
    simp only [exec_bind_ok, exec_pure, Prod.mk.injEq] at h
    obtain ⟨_, db₁, hcheck, _, db₂, hreq, _, db₃, hrel, _, db₄, hset, -, rfl⟩ := h
    obtain ⟨rfl, htrans⟩ := exec_checkTransition_ok hcheck
    have hkeep : db₃.statuses = db.statuses := by
      have hreq' : db₂.statuses = db.statuses := by
        refine Keeps.eq (keeps_runIf (keeps_bind (keeps_select _) fun guest => ?_)) hreq
        split
        · exact keeps_raise _
        · exact keeps_raiseIf _
      refine (Keeps.eq (keeps_runIf ?_) hrel).trans hreq'
      unfold releaseLoaded
      split
      · exact keeps_raise _
      · exact keeps_releaseStatuses
    rcases exec_runIf_ok.mp hset with ⟨hne, hset⟩ | ⟨-, rfl⟩
    · have hallowed := (allowed_of_transition htrans rfl hne).1
      have hold' := (congrFun hkeep b.id).trans hold
      exact (exec_setStatus hold' (.inr hallowed) hset).congr hkeep rfl
    · exact statusChange_of_eq hkeep

/-- A patch changes the status of its booking along the table, if at all. -/
theorem patchBooking_statuses {env : Env} {body : BookingPatchRequest} {r : Option Money}
    (h : (patchBooking env bid body).exec db = (.ok r, db')) : StatusChange db db' := by
  unfold patchBooking at h
  split at h
  · cases h
    exact statusChange_of_eq rfl
  · obtain ⟨found, db₁, hfound, h⟩ := exec_bind_ok.mp h
    cases hfound
    split at h
    · cases h
    · next b hfind =>
      have hold : db.statuses b.id = some b.status :=
        statuses_of_find (by rw [(Table.find_eq_some.mp hfind).2]; exact hfind)
      split at h
      · exact statusChange_of_eq
          (Keeps.eq (keeps_bind keeps_patchNotes fun _ => keeps_pure _) h)
      · split at h
        · obtain ⟨_, db₂, hcancel, h⟩ := exec_bind_ok.mp h
          exact (patchCancel_statuses hold hcancel).congr rfl
            (Keeps.eq (keeps_bind keeps_patchNotes fun _ => keeps_pure _) h)
        · obtain ⟨_, db₂, hinactive, h⟩ := exec_bind_ok.mp h
          obtain ⟨_, db₃, hdates, h⟩ := exec_bind_ok.mp h
          obtain ⟨_, db₄, hroom, h⟩ := exec_bind_ok.mp h
          obtain ⟨_, db₅, hstatus, h⟩ := exec_bind_ok.mp h
          have hkeep : db₄.statuses = db.statuses :=
            (keeps_patchRoom.eq hroom).trans
              ((keeps_patchDates.eq hdates).trans (keeps_checkInactive.eq hinactive))
          refine (patchStatus_statuses ?_ hstatus).congr hkeep ?_
          · rw [hkeep]
            exact hold
          · refine Keeps.eq (keeps_bind keeps_checkoutWarning fun _ => keeps_bind ?_ fun _ =>
              keeps_bind keeps_patchNotes fun _ => keeps_pure _) h
            unfold flushRoomCharge
            split
            · exact keeps_pure _
            · exact keeps_folioCharge

/-- The audit turns confirmed bookings into no-shows. -/
def NoShows (db db' : Db) : Prop :=
  ∀ id, db'.statuses id = db.statuses id ∨
    db.statuses id = some .confirmed ∧ db'.statuses id = some .noShow

theorem NoShows.trans (h : NoShows db db₁) (h' : NoShows db₁ db') : NoShows db db' := by
  intro id
  rcases h' id with hsame' | ⟨hconf', hno'⟩
  · rw [hsame']
    exact h id
  · rcases h id with hsame | ⟨-, hno⟩
    · exact .inr ⟨hsame.symm.trans hconf', hno'⟩
    · cases hno.symm.trans hconf'

theorem patchNoShow_statuses {env : Env} {r : Option Money}
    (h : (patchBooking env bid noShowRequest).exec db = (.ok r, db')) : NoShows db db' := by
  cases hfind : db.bookings.find bid with
  | none =>
    rw [patchBooking_noShow env bid asksNoShow_noShowRequest, exec_bind, exec_select] at h
    simp only [hfind] at h
    cases h
  | some b =>
    by_cases hconf : b.status = .confirmed
    · rw [exec_patchNoShow asksNoShow_noShowRequest hfind hconf] at h
      obtain ⟨_, db₁, hrel, h⟩ := exec_bind_ok.mp h
      obtain ⟨_, db₂, hset, hret⟩ := exec_bind_ok.mp h
      cases hret
      obtain ⟨-, rfl⟩ := exec_updateBookingRow_ok.mp hset
      have hkeep := keeps_releaseStatuses.eq hrel
      have hold : db.statuses bid = some .confirmed := by
        rw [Db.statuses, hfind, ← hconf]
        rfl
      intro id
      rw [statuses_setStatus (by rw [hkeep]; exact hold), hkeep]
      by_cases hid : id = bid
      · subst hid
        exact .inr ⟨hold, Function.update_self _ _ _⟩
      · exact .inl (Function.update_of_ne hid _ _)
    · rw [patchBooking_noShow env bid asksNoShow_noShowRequest, exec_bind, exec_select] at h
      simp only [hfind] at h
      rw [← bind_assoc] at h
      by_cases hno : b.status = .noShow
      · rw [noShow_again hno] at h
        cases h
        exact fun _ => .inl rfl
      · obtain ⟨e, he⟩ := noShow_refused env hconf hno (.ofBooking b)
        rw [he] at h
        cases h

theorem markNoShow_statuses {env : Env} {n : ℕ}
    (h : (markNoShow env bid).exec db = (.ok n, db')) : NoShows db db' := by
  rw [markNoShow, exec_tryCatch] at h
  split at h
  · next hexec =>
    cases h
    obtain ⟨_, _, hpatch, hret⟩ := exec_bind_ok.mp hexec
    cases hret
    exact patchNoShow_statuses hpatch
  · next e db₁ hexec =>
    split at h
    · cases h
      rcases exec_bind_error.mp hexec with hpatch | ⟨_, _, -, hret⟩
      · rw [exec_patchNoShow_refused hpatch]
        exact fun _ => .inl rfl
      · cases hret
    · cases h

theorem markNoShows_statuses {env : Env} {ids : List UUID} {n : ℕ}
    (h : (markNoShows env ids).exec db = (.ok n, db')) : NoShows db db' := by
  induction ids generalizing db n with
  | nil =>
    cases h
    exact fun _ => .inl rfl
  | cons bid rest ih =>
    simp only [markNoShows, exec_bind_ok, exec_pure, Prod.mk.injEq] at h
    obtain ⟨_, db₁, hmark, _, _, hrest, -, rfl⟩ := h
    exact (markNoShow_statuses hmark).trans (ih hrest)

theorem NoShows.statusChange (h : NoShows db db') : StatusChange db db' := by
  intro id
  rcases h id with hsame | ⟨hconf, hno⟩
  · exact .inl hsame
  · exact .inr ⟨.confirmed, .noShow, hconf, hno, by decide⟩

end Writers

/-! Bookings come and go -/

/-- A booking that is there before and after the transaction keeps its status or changes
it along the table. -/
def Lawful (db db' : Db) : Prop :=
  ∀ id s s', db.statuses id = some s → db'.statuses id = some s' →
    validateStatusTransition s.text s'.text = .ok ()

section Lawful
variable {db db' : Db}

theorem validate_of_allowed {s s' : BookingStatus} (h : s' = s ∨ s' ∈ s.allowed) :
    validateStatusTransition s.text s'.text = .ok () := by
  revert h
  cases s <;> cases s' <;> decide

theorem StatusChange.lawful (h : StatusChange db db') : Lawful db db' := by
  intro id s s' hs hs'
  rcases h id with hsame | ⟨t, t', ht, ht', hallowed⟩
  · rw [hsame, hs] at hs'
    exact validate_of_allowed (.inl (Option.some.inj hs').symm)
  · cases hs.symm.trans ht
    cases hs'.symm.trans ht'
    exact validate_of_allowed (.inr hallowed)

/-- Every booking that was there keeps its status. -/
theorem lawful_of_grows (h : ∀ id s, db.statuses id = some s → db'.statuses id = some s) :
    Lawful db db' := by
  intro id s s' hs hs'
  cases (h id s hs).symm.trans hs'
  exact validate_of_allowed (.inl rfl)

/-- Every booking that is left has kept its status. -/
theorem lawful_of_shrinks (h : ∀ id s, db'.statuses id = some s → db.statuses id = some s) :
    Lawful db db' := by
  intro id s s' hs hs'
  cases (h id s' hs').symm.trans hs
  exact validate_of_allowed (.inl rfl)

theorem lawful_of_hotel (h : db'.hotel = db.hotel) : Lawful db db' :=
  (statusChange_of_eq (statuses_of_bookings (congrArg Hotel.bookings h))).lawful

theorem sales_grow {h h' : Hotel} (hsales : Sales h h') {id : UUID} {s : BookingStatus}
    (hs : (h.bookings.find id).map (·.status) = some s) :
    (h'.bookings.find id).map (·.status) = some s := by
  induction hsales with
  | refl => exact hs
  | tail _ hsale ih =>
    obtain ⟨b', hfind', hs'⟩ := Option.map_eq_some_iff.mp ih
    cases hsale with
    | book _ hfresh _ _ _ _ =>
      rw [Table.find_insert_of_some hfresh hfind']
      exact congrArg some hs'
    | @assign b room hfind _ _ =>
      by_cases hid : id = b.id
      · subst hid
        rw [Table.find_update_self, hfind']
        exact congrArg some hs'
      · rw [Table.find_update_of_ne hid, hfind']
        exact congrArg some hs'

theorem lawful_of_sales (h : Sales db.hotel db'.hotel) : Lawful db db' :=
  lawful_of_grows fun _ _ hs => sales_grow h hs

theorem deleteBooking_lawful {bid : UUID} {b : Booking}
    (h : (deleteBooking bid).exec db = (.ok b, db')) : Lawful db db' := by
  obtain ⟨found, db₁, hfound, h⟩ := exec_bind_ok.mp h
  cases hfound
  split at h
  · cases h
  · obtain ⟨_, db₁, hraise, h⟩ := exec_bind_ok.mp h
    obtain ⟨-, rfl⟩ := exec_raiseIf_ok.mp hraise
    obtain ⟨_, db₂, hrel, h⟩ := exec_bind_ok.mp h
    obtain ⟨_, db₃, herase, hret⟩ := exec_bind_ok.mp h
    cases hret
    cases herase
    have hkeep : db₂.statuses = db.statuses := (keeps_runIf keeps_releaseStatuses).eq hrel
    refine lawful_of_shrinks ?_
    intro id s hs
    rw [← hkeep]
    by_cases hid : id = bid
    · subst hid
      rw [Db.statuses, Table.find_erase_self] at hs
      cases hs
    · rw [Db.statuses, Table.find_erase_of_ne hid] at hs
      have hclear : ∀ s : Db, (s.updateBooking bid clearLines id_clearLines).statuses =
          s.statuses := by
        apply statuses_update
        exact fun _ => rfl
      rwa [← hclear]

/-! Revisions -/

/-- A revision that is not skipped and cancels finds a booking that may be cancelled. -/
def CancelsLawfully (payload : ChannexBookingRevisionPayload) (db : Db) : Prop :=
  revisionKind payload = .cancelled → Claimable db (Text.strip payload.id) →
    ∀ b, findByExternal (externalKey payload) db = some b →
      b.status ≠ .checkedIn ∧ b.status ≠ .checkedOut ∧ b.status ≠ .noShow

theorem cancelled_allowed {s : BookingStatus}
    (h : s ≠ .checkedIn ∧ s ≠ .checkedOut ∧ s ≠ .noShow) :
    .cancelled = s ∨ .cancelled ∈ s.allowed := by
  revert h
  cases s <;> decide

theorem applyRevision_lawful {env : Env} {kind : RevisionKind} {rev : Revision}
    {r : ChannexIngestResult} (hpriced : rev.Priced)
    (hcancel : kind = .cancelled → ∀ b, findByExternal rev.external db = some b →
      b.status ≠ .checkedIn ∧ b.status ≠ .checkedOut ∧ b.status ≠ .noShow)
    (h : (applyRevision env kind rev).exec db = (.ok r, db')) : Lawful db db' := by
  unfold applyRevision at h
  rw [exec_tryCatch] at h
  split at h
  · next hexec =>
    cases h
    cases kind with
    | cancelled =>
      rcases exec_ingestCancelled_ok hexec with ⟨-, hsame⟩ | ⟨-, b, hfound, hcases⟩
      · exact lawful_of_hotel hsame
      · rcases hcases with ⟨-, hsame⟩ | ⟨-, -, hhotel⟩
        · exact lawful_of_hotel hsame
        · have hold := statuses_of_find (find_of_external hfound)
          have hnew : db'.statuses = Function.update db.statuses b.id (some .cancelled) := by
            rw [← statuses_setStatus hold]
            exact statuses_of_bookings (congrArg Hotel.bookings hhotel)
          exact (statusChange_of_update hold (cancelled_allowed (hcancel rfl b hfound))
            hnew).lawful
    | modified =>
      obtain ⟨stay, hrt, hnights, hper, htotal⟩ := hpriced.exists_stay
      rcases exec_ingestModified_ok hrt hnights hper htotal hexec with ⟨-, hsame⟩ | ⟨-, b, rt, hmod⟩
      · exact lawful_of_hotel hsame
      · obtain ⟨-, -, -, -, hhotel⟩ := hmod
        have hsame : (db.updateBooking b.id (setLines stay (some rev.ratePlanId))
            (id_setLines _ _)).statuses = db.statuses := by
          apply statuses_update
          exact fun _ => rfl
        refine (statusChange_of_eq (Eq.trans ?_ hsame)).lawful
        exact statuses_of_bookings (congrArg Hotel.bookings hhotel)
    | new =>
      obtain ⟨stay, hrt, hnights, hper, htotal⟩ := hpriced.exists_stay
      exact lawful_of_sales (exec_ingestNew_ok hrt hnights hper htotal hexec).2
  · next e db₁ hexec =>
    obtain ⟨hhandled, -, hhotel⟩ := exec_handleIngestError_ok h
    have hcap : db₁.capacity = db.capacity := by
      cases kind with
      | cancelled => exact keepsOn_ingestCancelled ignoresCounters_capacity rev db e db₁ hexec hhandled
      | modified => exact keepsOn_ingestModified ignoresCounters_capacity env rev db e db₁ hexec hhandled
      | new => exact keepsOn_ingestNew ignoresCounters_capacity env rev db e db₁ hexec hhandled
    obtain ⟨hkept, -⟩ := capacity_eq hcap
    exact (statusChange_of_eq (statuses_of_bookings
      ((congrArg Hotel.bookings hhotel).trans (congrArg Hotel.bookings hkept)))).lawful

theorem ingest_lawful {env : Env} {link : ChannexPropertyLink}
    {flat : Option ChannexBookingRevisionPayload} {r : ChannexIngestResult}
    (hlawful : ∀ payload, flat = some payload → CancelsLawfully payload db)
    (h : (ingestChannexBooking env link flat).exec db = (.ok r, db')) : Lawful db db' := by
  rcases exec_ingest_ok h with ⟨hsame, -⟩ | happlied
  · exact lawful_of_hotel hsame
  · obtain ⟨payload, rt, ratePlan, ci, co, total, guest, revisions, rfl, hclaim, -, -, hlt, hspan,
      happly⟩ := happlied
    have hcancel := hlawful payload rfl
    unfold CancelsLawfully at hcancel
    generalize revisionKind payload = kind at hcancel happly
    change Lawful { db with revisions := revisions } db'
    refine applyRevision_lawful (priced_revisionOf hlt hspan) ?_ happly
    intro hkind b hfound
    rw [findByExternal_revisions, external_revisionOf] at hfound
    exact hcancel hkind hclaim b hfound

/-! Rooms and the ledger -/

section Rooms
variable {γ : Type} {f : Db → γ}

/-- What neither the rooms nor the ledger show in. -/
structure IgnoresRooms (f : Db → γ) : Prop where
  rooms : ∀ (db : Db) rooms, f { db with rooms := rooms } = f db
  ledger : ∀ (db : Db) ledger, f { db with ledger := ledger } = f db

theorem ignoresRooms_bookings : IgnoresRooms Db.bookings := ⟨fun _ _ => rfl, fun _ _ => rfl⟩

theorem keeps_recalculate {rt : UUID} {start : Option ℤ} (hf : IgnoresRooms f) :
    Keeps f (recalculateLedgerTotalRooms rt start) :=
  keeps_bind (keeps_select _) fun _ => keeps_bind (keeps_select _) fun _ =>
    keeps_bind (keeps_select _) fun _ => keeps_modify fun db => hf.ledger db _

theorem keeps_seedRows {segments : List AvailabilityLedgerSeedSegment} :
    Keeps f (seedRows segments) := by
  induction segments with
  | nil => exact keeps_pure _
  | cons seg rest ih =>
    exact keeps_bind (keeps_select _) fun _ => keeps_bind (keeps_raiseIf _) fun _ =>
      keeps_bind (keeps_select _) fun _ => keeps_bind (keeps_raiseIf _) fun _ =>
        keeps_bind ih fun _ => keeps_pure _

theorem keeps_bulkSeed {body : BulkAvailabilityLedgerSeedRequest} (hf : IgnoresRooms f) :
    Keeps f (bulkSeedAvailabilityLedger body) := by
  refine keeps_bind keeps_seedRows fun rows => keeps_bind (keeps_modify fun db => ?_)
    fun _ => keeps_pure _
  induction rows generalizing db with
  | nil => rfl
  | cons row rest ih => exact (ih (upsertSeedRow row db)).trans (hf.ledger db _)

theorem keeps_roomStatus {status : String} : Keeps f (roomStatus status) :=
  keeps_bind (keeps_raiseIf _) fun _ => keeps_pure _

theorem keeps_requireRoomType {rt : UUID} : Keeps f (requireRoomType rt) :=
  keeps_bind (keeps_select _) fun _ => keeps_raiseIf _

theorem keeps_flushRoom {room : Room} (hf : IgnoresRooms f) : Keeps f (flushRoom room) :=
  keeps_bind (keeps_select _) fun _ => keeps_bind (keeps_raiseIf _) fun _ =>
    keeps_modify fun db => hf.rooms db _

theorem keeps_checkBulkItems {seen : List String} {items : List RoomBulkCreateItem} :
    Keeps f (checkBulkItems seen items) := by
  induction items generalizing seen with
  | nil => exact keeps_pure _
  | cons item rest ih =>
    exact keeps_bind (keeps_raiseIf _) fun _ => keeps_bind keeps_roomStatus fun _ => ih

theorem keeps_planBulkRooms {env : Env} {rt : UUID} {mode : OnConflict} {existing : List String}
    {items : List RoomBulkCreateItem} : Keeps f (planBulkRooms env rt mode existing items) := by
  induction items generalizing existing with
  | nil => exact keeps_pure _
  | cons item rest ih =>
    unfold planBulkRooms
    simp only
    split
    · exact keeps_bind (keeps_raiseIf _) fun _ => keeps_bind ih fun _ => keeps_pure _
    · exact keeps_bind ih fun _ => keeps_pure _

theorem keeps_createRoomsBulk {env : Env} {rt : UUID} {items : List RoomBulkCreateItem}
    {mode : OnConflict} (hf : IgnoresRooms f) : Keeps f (createRoomsBulk env rt items mode) := by
  refine keeps_bind keeps_requireRoomType fun _ => keeps_bind keeps_checkBulkItems fun _ =>
    keeps_bind (keeps_select _) fun _ => keeps_bind keeps_planBulkRooms fun plan => ?_
  obtain ⟨created, skipped⟩ := plan
  simp only
  split
  · exact keeps_pure _
  · exact keeps_bind (keeps_forEach fun _ => keeps_flushRoom hf) fun _ =>
      keeps_bind (keeps_recalculate hf) fun _ => keeps_pure _

theorem keeps_seedYear {rt : UUID} {total : ℤ} {start : Option ℤ} {horizon : ℕ}
    (hf : IgnoresRooms f) :
    Keeps f (seedEmptyAvailabilityLedgerYearForward rt total start horizon) :=
  keeps_bind (keeps_select _) fun _ => keeps_bind (keeps_raiseIf _) fun _ =>
    keeps_bind (keeps_select _) fun _ => keeps_bind (keeps_raiseIf _) fun _ =>
      keeps_modify fun db => hf.ledger db _

end Rooms

theorem keeps_extendRoomTypes {extra : ℕ} {types : List RoomType} :
    Keeps Db.bookings (extendRoomTypes extra types) := by
  induction types with
  | nil => exact keeps_pure _
  | cons rt rest ih =>
    refine keeps_bind (keeps_bind (keeps_select _) fun last => keeps_bind (keeps_select _) fun _ =>
      ?_) fun _ => keeps_bind ih fun _ => keeps_pure _
    split
    · exact keeps_bind (keeps_seedYear ignoresRooms_bookings) fun _ => keeps_pure _
    · exact keeps_bind (keeps_raiseIf _) fun _ => keeps_bind (keeps_select _) fun _ =>
        keeps_bind (keeps_modify fun _ => rfl) fun _ => keeps_pure _

theorem keeps_extendLedger {extra : ℤ} :
    Keeps Db.bookings (extendAvailabilityLedgerDays extra) := by
  unfold extendAvailabilityLedgerDays
  split
  · exact keeps_pure _
  · exact keeps_bind (keeps_select _) fun _ => keeps_extendRoomTypes

theorem keeps_override {body : AvailabilityOverridePutRequest} :
    Keeps Db.bookings (applyBlockedRoomsOverride body) := by
  refine keeps_bind (keeps_raiseIf _) fun _ => ?_
  simp only
  split
  · exact keeps_pure _
  · exact keeps_bind (keeps_bind (keeps_select _) fun _ => keeps_bind
      (keeps_forEach fun _ => keeps_acquire _) fun _ => keeps_select _) fun _ =>
        keeps_bind (keeps_raiseIf _) fun _ => keeps_bind (keeps_forEach fun _ =>
          keeps_bind (keeps_raiseIf _) fun _ => keeps_modify fun _ => rfl) fun _ => keeps_pure _

theorem keeps_createRoom {env : Env} {rt : UUID} {name status : String} :
    Keeps Db.bookings (createRoom env rt name status) :=
  keeps_bind keeps_roomStatus fun _ => keeps_bind keeps_requireRoomType fun _ =>
    keeps_bind (keeps_flushRoom ignoresRooms_bookings) fun _ =>
      keeps_bind (keeps_recalculate ignoresRooms_bookings) fun _ => keeps_pure _

theorem keeps_patchRoomRow {rid : UUID} {name status : Option String} {newType : Option UUID} :
    Keeps Db.bookings (patchRoom rid name status newType) := by
  refine keeps_bind (keeps_select _) fun found => ?_
  split
  · exact keeps_raise _
  · refine keeps_bind (keeps_raiseIf _) fun _ => keeps_bind (keeps_runIf keeps_requireRoomType)
      fun _ => keeps_bind ?_ fun _ => keeps_bind (keeps_modify fun _ => rfl) fun _ =>
        keeps_runIf (keeps_bind (keeps_recalculate ignoresRooms_bookings) fun _ =>
          keeps_recalculate ignoresRooms_bookings)
    unfold patchedRoomStatus
    split
    · exact keeps_pure _
    · exact keeps_roomStatus

theorem keeps_softDeleteRoom {rid : UUID} : Keeps Db.bookings (softDeleteRoom rid) := by
  refine keeps_bind (keeps_select _) fun found => ?_
  split
  · exact keeps_raise _
  · exact keeps_bind (keeps_raiseIf _) fun _ => keeps_bind (keeps_select _) fun _ =>
      keeps_bind (keeps_raiseIf _) fun _ => keeps_bind (keeps_modify fun _ => rfl) fun _ =>
        keeps_recalculate ignoresRooms_bookings

theorem keeps_createRoomType {env : Env} {data : RoomTypeCreate} :
    Keeps Db.bookings (createRoomType env data) :=
  keeps_bind (keeps_select _) fun _ => keeps_bind (keeps_raiseIf _) fun _ =>
    keeps_bind (keeps_select _) fun _ => keeps_bind (keeps_raiseIf _) fun _ =>
      keeps_bind (keeps_modify fun _ => rfl) fun _ => keeps_bind (keeps_select _) fun _ =>
        keeps_bind (keeps_seedYear ignoresRooms_bookings) fun _ => keeps_pure _

theorem keeps_requireForWrite {rt : UUID} : Keeps Db.bookings (requireRoomTypeForWrite rt) := by
  refine keeps_bind (keeps_select _) fun found => ?_
  split
  · exact keeps_raise _
  · exact keeps_bind (keeps_raiseIf _) fun _ => keeps_pure _

theorem keeps_patchedOccupancy {old : ℤ} {field : Option (Option ℤ)} :
    Keeps Db.bookings (patchedOccupancy old field) := by
  unfold patchedOccupancy
  split
  · exact keeps_pure _
  · exact keeps_raise _
  · exact keeps_pure _

theorem keeps_patchRoomType {rt : UUID} {body : RoomTypePatch} :
    Keeps Db.bookings (patchRoomType rt body) :=
  keeps_bind keeps_requireForWrite fun _ => keeps_bind keeps_patchedOccupancy fun _ =>
    keeps_bind keeps_patchedOccupancy fun _ => keeps_bind (keeps_raiseIf _) fun _ =>
      keeps_modify fun _ => rfl

theorem keeps_softDeleteRoomType {rt : UUID} : Keeps Db.bookings (softDeleteRoomType rt) :=
  keeps_bind keeps_requireForWrite fun _ => keeps_modify fun _ => rfl

end Lawful

/-! Runs -/

/-- The operation is no revision that cancels a booking against the table. -/
def Op.KeepsLifecycle (op : Op) (db : Db) : Prop :=
  ∀ env link payload, op = .ingest env link (some payload) → CancelsLawfully payload db

theorem Op.exec_lawful {op : Op} {db db' : Db} {u : Unit} (hop : op.KeepsLifecycle db)
    (h : op.prog.exec db = (.ok u, db')) : Lawful db db' := by
  have hkept : ∀ {α : Type} {p : Tx α}, Keeps Db.bookings p →
      (p >>= fun _ => (pure () : Tx Unit)).exec db = (.ok u, db') → Lawful db db' := by
    intro α p hp hexec
    obtain ⟨_, hexec⟩ := exec_discard hexec
    exact (statusChange_of_eq ((keeps_of_bookings hp).eq hexec)).lawful
  cases op with
  | createBooking env body =>
    obtain ⟨_, h⟩ := exec_discard h
    exact lawful_of_sales (createBooking_sales h)
  | patchBooking env bid body =>
    obtain ⟨_, h⟩ := exec_discard h
    exact (patchBooking_statuses h).lawful
  | deleteBooking bid =>
    obtain ⟨_, h⟩ := exec_discard h
    exact deleteBooking_lawful h
  | assignBookingRoom bid roomId => exact (statusChange_of_eq (keeps_assign.eq h)).lawful
  | nightAudit env order propertyId todayLocal =>
    obtain ⟨_, h⟩ := exec_discard h
    obtain ⟨_, _, hids, h⟩ := exec_bind_ok.mp h
    cases hids
    exact (markNoShows_statuses h).statusChange.lawful
  | ingest env link flat =>
    obtain ⟨_, h⟩ := exec_discard h
    refine ingest_lawful ?_ h
    rintro payload rfl
    exact hop env link payload rfl
  | createRoom env rt name status => exact hkept keeps_createRoom h
  | createRoomsBulk env rt items onConflict =>
    exact hkept (keeps_createRoomsBulk ignoresRooms_bookings) h
  | patchRoom rid name status roomTypeId =>
    exact (statusChange_of_eq ((keeps_of_bookings keeps_patchRoomRow).eq h)).lawful
  | softDeleteRoom rid =>
    exact (statusChange_of_eq ((keeps_of_bookings keeps_softDeleteRoom).eq h)).lawful
  | createRoomType env data => exact hkept keeps_createRoomType h
  | patchRoomType rt body =>
    exact (statusChange_of_eq ((keeps_of_bookings keeps_patchRoomType).eq h)).lawful
  | softDeleteRoomType rt =>
    exact (statusChange_of_eq ((keeps_of_bookings keeps_softDeleteRoomType).eq h)).lawful
  | bulkSeed body => exact hkept (keeps_bulkSeed ignoresRooms_bookings) h
  | extendLedger extraDays => exact hkept keeps_extendLedger h
  | override body => exact hkept keeps_override h
  | administer f hf =>
    cases h
    exact lawful_of_hotel (hf db)
  | pass days =>
    cases h
    exact (statusChange_of_eq rfl).lawful

theorem Op.transact_lawful {op : Op} {db : Db} (hop : op.KeepsLifecycle db) :
    Lawful db (op.prog.transact db) := by
  rcases hexec : op.prog.exec db with ⟨e | u, db'⟩
  · rw [transact_error hexec]
    exact (statusChange_of_eq rfl).lawful
  · rw [transact_ok hexec]
    exact exec_lawful hop hexec

/-- Every operation of the run is admitted in the state that it finds. -/
def Admitted (admits : Op → Db → Prop) : Db → List Op → Prop
  | _, [] => True
  | db, op :: rest => admits op db ∧ Admitted admits (op.prog.transact db) rest

theorem Admitted.at {admits : Op → Db → Prop} {db : Db} {ops more : List Op} {op : Op}
    (h : Admitted admits db (ops ++ op :: more)) : admits op (run db ops) := by
  induction ops generalizing db with
  | nil => exact h.1
  | cons first rest ih => exact ih h.2

theorem terminal_stays {s s' : BookingStatus}
    (h : validateStatusTransition s.text s'.text = .ok ()) :
    (s.Terminal → s' = s) ∧ (s = .checkedIn → s' ≠ .cancelled) := by
  revert h
  cases s <;> cases s' <;> decide

/-- In every run without a cancelled revision for a booking that is checked in, checked out
or a no-show, each change of a persisted status is one of the table: terminal statuses are
never left and a checked-in booking is never cancelled. -/
theorem lifecycle_obeyed {db : Db} {ops more : List Op} {op : Op} {id : UUID} {b b' : Booking}
    (hrun : Admitted Op.KeepsLifecycle db (ops ++ op :: more))
    (hb : (run db ops).bookings.find id = some b)
    (hb' : (run db (ops ++ [op])).bookings.find id = some b') :
    validateStatusTransition b.status.text b'.status.text = .ok () ∧
    (b.status.Terminal → b'.status = b.status) ∧
    (b.status = .checkedIn → b'.status ≠ .cancelled) := by
  have hstep : run db (ops ++ [op]) = op.prog.transact (run db ops) := by
    rw [run, List.foldl_append]
    rfl
  rw [hstep] at hb'
  have hlawful := op.transact_lawful hrun.at id b.status b'.status
    (by rw [Db.statuses, hb]; rfl) (by rw [Db.statuses, hb']; rfl)
  exact ⟨hlawful, terminal_stays hlawful⟩

theorem cancelsLawfully_of_rows {payload : ChannexBookingRevisionPayload} (db : Db)
    (h : ∀ b ∈ db.bookings.rows,
      b.status ≠ .checkedIn ∧ b.status ≠ .checkedOut ∧ b.status ≠ .noShow) :
    CancelsLawfully payload db :=
  fun _ _ b hfound => h b (List.mem_of_find?_eq_some hfound)

/-- A confirmed booking may be cancelled by its OTA. -/
theorem lifecycle_obeyed_demo :
    ∃ b b', Demo.sold.bookings.find 1000 = some b ∧
      (run Demo.sold [Demo.ingest 0 "r1" "cancelled"]).bookings.find 1000 = some b' ∧
      b'.status = .cancelled ∧
      validateStatusTransition b.status.text b'.status.text = .ok () := by
  have hfound : (Demo.sold.bookings.find 1000).isSome := by decide +kernel
  have hfound' : ((run Demo.sold [Demo.ingest 0 "r1" "cancelled"]).bookings.find 1000).map
      (·.status) = some .cancelled := by decide +kernel
  obtain ⟨b, hb⟩ := Option.isSome_iff_exists.mp hfound
  obtain ⟨b', hb', hstatus⟩ := Option.map_eq_some_iff.mp hfound'
  have hadmitted : Admitted Op.KeepsLifecycle Demo.sold
      ([] ++ Demo.ingest 0 "r1" "cancelled" :: []) := by
    refine ⟨?_, trivial⟩
    intro _ _ payload _
    exact cancelsLawfully_of_rows Demo.sold (by decide +kernel)
  have hstart : (run Demo.sold []).bookings.find 1000 = some b := by
    rw [run, List.foldl_nil]
    exact hb
  have hstep := lifecycle_obeyed hadmitted hstart (by rw [List.nil_append]; exact hb')
  exact ⟨b, b', hb, hb', hstatus, hstep.1⟩

/-- The guest of booking 1000 is in the house. -/
def Demo.arrived : Db :=
  run (.empty 0) (twoBookings ++
    [.patchBooking (env 0 0 0) 1000 { status := some (some "checked_in") }])

/-- The cancelled revision makes the checked-in booking cancelled. -/
theorem checked_in_cancelled :
    Demo.arrived.statuses 1000 = some .checkedIn ∧
    ((Demo.ingest 0 "r1" "cancelled").prog.transact Demo.arrived).statuses 1000 =
      some .cancelled ∧
    validateStatusTransition BookingStatus.checkedIn.text BookingStatus.cancelled.text =
      .error (.notAllowed .checkedIn .cancelled) := by
  refine ⟨by decide +kernel, by decide +kernel, by decide⟩

end OpenPms
