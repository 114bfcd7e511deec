import OpenPms.IngestRefusals

/-!
Which revisions the ingest answers. It parses the payload before its try block, and the
handlers of the block know four exceptions; one of them goes on with a session that the
database has rolled back.
-/
namespace OpenPms

open KeyedTable Transaction Prog

/-! The handlers -/

section Handlers
variable {db : Db} {env : Env} {rev : Revision}

theorem exec_handler_handled {e : Err} (h : e.Handled) : ∃ r db',
    (handleIngestError rev e).exec db = (.ok r, db') := by
  cases e with
  | insufficientInventory message => exact ⟨_, _, rfl⟩
  | ledgerNotSeeded message => exact ⟨_, _, rfl⟩
  | invalidBookingContext message => exact ⟨_, _, rfl⟩
  | _ => cases h

theorem handler_unhandled {e : Err} (h : Unhandled e) : ∃ e', handleIngestError rev e = raise e' := by
  cases e with
  | insufficientInventory message => exact absurd trivial h
  | ledgerNotSeeded message => exact absurd trivial h
  | invalidBookingContext message => exact absurd trivial h
  | _ => exact ⟨_, rfl⟩

/-- What is raised in the try block leaves it, unless a handler answers it. -/
theorem fails_handled {p : Tx ChannexIngestResult} :
    FailsWith (fun _ => True) (p.tryCatch (handleIngestError rev)) db ↔
      FailsWith Unhandled p db := by
  rw [failsWith_tryCatch]
  refine exists_congr fun e => exists_congr fun db' => and_congr_right fun _ => ?_
  by_cases hhandled : e.Handled
  · obtain ⟨r, db₁, hok⟩ := @exec_handler_handled db' rev e hhandled
    exact iff_of_false (not_failsWith_of_ok hok) fun hno => hno hhandled
  · obtain ⟨e', he'⟩ := @handler_unhandled rev e hhandled
    rw [he']
    exact iff_of_true ⟨e', db', rfl, trivial⟩ hhandled

/-- A branch that is left by an error, and what the state before says of it. -/
inductive BranchEscapes (db : Db) (env : Env) (rev : Revision) : RevisionKind → Prop
  | modified {b : Booking} {old : UUID} (h : Modifies db rev b old)
      (hrefused : ModificationRefused db env rev b) : BranchEscapes db env rev .modified
  | new (h : Accepts db env rev) (hrefused : NewRefused db env rev) : BranchEscapes db env rev .new

theorem fails_applyRevision {kind : RevisionKind} (hpriced : rev.Priced) :
    FailsWith (fun _ => True) (applyRevision env kind rev) db ↔ BranchEscapes db env rev kind := by
  unfold applyRevision
  rw [fails_handled]
  cases kind with
  | cancelled => exact iff_of_false not_fails_cancelled nofun
  | modified =>
    rw [fails_modified]
    constructor
    · rintro ⟨b, old, h, hrefused⟩
      exact .modified h hrefused
    · rintro ⟨h, hrefused⟩
      exact ⟨_, _, h, hrefused⟩
  | new =>
    rw [fails_new hpriced]
    constructor
    · rintro ⟨h, hrefused⟩
      exact .new h hrefused
    · rintro (_ | ⟨h, hrefused⟩)
      exact ⟨h, hrefused⟩

/-- The branches look at no revision. -/
theorem BranchEscapes.of_revisions {db' : Db} {kind : RevisionKind}
    (hdb : ∃ revisions, db' = { db with revisions := revisions })
    (h : BranchEscapes db env rev kind) : BranchEscapes db' env rev kind := by
  obtain ⟨revisions, rfl⟩ := hdb
  cases h with
  | modified h hrefused =>
    refine .modified ⟨h.found, h.single, h.releasable, h.vacant⟩ ?_
    rcases hrefused with htotal | hprice | htaxes | hcharge | hemail
    · exact .total htotal
    · exact .price hprice
    · exact .taxes htaxes
    · exact .roomCharge hcharge
    · exact .email hemail
  | new h hrefused =>
    refine .new ⟨h.unknown, h.vacant, h.guested⟩ ?_
    rcases hrefused with htotal | hid | hprice | htaxes | hcharge | hroom
    · exact .total htotal
    · exact .identifier hid
    · exact .price hprice
    · exact .taxes htaxes
    · exact .roomCharge hcharge
    · exact .room ⟨hroom.free, hroom.deleted⟩

end Handlers

/-! The whole ingest -/

/-- What stops a revision between the mapping of its room and its result. -/
inductive StayEscapes (db : Db) (env : Env) (link : ChannexPropertyLink)
    (payload : ChannexBookingRevisionPayload) (rt ratePlan : UUID) (ci co : ℤ) : Prop
  | nights (h : (maxStayNights : ℤ) < co - ci)
  | amount {e : Err} (h : decimalAmount payload.amount = .error e)
  | guest {e : Err} (h : guestPayloadFromChannex payload (externalKey payload) = .error e)
  | branch {total : Money} {guest : GuestPayload} (hspan : co - ci ≤ maxStayNights)
      (htotal : decimalAmount payload.amount = .ok total)
      (hguest : guestPayloadFromChannex payload (externalKey payload) = .ok guest)
      (h : BranchEscapes db env
        (revisionOf link payload rt ratePlan (daysBetween ci co) total guest)
        (revisionKind payload))

theorem StayEscapes.of_revisions {db db' : Db} {env : Env} {link : ChannexPropertyLink}
    {payload : ChannexBookingRevisionPayload} {rt ratePlan : UUID} {ci co : ℤ}
    (hdb : ∃ revisions, db' = { db with revisions := revisions })
    (h : StayEscapes db env link payload rt ratePlan ci co) :
    StayEscapes db' env link payload rt ratePlan ci co := by
  cases h with
  | nights h => exact .nights h
  | amount h => exact .amount h
  | guest h => exact .guest h
  | branch hspan htotal hguest h => exact .branch hspan htotal hguest (h.of_revisions hdb)

section Ingest
variable {db : Db} {env : Env} {link : ChannexPropertyLink}
  {payload : ChannexBookingRevisionPayload}

theorem not_fails_failed {rid : String} {e : RevisionError} {rt : Option UUID} :
    ¬ FailsWith (fun _ => True) (do
      failRevision rid e
      pure (ingestFailed link rt) : Tx ChannexIngestResult) db :=
  not_failsWith_of_ok rfl

theorem fails_stayNights {ci co : ℤ} (h : (maxStayNights : ℤ) < co - ci) :
    FailsWith (fun _ => True) (stayNights ci co) db := by
  by_contra hno
  obtain ⟨nights, db', hok⟩ := exec_ok_of_not_failsWith hno
  obtain ⟨-, hspan, -⟩ := iterStayNights_ok (exec_stayNights_ok.mp hok).1
  omega

theorem fails_ofExcept {α β : Type} {x : Except Err α} {e : Err} (hx : x = .error e)
    {f : α → Tx β} : FailsWith (fun _ => True) (ofExcept x >>= f) db := by
  rw [hx]
  exact ⟨e, db, rfl, trivial⟩

/-- The nights, the amount, the guest and the branch, in the order of the checks. -/
theorem fails_ingestStay {rt ratePlan : UUID} {ci co : ℤ} (failed : Tx ChannexIngestResult)
    (hlt : ci < co) :
    FailsWith (fun _ => True) (do
      let nights ← stayNights ci co
      if nights = [] then failed
      else do
        let total ← ofExcept (decimalAmount payload.amount)
        let guest ← ofExcept (guestPayloadFromChannex payload (externalKey payload))
        applyRevision env (revisionKind payload)
          (revisionOf link payload rt ratePlan nights total guest)) db ↔
      StayEscapes db env link payload rt ratePlan ci co := by
  by_cases hspan : co - ci ≤ maxStayNights
  · rw [stayNights_of_span hlt hspan, pure_bind, if_neg (daysBetween_ne_nil hlt)]
    cases htotal : decimalAmount payload.amount with
    | error e => exact iff_of_true (fails_ofExcept rfl) (.amount htotal)
    | ok total =>
      rw [failsWith_bind_of_ok (exec_ofExcept_ok.mpr ⟨rfl, rfl⟩)]
      cases hguest : guestPayloadFromChannex payload (externalKey payload) with
      | error e => exact iff_of_true (fails_ofExcept rfl) (.guest hguest)
      | ok guest =>
        rw [failsWith_bind_of_ok (exec_ofExcept_ok.mpr ⟨rfl, rfl⟩),
          fails_applyRevision (priced_revisionOf hlt hspan)]
        constructor
        · exact .branch hspan htotal hguest
        · rintro (hnights | hamount | hguest' | ⟨-, htotal', hguest', h⟩)
          · omega
          · cases htotal.symm.trans hamount
          · cases hguest.symm.trans hguest'
          · cases htotal.symm.trans htotal'
            cases hguest.symm.trans hguest'
            exact h
  · have hnights : (maxStayNights : ℤ) < co - ci := by omega
    exact iff_of_true (failsWith_bind.mpr (.inl (fails_stayNights hnights))) (.nights hnights)

theorem fails_ingestMapped {rt ratePlan : UUID} :
    FailsWith (fun _ => True)
      (ingestMapped env link (Text.strip payload.id) payload rt ratePlan) db ↔
      ∃ ci co, checkInOut payload = (some ci, some co) ∧ ci < co ∧
        StayEscapes db env link payload rt ratePlan ci co := by
  unfold ingestMapped
  simp only
  rcases hdates : checkInOut payload with ⟨_ | ci, _ | co⟩
  · exact iff_of_false not_fails_failed (by simp)
  · exact iff_of_false not_fails_failed (by simp)
  · exact iff_of_false not_fails_failed (by simp)
  · simp only [Prod.mk.injEq, Option.some.injEq]
    by_cases hlt : ci < co
    · rw [if_neg (by omega)]
      refine Iff.trans (fails_ingestStay (failRevision (Text.strip payload.id) .emptyNights >>=
        fun _ => pure (ingestFailed link (some rt))) hlt) ?_
      constructor
      · exact fun h => ⟨ci, co, ⟨rfl, rfl⟩, hlt, h⟩
      · rintro ⟨_, _, ⟨rfl, rfl⟩, -, h⟩
        exact h
    · rw [if_pos (by omega)]
      refine iff_of_false not_fails_failed ?_
      rintro ⟨_, _, ⟨rfl, rfl⟩, h, -⟩
      exact hlt h

/-- The room type and the rate plan that the first room of the payload maps to. -/
def mappedIds (link : ChannexPropertyLink) (payload : ChannexBookingRevisionPayload) (db : Db) :
    Option (UUID × UUID) := do
  let (cxRoomType, cxRatePlan) ← roomAndRateIds payload
  let rtm ← db.roomTypeMaps.find? fun m =>
    m.propertyLinkId = link.id && m.channexRoomTypeId = Text.strip cxRoomType
  let rpm ← db.ratePlanMaps.find? fun m =>
    m.roomTypeMapId = rtm.id && m.channexRatePlanId = Text.strip cxRatePlan
  pure (rtm.roomTypeId, rpm.ratePlanId)

/-- The stay of a revision whose room and dates are in order. -/
structure Reaches (db : Db) (link : ChannexPropertyLink) (payload : ChannexBookingRevisionPayload)
    (rt ratePlan : UUID) (ci co : ℤ) : Prop where
  mapped : mappedIds link payload db = some (rt, ratePlan)
  dates : checkInOut payload = (some ci, some co)
  lt : ci < co

theorem fails_ingestClaimed :
    FailsWith (fun _ => True) (ingestClaimed env link payload) db ↔
      ∃ rt ratePlan ci co, Reaches db link payload rt ratePlan ci co ∧
        StayEscapes db env link payload rt ratePlan ci co := by
  have hnone : mappedIds link payload db = none → ¬ ∃ rt ratePlan ci co,
      Reaches db link payload rt ratePlan ci co ∧
        StayEscapes db env link payload rt ratePlan ci co := by
    rintro hmapped ⟨rt, ratePlan, ci, co, h, -⟩
    cases hmapped.symm.trans h.mapped
  unfold ingestClaimed
  simp only
  cases hids : roomAndRateIds payload with
  | none =>
    refine iff_of_false not_fails_failed (hnone ?_)
    rw [mappedIds, hids]
    rfl
  | some ids =>
    obtain ⟨cxRoomType, cxRatePlan⟩ := ids
    simp only
    unfold resolveRoomAndRateMaps
    rw [bind_assoc, failsWith_bind_of_ok (exec_select ..)]
    cases hrtm : db.roomTypeMaps.find? fun m =>
        m.propertyLinkId = link.id && m.channexRoomTypeId = Text.strip cxRoomType with
    | none =>
      refine iff_of_false not_fails_failed (hnone ?_)
      simp [mappedIds, hids, hrtm]
    | some rtm =>
      simp only [bind_assoc]
      rw [failsWith_bind_of_ok (exec_select ..)]
      simp only [pure_bind]
      cases hrpm : db.ratePlanMaps.find? fun m =>
          m.roomTypeMapId = rtm.id && m.channexRatePlanId = Text.strip cxRatePlan with
      | none =>
        refine iff_of_false not_fails_failed (hnone ?_)
        simp [mappedIds, hids, hrtm, hrpm]
      | some rpm =>
        have hmapped : mappedIds link payload db = some (rtm.roomTypeId, rpm.ratePlanId) := by
          simp [mappedIds, hids, hrtm, hrpm]
        simp only [Option.map_some]
        rw [fails_ingestMapped]
        constructor
        · rintro ⟨ci, co, hdates, hlt, h⟩
          exact ⟨_, _, ci, co, ⟨hmapped, hdates, hlt⟩, h⟩
        · rintro ⟨rt, ratePlan, ci, co, hreaches, h⟩
          cases hmapped.symm.trans hreaches.mapped
          exact ⟨ci, co, hreaches.dates, hreaches.lt, h⟩

/-- The row of the revision cannot be written: an identifier or a text that its column does
not take, or an identifier that another tenant's revision has. -/
inductive ClaimRefused (env : Env) (payload : ChannexBookingRevisionPayload) : Prop
  | id (h : 36 < (Text.strip payload.id).length)
  | bookingId (h : 36 < (Text.strip (orText payload.bookingId "")).length)
  | texts (h : payload.storable = false)
  | foreign (h : env.foreignRevision (Text.strip payload.id) = true)

theorem fails_claimRevisionRow : FailsWith (fun _ => True)
    (claimRevisionRow env none link (Text.strip payload.id) payload) db ↔
      ClaimRefused env payload := by
  unfold claimRevisionRow
  simp only
  rw [failsWith_raiseIf_bind, failsWith_raiseIf_bind]
  simp only [and_true]
  by_cases hcolumns : 36 < (Text.strip payload.id).length ∨
      36 < (Text.strip (orText payload.bookingId "")).length ∨ payload.storable = false
  · refine iff_of_true (.inl hcolumns) ?_
    rcases hcolumns with h | h | h
    · exact .id h
    · exact .bookingId h
    · exact .texts h
  rw [or_iff_right hcolumns, and_iff_right hcolumns]
  have hforeign : ClaimRefused env payload ↔
      env.foreignRevision (Text.strip payload.id) = true := by
    constructor
    · rintro (h | h | h | h)
      · exact absurd (.inl h) hcolumns
      · exact absurd (.inr (.inl h)) hcolumns
      · exact absurd (.inr (.inr h)) hcolumns
      · exact h
    · exact .foreign
  rw [hforeign]
  refine or_iff_left fun h => ?_
  obtain ⟨-, hrest⟩ := h
  revert hrest
  have hwait : ∀ present : Bool,
      (runIf (present = false) (acquire (.revision (Text.strip payload.id))) : Tx Unit).exec db =
        (.ok (), db) := fun present => by
    unfold runIf
    split <;> rfl
  rw [failsWith_bind_of_ok (exec_select ..), failsWith_bind_of_ok (hwait _),
    failsWith_bind_of_ok (exec_select ..)]
  cases db.revisions.find (Text.strip payload.id) with
  | none => exact not_failsWith_of_ok rfl
  | some row =>
    simp only [Option.filter_none, Option.getD_none]
    cases row.processingStatus with
    | done => exact not_failsWith_of_ok rfl
    | processing => exact not_failsWith_of_ok rfl
    | pending => exact not_failsWith_of_ok rfl
    | error => exact not_failsWith_of_ok rfl

/-- What stops a revision, from the claim of its row on. -/
inductive IngestEscapes (db : Db) (env : Env) (link : ChannexPropertyLink)
    (payload : ChannexBookingRevisionPayload) : Prop
  | claim (h : ClaimRefused env payload)
  | stay {rt ratePlan : UUID} {ci co : ℤ} (hclaim : Claimable db (Text.strip payload.id))
      (hreaches : Reaches db link payload rt ratePlan ci co)
      (h : StayEscapes db env link payload rt ratePlan ci co)

theorem fails_ingest :
    FailsWith (fun _ => True) (ingestChannexBooking env link (some payload)) db ↔
      Text.strip payload.id ≠ "" ∧ IngestEscapes db env link payload := by
  unfold ingestChannexBooking ingestInSession
  simp only
  by_cases hblank : Text.strip payload.id = ""
  · rw [if_pos hblank]
    exact iff_of_false (not_failsWith_of_ok rfl) fun h => h.1 hblank
  rw [if_neg hblank, and_iff_right hblank]
  by_cases hrefused : ClaimRefused env payload
  · exact iff_of_true (failsWith_bind.mpr (.inl (fails_claimRevisionRow.mpr hrefused)))
      (.claim hrefused)
  obtain ⟨claimed, db₁, hclaim⟩ :=
    exec_ok_of_not_failsWith fun h =>
      hrefused ((@fails_claimRevisionRow db env link payload).mp h)
  obtain ⟨hclaimed, revisions, rfl⟩ := exec_claimRevisionRow_ok hclaim
  rw [failsWith_bind_of_ok hclaim]
  have hstay : IngestEscapes db env link payload ↔ claimed = true ∧
      ∃ rt ratePlan ci co, Reaches db link payload rt ratePlan ci co ∧
        StayEscapes db env link payload rt ratePlan ci co := by
    rw [hclaimed]
    constructor
    · rintro (h | ⟨hrow, hreaches, h⟩)
      · exact absurd h hrefused
      · exact ⟨hrow, _, _, _, _, hreaches, h⟩
    · rintro ⟨hrow, rt, ratePlan, ci, co, hreaches, h⟩
      exact .stay hrow hreaches h
  rw [hstay]
  cases claimed with
  | false =>
    rw [if_pos rfl]
    exact iff_of_false (not_failsWith_of_ok rfl) fun h => Bool.false_ne_true h.1
  | true =>
    rw [if_neg (by decide), fails_ingestClaimed, and_iff_right rfl]
    have hback : ∃ r, db = { ({ db with revisions := revisions } : Db) with revisions := r } :=
      ⟨db.revisions, rfl⟩
    constructor
    · rintro ⟨rt, ratePlan, ci, co, hreaches, h⟩
      exact ⟨rt, ratePlan, ci, co, ⟨hreaches.mapped, hreaches.dates, hreaches.lt⟩,
        h.of_revisions hback⟩
    · rintro ⟨rt, ratePlan, ci, co, hreaches, h⟩
      exact ⟨rt, ratePlan, ci, co, ⟨hreaches.mapped, hreaches.dates, hreaches.lt⟩,
        h.of_revisions ⟨revisions, rfl⟩⟩

end Ingest

/-! The row of the revision -/

/-- The row of a revision says what became of it. -/
def RowSettled (rid : String) (db : Db) : Prop :=
  ∃ row, db.revisions.find rid = some row ∧
    (row.processingStatus = .done ∨ row.processingStatus = .error)

/-- A program that settles the row when it returns, and leaves it there in any case. -/
structure Leaves (rid : String) (p : Tx ChannexIngestResult) : Prop where
  settled : ∀ {db db' r}, (db.revisions.find rid).isSome → p.exec db = (.ok r, db') →
    RowSettled rid db'
  kept : ∀ {db}, (db.revisions.find rid).isSome → ((p.exec db).2.revisions.find rid).isSome

section Leaves
variable {rid : String} {env : Env}

theorem leaves_raise (e : Err) : Leaves rid (raise e) :=
  ⟨fun _ h => (nomatch h), id⟩

theorem leaves_bind {α : Type} {p : Tx α} {f : α → Tx ChannexIngestResult}
    (hp : Keeps (fun db : Db => db.revisions) p) (hf : ∀ a, Leaves rid (f a)) :
    Leaves rid (p >>= f) := by
  have hrow : ∀ {db db₁ : Db} {out : Except Err α}, p.exec db = (out, db₁) →
      (db.revisions.find rid).isSome → (db₁.revisions.find rid).isSome := by
    intro db db₁ out hexec h
    have hsame : db₁.revisions = db.revisions := hp.eq hexec
    rw [hsame]
    exact h
  constructor
  · intro db db' r h hexec
    obtain ⟨a, db₁, hfst, hsnd⟩ := exec_bind_ok.mp hexec
    exact (hf a).settled (hrow hfst h) hsnd
  · intro db h
    rw [exec_bind]
    rcases hexec : p.exec db with ⟨e | a, db₁⟩
    · exact hrow hexec h
    · exact (hf a).kept (hrow hexec h)

theorem leaves_tryCatch {p : Tx ChannexIngestResult} {g : Err → Tx ChannexIngestResult}
    (hp : Leaves rid p) (hg : ∀ e, Leaves rid (g e)) : Leaves rid (p.tryCatch g) := by
  constructor
  · intro db db' r h hexec
    rw [exec_tryCatch] at hexec
    rcases hfst : p.exec db with ⟨e | a, db₁⟩
    · rw [hfst] at hexec
      have hkept := hp.kept h
      rw [hfst] at hkept
      exact (hg e).settled hkept hexec
    · rw [hfst] at hexec
      cases hexec
      exact hp.settled h hfst
  · intro db h
    have hkept := hp.kept h
    rw [exec_tryCatch]
    rcases hfst : p.exec db with ⟨e | a, db₁⟩
    · rw [hfst] at hkept
      exact (hg e).kept hkept
    · rw [hfst] at hkept
      exact hkept

theorem leaves_update {f : ChannexBookingRevision → ChannexBookingRevision}
    {hf : ∀ r, (f r).channexRevisionId = r.channexRevisionId} {out : ChannexIngestResult}
    (hstatus : ∀ r, (f r).processingStatus = .done ∨ (f r).processingStatus = .error) :
    Leaves rid (updateRevision rid f hf >>= fun _ => pure out) := by
  have hfind : ∀ {db : Db}, (db.revisions.find rid).isSome →
      ∃ row, (db.revisions.update rid f hf).find rid = some (f row) := by
    intro db h
    obtain ⟨row, hrow⟩ := Option.isSome_iff_exists.mp h
    exact ⟨row, by rw [Table.find_update_self, hrow]; rfl⟩
  constructor
  · intro db db' r h hexec
    cases hexec
    obtain ⟨row, hrow⟩ := hfind h
    exact ⟨f row, hrow, hstatus row⟩
  · intro db h
    obtain ⟨row, hrow⟩ := hfind h
    exact Option.isSome_iff_exists.mpr ⟨f row, hrow⟩

theorem leaves_fail {e : RevisionError} {out : ChannexIngestResult} :
    Leaves rid (failRevision rid e >>= fun _ => pure out) :=
  leaves_update fun _ => .inr rfl

theorem leaves_finish {bid : UUID} {out : ChannexIngestResult} :
    Leaves rid (finishRevision rid bid >>= fun _ => pure out) :=
  leaves_update fun _ => .inl rfl

end Leaves

section Branches
variable {env : Env} {rev : Revision}

theorem keeps_counted {α : Type} {p : Tx α} (h : Writes LedgerWrite p) :
    Keeps (fun db : Db => db.revisions) p := h.keeps fun _ hf => hf.revisions

theorem keeps_written {α : Type} {p : Tx α} (h : Writes RowWrite p) :
    Keeps (fun db : Db => db.revisions) p := h.keeps fun _ hf => hf.revisions

theorem keeps_plainly {α : Type} {p : Tx α} (h : Writes PlainWrite p) :
    Keeps (fun db : Db => db.revisions) p := h.keeps fun _ hf => hf.revisions

theorem leaves_ingestCancelled : Leaves rev.id (ingestCancelled rev) := by
  refine leaves_bind (keeps_select _) fun found => ?_
  split
  · exact leaves_fail
  · split
    · exact leaves_bind (keeps_counted counts_release) fun _ =>
        leaves_bind (keeps_plainly plain_setStatus) fun _ => leaves_finish
    · exact leaves_finish

theorem leaves_ingestModified : Leaves rev.id (ingestModified env rev) := by
  refine leaves_bind (keeps_select _) fun found => ?_
  split
  · exact leaves_fail
  · split
    · exact leaves_bind (keeps_counted counts_lockAndValidate) fun _ =>
        leaves_bind (keeps_counted counts_decrement) fun _ =>
          leaves_bind (keeps_counted counts_lockAndValidate) fun _ =>
            leaves_bind (keeps_counted counts_increment) fun _ =>
              leaves_bind (keeps_plainly plain_deleteLines) fun _ =>
                leaves_bind (keeps_written rows_updatePlanAndTotal) fun _ =>
                  leaves_bind (keeps_plainly plain_flushLines) fun _ =>
                    leaves_bind (keeps_written rows_replaceTaxes) fun _ =>
                      leaves_bind (keeps_written rows_folioCharge) fun _ =>
                        leaves_bind (keeps_plainly plain_updateGuest) fun _ => leaves_finish
    · exact leaves_fail

theorem leaves_ingestNew : Leaves rev.id (ingestNew env rev) := by
  refine leaves_bind (keeps_select _) fun existing => ?_
  split
  · exact leaves_finish
  · exact leaves_bind (keeps_counted counts_lockAndValidate) fun _ =>
      leaves_bind (keeps_counted counts_increment) fun _ =>
        leaves_bind (keeps_plainly plain_getOrCreateGuest) fun _ =>
          leaves_bind (keeps_modify fun _ => rfl) fun _ =>
            leaves_bind (inserts_insertBooking.keeps fun _ hf => hf.revisions) fun _ =>
              leaves_finish

theorem leaves_handleIngestError (e : Err) : Leaves rev.id (handleIngestError rev e) := by
  unfold handleIngestError
  split
  · exact leaves_fail
  · exact leaves_fail
  · exact leaves_fail
  · exact leaves_raise _
  · exact leaves_raise _

theorem leaves_applyRevision {kind : RevisionKind} :
    Leaves rev.id (applyRevision env kind rev) := by
  unfold applyRevision
  refine leaves_tryCatch ?_ leaves_handleIngestError
  split
  · exact leaves_ingestCancelled
  · exact leaves_ingestModified
  · exact leaves_ingestNew

theorem leaves_ingestMapped {link : ChannexPropertyLink}
    {payload : ChannexBookingRevisionPayload} {rt ratePlan : UUID} :
    Leaves (Text.strip payload.id)
      (ingestMapped env link (Text.strip payload.id) payload rt ratePlan) := by
  unfold ingestMapped
  simp only
  split
  · split
    · exact leaves_fail
    · refine leaves_bind (keeps_ofExcept _) fun nights => ?_
      split
      · exact leaves_fail
      · refine leaves_bind (keeps_ofExcept _) fun total => leaves_bind (keeps_ofExcept _)
          fun guest => ?_
        exact @leaves_applyRevision env (revisionOf link payload rt ratePlan nights total guest) _
  · exact leaves_fail

theorem leaves_ingestClaimed {link : ChannexPropertyLink}
    {payload : ChannexBookingRevisionPayload} :
    Leaves (Text.strip payload.id) (ingestClaimed env link payload) := by
  unfold ingestClaimed
  simp only
  split
  · exact leaves_fail
  · refine leaves_bind (keeps_plainly plain_resolveMaps) fun maps => ?_
    split
    · exact leaves_fail
    · exact leaves_ingestMapped

/-- A claimed revision has its row. -/
theorem row_of_claimed {db db' : Db} {link : ChannexPropertyLink} {rid : String}
    {payload : ChannexBookingRevisionPayload}
    (h : (claimRevisionRow env none link rid payload).exec db = (.ok true, db')) :
    (db'.revisions.find rid).isSome := by
  simp only [claimRevisionRow, exec_bind_ok, exec_raiseIf_ok, exec_select, Prod.mk.injEq,
    Except.ok.injEq] at h
  obtain ⟨_, _, ⟨-, rfl⟩, _, _, ⟨-, rfl⟩, present, _, ⟨-, rfl⟩, _, db₁, hwait, h⟩ := h
  obtain ⟨existing, _, ⟨hfind, rfl⟩, h⟩ := h
  have hlock : (runIf (present = false) (acquire (.revision rid)) : Tx Unit).exec db =
      (.ok (), db) := by
    unfold runIf
    split <;> rfl
  obtain rfl : db = db₁ := congrArg Prod.snd (hlock.symm.trans hwait)
  cases existing with
  | none =>
    simp only [exec_bind_ok, exec_raiseIf_ok] at h
    obtain ⟨_, _, ⟨-, rfl⟩, _, _, hins, hret⟩ := h
    cases hins
    cases hret
    exact Option.isSome_iff_exists.mpr ⟨_, Table.find_insert_self hfind⟩
  | some row =>
    simp only at h
    split at h
    · cases h
    · cases h
    · cases h
      exact Option.isSome_iff_exists.mpr ⟨row, hfind⟩
    · cases h
      have hkept : ∀ f hf, ((db.revisions.update rid f hf).find rid).isSome := fun f hf => by
        rw [Table.find_update_self, hfind]
        rfl
      exact hkept (fun r => { r with
        processingStatus := .processing, errorMessage := none, payload := payload }) fun _ => rfl

theorem settled_of_ingest {db db' : Db} {link : ChannexPropertyLink} {r : ChannexIngestResult}
    {payload : ChannexBookingRevisionPayload} (hid : Text.strip payload.id ≠ "")
    (h : (ingestChannexBooking env link (some payload)).exec db = (.ok r, db'))
    (hskip : r.skipIdempotent = false) : RowSettled (Text.strip payload.id) db' := by
  unfold ingestChannexBooking ingestInSession at h
  simp only at h
  rw [if_neg hid] at h
  obtain ⟨claimed, db₁, hclaim, h⟩ := exec_bind_ok.mp h
  cases claimed with
  | false =>
    cases h
    cases hskip
  | true => exact leaves_ingestClaimed.settled (row_of_claimed hclaim) h

end Branches

/-! What the claim of totality asks for -/

/-- The ingest returns, and a revision that it has not skipped has its row settled. -/
def Settles (env : Env) (link : ChannexPropertyLink)
    (revisionFlat : Option ChannexBookingRevisionPayload) (db : Db) : Prop :=
  ∃ r db', (ingestChannexBooking env link revisionFlat).exec db = (.ok r, db') ∧
    ∀ payload, revisionFlat = some payload → Text.strip payload.id ≠ "" →
      r.skipIdempotent = false → RowSettled (Text.strip payload.id) db'

/-- A new booking whose amount is not a number in decimal notation. -/
def Demo.priceless : ChannexBookingRevisionPayload :=
  { revision "r1" "new" with bookingId := some "Y", amount := .malformed }

end OpenPms
