import OpenPms.ChannexBooking
import OpenPms.ChannexLedger
import OpenPms.Statements

/-!
Acknowledged revisions are applied. A transaction that has claimed a revision row ends
with the row done or in error, so that no committed row is being processed; a worker that
skips a revision has therefore read it as done.
-/
namespace OpenPms

open KeyedTable Transaction Prog Interleaving

/-- The row of the revision is done. -/
def Applied (rid : String) (db : Db) : Prop :=
  ∃ row, db.revisions.find rid = some row ∧ row.processingStatus = .done

/-- No row is left in processing, and each keeps the payload of its own revision. -/
def Recorded (db : Db) : Prop :=
  ∀ row ∈ db.revisions.rows, row.processingStatus ≠ .processing ∧
    Text.strip row.payload.id = row.channexRevisionId

/-- Revision rows are never deleted. -/
def RevisionsStay (s s' : Db) : Prop :=
  ∀ rid, (s.revisions.find rid).isSome → (s'.revisions.find rid).isSome

/-- The row under `rid` is there, in whatever state; the other rows are settled. -/
structure Claim (rid : String) (db : Db) : Prop where
  row : (db.revisions.find rid).isSome
  payload : ∀ row ∈ db.revisions.rows, Text.strip row.payload.id = row.channexRevisionId
  others : ∀ row ∈ db.revisions.rows, row.channexRevisionId ≠ rid →
    row.processingStatus ≠ .processing

def ackDiscipline (ι : Type) : Discipline Db RowKey ι where
  inv := Recorded
  guar _ := RevisionsStay
  timing := .any

theorem RevisionsStay.trans {s s' s'' : Db} (h : RevisionsStay s s') (h' : RevisionsStay s' s'') :
    RevisionsStay s s'' := fun rid hrid => h' rid (h rid hrid)

theorem revisionsStay_of_eq {s s' : Db} (h : s'.revisions = s.revisions) : RevisionsStay s s' := by
  intro rid hrid
  rw [h]
  exact hrid

theorem revisionsStay_update {rid : String} {f : ChannexBookingRevision → ChannexBookingRevision}
    {hf : ∀ r, (f r).channexRevisionId = r.channexRevisionId} (db : Db) :
    RevisionsStay db { db with revisions := db.revisions.update rid f hf } := by
  intro k hk
  by_cases hkr : k = rid
  · subst hkr
    rw [Table.find_update_self]
    simpa using hk
  · rw [Table.find_update_of_ne hkr]
    exact hk

theorem Claim.of_eq {rid : String} {s s' : Db} (h : Claim rid s) (heq : s'.revisions = s.revisions) :
    Claim rid s' := by
  obtain ⟨hrow, hpayload, hothers⟩ := h
  rw [← heq] at hrow hpayload hothers
  exact ⟨hrow, hpayload, hothers⟩

/-- A row that is written to a settled status settles the table. -/
theorem Claim.settle {rid : String} {db : Db} (h : Claim rid db)
    {f : ChannexBookingRevision → ChannexBookingRevision}
    {hf : ∀ r, (f r).channexRevisionId = r.channexRevisionId}
    (hpayload : ∀ r, (f r).payload = r.payload)
    (hstatus : ∀ r, (f r).processingStatus ≠ .processing) :
    Recorded { db with revisions := db.revisions.update rid f hf } := by
  intro row hrow
  have hmem : row ∈ (db.revisions.update rid f hf).rows := hrow
  rcases Table.mem_update.mp hmem with ⟨hold, hne⟩ | ⟨u, hu, rfl⟩
  · exact ⟨h.others row hold hne, h.payload row hold⟩
  · refine ⟨hstatus u, ?_⟩
    rw [hpayload, hf]
    exact h.payload u (Table.find_eq_some.mp hu).1

theorem Recorded.claim {rid : String} {db : Db} (h : Recorded db)
    (hrow : (db.revisions.find rid).isSome) : Claim rid db :=
  ⟨hrow, fun row hmem => (h row hmem).2, fun row hmem _ => (h row hmem).1⟩

/-! A transaction that has claimed the row -/

section Claimed
variable {ι : Type} {i : ι} {rid : String} {L : Set RowKey} {w : Db → Db} {A : Db → Prop}

structure Claimed (ι : Type) (rid : String) (L : Set RowKey) (w : Db → Db) (A : Db → Prop) :
    Prop where
  stable : Stable (ackDiscipline ι) L A
  stays : ∀ s, RevisionsStay s (w s)
  claim : ∀ s, Recorded s → A s → Claim rid (w s)

theorem Claimed.write (h : Claimed ι rid L w A) {f : Db → Db}
    (hf : ∀ db, (f db).revisions = db.revisions) : Claimed ι rid L (f ∘ w) A where
  stable := h.stable
  stays s := (h.stays s).trans (revisionsStay_of_eq (hf (w s)))
  claim s hs hA := (h.claim s hs hA).of_eq (hf (w s))

theorem claimed_carried : Carried (ackDiscipline ι) (Claimed ι rid) where
  stable h := h.stable
  lock := fun {_ _ A} _ _ h _ hA =>
    ⟨A, hA, h.stable.mono (Set.subset_insert _ _), h.stays, h.claim⟩

/-- However the program ends, the row stays claimed. -/
abbrev Guarded (i : ι) (rid : String) {α : Type} (p : Tx α) : Prop :=
  Carries (ackDiscipline ι) i (Claimed ι rid) p

theorem guarded_writes {α : Type} {W : (Db → Db) → Prop} {p : Tx α}
    (hW : ∀ {f}, W f → ∀ db, (f db).revisions = db.revisions) (h : Writes W p) :
    Guarded i rid p :=
  carries_of_writes claimed_carried (fun hf _ _ _ h => h.write (hW hf)) h

theorem guarded_select {α : Type} (q : Db → α) : Guarded i rid (select q) :=
  carries_select claimed_carried q

theorem guarded_rows {α : Type} {p : Tx α} (h : Writes RowWrite p) : Guarded i rid p :=
  guarded_writes (fun hf => hf.revisions) h

theorem guarded_plain {α : Type} {p : Tx α} (h : Writes PlainWrite p) : Guarded i rid p :=
  guarded_rows (rows_of_plain h)

theorem guarded_inserts {α : Type} {p : Tx α} (h : Writes InsertWrite p) : Guarded i rid p :=
  guarded_writes (fun hf => hf.revisions) h

theorem guarded_counts {α : Type} {p : Tx α} (h : Writes LedgerWrite p) : Guarded i rid p :=
  guarded_writes (fun hf => hf.revisions) h

/-- An answer comes with settled rows, a successful one with the row done; an error leaves
the row claimed for its handler. -/
def Ends (ι : Type) (rid : String) : Post Db RowKey Err ChannexIngestResult :=
  fun r _ L w A =>
    match r with
    | .ok out => ∀ s, Recorded s → A s → RevisionsStay s (w s) ∧ Recorded (w s) ∧
        (out.success = true → Applied rid (w s))
    | .error _ => Claimed ι rid L w A

/-- What is left of the ingest of a claimed revision. -/
structure Ending (i : ι) (rid : String) (p : Tx ChannexIngestResult) : Prop where
  runs : ∀ o L w A, Claimed ι rid L w A → Runs (ackDiscipline ι) i o L w A (Ends ι rid) p

theorem ending_raise (e : Err) : Ending i rid (raise e) :=
  ⟨fun _ _ _ _ h => runs_raise h⟩

theorem ending_bind {α : Type} {p : Tx α} {f : α → Tx ChannexIngestResult}
    (hp : Guarded i rid p) (hf : ∀ a, Ending i rid (f a)) : Ending i rid (p >>= f) := by
  refine ⟨fun o L w A h => runs_bind ⟨hp.ok o L w A h⟩ (fun _ _ _ _ _ h' => h') ?_⟩
  exact fun a o' L' w' A' h' => (hf a).runs o' L' w' A' h'

theorem ending_tryCatch {p : Tx ChannexIngestResult} {g : Err → Tx ChannexIngestResult}
    (hp : Ending i rid p) (hg : ∀ e, Ending i rid (g e)) : Ending i rid (p.tryCatch g) := by
  refine ⟨fun o L w A h => ⟨ok_tryCatch ((hp.runs o L w A h).ok.mono ?_)⟩⟩
  intro r o' L' w' A' h'
  cases r with
  | ok out => exact h'
  | error e => exact ((hg e).runs o' L' w' A' h').ok

theorem ending_update {f : ChannexBookingRevision → ChannexBookingRevision}
    {hf : ∀ r, (f r).channexRevisionId = r.channexRevisionId} {out : ChannexIngestResult}
    (hpayload : ∀ r, (f r).payload = r.payload)
    (hstatus : ∀ r, (f r).processingStatus ≠ .processing)
    (hdone : out.success = true → ∀ r, (f r).processingStatus = .done) :
    Ending i rid (updateRevision rid f hf >>= fun _ => pure out) := by
  refine ⟨fun o L w A h => runs_modify_bind (runs_pure ?_)⟩
  intro s hs hA
  have hclaim := h.claim s hs hA
  refine ⟨(h.stays s).trans (revisionsStay_update _), hclaim.settle hpayload hstatus, ?_⟩
  intro hsuccess
  obtain ⟨row, hrow⟩ := Option.isSome_iff_exists.mp hclaim.row
  refine ⟨f row, ?_, hdone hsuccess row⟩
  change ((w s).revisions.update rid f hf).find rid = some (f row)
  rw [Table.find_update_self, hrow]
  rfl

theorem ending_fail {e : RevisionError} {out : ChannexIngestResult} (hout : out.success = false) :
    Ending i rid (failRevision rid e >>= fun _ => pure out) := by
  refine ending_update (fun _ => rfl) (fun _ => by simp) ?_
  intro hsuccess
  rw [hout] at hsuccess
  cases hsuccess

theorem ending_finish {bid : UUID} {out : ChannexIngestResult} :
    Ending i rid (finishRevision rid bid >>= fun _ => pure out) :=
  ending_update (fun _ => rfl) (fun _ => by simp) fun _ _ => rfl

/-! The branches -/

section Branches
variable {env : Env} {rev : Revision}

theorem ending_ingestCancelled : Ending i rev.id (ingestCancelled rev) := by
  refine ending_bind (guarded_select _) fun found => ?_
  split
  · exact ending_fail rfl
  · split
    · exact ending_bind (guarded_counts counts_release) fun _ =>
        ending_bind (guarded_plain plain_setStatus) fun _ => ending_finish
    · exact ending_finish

theorem ending_ingestModified : Ending i rev.id (ingestModified env rev) := by
  refine ending_bind (guarded_select _) fun found => ?_
  split
  · exact ending_fail rfl
  · split
    · exact ending_bind (guarded_counts counts_lockAndValidate) fun _ =>
        ending_bind (guarded_counts counts_decrement) fun _ =>
          ending_bind (guarded_counts counts_lockAndValidate) fun _ =>
            ending_bind (guarded_counts counts_increment) fun _ =>
              ending_bind (guarded_plain plain_deleteLines) fun _ =>
                ending_bind (guarded_rows rows_updatePlanAndTotal) fun _ =>
                  ending_bind (guarded_plain plain_flushLines) fun _ =>
                    ending_bind (guarded_rows rows_replaceTaxes) fun _ =>
                      ending_bind (guarded_rows rows_folioCharge) fun _ =>
                        ending_bind (guarded_plain plain_updateGuest) fun _ => ending_finish
    · exact ending_fail rfl

theorem ending_ingestNew : Ending i rev.id (ingestNew env rev) := by
  refine ending_bind (guarded_select _) fun existing => ?_
  split
  · exact ending_finish
  · exact ending_bind (guarded_counts counts_lockAndValidate) fun _ =>
      ending_bind (guarded_counts counts_increment) fun _ =>
        ending_bind (guarded_plain plain_getOrCreateGuest) fun _ =>
          ending_bind
            (guarded_rows (writes_modify ⟨fun _ => rfl, fun _ => rfl, fun _ => rfl, fun _ => rfl⟩))
            fun _ => ending_bind (guarded_inserts inserts_insertBooking) fun _ => ending_finish

theorem ending_handleIngestError (e : Err) : Ending i rev.id (handleIngestError rev e) := by
  unfold handleIngestError
  split
  · exact ending_fail rfl
  · exact ending_fail rfl
  · exact ending_fail rfl
  · exact ending_raise _
  · exact ending_raise _

theorem ending_applyRevision {kind : RevisionKind} : Ending i rev.id (applyRevision env kind rev) := by
  unfold applyRevision
  refine ending_tryCatch ?_ ending_handleIngestError
  split
  · exact ending_ingestCancelled
  · exact ending_ingestModified
  · exact ending_ingestNew

end Branches

theorem ending_ingestMapped {env : Env} {link : ChannexPropertyLink}
    {payload : ChannexBookingRevisionPayload} {rt ratePlan : UUID} :
    Ending i rid (ingestMapped env link rid payload rt ratePlan) := by
  unfold ingestMapped
  simp only
  split
  · split
    · exact ending_fail rfl
    · refine ending_bind (carries_ofExcept _) fun nights => ?_
      split
      · exact ending_fail rfl
      · refine ending_bind (carries_ofExcept _) fun total => ending_bind (carries_ofExcept _)
          fun guest => ?_
        exact @ending_applyRevision ι i env
          { id := rid, external := orText (some (Text.strip (orText payload.bookingId ""))) rid,
            link := link, roomTypeId := rt, ratePlanId := ratePlan, nights := nights,
            total := total, perNight := nightlyPricesFromTotal total nights,
            source := sourceChannel payload, guest := guest, notes := payload.notes } _
  · exact ending_fail rfl

theorem ending_ingestClaimed {env : Env} {link : ChannexPropertyLink}
    {payload : ChannexBookingRevisionPayload} :
    Ending i (Text.strip payload.id) (ingestClaimed env link payload) := by
  unfold ingestClaimed
  simp only
  split
  · exact ending_fail rfl
  · refine ending_bind (guarded_plain plain_resolveMaps) fun maps => ?_
    split
    · exact ending_fail rfl
    · exact ending_ingestMapped

end Claimed

/-! The claim itself -/

section Session
variable {ι : Type} {i : ι} {rid : String}

theorem stable_row {L : Set RowKey} :
    Stable (ackDiscipline ι) L fun db => (db.revisions.find rid).isSome :=
  fun _ _ _ _ _ hstay hrow => hstay rid hrow

/-- A claim is the writer's, or the revision was read as done and nothing is written. -/
def ClaimEnds (ι : Type) (rid : String) : Post Db RowKey Err Bool :=
  fun r o L w A =>
    match r with
    | .ok true => Claimed ι rid L w A
    | .ok false => w = id ∧ ∃ t ∈ o, Applied rid t
    | .error _ => True

theorem claim_insert {db : Db} (h : Recorded db) {row : ChannexBookingRevision}
    (hkey : row.channexRevisionId = rid) (hpayload : Text.strip row.payload.id = rid) :
    Claim rid { db with revisions := db.revisions.insert row } := by
  subst hkey
  cases hfind : db.revisions.find row.channexRevisionId with
  | some v =>
    refine (h.claim (Option.isSome_of_eq_some hfind)).of_eq ?_
    exact Table.insert_of_find hfind
  | none =>
    have hmem : ∀ {v}, v ∈ (db.revisions.insert row).rows ↔ v ∈ db.revisions.rows ∨ v = row :=
      Table.mem_insert hfind
    refine ⟨Option.isSome_of_eq_some (Table.find_insert_self hfind), ?_, ?_⟩
    · intro v hv
      rcases hmem.mp hv with hold | rfl
      · exact (h v hold).2
      · exact hpayload
    · intro v hv hne
      rcases hmem.mp hv with hold | rfl
      · exact (h v hold).1
      · exact absurd rfl hne

theorem claim_update {db : Db} (h : Recorded db) (hrow : (db.revisions.find rid).isSome)
    {f : ChannexBookingRevision → ChannexBookingRevision}
    (hf : ∀ r, (f r).channexRevisionId = r.channexRevisionId)
    (hpayload : ∀ r, Text.strip (f r).payload.id = rid) :
    Claim rid { db with revisions := db.revisions.update rid f hf } := by
  have hmem : ∀ {v}, v ∈ (db.revisions.update rid f hf).rows ↔
      (v ∈ db.revisions.rows ∧ v.channexRevisionId ≠ rid) ∨
        ∃ u, db.revisions.find rid = some u ∧ v = f u := Table.mem_update
  refine ⟨revisionsStay_update db rid hrow, ?_, ?_⟩
  · intro v hv
    rcases hmem.mp hv with ⟨hold, -⟩ | ⟨u, hu, rfl⟩
    · exact (h v hold).2
    · rw [hpayload, hf]
      exact (Table.find_eq_some.mp hu).2.symm
  · intro v hv hne
    rcases hmem.mp hv with ⟨hold, -⟩ | ⟨u, hu, rfl⟩
    · exact (h v hold).1
    · rw [hf] at hne
      exact absurd (Table.find_eq_some.mp hu).2 hne

theorem revisionsStay_insert (db : Db) (row : ChannexBookingRevision) :
    RevisionsStay db { db with revisions := db.revisions.insert row } := by
  intro rid hrid
  obtain ⟨v, hv⟩ := Option.isSome_iff_exists.mp hrid
  cases hfind : db.revisions.find row.channexRevisionId with
  | some u =>
    change ((db.revisions.insert row).find rid).isSome
    rw [Table.insert_of_find hfind]
    exact hrid
  | none => exact Option.isSome_of_eq_some (Table.find_insert_of_some hfind hv)

/-- A row that the session has loaded before was loaded in error. -/
theorem status_of_loaded {loaded : Option ChannexBookingRevision} {row : ChannexBookingRevision}
    {c : ChannexBookingRevision → Bool} {status : ProcessingStatus}
    (hloaded : ∀ l, loaded = some l → l.processingStatus = .error)
    (h : ((loaded.filter c).getD row).processingStatus = status) (hne : status ≠ .error) :
    row.processingStatus = status := by
  cases hl : loaded.filter c with
  | none => rwa [hl] at h
  | some l =>
    rw [hl] at h
    exact absurd (h.symm.trans (hloaded l (Option.filter_eq_some_iff.mp hl).1)) hne

theorem runs_claim {env : Env} {loaded : Option ChannexBookingRevision}
    {link : ChannexPropertyLink} {payload : ChannexBookingRevisionPayload} {o : List Db}
    (hid : Text.strip payload.id = rid)
    (hloaded : ∀ l, loaded = some l → l.processingStatus = .error) :
    Runs (ackDiscipline ι) i o ∅ id (fun _ => True) (ClaimEnds ι rid)
      (claimRevisionRow env loaded link rid payload) := by
  refine runs_raiseIf_bind trivial fun _ => runs_raiseIf_bind trivial fun _ =>
    runs_select_bind (stable_true _) fun s₁ _ _ =>
    runs_runIf_acquire_bind (stable_true _) fun L _ =>
      runs_select_assert fun s hs _ => ?_
  simp only [id]
  split
  · refine ⟨fun _ => True, trivial, stable_true _, runs_raiseIf_bind trivial fun _ =>
      runs_modify_bind (runs_pure ?_)⟩
    exact ⟨stable_true _, fun s => revisionsStay_insert s _, fun s hs _ => claim_insert hs rfl hid⟩
  · next row hrow =>
    refine ⟨fun db => (db.revisions.find rid).isSome, Option.isSome_of_eq_some hrow, stable_row, ?_⟩
    split
    · next hstatus =>
      refine runs_pure ⟨rfl, s, List.mem_cons_self .., row, hrow, ?_⟩
      exact status_of_loaded hloaded hstatus (by simp)
    · next hstatus =>
      have hprocessing := status_of_loaded hloaded hstatus (by simp)
      exact absurd hprocessing (hs row (Table.find_eq_some.mp hrow).1).1
    · exact runs_pure ⟨stable_row, fun _ _ h => h, fun s hs hA => hs.claim hA⟩
    · refine runs_acquire_bind stable_row (runs_modify_bind (runs_pure ?_))
      refine ⟨stable_row, fun s => revisionsStay_update s, fun s hs hA => ?_⟩
      exact claim_update hs hA _ fun _ => hid

/-- What the ingest in a session ends in. -/
def Ingested (rid : String) : Post Db RowKey Err ChannexIngestResult := fun r o _ w A =>
  ∀ out, r = .ok out → ∀ s, Recorded s → A s → RevisionsStay s (w s) ∧ Recorded (w s) ∧
    (out.success = true → (∃ t ∈ o, Applied rid t) ∨ Applied rid (w s))

theorem ingested_failed {link : ChannexPropertyLink} {rt : Option UUID} {o : List Db}
    {L : Set RowKey} {A : Db → Prop} : Ingested rid (.ok (ingestFailed link rt)) o L id A := by
  intro out hout s hs _
  cases hout
  exact ⟨fun _ h => h, hs, nofun⟩

theorem runs_session {loaded : Option ChannexBookingRevision} {env : Env}
    {link : ChannexPropertyLink} {flat : Option ChannexBookingRevisionPayload} {o : List Db}
    (hid : ∀ payload, flat = some payload → Text.strip payload.id = rid)
    (hloaded : ∀ l, loaded = some l → l.processingStatus = .error) :
    Runs (ackDiscipline ι) i o ∅ id (fun _ => True) (Ingested rid)
      (ingestInSession loaded env link flat) := by
  unfold ingestInSession
  split
  · exact runs_pure ingested_failed
  · next payload =>
    have hrid := hid payload rfl
    simp only [hrid]
    split
    · exact runs_pure ingested_failed
    · refine runs_bind (runs_claim hrid hloaded) (fun _ _ _ _ _ _ => nofun) ?_
      intro claimed o' L' w' A' hclaim
      cases claimed with
      | false =>
        obtain ⟨rfl, hread⟩ := hclaim
        refine runs_pure ?_
        intro out hout s hs _
        cases hout
        exact ⟨fun _ h => h, hs, fun _ => .inl hread⟩
      | true =>
        have hend : Ending i rid (ingestClaimed env link payload) := hrid ▸ ending_ingestClaimed
        refine ⟨(hend.runs o' L' w' A' hclaim).ok.mono ?_⟩
        rintro r o₂ L₂ w₂ A₂ hends out rfl s hs hA
        obtain ⟨hstay, hrec, hdone⟩ := hends s hs hA
        exact ⟨hstay, hrec, fun hsuccess => .inr (hdone hsuccess)⟩

theorem runs_webhookIngest {env : Env} {link : ChannexPropertyLink}
    {flat : Option ChannexBookingRevisionPayload} {o : List Db}
    (hid : ∀ payload, flat = some payload → Text.strip payload.id = rid) :
    Runs (ackDiscipline ι) i o ∅ id (fun _ => True) (Ingested rid)
      (ingestChannexBooking env link flat) :=
  @runs_session ι i rid none env link flat o hid fun _ h => absurd h (by simp)

end Session

/-! The workers -/

section Workers
variable {ι : Type} {i : ι}

def Acknowledged : Post Db RowKey Err WorkerResult := fun r o _ w A =>
  ∀ a, r = .ok a → ∀ s, Recorded s → A s → RevisionsStay s (w s) ∧ Recorded (w s) ∧
    ∀ rid, a.acknowledges = some rid → (∃ t ∈ o, Applied rid t) ∨ Applied rid (w s)

theorem acknowledged_nothing {o : List Db} {L : Set RowKey} {A : Db → Prop} :
    Acknowledged (.ok .nothing) o L id A := by
  intro a ha s hs _
  cases ha
  exact ⟨fun _ h => h, hs, nofun⟩

/-- A worker acknowledges the revision that it has ingested with success. -/
theorem runs_acknowledge {rid : String} {o : List Db} {p : Tx ChannexIngestResult}
    (hp : Runs (ackDiscipline ι) i o ∅ id (fun _ => True) (Ingested rid) p) :
    Runs (ackDiscipline ι) i o ∅ id (fun _ => True) Acknowledged
      (p >>= fun out => pure ⟨some rid, some out⟩) := by
  refine runs_bind hp (fun _ _ _ _ _ _ => nofun) fun out o' L' w' A' hing => runs_pure ?_
  intro a ha s hs hA
  cases ha
  obtain ⟨hstay, hrec, happlied⟩ := hing out rfl s hs hA
  refine ⟨hstay, hrec, fun r hr => ?_⟩
  unfold WorkerResult.acknowledges nonEmpty at hr
  simp only [Option.bind_some] at hr
  split at hr
  · cases hr
  · next hsuccess =>
    split at hr
    · cases hr
    · cases hr
      exact happlied (by simpa using hsuccess)

theorem runs_worker {worker : Worker} (hfetch : worker.FetchesById) :
    Runs (ackDiscipline ι) i [] ∅ id (fun _ => True) Acknowledged worker.program := by
  cases worker with
  | webhook d =>
    change Runs _ _ _ _ _ _ _ (processWebhook d)
    unfold processWebhook
    split
    · exact runs_pure acknowledged_nothing
    · split
      · split
        · split
          · exact runs_pure acknowledged_nothing
          · next flat hflat =>
            refine runs_acknowledge (runs_webhookIngest ?_)
            intro payload hpayload
            rw [hpayload] at hflat
            exact hfetch _ payload hflat
        · exact runs_pure acknowledged_nothing
      · exact runs_pure acknowledged_nothing
  | retry d =>
    refine runs_select_bind (stable_true _) fun s hs _ => ?_
    simp only [id]
    split
    · exact runs_pure acknowledged_nothing
    · next row hrow =>
      split
      · exact runs_pure acknowledged_nothing
      · next herror =>
        split
        · exact runs_pure acknowledged_nothing
        · refine runs_acknowledge (runs_session ?_ ?_)
          · intro payload hpayload
            cases hpayload
            exact (hs row (Table.find_eq_some.mp hrow).1).2
          · intro l hl
            cases hl
            exact not_not.mp herror

/-- In every run of the workers, a worker that acknowledges a revision does so after a
state with the revision done was committed. -/
theorem acknowledged_only_applied [DecidableEq ι] {db : Db} {workers : ι → Worker}
    (h₀ : Recorded db) (hfetch : ∀ i, (workers i).FetchesById) {passed : List Db}
    {c : Config Db RowKey Err WorkerResult ι}
    (hrun : Passes .any (Config.start db fun i => (workers i).program) passed c)
    {a : WorkerResult} (hi : c.tx i = .committed a) {rid : String}
    (hack : a.acknowledges = some rid) : ∃ s ∈ passed, Applied rid s := by
  have hres : c.results i = some a := by simp [Config.results, hi, TxState.result]
  refine @answers_of_passes Db RowKey Err WorkerResult ι (ackDiscipline ι) (fun _ => Acknowledged)
    _ _ c passed (fun a passed => ∀ rid, a.acknowledges = some rid → ∃ s ∈ passed, Applied rid s)
    ?_ ?_ ?_ db _ h₀ (fun i => runs_worker (hfetch i)) hrun i a hres rid hack
  · intro j r o L w A hend b hb s hs hA _
    obtain ⟨hstay, hrec, -⟩ := hend b hb s hs hA
    exact ⟨hstay, hrec⟩
  · intro b s passed hG rid hrid
    obtain ⟨t, ht, happlied⟩ := hG rid hrid
    exact ⟨t, List.mem_cons_of_mem _ ht, happlied⟩
  · intro j b o L w A s passed hend hs hA _ hreads rid hrid
    obtain ⟨-, -, hback⟩ := hend b rfl s hs hA
    rcases hback rid hrid with ⟨t, ht, happlied⟩ | happlied
    · exact ⟨t, List.mem_cons_of_mem _ (hreads t ht), happlied⟩
    · exact ⟨w s, List.mem_cons_self .., happlied⟩

end Workers

/-- The webhook of a cancellation. -/
def Demo.delivery : WebhookDelivery where
  env := env 0 0 0
  log := some ⟨"booking_cancellation", some "r1", "P"⟩
  link := fun _ => some link
  fetch := fun rid => if rid = "r1" then some (some (revision "r1" "cancelled")) else none

/-- The webhook is delivered twice: the second worker finds the revision done. -/
def Demo.redelivered : List (Event Bool) :=
  List.replicate 16 (.step false) ++ List.replicate 3 (.step true)

theorem acknowledged_only_applied_demo :
    ∃ passed c a, Passes .any (Config.start Demo.sold fun _ : Bool =>
        (Worker.webhook Demo.delivery).program) passed c ∧ c.tx true = .committed a ∧
      a.acknowledges = some "r1" ∧ ∃ s ∈ passed, Applied "r1" s := by
  have hack : ((Config.start Demo.sold fun _ : Bool => (Worker.webhook Demo.delivery).program).run
      Demo.redelivered).bind (fun c => (c.results true).bind (·.acknowledges)) = some "r1" := by
    decide +kernel
  obtain ⟨c, hrun, hc⟩ := Option.bind_eq_some_iff.mp hack
  obtain ⟨a, hres, ha⟩ := Option.bind_eq_some_iff.mp hc
  obtain ⟨passed, hpassed⟩ := Passes.run .refl hrun
  have hrecorded : Recorded Demo.sold := by
    have hempty : Demo.sold.revisions.rows = [] := by decide +kernel
    intro row hrow
    rw [hempty] at hrow
    cases hrow
  have hfetch : (Worker.webhook Demo.delivery).FetchesById := by
    intro rid payload hfound
    by_cases hrid : rid = "r1"
    · subst hrid
      simp only [Demo.delivery, if_pos] at hfound
      cases hfound
      decide
    · simp [Demo.delivery, hrid] at hfound
  have htx := Config.tx_of_results hres
  exact ⟨passed, c, a, hpassed, htx, ha, acknowledged_only_applied hrecorded (fun _ => hfetch)
    hpassed htx ha⟩

end OpenPms
