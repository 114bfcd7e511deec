import OpenPms.Claiming
import OpenPms.ChannexLedger
import OpenPms.ChannexBooking

/-!
One booking for each external id. A creation and the ingest of a new revision look for
a booking under their id before they insert one, and nothing keeps another transaction
from inserting it meanwhile. As long as the answer of that check is still true at the
commit, an id is never used twice, and the booking is found by it.
-/
namespace OpenPms

open KeyedTable Transaction Prog Interleaving

/-- A booking is stored under the external id. -/
def Taken (external : String) (db : Db) : Prop := ∃ id, (id, some external) ∈ db.externals

def UniqueExternals (db : Db) : Prop :=
  ∀ x ∈ db.externals, ∀ y ∈ db.externals, ∀ external, x.2 = some external →
    y.2 = some external → x = y

/-- Transactions that may store an external id. -/
inductive Import where
  | create (env : Env) (body : BookingCreateRequest)
  | worker (job : Worker)

namespace Import

def program : Import → Tx Unit
  | .create env body => createBooking env body >>= fun _ => pure ()
  | .worker job => job.program >>= fun _ => pure ()

/-- The external ids that the transaction may store, given what it has read. -/
def Uses (reads : List Db) (external : String) : Import → Prop
  | .create _ body => externalRef body.externalBookingId = some external
  | .worker (.webhook d) => ∃ rid payload, d.fetch rid = some (some payload) ∧
      externalKey payload = external
  | .worker (.retry d) => ∃ db ∈ reads, ∃ row, db.revisions.find d.revisionId = some row ∧
      externalKey row.payload = external

/-- How many statements have read before the existence check: those of the claim of the
revision and of its maps, and the row that a retry loads. -/
def readsBefore : Import → ℕ
  | .create _ _ => 0
  | .worker (.webhook _) => 4
  | .worker (.retry _) => 5

/-- The state that the existence check has read from. -/
def checked (i : Import) (reads : List Db) : Option Db := reads.reverse[i.readsBefore]?

end Import

/-- At its commit the external id of a transaction is stored only if its check has seen
it. -/
def importTiming {ι : Type} (imports : ι → Import) : Timing Db ι where
  lock _ _ _ := True
  commit i reads db := ∀ external, (imports i).Uses reads external →
    ∀ t, (imports i).checked reads = some t → Taken external db → Taken external t

def importDiscipline {ι : Type} (imports : ι → Import) : Discipline Db RowKey ι where
  inv := UniqueExternals
  guar _ _ _ := True
  timing := importTiming imports

/-! What the writes do to the external ids -/

def ExternalsKept (f : Db → Db) : Prop := ∀ db, (f db).externals = db.externals

/-- At most one booking is new, under the given external id. -/
def Imports (external : Option String) (w : Db → Db) : Prop :=
  ∃ id, ∀ s, (w s).externals = s.externals ∨ (w s).externals = s.externals ++ [(id, external)]

theorem ExternalsKept.imports {w : Db → Db} (h : ExternalsKept w) (external : Option String) :
    Imports external w := ⟨0, fun s => .inl (h s)⟩

theorem Imports.kept {external : Option String} {w f : Db → Db} (h : Imports external w)
    (hf : ExternalsKept f) : Imports external (f ∘ w) := by
  obtain ⟨id, hid⟩ := h
  refine ⟨id, fun s => ?_⟩
  rw [Function.comp_apply, hf]
  exact hid s

theorem ExternalsKept.comp {f w : Db → Db} (hf : ExternalsKept f) (hw : ExternalsKept w) :
    ExternalsKept (f ∘ w) := fun s => (hf (w s)).trans (hw s)

theorem imports_insert (b : Booking) {w : Db → Db} (hw : ExternalsKept w) :
    Imports b.externalBookingId
      ((fun db => { db with bookings := db.bookings.insert b }) ∘ w) := by
  refine ⟨b.id, fun s => ?_⟩
  change (((w s).bookings.insert b).rows.map _) = _ ∨ _
  cases hfind : (w s).bookings.find b.id with
  | some u =>
    left
    rw [Table.insert_of_find hfind]
    exact hw s
  | none =>
    right
    rw [← hw s]
    change (((w s).bookings.insert b).rows.map _) = _
    rw [Table.insert_rows hfind]
    simp [Db.externals]

/-- A new booking under an id that is not stored keeps the ids unique. -/
theorem uniqueExternals_import {external : Option String} {w : Db → Db} {s : Db}
    (h : UniqueExternals s) (hw : Imports external w)
    (hfree : ∀ e, external = some e → ¬ Taken e s) : UniqueExternals (w s) := by
  obtain ⟨id, hid⟩ := hw
  rcases hid s with heq | heq
  · unfold UniqueExternals at h ⊢
    rw [heq]
    exact h
  · intro x hx y hy e hxe hye
    rw [heq, List.mem_append, List.mem_singleton] at hx hy
    rcases hx with hx | rfl
    · rcases hy with hy | rfl
      · exact h x hx y hy e hxe hye
      · exact absurd ⟨x.1, by rw [← hxe]; exact hx⟩ (hfree e hye)
    · rcases hy with hy | rfl
      · exact absurd ⟨y.1, by rw [← hye]; exact hy⟩ (hfree e hxe)
      · rfl

theorem taken_of_findByExternal {external : String} {db : Db}
    (h : findByExternal external db = none) : ¬ Taken external db := by
  rintro ⟨id, hid⟩
  obtain ⟨b, hb, heq⟩ := List.mem_map.mp hid
  have hne := List.find?_eq_none.mp h b hb
  simp [(Prod.mk.inj heq).2] at hne

/-! Transactions -/

section Derivations
variable {ι : Type} {imports : ι → Import} {i : ι} {α : Type} {external : Option String}

/-- Nothing is asserted of the committed state; the pending writes satisfy `P`. -/
def Pending (P : (Db → Db) → Prop) (_ : Set RowKey) (w : Db → Db) (A : Db → Prop) : Prop :=
  (∀ s, A s) ∧ P w

theorem Pending.stable {P : (Db → Db) → Prop} {L : Set RowKey} {w : Db → Db} {A : Db → Prop}
    (h : Pending P L w A) : Stable (importDiscipline imports) L A :=
  fun _ _ s' _ _ _ _ => h.1 s'

theorem pending_carried {P : (Db → Db) → Prop} :
    Carried (importDiscipline imports) (Pending P) where
  stable h := h.stable
  lock := fun {_ _ A} _ s h _ _ => ⟨A, h.1 s, h⟩

theorem pending_kept {p : Tx α} (h : Writes ExternalsKept p) :
    Carries (importDiscipline imports) i (Pending ExternalsKept) p :=
  carries_of_writes pending_carried (fun hf _ _ _ h => ⟨h.1, hf.comp h.2⟩) h

theorem pending_imports {p : Tx α} (h : Writes ExternalsKept p) :
    Carries (importDiscipline imports) i (Pending (Imports external)) p :=
  carries_of_writes pending_carried (fun hf _ _ _ h => ⟨h.1, h.2.kept hf⟩) h

/-- A program that inserts at most one booking, under the given external id. -/
structure Importing (imports : ι → Import) (i : ι) (external : Option String) (p : Tx α) :
    Prop where
  ok : ∀ o L w A, Pending ExternalsKept L w A → Ok (importDiscipline imports) i p o L w A
    fun _ o' L' w' A' => o <:+ o' ∧ Pending (Imports external) L' w' A'

theorem importing_bind {β : Type} {p : Tx α} {f : α → Tx β} (hp : Writes ExternalsKept p)
    (hf : ∀ a, Importing imports i external (f a)) :
    Importing imports i external (p >>= f) := by
  refine ⟨fun o L w A h => ok_bind (((pending_kept hp).ok o L w A h).reads.mono ?_)⟩
  rintro r o' L' w' A' ⟨hsuffix, h'⟩
  cases r with
  | ok a =>
    refine ((hf a).ok o' L' w' A' h').mono ?_
    rintro r o₂ L₂ w₂ A₂ ⟨hsuffix₂, h₂⟩
    exact ⟨hsuffix.trans hsuffix₂, h₂⟩
  | error e => exact ⟨hsuffix, h'.1, h'.2.imports external⟩

theorem importing_then {β : Type} {p : Tx α} {f : α → Tx β}
    (hp : Importing imports i external p) (hf : ∀ a, Writes ExternalsKept (f a)) :
    Importing imports i external (p >>= f) := by
  refine ⟨fun o L w A h => ok_bind ((hp.ok o L w A h).mono ?_)⟩
  rintro r o' L' w' A' ⟨hsuffix, h'⟩
  cases r with
  | ok a =>
    refine ((pending_imports (hf a)).ok o' L' w' A' h').reads.mono ?_
    rintro r o₂ L₂ w₂ A₂ ⟨hsuffix₂, h₂⟩
    exact ⟨hsuffix.trans hsuffix₂, h₂⟩
  | error e => exact ⟨hsuffix, h'⟩

theorem importing_kept {p : Tx α} (hp : Writes ExternalsKept p) :
    Importing imports i external p := by
  refine ⟨fun o L w A h => ((pending_kept hp).ok o L w A h).reads.mono ?_⟩
  rintro r o' L' w' A' ⟨hsuffix, h'⟩
  exact ⟨hsuffix, h'.1, h'.2.imports external⟩

theorem importing_tryCatch {p : Tx α} {g : Err → Tx α} (hp : Importing imports i external p)
    (hg : ∀ e, Writes ExternalsKept (g e)) : Importing imports i external (p.tryCatch g) := by
  refine ⟨fun o L w A h => ok_tryCatch ((hp.ok o L w A h).mono ?_)⟩
  rintro r o' L' w' A' ⟨hsuffix, h'⟩
  cases r with
  | ok a => exact ⟨hsuffix, h'⟩
  | error e =>
    refine ((pending_imports (hg e)).ok o' L' w' A' h').reads.mono ?_
    rintro r o₂ L₂ w₂ A₂ ⟨hsuffix₂, h₂⟩
    exact ⟨hsuffix.trans hsuffix₂, h₂⟩

theorem importing_flushBooking (b : Booking) :
    Importing imports i b.externalBookingId (flushBooking b) := by
  refine importing_bind (writes_raiseIf _) fun _ => importing_bind (writes_select _) fun _ =>
    importing_bind (writes_raiseIf _) fun _ => ⟨fun o L w A h => ?_⟩
  exact ⟨List.suffix_rfl, h.1, imports_insert b h.2⟩

theorem kept_rows {p : Tx α} (h : Writes RowWrite p) : Writes ExternalsKept p :=
  h.mono fun _ hf => hf.externals

theorem kept_plain {p : Tx α} (h : Writes PlainWrite p) : Writes ExternalsKept p :=
  kept_rows (rows_of_plain h)

theorem kept_counts {p : Tx α} (h : Writes LedgerWrite p) : Writes ExternalsKept p :=
  h.mono fun _ hf => hf.externals

theorem kept_marks {p : Tx α} (h : Writes RevisionWrite p) : Writes ExternalsKept p :=
  h.mono fun _ hf => hf.externals

theorem importing_insertBooking {env : Env} {b : Booking} {rt : UUID}
    {perNight : List (ℤ × Money)} {description : String} (hb : b.externalBookingId = external) :
    Importing imports i external (insertBooking env b rt perNight description) := by
  subst hb
  refine importing_then (importing_then (importing_flushBooking b) fun _ => ?_) fun _ => ?_
  · exact kept_rows (writes_bind (rows_of_plain plain_flushLines) fun _ => writes_bind
      (writes_modify ⟨fun _ => rfl, fun _ => rfl, fun _ => rfl, fun _ => rfl⟩) fun _ =>
        writes_bind rows_replaceTaxes fun _ => rows_folioCharge)
  · exact kept_rows (writes_bind (rows_of_plain plain_pickFirstFreeRoom) fun _ =>
      rows_of_plain plain_assignPicked)

/-! Commits -/

/-- A transaction whose check has not found its id commits when it is still free. -/
theorem commits_import {r : Except Err α} {o : List Db} {L : Set RowKey} {w : Db → Db}
    {A : Db → Prop} (hw : Imports external w)
    (hcheck : ∀ e, external = some e → (imports i).Uses o e ∧ ∃ t o₀, (t :: o₀) <:+ o ∧
      o₀.length = (imports i).readsBefore ∧ ¬ Taken e t) :
    Commits (importDiscipline imports) i r o L w A := by
  intro a _ s hs _ htime
  refine ⟨trivial, uniqueExternals_import hs hw ?_⟩
  intro e he htaken
  obtain ⟨huses, t, o₀, ⟨pre, rfl⟩, hlength, hfree⟩ := hcheck e he
  refine hfree (htime e huses t ?_ htaken)
  simp [Import.checked, ← hlength]

/-- A transaction that inserts nothing. -/
theorem commits_kept {r : Except Err α} {o : List Db} {L : Set RowKey} {w : Db → Db}
    {A : Db → Prop} (hw : ExternalsKept w) :
    Commits (importDiscipline imports) i r o L w A :=
  @commits_import ι imports i α none r o L w A (hw.imports none) nofun

theorem runs_kept {p : Tx α} {o : List Db} {L : Set RowKey} {w : Db → Db} {A : Db → Prop}
    (h : Pending ExternalsKept L w A) (hp : Writes ExternalsKept p) :
    Runs (importDiscipline imports) i o L w A (Commits (importDiscipline imports) i) p :=
  ⟨((pending_kept hp).ok o L w A h).mono fun _ _ _ _ _ h' => commits_kept h'.2⟩

theorem pending_start : Pending ExternalsKept ∅ id fun _ => True :=
  ⟨fun _ => trivial, fun _ => rfl⟩

theorem runs_createBooking {env : Env} {body : BookingCreateRequest}
    (himp : imports i = .create env body) :
    Runs (importDiscipline imports) i [] ∅ id (fun _ => True)
      (Commits (importDiscipline imports) i) (createBooking env body) := by
  refine runs_ofExcept_bind commits_error fun nights _ => runs_select_bind (stable_true _)
    fun s _ _ => runs_raiseIf_bind (commits_error _) fun hdup => ?_
  refine ⟨((?_ : Importing imports i (externalRef body.externalBookingId) _).ok [s] ∅ id
    (fun _ => True) pending_start).mono ?_⟩
  · exact importing_bind (writes_bind (writes_select _) fun _ => writes_raiseIf _) fun _ =>
      importing_bind (writes_bind (writes_select _) fun _ => writes_raiseIf _) fun _ =>
        importing_bind (kept_plain plain_sumRates) fun _ => importing_bind (kept_counts counts_claim)
          fun _ => importing_bind (kept_plain plain_getOrCreateGuest) fun _ =>
            importing_then (importing_insertBooking rfl) fun _ => writes_pure _
  rintro r o L w A ⟨hsuffix, -, hw⟩
  refine commits_import hw fun e he => ⟨?_, s, [], hsuffix, ?_, ?_⟩
  · rw [himp]
    exact he
  · rw [himp]
    rfl
  · rintro ⟨id, hid⟩
    obtain ⟨b, hb, heq⟩ := List.mem_map.mp hid
    apply hdup
    rw [List.any_eq_true]
    refine ⟨b, hb, ?_⟩
    simp [he, (Prod.mk.inj heq).2]

/-! The ingest of a revision -/

section Ingest
variable {env : Env} {rev : Revision}

theorem kept_handleIngestError (e : Err) : Writes ExternalsKept (handleIngestError rev e) :=
  kept_marks (marks_handleIngestError e)

theorem kept_finish {bid : UUID} {out : ChannexIngestResult} :
    Writes ExternalsKept (finishRevision rev.id bid >>= fun _ => pure out) :=
  kept_marks (writes_bind marks_updateRevision fun _ => writes_pure _)

theorem kept_ingestCancelled : Writes ExternalsKept (ingestCancelled rev) := by
  refine writes_bind (writes_select _) fun found => ?_
  split
  · exact kept_marks marks_failRevision
  · split
    · exact writes_bind (kept_counts counts_release) fun _ =>
        writes_bind (kept_plain plain_setStatus) fun _ => kept_finish
    · exact kept_finish

theorem kept_ingestModified : Writes ExternalsKept (ingestModified env rev) := by
  refine writes_bind (writes_select _) fun found => ?_
  split
  · exact kept_marks marks_failRevision
  · split
    · exact writes_bind (kept_counts counts_lockAndValidate) fun _ =>
        writes_bind (kept_counts counts_decrement) fun _ =>
          writes_bind (kept_counts counts_lockAndValidate) fun _ =>
            writes_bind (kept_counts counts_increment) fun _ =>
              writes_bind (kept_plain plain_deleteLines) fun _ =>
                writes_bind (kept_rows rows_updatePlanAndTotal) fun _ =>
                  writes_bind (kept_plain plain_flushLines) fun _ =>
                    writes_bind (kept_rows rows_replaceTaxes) fun _ =>
                      writes_bind (kept_rows rows_folioCharge) fun _ =>
                        writes_bind (kept_plain plain_updateGuest) fun _ => kept_finish
    · exact kept_marks marks_failRevision

/-- What follows the check of a new revision. -/
theorem importing_new (found : Option Booking) (hfit : Text.take 128 rev.external = rev.external) :
    Importing imports i (if found = none then some rev.external else none)
      (match found with
      | some booking => do
        finishRevision rev.id booking.id
        pure ⟨false, false, rev.link.propertyId, some rev.roomTypeId, [], true, none, none⟩
      | none => do
        let rows ← lockAndValidateAvailability rev.roomTypeId rev.nights 1
        incrementBookedRooms rows 1
        let (guest, _) ← getOrCreateGuestForBooking env rev.guest false
        let noted (g : Guest) : Guest :=
          { g with notes := g.notes.orElse (fun _ => truncatedNotes rev.notes) }
        modify fun db => { db with guests := db.guests.update guest.id noted (fun _ => rfl) }
        insertBooking env
          { id := env.bookingId, propertyId := rev.link.propertyId, guestId := guest.id,
            ratePlanId := some rev.ratePlanId,
            externalBookingId := some (Text.take 128 rev.external), status := .confirmed,
            source := rev.source, totalAmount := rev.total, notes := none, lines := [] }
          rev.roomTypeId rev.perNight "Room charge (Channex OTA)"
        finishRevision rev.id env.bookingId
        pure (rev.applied rev.nights (some env.bookingId) none)) := by
  cases found with
  | some booking => exact importing_kept kept_finish
  | none =>
    refine importing_bind (kept_counts counts_lockAndValidate) fun _ =>
      importing_bind (kept_counts counts_increment) fun _ =>
        importing_bind (kept_plain plain_getOrCreateGuest) fun _ =>
          importing_bind (writes_modify fun _ => rfl) fun _ =>
            importing_then (importing_insertBooking ?_) fun _ => kept_finish
    simp [hfit]

/-- The rest of an ingest for the external id, which checks for it after `n` more reads. -/
structure Settling (imports : ι → Import) (i : ι) (n : ℕ) (external : String) (p : Tx α) :
    Prop where
  runs : ∀ o L w A, Pending ExternalsKept L w A → o.length + n = (imports i).readsBefore →
    (∀ o', o <:+ o' → (imports i).Uses o' external) →
    Runs (importDiscipline imports) i o L w A (Commits (importDiscipline imports) i) p

variable {n : ℕ} {key : String}

theorem settling_kept {p : Tx α} (h : Writes ExternalsKept p) : Settling imports i n key p :=
  ⟨fun _ _ _ _ hpending _ _ => runs_kept hpending h⟩

theorem settling_ofExcept_bind {β : Type} {x : Except Err β} {f : β → Tx α}
    (h : ∀ a, Settling imports i n key (f a)) : Settling imports i n key (ofExcept x >>= f) :=
  ⟨fun o L w A hpending hn huses => runs_ofExcept_bind commits_error fun a _ =>
    (h a).runs o L w A hpending hn huses⟩

theorem settling_raiseIf_bind {c : Prop} [Decidable c] {e : Err} {f : Unit → Tx α}
    (h : ¬ c → Settling imports i n key (f ())) : Settling imports i n key (raiseIf c e >>= f) :=
  ⟨fun o L w A hpending hn huses => runs_raiseIf_bind (commits_error e) fun hc =>
    (h hc).runs o L w A hpending hn huses⟩

theorem settling_runIf_acquire_bind {c : Prop} [Decidable c] {r : RowKey} {f : Unit → Tx α}
    (h : Settling imports i n key (f ())) :
    Settling imports i n key (runIf c (acquire r) >>= f) :=
  ⟨fun o _ w A hpending hn huses => runs_runIf_acquire_bind hpending.stable fun L' _ =>
    h.runs o L' w A hpending hn huses⟩

theorem settling_acquire_bind {r : RowKey} {f : Unit → Tx α}
    (h : Settling imports i n key (f ())) : Settling imports i n key (acquire r >>= f) :=
  ⟨fun o _ w A hpending hn huses => runs_acquire_bind hpending.stable
    (h.runs o _ w A hpending hn huses)⟩

theorem settling_modify_bind {g : Db → Db} {f : Unit → Tx α} (hg : ExternalsKept g)
    (h : Settling imports i n key (f ())) : Settling imports i n key (modify g >>= f) :=
  ⟨fun o L _ A hpending hn huses => runs_modify_bind
    (h.runs o L _ A ⟨hpending.1, hg.comp hpending.2⟩ hn huses)⟩

theorem settling_select_bind {β : Type} {q : Db → β} {f : β → Tx α}
    (h : ∀ a, Settling imports i n key (f a)) :
    Settling imports i (n + 1) key (select q >>= f) := by
  refine ⟨fun o L w A hpending hn huses => runs_select_bind hpending.stable fun s _ _ => ?_⟩
  refine (h _).runs (s :: o) L w A hpending ?_ fun o' hsuffix => ?_
  · rw [List.length_cons]
    omega
  · exact huses o' ((List.suffix_cons s o).trans hsuffix)

theorem settling_new (hfit : Text.take 128 rev.external = rev.external) :
    Settling imports i 0 rev.external (applyRevision env .new rev) := by
  refine ⟨fun o L w A hpending hn huses => runs_select_tryCatch hpending.stable fun s _ _ => ?_⟩
  have himporting := importing_tryCatch (@importing_new ι imports i env rev
    (findByExternal rev.external (w s)) hfit) (@kept_handleIngestError rev)
  refine ⟨(himporting.ok (s :: o) L w A hpending).mono ?_⟩
  rintro r o' L' w' A' ⟨hsuffix, -, hw⟩
  refine commits_import hw fun e he => ?_
  split at he
  · next hnone =>
    cases he
    refine ⟨huses o' ((List.suffix_cons s o).trans hsuffix), s, o, hsuffix, hn, ?_⟩
    have hfree := taken_of_findByExternal hnone
    unfold Taken at hfree ⊢
    rwa [hpending.2 s] at hfree
  · cases he

theorem settling_applyRevision {kind : RevisionKind} (hkey : rev.external = key)
    (hfit : Text.take 128 key = key) :
    Settling imports i 0 key (applyRevision env kind rev) := by
  subst hkey
  cases kind with
  | cancelled => exact settling_kept (writes_tryCatch kept_ingestCancelled kept_handleIngestError)
  | modified => exact settling_kept (writes_tryCatch kept_ingestModified kept_handleIngestError)
  | new => exact settling_new hfit

end Ingest

section Session
variable {n : ℕ} {env : Env} {link : ChannexPropertyLink}
  {payload : ChannexBookingRevisionPayload}

theorem settling_fail {key rid : String} {e : RevisionError} {out : ChannexIngestResult} :
    Settling imports i n key (failRevision rid e >>= fun _ => pure out) :=
  settling_kept (kept_marks marks_failRevision)

theorem settling_ingestMapped {rt ratePlan : UUID}
    (hfit : Text.take 128 (externalKey payload) = externalKey payload) :
    Settling imports i 0 (externalKey payload)
      (ingestMapped env link (Text.strip payload.id) payload rt ratePlan) := by
  unfold ingestMapped
  simp only
  split
  · split
    · exact settling_fail
    · refine settling_ofExcept_bind fun nights => ?_
      split
      · exact settling_fail
      · refine settling_ofExcept_bind fun total => settling_ofExcept_bind fun guest => ?_
        exact settling_applyRevision (by simp only [externalKey]) hfit
  · exact settling_fail

theorem settling_ingestClaimed
    (hfit : Text.take 128 (externalKey payload) = externalKey payload) :
    Settling imports i 2 (externalKey payload) (ingestClaimed env link payload) := by
  unfold ingestClaimed resolveRoomAndRateMaps
  simp only [bind_assoc]
  split
  · exact settling_fail
  · refine settling_select_bind fun rtm => ?_
    split
    · exact settling_fail
    · simp only [bind_assoc]
      refine settling_select_bind fun rpm => ?_
      cases rpm with
      | none => exact settling_fail
      | some rpm => exact settling_ingestMapped hfit

theorem take_of_length_le {k : ℕ} {s : String} (h : s.length ≤ k) : Text.take k s = s := by
  unfold Text.take
  rw [List.take_of_length_le (by rwa [String.length_toList]), String.ofList_toList]

/-- The identifiers of a revision fit their columns when the claim has passed. -/
def Fits (payload : ChannexBookingRevisionPayload) : Prop :=
  (Text.strip payload.id).length ≤ 36 ∧ (Text.strip (orText payload.bookingId "")).length ≤ 36

theorem orText_some (value default : String) :
    orText (some value) default = default ∨ orText (some value) default = value := by
  by_cases h : value = ""
  · simp [orText, h]
  · simp [orText, h]

theorem Fits.externalKey (h : Fits payload) :
    Text.take 128 (externalKey payload) = externalKey payload := by
  have hlength : (OpenPms.externalKey payload).length ≤ 36 := by
    unfold OpenPms.externalKey
    rcases orText_some (Text.strip (orText payload.bookingId "")) (Text.strip payload.id) with
      heq | heq
    · rw [heq]
      exact h.1
    · rw [heq]
      exact h.2
  exact take_of_length_le (hlength.trans (by decide))

theorem settling_ingestInSession {loaded : Option ChannexBookingRevision} :
    Settling imports i 4 (externalKey payload) (ingestInSession loaded env link (some payload)) := by
  unfold ingestInSession
  simp only
  split
  · exact settling_kept (writes_pure _)
  · unfold claimRevisionRow
    simp only [bind_assoc]
    refine settling_raiseIf_bind fun hlengths => settling_raiseIf_bind fun _ =>
      settling_select_bind fun present =>
        settling_runIf_acquire_bind (settling_select_bind fun existing => ?_)
    have hfits : Fits payload := by
      simp only [not_or] at hlengths
      exact ⟨not_lt.mp hlengths.1, not_lt.mp hlengths.2.1⟩
    split
    · simp only [bind_assoc]
      exact settling_raiseIf_bind fun _ => settling_modify_bind (fun _ => rfl)
        (settling_ingestClaimed hfits.externalKey)
    · split
      · exact settling_kept (writes_pure _)
      · exact settling_kept (writes_pure _)
      · exact settling_ingestClaimed hfits.externalKey
      · simp only [bind_assoc]
        exact settling_acquire_bind (settling_modify_bind (fun _ => rfl)
          (settling_ingestClaimed hfits.externalKey))

end Session

theorem runs_pure_start {a : α} {o : List Db} :
    Runs (importDiscipline imports) i o ∅ id (fun _ => True)
      (Commits (importDiscipline imports) i) (pure a : Tx α) :=
  runs_kept pending_start (writes_pure a)

theorem runs_webhook {d : WebhookDelivery} (himp : imports i = .worker (.webhook d)) :
    Runs (importDiscipline imports) i [] ∅ id (fun _ => True)
      (Commits (importDiscipline imports) i) (processWebhook d) := by
  unfold processWebhook
  split
  · exact runs_pure_start
  · split
    · next link rid _ _ =>
      split
      · split
        · exact runs_pure_start
        · next flat hflat =>
          cases flat with
          | none => exact runs_pure_start
          | some payload =>
            have hsettling : Settling imports i 4 (externalKey payload)
                (ingestChannexBooking d.env link (some payload)) := settling_ingestInSession
            refine runs_answer (hsettling.runs [] ∅ id (fun _ => True) pending_start ?_ ?_)
            · rw [himp]
              rfl
            · intro o' _
              rw [himp]
              exact ⟨rid, payload, hflat, rfl⟩
      · exact runs_pure_start
    · exact runs_pure_start

theorem runs_retry {d : RetryDelivery} (himp : imports i = .worker (.retry d)) :
    Runs (importDiscipline imports) i [] ∅ id (fun _ => True)
      (Commits (importDiscipline imports) i) (retryBookingRevision d) := by
  refine runs_select_bind (stable_true _) fun s _ _ => ?_
  simp only [id]
  split
  · exact runs_pure_start
  · next row hrow =>
    split
    · exact runs_pure_start
    · split
      · exact runs_pure_start
      · next link _ =>
        have hsettling : Settling imports i 4 (externalKey row.payload)
            (ingestInSession (some row) d.env link (some row.payload)) := settling_ingestInSession
        refine runs_answer (hsettling.runs [s] ∅ id (fun _ => True) pending_start ?_ ?_)
        · rw [himp]
          rfl
        · intro o' hsuffix
          rw [himp]
          exact ⟨s, hsuffix.subset (List.mem_singleton_self s), row, hrow, rfl⟩

theorem runs_import : Runs (importDiscipline imports) i [] ∅ id (fun _ => True)
    (Commits (importDiscipline imports) i) (imports i).program := by
  cases himp : imports i with
  | create env body => exact runs_answer (runs_createBooking himp)
  | worker job =>
    cases job with
    | webhook d => exact runs_answer (runs_webhook himp)
    | retry d => exact runs_answer (runs_retry himp)

end Derivations

/-! The claim -/

/-- No two bookings share an external id, and a revision finds the booking that an ingest
has stored for it. -/
structure OneBookingEach (db : Db) : Prop where
  unique : ∀ b ∈ db.bookings.rows, ∀ b' ∈ db.bookings.rows, ∀ external,
    b.externalBookingId = some external → b'.externalBookingId = some external → b = b'
  found : ∀ b ∈ db.bookings.rows, ∀ payload, Fits payload →
    b.externalBookingId = some (Text.take 128 (externalKey payload)) →
      findByExternal (externalKey payload) db = some b

theorem UniqueExternals.oneBookingEach {db : Db} (h : UniqueExternals db) : OneBookingEach db := by
  have hunique : ∀ b ∈ db.bookings.rows, ∀ b' ∈ db.bookings.rows, ∀ external,
      b.externalBookingId = some external → b'.externalBookingId = some external → b = b' := by
    intro b hb b' hb' external he he'
    have heq := h _ (List.mem_map_of_mem hb) _ (List.mem_map_of_mem hb') external he he'
    exact List.inj_on_of_nodup_map db.bookings.nodup hb hb' (Prod.mk.inj heq).1
  refine ⟨hunique, fun b hb payload hfits he => ?_⟩
  rw [hfits.externalKey] at he
  cases hfind : findByExternal (externalKey payload) db with
  | none => exact absurd ⟨b.id, he ▸ List.mem_map_of_mem hb⟩ (taken_of_findByExternal hfind)
  | some b' =>
    have he' : b'.externalBookingId = some (externalKey payload) := by
      simpa using List.find?_some hfind
    rw [hunique b hb b' (List.mem_of_find?_eq_some hfind) _ he he']

theorem OneBookingEach.uniqueExternals {db : Db} (h : OneBookingEach db) : UniqueExternals db := by
  intro x hx y hy external hxe hye
  obtain ⟨b, hb, rfl⟩ := List.mem_map.mp hx
  obtain ⟨b', hb', rfl⟩ := List.mem_map.mp hy
  rw [h.unique b hb b' hb' external hxe hye]

theorem external_ids_unique {ι : Type} [DecidableEq ι] {db : Db} {imports : ι → Import}
    (h₀ : OneBookingEach db) {c : Config Db RowKey Err Unit ι}
    (hc : Config.Reach (importTiming imports)
      (Config.start db fun i => (imports i).program) c) : OneBookingEach c.db := by
  have hinv : UniqueExternals c.db :=
    @inv_of_reach _ _ _ _ _ (importDiscipline imports) _ _ db _ h₀.uniqueExternals
      (fun i => (@runs_import ι imports i).disciplined) c hc
  exact hinv.oneBookingEach

namespace Demo

/-- Two creations with one external id. -/
def twins (i : Bool) : Import :=
  .create (env (if i then 1001 else 1000) 0 0)
    { stay with externalBookingId := some "X", checkIn_lt := stay.checkIn_lt, span_le := stay.span_le }

theorem oneNight_each {rooms : ℤ} : OneBookingEach (oneNight rooms) := by
  have hnone : (run (.empty 0) openHotel).bookings.rows = [] := by decide +kernel
  have hempty : (oneNight rooms).bookings.rows = [] := by
    simp only [oneNight]
    exact hnone
  constructor
  · intro b hb
    rw [hempty] at hb
    cases hb
  · intro b hb
    rw [hempty] at hb
    cases hb

/-- No booking has come up since anything was read. -/
def calm : Timing Db Bool where
  lock _ _ _ := True
  commit _ reads db := ∀ t ∈ reads, db.externals = t.externals

instance (i : Bool) (o : List Db) (s : Db) : Decidable (calm.lock i o s) :=
  inferInstanceAs (Decidable True)

instance (i : Bool) (o : List Db) (s : Db) : Decidable (calm.commit i o s) :=
  inferInstanceAs (Decidable (∀ t ∈ o, s.externals = t.externals))

theorem calm_importTiming {i : Bool} {o : List Db} {s : Db} (h : calm.commit i o s) :
    (importTiming twins).commit i o s := by
  intro external _ t ht htaken
  have hmem : t ∈ o := by
    rw [← List.mem_reverse]
    exact List.mem_of_getElem? ht
  unfold Taken at htaken ⊢
  rwa [h t hmem] at htaken

end Demo

/-- The second creation finds the booking of the first one. -/
theorem external_ids_unique_demo :
    ∃ c, Config.Reach (importTiming Demo.twins)
        (Config.start (Demo.oneNight 2) fun i => (Demo.twins i).program) c ∧
      c.db.externals = [(1000, some "X")] ∧ OneBookingEach c.db := by
  have hrun : ((Config.start (Demo.oneNight 2) fun i => (Demo.twins i).program).runIn Demo.calm
      (List.replicate 29 (.step false) ++ List.replicate 2 (.step true))).map
        (fun c => c.db.externals) = some [(1000, some "X")] := by decide +kernel
  obtain ⟨c, hc, hexternals⟩ := Option.map_eq_some_iff.mp hrun
  have hreach : Config.Reach (importTiming Demo.twins)
      (Config.start (Demo.oneNight 2) fun i => (Demo.twins i).program) c :=
    (Config.reach_of_runIn hc).mono (fun _ _ _ _ => trivial) fun _ _ _ => Demo.calm_importTiming
  exact ⟨c, hreach, hexternals, external_ids_unique Demo.oneNight_each hreach⟩

/-- The second creation commits between the check and the insertion of the first one. -/
theorem external_id_stored_twice :
    ∃ c, Config.Reach .any (Config.start (Demo.oneNight 2) fun i => (Demo.twins i).program) c ∧
      OneBookingEach (Demo.oneNight 2) ∧ ¬ OneBookingEach c.db := by
  have hrun : ((Config.start (Demo.oneNight 2) fun i => (Demo.twins i).program).run
      (List.replicate 1 (.step false) ++ List.replicate 29 (.step true) ++
        List.replicate 21 (.step false))).map (fun c => c.db.externals) =
      some [(1001, some "X"), (1000, some "X")] := by decide +kernel
  obtain ⟨c, hc, hexternals⟩ := Option.map_eq_some_iff.mp hrun
  refine ⟨c, Config.reach_of_run hc, Demo.oneNight_each, fun h => ?_⟩
  have heq := h.uniqueExternals (1001, some "X") (by simp [hexternals]) (1000, some "X")
    (by simp [hexternals]) "X" rfl rfl
  cases heq

end OpenPms
