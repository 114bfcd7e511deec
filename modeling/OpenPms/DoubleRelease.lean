import OpenPms.BookingTransaction
import OpenPms.ChannexLedger
import OpenPms.Release

/-!
Releases of the same booking that run side by side. Each of them decides from a SELECT
without a lock that the booking still holds its nights. As long as every commit finds
the bookings as its transaction has selected them, the ledger stays equal to the
bookings; two cancellations that both select the booking before either commits give its
nights back twice.
-/
namespace OpenPms

open KeyedTable Transaction Prog Hotel Interleaving

/-! A cancelled revision -/

section Cancel
variable {db db' : Db} {b : Booking}

/-- A release that is refused has not moved a counter. -/
theorem exec_release_refused {e : Err} (hb : Balanced db.hotel) (hmem : b ∈ db.bookings.rows)
    (hactive : b.status.Active)
    (h : (releaseBookingInventory b.lines).exec db = (.error e, db')) : db' = db := by
  obtain ⟨rt, hrt⟩ := (hb.shaped b hmem).lineRoomTypes
  unfold releaseBookingInventory at h
  rw [hrt] at h
  rcases exec_bind_error.mp h with hlock | ⟨rows, db₁, hlock, hdec⟩
  · exact (keeps_lockAndValidate (f := id)).eq hlock
  · obtain ⟨rfl, rfl, -⟩ := exec_lockAndValidate_ok.mp hlock
    have hpos : ∀ row ∈ selectLedger rt b.nights db₁, 0 ≤ row.counts.bookedRooms - 1 := by
      intro row hrow
      obtain ⟨-, hdate, hc⟩ := mem_selectLedger.mp hrow
      obtain ⟨ln, hln, hday⟩ := List.mem_map.mp hdate
      obtain ⟨c, hc', hone⟩ := hb.row_of_line hmem hactive hln
      rw [roomTypeId_of_single hrt hln, hday] at hc'
      cases hc.symm.trans hc'
      omega
    have hok : (decrementBookedRooms (selectLedger rt b.nights db₁) 1).exec db₁ = (.ok (), _) :=
      exec_decrementBookedRooms_ok.mpr ⟨hpos, rfl⟩
    cases hdec.symm.trans hok

/-- Cancelling a booking that is no no-show keeps the ledger equal to the bookings, also
when the release is refused and the error is committed. -/
theorem exec_cancelFound_balanced {rev : Revision} {r : ChannexIngestResult}
    (hb : Balanced db.hotel) (hfind : db.bookings.find b.id = some b)
    (hstatus : b.status ≠ .noShow)
    (h : ((cancelFound rev b).tryCatch (handleIngestError rev)).exec db = (.ok r, db')) :
    Balanced db'.hotel := by
  have hmem : b ∈ db.bookings.rows := (Table.find_eq_some.mp hfind).1
  rw [exec_tryCatch] at h
  unfold cancelFound at h
  by_cases hcancelled : b.status = .cancelled
  · rw [if_neg (not_not.mpr hcancelled)] at h
    cases h
    exact hb
  · rw [if_pos hcancelled] at h
    have hactive : b.status.Active := ⟨hcancelled, hstatus⟩
    obtain ⟨rt, hrt⟩ := (hb.shaped b hmem).lineRoomTypes
    split at h
    · next hexec =>
      cases h
      simp only [exec_bind_ok, exec_updateBookingRow_ok] at hexec
      obtain ⟨_, _, hrel, _, _, ⟨-, rfl⟩, _, _, hfin, hret⟩ := hexec
      obtain ⟨hreleasable, rfl⟩ := (exec_release_ok hrt).mp hrel
      cases hfin
      cases hret
      exact hb.step (.release hfind hactive (by decide) hrt hreleasable)
    · next e db₁ hexec =>
      obtain ⟨hhandled, -, hhotel⟩ := exec_handleIngestError_ok h
      rcases exec_bind_error.mp hexec with hrel | ⟨_, db₂, hrel, hrest⟩
      · rw [hhotel, exec_release_refused hb hmem hactive hrel]
        exact hb
      · have hraises : Raises (¬ Err.Handled ·)
            (updateBookingRow b.id (setStatus .cancelled) (id_setStatus _) >>= fun _ =>
              finishRevision rev.id b.id >>= fun _ =>
                (pure (rev.applied (if (lineRoomTypes b.lines).length = 1
                  then b.lines.map (·.date) else []) none (some b.id)) :
                  Tx ChannexIngestResult)) :=
          raises_bind (raises_updateBookingRow id) fun _ =>
            raises_bind (raises_modify _) fun _ => raises_pure _
        exact absurd hhandled (hraises db₂ e db₁ hrest)

end Cancel

/-! The condition -/

/-- Statements that an operation reads with before it selects the bookings to change. -/
def Op.readsBefore : Op → ℕ
  | nightAudit _ _ _ _ => 1
  | ingest _ _ _ => 4
  | _ => 0

/-- The committed states that a transaction has read since it selects bookings. -/
def Op.since (op : Op) (o : List Db) : List Db := o.take (o.length - op.readsBefore)

theorem Op.since_append {op : Op} {new old : List Db} (h : old.length = op.readsBefore) :
    op.since (new ++ old) = new := by
  rw [Op.since, List.length_append, ← h, Nat.add_sub_cancel, List.take_left]

/-- A revision finds no booking that has been marked as a no-show. -/
def Op.FindsNoNoShow (op : Op) (db : Db) : Prop :=
  match op with
  | ingest _ _ (some payload) => ∀ b ∈ db.bookings.rows,
      b.externalBookingId = some (externalKey payload) → b.status ≠ .noShow
  | _ => True

/-- Every transaction commits over its bookings as it has selected them. -/
def undisturbed {ι : Type} (B : Set UUID) (ops : ι → Op) : Timing Db ι where
  lock _ _ _ := True
  commit i o s := (∀ t ∈ (ops i).since o, SameBookings B t s) ∧ (ops i).FindsNoNoShow s

/-- The operations that release nights of the bookings `B`: patches of any kind, deletions,
audits that find no other booking overdue, and cancelled revisions that find no other. -/
inductive Op.Releases (B : Set UUID) (db : Db) : Op → Prop
  | patch {bid : UUID} (env : Env) (body : BookingPatchRequest) (hbid : bid ∈ B) :
      Releases B db (.patchBooking env bid body)
  | delete {bid : UUID} (hbid : bid ∈ B) : Releases B db (.deleteBooking bid)
  | audit (env : Env) (order : RowOrder) (propertyId : UUID) (todayLocal : ℤ)
      (hB : ∀ id ∈ overdueConfirmed propertyId todayLocal db, id ∈ B) :
      Releases B db (.nightAudit env order propertyId todayLocal)
  | cancelled (env : Env) (link : ChannexPropertyLink) (payload : ChannexBookingRevisionPayload)
      (hkind : revisionKind payload = .cancelled)
      (hB : ∀ b ∈ db.bookings.rows, b.externalBookingId = some (externalKey payload) → b.id ∈ B) :
      Releases B db (.ingest env link (some payload))

/-! Room charges -/

/-- No booking has come up, and the room charges of those that are gone are gone. -/
def Uncharged (s s' : Db) : Prop := ∀ id,
  (s'.charges.1 id = true → s.charges.1 id = true) ∧
  s'.charges.2 id = (s.charges.2 id && (s'.charges.1 id || !s.charges.1 id))

section Uncharged
variable {s s' s'' : Db}

theorem uncharged_of_eq (h : s'.charges = s.charges) : Uncharged s s' := by
  intro id
  rw [h]
  cases s.charges.1 id <;> simp

theorem Uncharged.trans (h : Uncharged s s') (h' : Uncharged s' s'') : Uncharged s s'' := by
  intro id
  obtain ⟨hfirst, hcharge⟩ := h id
  obtain ⟨hthen, hcharge'⟩ := h' id
  refine ⟨fun hid => hfirst (hthen hid), ?_⟩
  rw [hcharge', hcharge]
  revert hfirst hthen
  cases s.charges.1 id <;> cases s'.charges.1 id <;> cases s''.charges.1 id <;> simp

theorem charges_isSome (db : Db) (id : UUID) : db.charges.1 id = (db.bookings.find id).isSome :=
  Option.isSome_map

/-- Of the bookings that look the same, the same ones have a room charge. -/
theorem Uncharged.sameAccounts {B : Set UUID} {db : Db} (h : Uncharged db s) (h' : Uncharged db s')
    (hsame : SameBookings B s s') : SameChargedBookings B s s' := by
  refine ⟨hsame, fun id hid => ?_⟩
  have hfound : s'.charges.1 id = s.charges.1 id := by
    rw [charges_isSome, charges_isSome, hsame id hid]
  rw [(h id).2, (h' id).2, hfound]

theorem uncharged_of_keeps {α : Type} {p : Tx α} (hp : Keeps Db.charges p) {r : Except Err α}
    (h : p.exec s = (r, s')) : Uncharged s s' :=
  uncharged_of_eq (hp.eq h)

theorem uncharged_delete {bid : UUID} {b : Booking}
    (h : (deleteBooking bid).exec s = (.ok b, s')) : Uncharged s s' := by
  have hbooks := deleteBooking_books h
  have hfolio : s'.folio = _ := congrArg Books.folio hbooks
  have hfound : (s.bookings.find bid).isSome := by
    simp only [deleteBooking, exec_bind_ok, exec_select, Prod.mk.injEq, Except.ok.injEq] at h
    obtain ⟨found, _, ⟨hfind, rfl⟩, h⟩ := h
    cases found with
    | none => cases h
    | some b => rw [hfind, Option.isSome_some]
  have hcharge : ∀ id, s'.charges.2 id = (s.charges.2 id && decide (id ≠ bid)) := by
    intro id
    change s'.folio.any _ = (s.folio.any _ && _)
    rw [hfolio]
    exact any_roomCharge_erase
  have hleft : ∀ id, s'.charges.1 id = (s.charges.1 id && decide (id ≠ bid)) := by
    intro id
    change (s'.books.account id).isSome = ((s.books.account id).isSome && _)
    rw [hbooks]
    by_cases hid : id = bid
    · simp [hid]
    · simp [hid]
  intro id
  rw [hcharge, hleft]
  by_cases hid : id = bid
  · have hsome : s.charges.1 bid = true := by rw [charges_isSome, hfound]
    simp [hid, hsome]
  · cases s.charges.1 id <;> simp [hid]

end Uncharged

/-! Each transaction -/

section Transactions
variable {ι : Type} {B : Set UUID} {db : Db} {ops : ι → Op} {i : ι}

def releaseDiscipline (B : Set UUID) (db : Db) (ops : ι → Op) : Discipline Db RowKey ι where
  inv s := Balanced s.hotel ∧ Elsewhere B db s ∧ Uncharged db s
  guar := (bookingProtocol B).frame
  timing := undisturbed B ops

theorem mem_of_elsewhere {s : Db} {b : Booking} (h : Elsewhere B db s)
    (hb : b ∈ s.bookings.rows) (hid : b.id ∉ B) : b ∈ db.bookings.rows := by
  have hfind := h.bookings b.id hid
  rw [Table.find_of_mem hb] at hfind
  exact (Table.find_eq_some.mp hfind.symm).1

theorem quiet_commits {α : Type} {r : Except Err α} {o : List Db} {L : Set RowKey} {w : Db → Db}
    {A : Db → Prop} (hw : Quiet w) : Commits (releaseDiscipline B db ops) i r o L w A := by
  rintro a - s ⟨hbal, helse, hcharges⟩ - -
  refine ⟨hw.aside.frame s, ?_, helse.trans (hw.aside.frame (L := ∅) s).1,
    hcharges.trans (uncharged_of_eq (hw.charges s))⟩
  rw [hw.hotel]
  exact hbal

/-- A request of the API that reads nothing but its bookings first. -/
theorem api_disciplined (hread : (ops i).readsBefore = 0) (hapi : (ops i).Api)
    (h : OnBookings B ∅ (ops i).prog)
    (hcharges : ∀ s u s', (ops i).prog.exec s = (.ok u, s') → Uncharged s s') :
    Disciplined (releaseDiscipline B db ops) i (ops i).prog := by
  refine Orderly.disciplined rfl h ?_ ?_
  · rintro o s hs ho ⟨hsame, -⟩ t ht
    rw [Op.since, hread, Nat.sub_zero, List.take_length] at hsame
    exact (ho t ht).2.2.sameAccounts hs.2.2 (hsame t ht)
  · rintro o s u s' L ⟨hbal, helse, hdb⟩ - hframe hexec
    refine ⟨?_, helse.trans hframe.1, hdb.trans (hcharges s u s' hexec)⟩
    rcases Op.api_refines hapi hbal.shaped hexec with hsteps | ⟨r, htook⟩
    · exact steps_invariant Balanced.step hbal hsteps
    · exact hbal.take htook.take

theorem audit_disciplined {env : Env} {order : RowOrder} {propertyId : UUID} {todayLocal : ℤ}
    (hop : ops i = .nightAudit env order propertyId todayLocal)
    (hB : ∀ id ∈ overdueConfirmed propertyId todayLocal db, id ∈ B) :
    Disciplined (releaseDiscipline B db ops) i (ops i).prog := by
  rw [hop]
  refine (runs_answer (runs_select_bind (stable_true _) fun s₁ hs₁ _ => ?_)).disciplined
  have hids : ∀ id ∈ order.arrange (overdueConfirmed propertyId todayLocal s₁), id ∈ B := by
    intro id hid
    by_contra hout
    obtain ⟨b, hb, rfl⟩ := List.mem_map.mp ((order.perm _).mem_iff.mp hid)
    obtain ⟨hrow, hdue⟩ := List.mem_filter.mp hb
    refine hout (hB b.id (List.mem_map_of_mem (List.mem_filter.mpr ⟨?_, hdue⟩)))
    exact mem_of_elsewhere hs₁.2.1 hrow hout
  have hsince : ∀ new, (ops i).since (new ++ [s₁]) = new := by
    intro new
    rw [hop]
    exact Op.since_append rfl
  refine ⟨Orderly.commits rfl (onBookings_markNoShows hids) respects_id
    (fun s => (bookingProtocol B).frame_refl _ s) (stable_true _) ?_ ?_⟩
  · rintro new s hs hnew ⟨hsame, -⟩ t ht
    rw [hsince] at hsame
    exact (hnew t ht).2.2.sameAccounts hs.2.2 (hsame t ht)
  · rintro new s n s' L ⟨hbal, helse, hdb⟩ - - hframe hexec
    exact ⟨steps_invariant Balanced.step hbal (markNoShows_steps hbal.shaped hexec),
      helse.trans hframe.1, hdb.trans (uncharged_of_keeps charges_markNoShows hexec)⟩

/-- Where a revision stands after its first `n` reads: it has written its own row only. -/
structure Started (D : Discipline Db RowKey ι) (n : ℕ) {α : Type} (r : Except Err α) (o : List Db)
    (L : Set RowKey) (w : Db → Db) (A : Db → Prop) : Prop where
  quiet : Quiet w
  stable : Stable D L A
  reads : ∀ a, r = .ok a → o.length = n

theorem runs_claimRevisionRow {D : Discipline Db RowKey ι} {env : Env}
    {loaded : Option ChannexBookingRevision} {link : ChannexPropertyLink} {rid : String}
    {payload : ChannexBookingRevisionPayload} :
    Runs D i [] ∅ id (fun _ => True) (Started D 2)
      (claimRevisionRow env loaded link rid payload) := by
  have herror : ∀ {e : Err} {o : List Db} {L : Set RowKey},
      Started D 2 (.error e : Except Err Bool) o L id fun _ => True :=
    fun {_ _ L} => ⟨fun _ => rfl, stable_true L, nofun⟩
  refine runs_raiseIf_bind herror fun _ => runs_raiseIf_bind herror fun _ =>
    runs_select_bind (stable_true _) fun s₁ _ _ =>
    runs_runIf_acquire_bind (stable_true _) fun L _ =>
      runs_select_bind (stable_true _) fun s₂ _ _ => ?_
  split
  · exact runs_raiseIf_bind herror fun _ => runs_modify_bind
      (runs_pure ⟨fun _ => rfl, stable_true L, fun _ _ => rfl⟩)
  · split
    · exact runs_pure ⟨fun _ => rfl, stable_true L, fun _ _ => rfl⟩
    · exact runs_pure ⟨fun _ => rfl, stable_true L, fun _ _ => rfl⟩
    · exact runs_pure ⟨fun _ => rfl, stable_true L, fun _ _ => rfl⟩
    · exact runs_acquire_bind (stable_true L) (runs_modify_bind
        (runs_pure ⟨fun _ => rfl, stable_true _, fun _ _ => rfl⟩))

section Revision
variable {env : Env} {link : ChannexPropertyLink} {payload : ChannexBookingRevisionPayload}
variable {o : List Db} {L : Set RowKey} {w : Db → Db} {A : Db → Prop}

abbrev CommitsFrom (B : Set UUID) (db : Db) (ops : ι → Op) (i : ι) (o : List Db)
    (L : Set RowKey) (w : Db → Db) (A : Db → Prop) (p : Tx ChannexIngestResult) : Prop :=
  Runs (releaseDiscipline B db ops) i o L w A (Commits (releaseDiscipline B db ops) i) p

theorem charges_cancelFound {rev : Revision} {b : Booking} :
    Keeps Db.charges ((cancelFound rev b).tryCatch (handleIngestError rev)) := by
  refine keeps_charges (keeps_tryCatch ?_ fun e => keeps_marks (marks_handleIngestError e))
  unfold cancelFound
  split
  · exact keeps_bind (keeps_counts counts_release) fun _ =>
      keeps_bind (keeps_plain plain_setStatus) fun _ =>
        keeps_bind (keeps_marks marks_updateRevision) fun _ => keeps_pure _
  · exact keeps_bind (keeps_marks marks_updateRevision) fun _ => keeps_pure _

theorem failRevision_commits {rid : String} {e : RevisionError} {r : ChannexIngestResult}
    (hw : Quiet w) :
    CommitsFrom B db ops i o L w A (failRevision rid e >>= fun _ => pure r) :=
  runs_modify_bind (runs_pure (quiet_commits (Quiet.comp (fun _ => rfl) hw)))

/-- A cancelled revision that has been mapped to its room type. -/
theorem applyCancelled_commits {rev : Revision} (hop : ops i = .ingest env link (some payload))
    (hB : ∀ b ∈ db.bookings.rows, b.externalBookingId = some (externalKey payload) → b.id ∈ B)
    (hrev : rev.external = externalKey payload) (hw : Quiet w)
    (hst : Stable (releaseDiscipline B db ops) L A) (ho : o.length = 4) :
    CommitsFrom B db ops i o L w A (applyRevision env .cancelled rev) := by
  refine runs_select_tryCatch hst fun s₁ hs₁ _ => ?_
  rw [findByExternal, hw.bookings]
  split
  · exact ⟨quiet_commits (Quiet.comp (fun _ => rfl) hw)⟩
  · next b hfound =>
    have hb : b ∈ s₁.bookings.rows := List.mem_of_find?_eq_some hfound
    have hext : b.externalBookingId = some (externalKey payload) := by
      rw [← hrev]
      simpa using List.find?_some hfound
    have hbB : b.id ∈ B := by
      by_contra hout
      exact hout (hB b (mem_of_elsewhere hs₁.2.1 hb hout) hext)
    have hsince : ∀ new, (ops i).since (new ++ s₁ :: o) = new ++ [s₁] := by
      intro new
      have happend : Op.since (.ingest env link (some payload)) ((new ++ [s₁]) ++ o) = new ++ [s₁] :=
        Op.since_append ho
      rw [hop, ← happend]
      simp
    refine ⟨Orderly.commits rfl (onBookings_cancelFound hbB) hw.aside.respects hw.aside.frame hst
      ?_ ?_⟩
    · rintro new s hs hnew ⟨hsame, -⟩ t ht
      rw [hsince] at hsame
      exact (hnew t ht).2.2.sameAccounts hs.2.2 (hsame t (List.mem_append_left _ ht))
    · rintro new s r s' L' ⟨hbal, helse, hdb⟩ - ⟨hsame, hshow⟩ hframe hexec
      rw [hsince] at hsame
      have hfind : s.bookings.find b.id = some b := by
        rw [hsame s₁ (by simp) b.id hbB]
        exact Table.find_of_mem hb
      rw [hop] at hshow
      have hcharges := (uncharged_of_eq (hw.charges s)).trans
        (uncharged_of_keeps charges_cancelFound hexec)
      refine ⟨exec_cancelFound_balanced ?_ ?_ ?_ hexec, helse.trans hframe.1, hdb.trans hcharges⟩
      · rw [hw.hotel]
        exact hbal
      · rw [hw.bookings]
        exact hfind
      · exact hshow b (Table.find_eq_some.mp hfind).1 hext

theorem ingestClaimed_commits (hop : ops i = .ingest env link (some payload))
    (hkind : revisionKind payload = .cancelled)
    (hB : ∀ b ∈ db.bookings.rows, b.externalBookingId = some (externalKey payload) → b.id ∈ B)
    (hw : Quiet w) (hst : Stable (releaseDiscipline B db ops) L A) (ho : o.length = 2) :
    CommitsFrom B db ops i o L w A (ingestClaimed env link payload) := by
  unfold ingestClaimed
  split
  · exact failRevision_commits hw
  · rw [resolveRoomAndRateMaps, bind_assoc]
    refine runs_select_bind hst fun s₁ _ _ => ?_
    split
    · exact failRevision_commits hw
    · rw [bind_assoc]
      refine runs_select_bind hst fun s₂ _ _ => ?_
      rw [pure_bind]
      split
      · exact failRevision_commits hw
      · refine ingestMapped_rule (fun _ _ _ => failRevision_commits hw)
          (fun _ => runs_raise (commits_error _)) fun rev hrev => ?_
        rw [hkind]
        exact applyCancelled_commits hop hB hrev hw hst (by simp [ho])

theorem cancelled_disciplined (hop : ops i = .ingest env link (some payload))
    (hkind : revisionKind payload = .cancelled)
    (hB : ∀ b ∈ db.bookings.rows, b.externalBookingId = some (externalKey payload) → b.id ∈ B) :
    Disciplined (releaseDiscipline B db ops) i (ops i).prog := by
  have hingest : CommitsFrom B db ops i [] ∅ id (fun _ => True)
      (ingestChannexBooking env link (some payload)) := by
    unfold ingestChannexBooking ingestInSession
    simp only
    split
    · exact runs_pure (quiet_commits fun _ => rfl)
    · refine runs_bind runs_claimRevisionRow (fun e _ _ _ _ _ => commits_error e) ?_
      rintro claimed o L w A ⟨hw, hst, hreads⟩
      split
      · exact runs_pure (quiet_commits hw)
      · exact ingestClaimed_commits hop hkind hB hw hst (hreads claimed rfl)
  rw [hop]
  exact (runs_answer hingest).disciplined

end Revision

theorem Op.Releases.disciplined (h : (ops i).Releases B db) :
    Disciplined (releaseDiscipline B db ops) i (ops i).prog := by
  generalize hop : ops i = op at h
  cases h with
  | patch env body hbid =>
    rw [← hop]
    refine api_disciplined (by rw [hop]; rfl) (by rw [hop]; trivial) ?_ ?_
    · rw [hop]
      exact onBookings_patch hbid
    · intro s u s' h
      rw [hop] at h
      exact uncharged_of_keeps (keeps_bind charges_patchBooking fun _ => keeps_pure _) h
  | delete hbid =>
    rw [← hop]
    refine api_disciplined (by rw [hop]; rfl) (by rw [hop]; trivial) ?_ ?_
    · rw [hop]
      exact orderly_bind (onBookings_delete hbid) fun _ => orderly_pure _
    · intro s u s' h
      rw [hop] at h
      obtain ⟨_, hexec⟩ := exec_discard h
      exact uncharged_delete hexec
  | audit env order propertyId todayLocal hB =>
    rw [← hop]
    exact audit_disciplined hop hB
  | cancelled env link payload hkind hB =>
    rw [← hop]
    exact cancelled_disciplined hop hkind hB

end Transactions

/-- Any number of releases of the bookings `B`, in any interleaving in which every commit
finds these bookings as its transaction has selected them: each counter stays the number
of active lines of its room type and day. -/
theorem releases_keep_ledger {ι : Type} [DecidableEq ι] {B : Set UUID} {db : Db} {ops : ι → Op}
    (hdb : Balanced db.hotel) (hops : ∀ i, (ops i).Releases B db)
    {c : Config Db RowKey Err Unit ι}
    (hc : Config.Reach (undisturbed B ops) (Config.start db fun i => (ops i).prog) c) :
    ∀ rt d n, c.db.ledger.row rt d = some n → n.bookedRooms = c.db.hotel.activeCount rt d :=
  (inv_of_reach (D := releaseDiscipline B db ops) ⟨hdb, elsewhere_refl, uncharged_of_eq rfl⟩
    (fun i => (hops i).disciplined) hc).1.ledgerEq

/-! Two requests for one of two bookings of a night -/

instance {bid : UUID} {s s' : Db} : Decidable (SameBookings {bid} s s') :=
  decidable_of_iff (s'.bookings.find bid = s.bookings.find bid) (by simp [SameBookings])

instance (op : Op) (db : Db) : Decidable (op.FindsNoNoShow db) := by
  unfold Op.FindsNoNoShow
  split <;> infer_instance

instance {ι : Type} {bid : UUID} {ops : ι → Op} (i : ι) (o : List Db) (s : Db) :
    Decidable ((undisturbed {bid} ops).commit i o s) :=
  inferInstanceAs (Decidable (_ ∧ _))

instance {ι : Type} {bid : UUID} {ops : ι → Op} (i : ι) (o : List Db) (s : Db) :
    Decidable ((undisturbed {bid} ops).lock i o s) :=
  inferInstanceAs (Decidable True)

namespace Demo

def cancel (bid : UUID) : Op := .patchBooking (env 0 0 0) bid { status := some (some "cancelled") }

def cancelThenDelete (i : Bool) : Op := if i then .deleteBooking 1000 else cancel 1000

def cancelTwice (_ : Bool) : Op := cancel 1000

/-- The deletion selects the booking after the cancellation has committed. -/
def oneAfterTheOther : List (Event Bool) :=
  List.replicate 9 (.step false) ++ List.replicate 6 (.step true)

/-- Both select the booking first. -/
def bothSelected : List (Event Bool) :=
  .step false :: (List.replicate 9 (.step true) ++ List.replicate 8 (.step false))

theorem cancelThenDelete_releases (i : Bool) : (cancelThenDelete i).Releases {1000} sold := by
  cases i with
  | false => exact .patch _ _ rfl
  | true => exact .delete rfl

end Demo

theorem releases_keep_ledger_demo :
    ∃ c, (Config.start Demo.sold fun i => (Demo.cancelThenDelete i).prog).runIn
        (undisturbed {1000} Demo.cancelThenDelete) Demo.oneAfterTheOther = some c ∧
      c.db.ledger.row 10 3 = some ⟨2, 1, 0⟩ ∧
      ∀ rt d n, c.db.ledger.row rt d = some n → n.bookedRooms = c.db.hotel.activeCount rt d := by
  have hrow : ((Config.start Demo.sold fun i => (Demo.cancelThenDelete i).prog).runIn
      (undisturbed {1000} Demo.cancelThenDelete) Demo.oneAfterTheOther).map
        (fun c => c.db.ledger.row 10 3) = some (some ⟨2, 1, 0⟩) := by
    decide +kernel
  obtain ⟨c, hrun, hc⟩ := Option.map_eq_some_iff.mp hrow
  exact ⟨c, hrun, hc, releases_keep_ledger Demo.balanced_sold Demo.cancelThenDelete_releases
    (Config.reach_of_runIn hrun)⟩

/-- A double click: the night of booking 1001 is given back with that of booking 1000. -/
theorem cancelled_twice :
    Balanced Demo.sold.hotel ∧ (∀ i, (Demo.cancelTwice i).Releases {1000} Demo.sold) ∧
    ∃ c : Config Db RowKey Err Unit Bool,
      Config.Reach .any (Config.start Demo.sold fun i => (Demo.cancelTwice i).prog) c ∧
      c.db.ledger.row 10 3 = some ⟨2, 0, 0⟩ ∧ c.db.hotel.activeCount 10 3 = 1 := by
  refine ⟨Demo.balanced_sold, fun _ => .patch _ _ rfl, ?_⟩
  have hrow : ((Config.start Demo.sold fun i => (Demo.cancelTwice i).prog).run
      Demo.bothSelected).map (fun c => (c.db.ledger.row 10 3, c.db.hotel.activeCount 10 3)) =
        some (some ⟨2, 0, 0⟩, 1) := by
    decide +kernel
  obtain ⟨c, hrun, hc⟩ := Option.map_eq_some_iff.mp hrow
  obtain ⟨hledger, hcount⟩ := Prod.mk.inj hc
  exact ⟨c, Config.reach_of_run hrun, hledger, hcount⟩

end OpenPms
