import OpenPms.MigrationServer
import OpenPms.MigrationWrites

/-!
A server that is reached through requests that may fail. The client does not know what
became of a failed request and sends it again, and the attempt that it has given up may take
effect at any time after. The server serves one request after another.
-/
namespace OpenPms.Migration

open Transaction Prog KeyedTable

variable {σ τ : Type}

/-! Failing requests -/

/-- The status does not say what became of the request. -/
def Failing : Option ℕ → Prop
  | none => True
  | some code => code = 429 ∨ 500 ≤ code

instance : DecidablePred Failing := fun status => by
  cases status <;> unfold Failing <;> infer_instance

/-- Requests that are not critical are served one after another: attempts that were given up,
and what others send. -/
inductive Drifts (server : Api τ) (critical : Request → Prop) (t : τ) : τ → Prop
  | refl : Drifts server critical t t
  | served {t' : τ} {q : Request} (h : Drifts server critical t t') (hq : ¬ critical q) :
      Drifts server critical t (server q t').2

/-- Each attempt is served, or it fails. A critical one that fails has no effect; any other
may have one, then or later. -/
structure Faulty (server : Api τ) (critical : Request → Prop) (view : σ → τ) (api : Api σ) :
    Prop where
  attempt : ∀ q s,
    (∃ t, Drifts server critical (view s) t ∧ (api q s).1 = (server q t).1 ∧
      Drifts server critical (server q t).2 (view (api q s).2)) ∨
    (Failing (api q s).1.status ∧ Drifts server critical (view s) (view (api q s).2))

/-- What a call makes of an answer. -/
def Reply.body {β : Type} (reply : Reply β) : Except Exn β :=
  match reply.result with
  | .ok (some answer) => .ok answer
  | .ok none => .error .malformed
  | .error e => .error e

/-- A request that is not accepted changes nothing. -/
def Orderly (server : Api τ) : Prop :=
  ∀ q t e, (server q t).1.body = .error e → (server q t).2 = t

theorem body_of_error {β : Type} {reply : Reply β} {e : Exn} (h : reply.result = .error e) :
    reply.body = .error e := by
  unfold Reply.body
  rw [h]

theorem error_of_failing {β : Type} {reply : Reply β} (h : Failing reply.status) :
    ∃ e, reply.result = .error e := by
  cases reply with
  | transportError => exact ⟨.transport, rfl⟩
  | otherError => exact ⟨.request, rfl⟩
  | response code text json =>
    rcases h with rfl | hcode
    · exact ⟨.rateLimit, rfl⟩
    · refine ⟨.httpStatus code, ?_⟩
      simp only [Reply.result]
      rw [if_neg (by omega), if_neg (by omega), if_neg (by omega), if_neg (by omega)]

/-- An answer is no reason to send the request again. -/
theorem not_retryable {β : Type} {reply : Reply β} {e : Exn} (h : ¬ Failing reply.status)
    (herror : reply.result = .error e) : e.isRetryable = false := by
  cases reply with
  | transportError => exact absurd trivial h
  | otherError => exact absurd trivial h
  | response code text json =>
    have hcode : code ≠ 429 ∧ code < 500 := by
      constructor
      · exact fun heq => h (.inl heq)
      · exact lt_of_not_ge fun hge => h (.inr hge)
    simp only [Reply.result, if_neg hcode.1] at herror
    split at herror
    · cases herror
      rfl
    · split at herror
      · cases herror
        rfl
      · split at herror
        · cases herror
        · cases herror
          exact decide_eq_false (by omega)

section Drifts
variable {server : Api τ} {critical : Request → Prop} {s t u : τ}

theorem Drifts.trans (h : Drifts server critical s t) (h' : Drifts server critical t u) :
    Drifts server critical s u := by
  induction h' with
  | refl => exact h
  | served _ hq ih => exact ih.served hq

/-- What each of the requests keeps, all of them keep. -/
theorem Drifts.keeps (h : Drifts server critical s t) {Q : τ → τ → Prop} (hrefl : ∀ t, Q t t)
    (htrans : ∀ a b c, Q a b → Q b c → Q a c)
    (hserver : ∀ q, ¬ critical q → ∀ t, Q t (server q t).2) : Q s t := by
  induction h with
  | refl => exact hrefl s
  | served _ hq ih => exact htrans _ _ _ ih (hserver _ hq _)

/-- The request was served, once and among others. -/
def Answered (server : Api τ) (critical : Request → Prop) (q : Request) (s : τ)
    (reply : Reply (Answer q)) (t : τ) : Prop :=
  ∃ u, Drifts server critical s u ∧ reply = (server q u).1 ∧
    Drifts server critical (server q u).2 t

/-- An answer that is an error says that nothing was done. -/
theorem Answered.drifts_of_error (ho : Orderly server) {q : Request} {reply : Reply (Answer q)}
    {e : Exn} (h : Answered server critical q s reply t) (herror : reply.body = .error e) :
    Drifts server critical s t := by
  obtain ⟨u, hu, rfl, ht⟩ := h
  rw [ho q u e herror] at ht
  exact hu.trans ht

theorem Answered.after {q : Request} {reply : Reply (Answer q)}
    (hs : Drifts server critical s t) (h : Answered server critical q t reply u) :
    Answered server critical q s reply u := by
  obtain ⟨v, hv, hreply, hu⟩ := h
  exact ⟨v, hs.trans hv, hreply, hu⟩

end Drifts

/-! Attempts -/

section Attempts
variable {server : Api τ} {critical : Request → Prop} {view : σ → τ} {api : Api σ} {q : Request}

/-- While a request is sent, it has been served once or not at all. -/
def Underway (server : Api τ) (critical : Request → Prop) (q : Request) (s t : τ) : Prop :=
  Drifts server critical s t ∨ ∃ reply, Answered server critical q s reply t

variable (ho : Orderly server) (hf : Faulty server critical view api)
include ho hf

/-- One more attempt. -/
theorem passes_attempt {E : Exn → World σ → Prop} {w w₁ : World σ}
    (hw : Drifts server critical (view w.server) (view w₁.server)) :
    (send api q).Passes (fun w' => Underway server critical q (view w.server) (view w'.server))
      (fun reply w' => Drifts server critical (view w.server) (view w'.server) ∧
          (∃ e, reply.result = .error e) ∨
        Answered server critical q (view w.server) reply (view w'.server) ∧
          ¬ Failing reply.status) E w₁ := by
  have houtcome : Drifts server critical (view w.server) (view (api q w₁.server).2) ∧
        (∃ e, (api q w₁.server).1.result = .error e) ∨
      Answered server critical q (view w.server) (api q w₁.server).1
        (view (api q w₁.server).2) ∧ ¬ Failing (api q w₁.server).1.status := by
    rcases hf.attempt q w₁.server with hserved | ⟨hstatus, hdrifts⟩
    · have hanswered : Answered server critical q (view w.server) (api q w₁.server).1
          (view (api q w₁.server).2) := Answered.after hw hserved
      by_cases hstatus : Failing (api q w₁.server).1.status
      · -- a refusal of the server itself
        obtain ⟨e, herror⟩ := error_of_failing hstatus
        exact .inl ⟨hanswered.drifts_of_error ho (body_of_error herror), e, herror⟩
      · exact .inr ⟨hanswered, hstatus⟩
    · exact .inl ⟨hw.trans hdrifts, error_of_failing hstatus⟩
  refine passes_read (passes_write (.inl hw) (passes_pure ?_ houtcome))
  rcases houtcome with ⟨hdrifts, -⟩ | ⟨hanswered, -⟩
  · exact .inl hdrifts
  · exact .inr ⟨_, hanswered⟩

/-- An answer ends the attempts. -/
theorem passes_retries {w w₁ : World σ} (n : ℕ)
    (hw : Drifts server critical (view w.server) (view w₁.server)) :
    (attempts api q n).Passes
      (fun w' => Underway server critical q (view w.server) (view w'.server))
      (fun json w' => ∃ reply, Answered server critical q (view w.server) reply (view w'.server) ∧
        reply.result = .ok json)
      (fun _ w' => Drifts server critical (view w.server) (view w'.server)) w₁ := by
  induction n generalizing w₁ with
  | zero =>
    refine (passes_attempt ho hf hw).bind fun reply w' hw' hreply => ?_
    rcases hreply with ⟨hdrifts, e, herror⟩ | ⟨hanswered, -⟩
    · rw [herror]
      exact passes_raise hw' hdrifts
    · cases hresult : reply.result with
      | ok json => exact passes_pure hw' ⟨reply, hanswered, hresult⟩
      | error e =>
        exact passes_raise hw' (hanswered.drifts_of_error ho (body_of_error hresult))
  | succ n ih =>
    refine (passes_attempt ho hf hw).bind fun reply w' hw' hreply => ?_
    rcases hreply with ⟨hdrifts, e, herror⟩ | ⟨hanswered, hstatus⟩
    · rw [herror]
      simp only
      split
      · exact ih hdrifts
      · exact passes_raise hw' hdrifts
    · cases hresult : reply.result with
      | ok json => exact passes_pure hw' ⟨reply, hanswered, hresult⟩
      | error e =>
        simp only
        rw [if_neg (by rw [not_retryable hstatus hresult]; exact Bool.false_ne_true)]
        exact passes_raise hw' (hanswered.drifts_of_error ho (body_of_error hresult))

/-- A call that returns was served once, and one that raises not at all. -/
theorem passes_served (w : World σ) :
    (call api q).Passes (fun w' => Underway server critical q (view w.server) (view w'.server))
      (fun a w' => ∃ t, Drifts server critical (view w.server) t ∧ (server q t).1.body = .ok a ∧
        Drifts server critical (server q t).2 (view w'.server))
      (fun _ w' => Drifts server critical (view w.server) (view w'.server)) w := by
  refine (passes_retries ho hf 4 .refl).bind fun json w' hw' h => ?_
  obtain ⟨reply, hanswered, hresult⟩ := h
  cases json with
  | some a =>
    obtain ⟨t, ht, rfl, hdrifts⟩ := hanswered
    exact passes_pure hw' ⟨t, ht, by rw [Reply.body, hresult], hdrifts⟩
  | none =>
    have hbody : reply.body = .error .malformed := by rw [Reply.body, hresult]
    exact passes_raise hw' (hanswered.drifts_of_error ho hbody)

end Attempts

/-! Statements that send nothing -/

/-- The program leaves the server alone and raises nothing. -/
def Local {α : Type} (prog : Cli σ α) : Prop :=
  ∀ w, prog.Passes (fun w' => w'.server = w.server) (fun _ w' => w'.server = w.server)
    (fun _ _ => False) w

theorem local_pure {α : Type} (a : α) : Local (pure a : Cli σ α) := fun _ => passes_pure rfl rfl

theorem local_select {α : Type} (f : World σ → α) : Local (select f : Cli σ α) :=
  fun _ => passes_select rfl rfl

theorem local_modify {f : World σ → World σ} (hf : ∀ w, (f w).server = w.server) :
    Local (modify f : Cli σ Unit) := fun w => passes_modify rfl (hf w) (hf w)

theorem Local.bind {α β : Type} {prog : Cli σ α} {next : α → Cli σ β} (h : Local prog)
    (hnext : ∀ a, Local (next a)) : Local (prog >>= next) := by
  intro w
  refine (h w).bind fun a w' _ hw' => ?_
  exact (hnext a w').mono (fun _ h => h.trans hw') (fun _ _ _ h => h.trans hw') fun _ _ _ h => h

theorem local_count (g : Stage) (f : StageStats → StageStats) :
    Local (MigrationPipeline.count g f : Cli σ Unit) := local_modify fun _ => rfl

theorem local_store (p : MigrationPipeline σ) (f : String → StateStore → StateStore) :
    Local (p.store f) := by
  unfold MigrationPipeline.store
  split
  · exact local_pure ()
  · exact local_modify fun _ => rfl

/-! The endpoints -/

theorem body_success {β : Type} (answer : β) : (success answer).body = .ok answer := rfl

theorem body_refusal {β : Type} {code : ℕ} : ∃ e, (refusal code : Reply β).body = .error e := by
  cases hresult : (refusal code : Reply β).result with
  | error e => exact ⟨e, body_of_error hresult⟩
  | ok json =>
    obtain ⟨code', text, heq, -⟩ := Reply.result_ok hresult
    obtain ⟨-, -, rfl⟩ := Reply.response.inj heq
    refine ⟨.malformed, ?_⟩
    unfold Reply.body
    rw [hresult]

theorem refusal_ne_ok {β : Type} {code : ℕ} {b : β} : (refusal code).body ≠ .ok b := by
  obtain ⟨e, he⟩ := @body_refusal β code
  rw [he]
  exact fun h => by cases h

section Transactions
variable {α β : Type} {t : Tenant} {tx : Tx α} {status : Err → ℕ}
  {commit : α → Tenant → Reply β × Tenant}

theorem transaction_ok {a : α} {core : Db} (h : tx.exec t.db.toDb = (.ok a, core)) :
    transaction t tx status commit = commit a (t.setCore core) := by
  unfold transaction
  rw [h]

theorem transaction_error {e : Err} {core : Db} (h : tx.exec t.db.toDb = (.error e, core)) :
    transaction t tx status commit = (refusal (status e), t) := by
  unfold transaction
  rw [h]

/-- A transaction that is not committed changes nothing. -/
theorem transaction_refused (hcommit : ∀ a t, ∃ b, (commit a t).1 = success b) {e : Exn}
    (h : (transaction t tx status commit).1.body = .error e) :
    (transaction t tx status commit).2 = t := by
  rcases hexec : tx.exec t.db.toDb with ⟨e' | a, core⟩
  · rw [transaction_error hexec]
  · rw [transaction_ok hexec] at h
    obtain ⟨b, hb⟩ := hcommit a (t.setCore core)
    rw [hb, body_success] at h
    cases h

/-- What remains of an accepted transaction. -/
theorem transaction_accepted {b : β}
    (h : (transaction t tx status commit).1.body = .ok b) :
    ∃ a core, tx.exec t.db.toDb = (.ok a, core) ∧
      transaction t tx status commit = commit a (t.setCore core) := by
  rcases hexec : tx.exec t.db.toDb with ⟨e' | a, core⟩
  · rw [transaction_error hexec] at h
    exact absurd h refusal_ne_ok
  · exact ⟨a, core, rfl, transaction_ok hexec⟩

end Transactions

section Endpoints
variable {draws : Draws}

/-- The modelled server changes nothing when it refuses. -/
theorem orderly_openPms (draws : Draws) : Orderly (openPms draws) := by
  intro q t e h
  cases q with
  | listRoomTypes | listRatePlans | listGuests | listBookings | listBookingsWindow => rfl
  | createRoomType propertyId rt =>
    simp only [openPms, createRoomType] at h ⊢
    split
    · next hvalid =>
      rw [dif_pos hvalid] at h
      exact transaction_refused (fun a t => ⟨a.id, rfl⟩) h
    · rfl
  | bulkCreateRooms rt rooms =>
    simp only [openPms, bulkCreateRooms] at h ⊢
    split
    · next hvalid =>
      rw [if_pos hvalid] at h
      exact transaction_refused (fun a t => ⟨_, rfl⟩) h
    · rfl
  | createRatePlan propertyId name policy =>
    simp only [openPms, createRatePlan] at h ⊢
    split
    · rfl
    · next hvalid =>
      rw [if_neg hvalid] at h
      split
      · rfl
      · next hproperty =>
        rw [if_neg hproperty] at h
        split
        · rfl
        · next hclash =>
          rw [if_neg hclash, body_success] at h
          cases h
  | bulkPutRates rt rp start stop price =>
    simp only [openPms, bulkPutRates] at h ⊢
    split
    · next hvalid =>
      rw [dif_pos hvalid] at h
      split
      · next hupsert =>
        rw [hupsert] at h
        cases h
      · rfl
    · rfl
  | seedAvailability rt start stop =>
    simp only [openPms, seedAvailability] at h ⊢
    split
    · next hvalid =>
      rw [dif_pos hvalid] at h
      exact transaction_refused (fun a t => ⟨a, rfl⟩) h
    · rfl
  | createGuest body =>
    simp only [openPms, createGuest] at h ⊢
    split
    · next hvalid =>
      rw [if_pos hvalid] at h
      split
      · rfl
      · next hnationality =>
        simp only [hnationality] at h
        split
        · rfl
        · next hclash =>
          rw [if_neg hclash] at h
          cases h
    · rfl
  | patchGuest id body =>
    simp only [openPms, patchGuest] at h ⊢
    split
    · rfl
    · next hnationality =>
      simp only [hnationality] at h
      split
      · rfl
      · next hphone =>
        rw [if_neg hphone] at h
        split
        · rfl
        · next hfind =>
          rw [hfind] at h
          cases h
  | createBooking body =>
    simp only [openPms, postBooking] at h ⊢
    split
    · next hvalid =>
      rw [dif_pos hvalid] at h
      exact transaction_refused (fun a t => ⟨some a.bookingId, rfl⟩) h
    · rfl
  | patchBooking id status => exact transaction_refused (fun a t => ⟨(), rfl⟩) h

end Endpoints

end OpenPms.Migration
