import OpenPms.MigrationReruns
import OpenPms.MigrationStays

/-!
The statuses of migrated bookings when answers get lost. A request whose answer is lost
has taken effect and is sent again. The second POST of a booking is answered with 409, and
then only the update mode still sets the status; no single PATCH takes a confirmed booking
to checked_out.
-/
namespace OpenPms.Migration

open Transaction Prog KeyedTable

variable {σ τ : Type}

/-! Lost answers -/

/-- Every attempt takes effect. The client gets the answer of the server, or, where that is
lost, an error after which it sends the request again. -/
structure LosesAnswers (server : Api τ) (view : σ → τ) (api : Api σ) : Prop where
  state : ∀ q s, view (api q s).2 = (server q (view s)).2
  answer : ∀ q s, (api q s).1 = (server q (view s)).1 ∨
    ∃ e, (api q s).1.result = .error e ∧ e.isRetryable = true

/-- A program is followed to its end only. -/
abbrev Ends {α : Type} (prog : Cli σ α) (Q : α → World σ → Prop) (E : Exn → World σ → Prop)
    (w : World σ) : Prop := prog.Passes (fun _ => True) Q E w

theorem ends_always {α : Type} (prog : Cli σ α) (w : World σ) :
    Ends prog (fun _ _ => True) (fun _ _ => True) w := by
  induction prog generalizing w with
  | ret a => exact passes_pure trivial trivial
  | raise e => exact passes_raise trivial trivial
  | read k ih => exact passes_read (ih _ w)
  | lock r k ih => exact r.elim
  | write f k ih => exact passes_write trivial (ih _)

/-- The request was sent, and nothing else happened. -/
structure Sent (q : Request) (w w' : World σ) : Prop where
  store : w'.store = w.store
  report : w'.report = w.report
  log : w.log <:+ w'.log
  new : ∀ e ∈ w'.log, e ∈ w.log ∨ e.request = q

/-- No attempt was answered with 409. -/
def Unopposed (w w' : World σ) : Prop := ∀ e ∈ w'.log, e ∈ w.log ∨ e.status ≠ some 409

theorem Sent.trans {q : Request} {w w' w'' : World σ} (h : Sent q w w') (h' : Sent q w' w'') :
    Sent q w w'' :=
  ⟨h'.store.trans h.store, h'.report.trans h.report, h.log.trans h'.log,
    fun e he => (h'.new e he).elim (h.new e) .inr⟩

theorem Unopposed.trans {w w' w'' : World σ} (h : Unopposed w w') (h' : Unopposed w' w'') :
    Unopposed w w'' := fun e he => (h' e he).elim (h e) .inr

/-- Only the POST of a booking is refused with 409. -/
theorem Sent.refused {q : Request} {w w' : World σ} (h : Sent q w w') {ext : String}
    (hq : ∀ body, q = .createBooking body → body.externalBookingId ≠ ext)
    (hrefused : Refused w'.log ext) : Refused w.log ext := by
  obtain ⟨body, hbody, hmem⟩ := hrefused
  rcases h.new _ hmem with hold | hnew
  · exact ⟨body, hbody, hold⟩
  · exact absurd hbody (hq body hnew.symm)

theorem Unopposed.refused {w w' : World σ} (h : Unopposed w w') {ext : String}
    (hrefused : Refused w'.log ext) : Refused w.log ext := by
  obtain ⟨body, hbody, hmem⟩ := hrefused
  exact ⟨body, hbody, (h _ hmem).resolve_right fun hne => hne rfl⟩

/-- An answer with 409 is not asked for again. -/
theorem status_ne_conflict {β : Type} {reply : Reply β}
    (h : (∃ json, reply.result = .ok json) ∨
      ∃ e, reply.result = .error e ∧ e.isRetryable = true) : reply.status ≠ some 409 := by
  cases reply with
  | transportError | otherError => exact fun heq => by cases heq
  | response code text json =>
    intro heq
    obtain rfl : code = 409 := Option.some.inj heq
    have hresult : (Reply.response 409 text json).result = .error (.conflict text) := rfl
    rw [hresult] at h
    rcases h with ⟨_, hok⟩ | ⟨e, herror, hretryable⟩
    · cases hok
    · cases herror
      cases hretryable

section Lost
variable {server : Api τ} {view : σ → τ} {api : Api σ} {q : Request} {w : World σ} {P : τ → Prop}

/-- The request was sent last in a state that `P` allows. -/
def Landed (server : Api τ) (view : σ → τ) (P : τ → Prop) (q : Request) (w' : World σ)
    (answered : τ → Prop) : Prop :=
  ∃ t, P t ∧ view w'.server = (server q t).2 ∧ answered t

theorem Landed.mono {w' : World σ} {A A' : τ → Prop} (h : Landed server view P q w' A)
    (hA : ∀ t, A t → A' t) : Landed server view P q w' A' := by
  obtain ⟨t, hP, hview, hanswered⟩ := h
  exact ⟨t, hP, hview, hA t hanswered⟩

/-- The reply is the answer of the server, or in place of a lost one. -/
def Arrived (server : Api τ) (q : Request) (reply : Reply (Answer q)) (t : τ) : Prop :=
  reply = (server q t).1 ∨ ∃ e, reply.result = .error e ∧ e.isRetryable = true

/-- The exception comes from the answer, or the answer was lost. -/
def Excused (server : Api τ) (q : Request) (e : Exn) (w' : World σ) (t : τ) : Prop :=
  (server q t).1.body = .error e ∧ ConflictLogged q e w' ∨ e.isRetryable = true

theorem Arrived.excused {reply : Reply (Answer q)} {e : Exn} {w' : World σ} {t : τ}
    (h : Arrived server q reply t) (herror : reply.result = .error e)
    (hmem : (⟨q, reply.status⟩ : Exchange) ∈ w'.log) : Excused server q e w' t := by
  rcases h with rfl | ⟨e', he', hretryable⟩
  · refine .inl ⟨body_of_error herror, fun text htext => ?_⟩
    subst htext
    rwa [Reply.result_conflict herror] at hmem
  · obtain rfl : e = e' := Except.error.inj (herror.symm.trans he')
    exact .inr hretryable

theorem Arrived.served {reply : Reply (Answer q)} {json : Option (Answer q)} {t : τ}
    (h : Arrived server q reply t) (hok : reply.result = .ok json) :
    (server q t).1.result = .ok json := by
  rcases h with rfl | ⟨e, he, -⟩
  · exact hok
  · cases hok.symm.trans he

/-- The next attempt finds a state that `P` allows. -/
theorem Landed.next (hnext : ∀ t, P t → P (server q t).2)
    {w' : World σ} {A : τ → Prop} (hlanded : Landed server view P q w' A) :
    P (view w'.server) := by
  obtain ⟨t, hP, hview, -⟩ := hlanded
  rw [hview]
  exact hnext t hP

variable (h : LosesAnswers server view api)
include h

/-- One attempt. -/
theorem ends_send {E : Exn → World σ → Prop} (hP : P (view w.server)) :
    Ends (send api q) (fun reply w' => Sent q w w' ∧ w'.log = ⟨q, reply.status⟩ :: w.log ∧
      Landed server view P q w' (Arrived server q reply)) E w := by
  refine passes_read (passes_write trivial (passes_pure trivial ⟨⟨rfl, rfl,
    List.suffix_cons _ _, fun e he => ?_⟩, rfl, view w.server, hP, h.state q w.server,
    h.answer q w.server⟩))
  rcases List.mem_cons.mp he with rfl | hold
  · exact .inr rfl
  · exact .inl hold

variable (hnext : ∀ t, P t → P (server q t).2)
include hnext

theorem ends_attempts (n : ℕ) (hP : P (view w.server)) :
    Ends (attempts api q n)
      (fun json w' => (Sent q w w' ∧ Unopposed w w') ∧ Landed server view P q w' fun t =>
        (server q t).1.result = .ok json)
      (fun e w' => Sent q w w' ∧ Landed server view P q w' (Excused server q e w')) w := by
  have hunopposed : ∀ {reply : Reply (Answer q)} {w₀ w' : World σ},
      w'.log = ⟨q, reply.status⟩ :: w₀.log → ((∃ json, reply.result = .ok json) ∨
        ∃ e, reply.result = .error e ∧ e.isRetryable = true) → Unopposed w₀ w' := by
    intro reply w₀ w' hlog hreply e he
    rw [hlog] at he
    rcases List.mem_cons.mp he with rfl | hold
    · exact .inr (status_ne_conflict hreply)
    · exact .inl hold
  induction n generalizing w with
  | zero =>
    refine (ends_send h hP).bind fun reply w' _ ⟨hsent, hlog, hlanded⟩ => ?_
    cases hresult : reply.result with
    | ok json =>
      exact passes_pure trivial ⟨⟨hsent, hunopposed hlog (.inl ⟨json, hresult⟩)⟩,
        hlanded.mono fun t ha => ha.served hresult⟩
    | error e =>
      have hmem : (⟨q, reply.status⟩ : Exchange) ∈ w'.log := hlog ▸ List.mem_cons_self ..
      exact passes_raise trivial ⟨hsent, hlanded.mono fun t ha => ha.excused hresult hmem⟩
  | succ n ih =>
    refine (ends_send h hP).bind fun reply w' _ ⟨hsent, hlog, hlanded⟩ => ?_
    cases hresult : reply.result with
    | ok json =>
      exact passes_pure trivial ⟨⟨hsent, hunopposed hlog (.inl ⟨json, hresult⟩)⟩,
        hlanded.mono fun t ha => ha.served hresult⟩
    | error e =>
      simp only
      split
      · next hretryable =>
        have hfirst := hunopposed hlog (.inr ⟨e, hresult, hretryable⟩)
        exact (ih (hlanded.next hnext)).mono (fun _ h => h)
          (fun _ _ _ h => ⟨⟨hsent.trans h.1.1, hfirst.trans h.1.2⟩, h.2⟩)
          fun _ _ _ h => ⟨hsent.trans h.1, h.2⟩
      · have hmem : (⟨q, reply.status⟩ : Exchange) ∈ w'.log := hlog ▸ List.mem_cons_self ..
        exact passes_raise trivial ⟨hsent, hlanded.mono fun t ha => ha.excused hresult hmem⟩

theorem ends_call (hP : P (view w.server)) :
    Ends (call api q)
      (fun a w' => (Sent q w w' ∧ Unopposed w w') ∧ Landed server view P q w' fun t =>
        (server q t).1.body = .ok a)
      (fun e w' => Sent q w w' ∧ Landed server view P q w' (Excused server q e w')) w := by
  refine (ends_attempts h hnext 4 hP).bind fun json w' _ ⟨hsent, hlanded⟩ => ?_
  cases json with
  | none =>
    refine passes_raise trivial ⟨hsent.1, hlanded.mono fun t hok => .inl ⟨?_, fun text he => ?_⟩⟩
    · unfold Reply.body
      rw [hok]
    · cases he
  | some a =>
    refine passes_pure trivial ⟨hsent, hlanded.mono fun t hok => ?_⟩
    unfold Reply.body
    rw [hok]

end Lost

/-- What is read is what the server has. -/
theorem ends_read {server : Api τ} {view : σ → τ} {api : Api σ}
    (h : LosesAnswers server view api) {q : Request} (hq : ∀ t, (server q t).2 = t)
    (w : World σ) :
    Ends (call api q)
      (fun a w' => Sent q w w' ∧ view w'.server = view w.server ∧
        (server q (view w.server)).1.body = .ok a)
      (fun _ w' => Sent q w w' ∧ view w'.server = view w.server) w := by
  refine (ends_call (P := (· = view w.server)) h ?_ rfl).mono (fun _ h => h) ?_ ?_
  · rintro t rfl
    exact hq _
  · rintro a w' - ⟨⟨hsent, -⟩, t, rfl, hview, hok⟩
    exact ⟨hsent, hview.trans (hq _), hok⟩
  · rintro e w' - ⟨hsent, t, rfl, hview, -⟩
    exact ⟨hsent, hview.trans (hq _)⟩

/-! The turn of one booking -/

/-- Only the report was written, and what the state file has of the booking. -/
structure Recording (ext : String) (w w' : World σ) : Prop where
  server : w'.server = w.server
  log : w'.log = w.log
  errors : w.report.errors <+: w'.report.errors
  processed : ∀ run other, other ≠ ext →
    w'.store.processed run .booking other = w.store.processed run .booking other

/-- What the turn of a booking leaves as it is. -/
structure Turn (view : σ → Tenant) (ext : String) (w w' : World σ) : Prop where
  besides : Besides ext (view w.server) (view w'.server)
  log : w.log <:+ w'.log
  refused : ∀ other, other ≠ ext → Refused w'.log other → Refused w.log other
  errors : w.report.errors <+: w'.report.errors
  processed : ∀ run other, other ≠ ext →
    w'.store.processed run .booking other = w.store.processed run .booking other

section Turns
variable {view : σ → Tenant} {ext : String} {w w' w'' : World σ}

theorem Turn.refl (w : World σ) : Turn view ext w w :=
  ⟨.refl .., List.suffix_refl _, fun _ _ h => h, List.prefix_rfl, fun _ _ _ => rfl⟩

theorem Turn.trans (h : Turn view ext w w') (h' : Turn view ext w' w'') :
    Turn view ext w w'' where
  besides := h.besides.trans h'.besides
  log := h.log.trans h'.log
  refused other hne hrefused := h.refused other hne (h'.refused other hne hrefused)
  errors := h.errors.trans h'.errors
  processed run other hne := (h'.processed run other hne).trans (h.processed run other hne)

theorem Recording.turn (h : Recording ext w w') : Turn view ext w w' where
  besides := h.server ▸ .refl ..
  log := h.log ▸ List.suffix_refl _
  refused _ _ hrefused := h.log ▸ hrefused
  errors := h.errors
  processed := h.processed

theorem Recording.trans (h : Recording ext w w') (h' : Recording ext w' w'') :
    Recording ext w w'' :=
  ⟨h'.server.trans h.server, h'.log.trans h.log, h.errors.trans h'.errors,
    fun run other hne => (h'.processed run other hne).trans (h.processed run other hne)⟩

theorem Sent.turn {q : Request} (h : Sent q w w')
    (hq : ∀ body, q = .createBooking body → body.externalBookingId = ext)
    (hbesides : Besides ext (view w.server) (view w'.server)) : Turn view ext w w' where
  besides := hbesides
  log := h.log
  refused other hne hrefused :=
    h.refused (fun body heq hother => hne (hother.symm.trans (hq body heq))) hrefused
  errors := h.report ▸ List.prefix_rfl
  processed _ _ _ := by rw [h.store]

variable {p : MigrationPipeline σ} {E : Exn → World σ → Prop}

theorem ends_count {g : Stage} {f : StageStats → StageStats} :
    Ends (MigrationPipeline.count g f) (fun _ w' => Recording ext w w') E w :=
  passes_modify trivial trivial ⟨rfl, rfl, List.prefix_rfl, fun _ _ _ => rfl⟩

theorem ends_markProcessed {id : Option IdText} {result : Outcome} :
    Ends (p.markProcessed .booking ext id result) (fun _ w' => Recording ext w w') E w := by
  unfold MigrationPipeline.markProcessed MigrationPipeline.store
  split
  · exact passes_pure trivial ⟨rfl, rfl, List.prefix_rfl, fun _ _ _ => rfl⟩
  · refine passes_modify trivial trivial ⟨rfl, rfl, List.prefix_rfl, fun run other hne => ?_⟩
    simp [StateStore.markProcessed, hne]

theorem ends_bookingDone {b : BookingRecord} {id : Option UUID} {f : StageStats → StageStats}
    {result : Outcome} :
    Ends (p.bookingDone b id f result) (fun _ w' => Recording b.externalId w w') E w :=
  ends_count.bind fun _ _ _ hcounted => ends_markProcessed.mono (fun _ h => h)
    (fun _ _ _ hmarked => hcounted.trans hmarked) fun _ _ _ h => h

theorem ends_bookingFault {b : BookingRecord} {message : Message} :
    Ends (MigrationPipeline.bookingFault b message)
      (fun _ w' => Recording b.externalId w w' ∧ w'.report.errors ≠ []) E w := by
  refine passes_modify trivial trivial ⟨⟨rfl, rfl, ?_, fun _ _ _ => rfl⟩, ?_⟩
  · exact List.prefix_append w.report.errors _
  · simp [MigrationReport.addError]

variable {draws : Draws} (h : LosesAnswers (openPms draws) view p.client)
include h

/-- A confirmed booking is patched to the status, if one patch does it. -/
theorem ends_sync {propertyId bid : UUID} {target : BookingStatus}
    (hdemands : ∀ n, Undemanding (draws.env n) propertyId)
    (honly : Only ext bid .confirmed (view w.server))
    (hmovable : Movable propertyId bid (view w.server).db.toDb) :
    Ends (p.syncBookingLifecycleStatus bid BookingStatus.confirmed.text target)
      (fun _ w' => Turn view ext w w' ∧ (∀ x, Refused w'.log x → Refused w.log x) ∧
        ∃ s, Only ext bid s (view w'.server) ∧
          (s = target ↔ target = .confirmed ∨ OnePatch target)) E w := by
  unfold MigrationPipeline.syncBookingLifecycleStatus
  split
  · next hsame =>
    obtain rfl := text_injective hsame
    exact passes_pure trivial ⟨.refl w, fun _ h => h, _, honly, iff_of_true rfl (.inl rfl)⟩
  · next hne =>
    have hconfirmed : target ≠ .confirmed := fun heq => hne (heq ▸ rfl)
    -- the patch is committed by its first attempt, or never
    let P : Tenant → Prop := fun t => Besides ext (view w.server) t ∧
      (t = view w.server ∨ OnePatch target ∧ Only ext bid target t)
    let A : Tenant → Prop := fun t => Besides ext (view w.server) t ∧
      ∃ s, Only ext bid s t ∧ (s = target ↔ target = .confirmed ∨ OnePatch target)
    have hset : ∀ t, P t → P (openPms draws (.patchBooking bid target) t).2 ∧
        A (openPms draws (.patchBooking bid target) t).2 := by
      rintro t ⟨hbesides, hP⟩
      by_cases hpatch : OnePatch target
      · have hdone : Only ext bid target (openPms draws (.patchBooking bid target) t).2 ∧
            Besides ext t (openPms draws (.patchBooking bid target) t).2 := by
          rcases hP with rfl | ⟨-, hdone⟩
          · exact ⟨patch_sets honly hmovable (hdemands _) hpatch, (patch_only honly).2⟩
          · have hpatched : (Only ext bid target (openPms draws (.patchBooking bid target) t).2 ∨
                (openPms draws (.patchBooking bid target) t).2 = t) ∧ _ := patch_only hdone
            exact ⟨hpatched.1.elim id fun heq => heq.symm ▸ hdone, hpatched.2⟩
        have hbesides' := hbesides.trans hdone.2
        exact ⟨⟨hbesides', .inr ⟨hpatch, hdone.1⟩⟩, hbesides', target, hdone.1,
          iff_of_true rfl (.inr hpatch)⟩
      · obtain rfl := hP.resolve_right fun hdone => hpatch hdone.1
        rw [patch_stuck honly hconfirmed hpatch]
        refine ⟨⟨hbesides, .inl rfl⟩, hbesides, .confirmed, honly, iff_of_false ?_ ?_⟩
        · exact hconfirmed.symm
        · exact not_or.mpr ⟨hconfirmed, hpatch⟩
    have hlanded : ∀ {w'} {B : Tenant → Prop}, Sent (.patchBooking bid target) w w' →
        Landed (openPms draws) view P (.patchBooking bid target) w' B →
        Turn view ext w w' ∧ (∀ x, Refused w'.log x → Refused w.log x) ∧
          ∃ s, Only ext bid s (view w'.server) ∧
            (s = target ↔ target = .confirmed ∨ OnePatch target) := by
      rintro w' B hsent ⟨t, hP, hview, -⟩
      obtain ⟨hbesides, hstatus⟩ := (hset t hP).2
      rw [← hview] at hbesides hstatus
      refine ⟨hsent.turn (fun _ heq => by cases heq) hbesides, fun x => ?_, hstatus⟩
      exact hsent.refused fun _ heq => by cases heq
    have hattempts := ends_attempts (P := P) (q := .patchBooking bid target) (w := w) h
      (fun t hP => (hset t hP).1) 4 ⟨.refl .., .inl rfl⟩
    refine Passes.tryCatch (hattempts.bind fun json w' _ hw' => ?_) fun e w' _ hw' => ?_
    · exact passes_pure trivial (hlanded hw'.1.1 hw'.2)
    · exact passes_pure trivial (hlanded hw'.1 hw'.2)

end Turns

section OneBooking
variable {view : σ → Tenant} {w w' : World σ} {draws : Draws} {p : MigrationPipeline σ}
  {b : BookingRecord} {rt rp : UUID}

/-- What the status of a booking turns on: it is confirmed, or one patch of a confirmed
booking sets it, and in the skip mode no POST of the booking was answered with 409. -/
def Attained (p : MigrationPipeline σ) (b : BookingRecord) (w : World σ) : Prop :=
  b.status = .confirmed ∨
    OnePatch b.status ∧ (p.onConflict = .skip → ¬ Refused w.log b.externalId)

/-- The server has one booking with the external id, and it has the status of the record
where that is attained. -/
def Placed (view : σ → Tenant) (p : MigrationPipeline σ) (b : BookingRecord)
    (w : World σ) : Prop :=
  ∃ bid s, Only b.externalId bid s (view w.server) ∧ (s = b.status ↔ Attained p b w)

/-- A confirmed booking stands there that the client has had no answer about. -/
def Unanswered (view : σ → Tenant) (p : MigrationPipeline σ) (b : BookingRecord)
    (w : World σ) : Prop :=
  ∃ bid, Only b.externalId bid .confirmed (view w.server) ∧
    Movable p.propertyId bid (view w.server).db.toDb

/-- What an exception of the POST leaves. -/
structure Raised (view : σ → Tenant) (p : MigrationPipeline σ) (b : BookingRecord)
    (w : World σ) (e : Exn) (w' : World σ) : Prop where
  turn : Turn view b.externalId w w'
  refused : ∀ text, e = .conflict text → Refused w'.log b.externalId
  left : entries b.externalId (view w'.server) = [] ∨ Unanswered view p b w'

/-- A booking after its turn: it is placed, or an error was reported, or the server has
refused it and does not have it. -/
def Concluded (view : σ → Tenant) (p : MigrationPipeline σ) (b : BookingRecord)
    (w : World σ) : Prop :=
  Placed view p b w ∨ w.report.errors ≠ [] ∨
    Refused w.log b.externalId ∧ entries b.externalId (view w.server) = []

theorem head_listed {t : Tenant} {items : List (Option BookingItem)} (hclean : Clean b.externalId)
    (hok : (openPms draws (.listBookings b.externalId) t).1.body = .ok items) :
    items.head?.getD none =
      (entries b.externalId t).head?.map fun x => ⟨some x.id, x.status.text⟩ := by
  have hlisted : (listBookings b.externalId t).body = .ok items := by
    simpa only [openPms] using hok
  rw [listBookings_entries hclean, body_success] at hlisted
  rw [← Except.ok.inj hlisted]
  cases (entries b.externalId t).head? with
  | none => rfl
  | some x => rfl

variable (h : LosesAnswers (openPms draws) view p.client) (hclean : Clean b.externalId)
include h hclean

/-- The POST is answered with the booking that it adds, or it raises. -/
theorem ends_post (hreach : Reachable apiOp (view w.server).db.toDb)
    (habsent : entries b.externalId (view w.server) = []) :
    Ends (call p.client (.createBooking (p.bookingBody rt rp b)))
      (fun out w' => Turn view b.externalId w w' ∧ Unopposed w w' ∧ ∃ bid, out = some bid ∧
        Only b.externalId bid .confirmed (view w'.server) ∧
        Movable p.propertyId bid (view w'.server).db.toDb)
      (Raised view p b w) w := by
  have hsent : (p.bookingBody rt rp b).externalBookingId = b.externalId := hclean.take_eq
  have hclean' : Clean (p.bookingBody rt rp b).externalBookingId := hsent.symm ▸ hclean
  generalize hbody : p.bookingBody rt rp b = body at hsent hclean' ⊢
  have hproperty : body.propertyId = p.propertyId := by
    rw [← hbody]
    rfl
  have hq : ∀ body', Request.createBooking body = .createBooking body' →
      body'.externalBookingId = b.externalId := by
    rintro _ ⟨⟩
    exact hsent
  generalize ht₀ : view w.server = t₀ at hreach habsent
  -- the tables before the booking was added, and after it
  let P : Tenant → Prop := fun t => t = t₀ ∨
    Besides b.externalId t₀ t ∧ ∃ bid, Only b.externalId bid .confirmed t ∧
      Movable p.propertyId bid t.db.toDb
  have hadded : ∀ {t answer}, P t → (openPms draws (.createBooking body) t).1.body = .ok answer →
      ∃ bid, answer = some bid ∧
        Only b.externalId bid .confirmed (openPms draws (.createBooking body) t).2 ∧
        Movable p.propertyId bid (openPms draws (.createBooking body) t).2.db.toDb ∧
        Besides b.externalId t₀ (openPms draws (.createBooking body) t).2 := by
    intro t answer hP hok
    have hreach' : Reachable apiOp t.db.toDb := by
      rcases hP with rfl | ⟨hbesides, -⟩
      · exact hreach
      · exact hbesides.reachable hreach
    obtain ⟨bid, rfl, hposted, hbesides⟩ := posted_of_accepted hclean' hreach' hok
    rw [hsent, hproperty] at hposted
    rw [hsent] at hbesides
    rcases hP with rfl | ⟨-, _, ⟨x, hx, -⟩, -⟩
    · exact ⟨bid, rfl, hposted.only, hposted.movable, hbesides⟩
    · rw [hposted.absent] at hx
      cases hx
  have hnext : ∀ t, P t → P (openPms draws (.createBooking body) t).2 := by
    intro t hP
    cases hresult : (openPms draws (.createBooking body) t).1.body with
    | error e => rwa [orderly_openPms draws _ _ _ hresult]
    | ok answer =>
      obtain ⟨bid, -, honly, hmovable, hbesides⟩ := hadded hP hresult
      exact .inr ⟨hbesides, bid, honly, hmovable⟩
  refine (ends_call (P := P) h hnext (.inl ht₀)).mono (fun _ h => h) ?_ ?_
  · rintro out w' - ⟨⟨hsentw, hunopposed⟩, t, hP, hview, hok⟩
    obtain ⟨bid, rfl, honly, hmovable, hbesides⟩ := hadded hP hok
    rw [← hview] at honly hmovable hbesides
    exact ⟨hsentw.turn hq (ht₀.symm ▸ hbesides), hunopposed, bid, rfl, honly, hmovable⟩
  · rintro e w' - ⟨hsentw, t, hP, hview, hexcused⟩
    have hlogged : ∀ text, e = .conflict text → Refused w'.log b.externalId := by
      intro text he
      rcases hexcused with ⟨-, hconflict⟩ | hretryable
      · exact ⟨body, hsent, hconflict text he⟩
      · rw [he] at hretryable
        cases hretryable
    have hcases := hnext t hP
    rw [← hview] at hcases
    rcases hcases with hsame | ⟨hbesides, hstands⟩
    · have hview' : view w'.server = view w.server := hsame.trans ht₀.symm
      refine ⟨hsentw.turn hq (hview'.symm ▸ .refl ..), hlogged, .inl ?_⟩
      rw [hsame]
      exact habsent
    · exact ⟨hsentw.turn hq (ht₀.symm ▸ hbesides), hlogged, .inr hstands⟩

/-- The lookup finds the first booking with the external id. -/
theorem ends_getBooking (w : World σ) :
    Ends (getBookingByExternalId p.client b.externalId)
      (fun row w' => Sent (.listBookings b.externalId) w w' ∧ view w'.server = view w.server ∧
        row = (entries b.externalId (view w.server)).head?.map fun x =>
          ⟨some x.id, x.status.text⟩)
      (fun _ w' => Sent (.listBookings b.externalId) w w' ∧ view w'.server = view w.server)
      w := by
  have hext : Text.take 128 (Text.strip b.externalId) = b.externalId := by
    rw [hclean.strip_eq, hclean.take_eq]
  have hread := ends_read h (q := .listBookings b.externalId) (fun _ => rfl) w
  unfold getBookingByExternalId
  generalize hsent : Text.take 128 (Text.strip b.externalId) = sent
  obtain rfl : b.externalId = sent := hext.symm.trans hsent
  simp only [hclean.ne_empty, if_false]
  refine hread.bind fun items w' _ ⟨hsent, hview, hok⟩ =>
    passes_pure trivial ⟨hsent, hview, ?_⟩
  exact head_listed hclean hok

omit h hclean in
theorem turn_of_lookup (hsent : Sent (.listBookings b.externalId) w w')
    (hview : view w'.server = view w.server) : Turn view b.externalId w w' :=
  hsent.turn (fun _ heq => by cases heq) (hview.symm ▸ .refl ..)

variable (hdemands : ∀ n, Undemanding (draws.env n) p.propertyId)
include hdemands

/-- A booking that is created is placed. -/
theorem ends_createBooking (hreach : Reachable apiOp (view w.server).db.toDb)
    (habsent : entries b.externalId (view w.server) = [])
    (hunrefused : ¬ Refused w.log b.externalId) :
    Ends (p.createBooking b rt rp)
      (fun _ w' => Turn view b.externalId w w' ∧ Placed view p b w') (Raised view p b w) w := by
  refine (ends_post h hclean hreach habsent).bind ?_
  rintro _ w₁ - ⟨hturn₁, hunopposed, bid, rfl, honly, hmovable⟩
  refine Passes.bind (R := fun _ w₂ => Recording b.externalId w₁ w₂) ends_count fun _ w₂ _ hw₂ => ?_
  refine ends_markProcessed.bind fun _ w₃ _ hw₃ => ?_
  have hserver : w₃.server = w₁.server := hw₃.server.trans hw₂.server
  have hturn₃ : Turn view b.externalId w w₃ := (hturn₁.trans hw₂.turn).trans hw₃.turn
  have hunrefused₃ : ¬ Refused w₃.log b.externalId := fun hrefused => by
    rw [hw₃.log, hw₂.log] at hrefused
    exact hunrefused (hunopposed.refused hrefused)
  rw [← hserver] at honly hmovable
  split
  · next hstatus =>
    refine passes_pure trivial ⟨hturn₃, bid, .confirmed, honly, ?_⟩
    rcases hstatus with hstatus | hstatus
    · refine iff_of_false ?_ ?_
      · rw [hstatus]
        decide
      · rintro (hconfirmed | ⟨hpatch, -⟩)
        · rw [hstatus] at hconfirmed
          cases hconfirmed
        · rw [hstatus] at hpatch
          exact hpatch
    · exact iff_of_true hstatus.symm (.inl hstatus)
  · refine (ends_sync h hdemands honly hmovable).mono (fun _ h => h) ?_ fun _ _ _ h => h
    rintro _ w' - ⟨hturn', hrefused', s, hs, hiff⟩
    refine ⟨hturn₃.trans hturn', bid, s, hs, hiff.trans (or_congr_right ?_)⟩
    exact ⟨fun hpatch => ⟨hpatch, fun _ hrefused => hunrefused₃ (hrefused' _ hrefused)⟩, And.left⟩

omit hclean in
theorem ends_foundExisting {row : BookingItem} {bid : UUID}
    (hrefused : Refused w.log b.externalId)
    (honly : Only b.externalId bid .confirmed (view w.server))
    (hmovable : Movable p.propertyId bid (view w.server).db.toDb)
    (hrow : row = ⟨some bid, BookingStatus.confirmed.text⟩) :
    Ends (p.handleBookingFoundExisting b row .conflict)
      (fun _ w' => Turn view b.externalId w w' ∧ Placed view p b w')
      (fun _ w' => Turn view b.externalId w w') w := by
  subst hrow
  unfold MigrationPipeline.handleBookingFoundExisting
  simp only
  split
  · exact passes_raise trivial (.refl w)
  · next hmode =>
    -- the booking stays as it was created
    refine ends_bookingDone.mono (fun _ h => h) ?_ fun _ _ _ h => h
    rintro _ w' - hw'
    refine ⟨hw'.turn, bid, .confirmed, ?_, fun heq => .inl heq.symm, ?_⟩
    · rw [hw'.server]
      exact honly
    · rintro (hconfirmed | ⟨-, hskip⟩)
      · exact hconfirmed.symm
      · rw [hw'.log] at hskip
        exact absurd hrefused (hskip hmode)
  · next hmode =>
    refine (ends_sync h hdemands honly hmovable).bind fun _ w₁ _ ⟨hturn₁, _, s, hs, hiff⟩ => ?_
    refine ends_bookingDone.mono (fun _ h => h) ?_ fun _ _ _ h => hturn₁.trans h
    rintro _ w' - hw'
    refine ⟨hturn₁.trans hw'.turn, bid, s, ?_, hiff.trans (or_congr_right ?_)⟩
    · rw [hw'.server]
      exact hs
    · refine ⟨fun hpatch => ⟨hpatch, fun hskip => ?_⟩, And.left⟩
      rw [hmode] at hskip
      cases hskip

/-- A conflict concludes the turn: the booking is there, or the server has refused it. -/
theorem ends_handleBookingConflict {text : String} {w₀ : World σ}
    (hraised : Raised view p b w₀ (.conflict text) w) :
    Ends (p.handleBookingConflict b)
      (fun _ w' => Turn view b.externalId w w' ∧ Concluded view p b w')
      (fun _ w' => Turn view b.externalId w w') w := by
  unfold MigrationPipeline.handleBookingConflict
  refine Passes.bind ((ends_getBooking h hclean w).mono (fun _ h => h) (fun _ _ _ h => h)
    fun _ _ _ h => turn_of_lookup h.1 h.2) ?_
  rintro row w₁ - ⟨hsent, hview, rfl⟩
  have hturn₁ := turn_of_lookup hsent hview
  have hrefused₁ := (hraised.refused text rfl).mono hsent.log
  rcases hraised.left with habsent | ⟨bid, honly, hmovable⟩
  · rw [habsent]
    refine ends_bookingDone.mono (fun _ h => h) ?_ fun _ _ _ h => hturn₁.trans h
    rintro _ w' - hw'
    refine ⟨hturn₁.trans hw'.turn, .inr (.inr ⟨?_, ?_⟩)⟩
    · rw [hw'.log]
      exact hrefused₁
    · rw [hw'.server, hview]
      exact habsent
  · have honly₁ : Only b.externalId bid .confirmed (view w₁.server) := hview.symm ▸ honly
    obtain ⟨x, hx, hid, hstatus⟩ := honly
    rw [hx]
    simp only [List.head?_cons, Option.map_some]
    rw [← hview] at hmovable
    refine (ends_foundExisting h hdemands hrefused₁ honly₁ hmovable ?_).mono (fun _ h => h) ?_
      fun _ _ _ hw' => hturn₁.trans hw'
    · rw [hid, hstatus]
    · exact fun _ _ _ hw' => ⟨hturn₁.trans hw'.1, .inl hw'.2⟩

theorem ends_createOrReport (hreach : Reachable apiOp (view w.server).db.toDb)
    (habsent : entries b.externalId (view w.server) = [])
    (hunrefused : ¬ Refused w.log b.externalId) :
    Ends (p.createOrReport b rt rp)
      (fun _ w' => Turn view b.externalId w w' ∧ Concluded view p b w') (fun _ _ => True) w := by
  have htry : Ends (p.tryCreateBooking b rt rp)
      (fun _ w' => Turn view b.externalId w w' ∧ Concluded view p b w')
      (fun _ w' => Turn view b.externalId w w') w := by
    unfold MigrationPipeline.tryCreateBooking
    refine Passes.tryCatch ((ends_createBooking h hclean hdemands hreach habsent hunrefused).mono
      (fun _ h => h) (fun _ _ _ hw' => ⟨hw'.1, .inl hw'.2⟩) fun _ _ _ h => h)
      fun e w₁ _ hraised => ?_
    cases e with
    | conflict text =>
      exact (ends_handleBookingConflict h hclean hdemands hraised).mono (fun _ h => h)
        (fun _ _ _ hw' => ⟨hraised.turn.trans hw'.1, hw'.2⟩)
        fun _ _ _ hw' => hraised.turn.trans hw'
    | _ => exact passes_raise trivial hraised.turn
  have hfault : ∀ {w₁} e, Turn view b.externalId w w₁ →
      Ends (MigrationPipeline.bookingFault b (.exception e) : Cli σ Unit)
        (fun _ w' => Turn view b.externalId w w' ∧ Concluded view p b w') (fun _ _ => True) w₁ :=
    fun e hw₁ => ends_bookingFault.mono (fun _ h => h)
      (fun _ _ _ hw' => ⟨hw₁.trans hw'.1.turn, .inr (.inl hw'.2)⟩) fun _ _ _ h => h
  unfold MigrationPipeline.createOrReport
  refine htry.tryCatch fun e w₁ _ hw₁ => ?_
  cases e with
  | onConflictFail why => exact passes_raise trivial trivial
  | _ => exact hfault _ hw₁

/-- Nobody has the booking: not the server, the state file or the log. -/
structure Awaited (view : σ → Tenant) (p : MigrationPipeline σ) (w : World σ)
    (b : BookingRecord) : Prop where
  absent : entries b.externalId (view w.server) = []
  unrefused : ¬ Refused w.log b.externalId
  unrecorded : ∀ run, p.runId = some run →
    w.store.processed run .booking b.externalId = none

theorem ends_migrateBooking (hreach : Reachable apiOp (view w.server).db.toDb)
    (hawaited : Awaited view p w b) (roomTypes ratePlans : String → Option UUID) :
    Ends (p.migrateBooking roomTypes ratePlans b)
      (fun _ w' => Turn view b.externalId w w' ∧ Concluded view p b w') (fun _ _ => True) w := by
  have hskip : Ends (p.processedSkip .booking b.externalId)
      (fun done w' => done = false ∧ w' = w) (fun _ _ => True) w := by
    unfold MigrationPipeline.processedSkip
    split
    · exact passes_pure trivial ⟨rfl, rfl⟩
    · next run hrun =>
      refine passes_select trivial ⟨?_, rfl⟩
      simp [StateStore.isProcessed, hawaited.unrecorded run hrun]
  refine hskip.bind ?_
  rintro _ w - ⟨rfl, rfl⟩
  simp only [Bool.false_eq_true, if_false]
  split
  · split
    · refine Passes.bind ((ends_getBooking h hclean w).mono (fun _ h => h) (fun _ _ _ h => h)
        fun _ _ _ _ => trivial) ?_
      rintro row w₁ - ⟨hsent, hview, rfl⟩
      have hturn := turn_of_lookup hsent hview
      rw [hawaited.absent]
      simp only [List.head?_nil, Option.map_none]
      refine (ends_createOrReport h hclean hdemands (hview.symm ▸ hreach)
        (hview.symm ▸ hawaited.absent) fun hrefused => ?_).mono (fun _ h => h) ?_
        fun _ _ _ h => h
      · exact hawaited.unrefused (hsent.refused (fun _ heq => by cases heq) hrefused)
      · exact fun _ _ _ hw' => ⟨hturn.trans hw'.1, hw'.2⟩
    · exact ends_createOrReport h hclean hdemands hreach hawaited.absent hawaited.unrefused
  · exact ends_bookingFault.mono (fun _ h => h)
      (fun _ _ _ hw' => ⟨hw'.1.turn, .inr (.inl hw'.2)⟩) fun _ _ _ h => h

end OneBooking

/-! The bookings stage -/

section Stages
variable {view : σ → Tenant} {w w' : World σ} {draws : Draws} {p : MigrationPipeline σ}
  {b : BookingRecord}

theorem Concluded.mono (h : Concluded view p b w)
    (hentries : entries b.externalId (view w'.server) = entries b.externalId (view w.server))
    (hrefused : Refused w'.log b.externalId ↔ Refused w.log b.externalId)
    (herrors : w.report.errors <+: w'.report.errors) : Concluded view p b w' := by
  rcases h with ⟨bid, s, ⟨x, hx, hbid⟩, hiff⟩ | hfailed | ⟨hlogged, habsent⟩
  · refine .inl ⟨bid, s, ⟨x, hentries.trans hx, hbid⟩, ?_⟩
    rwa [Attained, hrefused]
  · refine .inr (.inl fun hnil => hfailed ?_)
    rw [hnil] at herrors
    exact List.prefix_nil.mp herrors
  · exact .inr (.inr ⟨hrefused.mpr hlogged, hentries.trans habsent⟩)

/-- The turn of another booking. -/
theorem Concluded.turn {ext : String} (h : Concluded view p b w) (hturn : Turn view ext w w')
    (hne : b.externalId ≠ ext) : Concluded view p b w' :=
  h.mono (hturn.besides.others _ hne)
    ⟨hturn.refused _ hne, fun hrefused => hrefused.mono hturn.log⟩ hturn.errors

theorem Awaited.turn {ext : String} (h : Awaited view p w b) (hturn : Turn view ext w w')
    (hne : b.externalId ≠ ext) : Awaited view p w' b where
  absent := (hturn.besides.others _ hne).trans h.absent
  unrefused hrefused := h.unrefused (hturn.refused _ hne hrefused)
  unrecorded run hrun := (hturn.processed run _ hne).trans (h.unrecorded run hrun)

/-- The external ids of the data set are stored as they are, and differ. -/
structure Identified (src : SourceAdapter) : Prop where
  clean : ∀ b ∈ src.extractBookings, Clean b.externalId
  distinct : (src.extractBookings.map (·.externalId)).Nodup

variable (h : LosesAnswers (openPms draws) view p.client)
  (hdemands : ∀ n, Undemanding (draws.env n) p.propertyId) (hids : Identified p.adapter)
include h hdemands hids

theorem ends_migrateBookings (hreach : Reachable apiOp (view w.server).db.toDb)
    (hawaited : ∀ b ∈ p.adapter.extractBookings, Awaited view p w b)
    (roomTypes ratePlans : String → Option UUID) :
    Ends (forEach p.adapter.extractBookings (p.migrateBooking roomTypes ratePlans))
      (fun _ w' => Reachable apiOp (view w'.server).db.toDb ∧
        ∀ b ∈ p.adapter.extractBookings, Concluded view p b w') (fun _ _ => True) w := by
  refine (passes_forEach (R := fun rest w' => Reachable apiOp (view w'.server).db.toDb ∧
    (∀ b ∈ rest, Awaited view p w' b) ∧ ∃ past, past ++ rest = p.adapter.extractBookings ∧
      ∀ b ∈ past, Concluded view p b w') (fun _ _ => trivial) ?_
    ⟨hreach, hawaited, [], rfl, fun b hb => absurd hb List.not_mem_nil⟩).mono (fun _ h => h)
      ?_ fun _ _ _ h => h
  · rintro b rest hsuffix w₁ ⟨hreach₁, hawaited₁, past, hpast, hconcluded⟩
    have hmem : b ∈ p.adapter.extractBookings := hsuffix.subset (List.mem_cons_self ..)
    have hne : ∀ c, c ∈ past ∨ c ∈ rest → c.externalId ≠ b.externalId := by
      have hdistinct := hids.distinct
      rw [← hpast, List.map_append, List.map_cons, List.nodup_middle, List.nodup_cons,
        ← List.map_append] at hdistinct
      intro c hc heq
      refine hdistinct.1 (List.mem_map.mpr ⟨c, ?_, heq⟩)
      exact List.mem_append.mpr hc
    refine (ends_migrateBooking h (hids.clean b hmem) hdemands hreach₁
      (hawaited₁ b (List.mem_cons_self ..)) roomTypes ratePlans).mono (fun _ h => h) ?_
      fun _ _ _ h => h
    rintro _ w₂ - ⟨hturn, hdone⟩
    refine ⟨hturn.besides.reachable hreach₁, fun c hc => ?_, past ++ [b], ?_, fun c hc => ?_⟩
    · exact (hawaited₁ c (List.mem_cons_of_mem _ hc)).turn hturn (hne c (.inr hc))
    · simpa using hpast
    · rcases List.mem_append.mp hc with hc | hc
      · exact (hconcluded c hc).turn hturn (hne c (.inl hc))
      · rwa [List.mem_singleton.mp hc]
  · rintro _ w' - ⟨hreach', -, past, hpast, hconcluded⟩
    rw [← hpast, List.append_nil]
    exact ⟨hreach', hconcluded⟩

theorem ends_stageBookings (hreach : Reachable apiOp (view w.server).db.toDb)
    (hawaited : ∀ b ∈ p.adapter.extractBookings, Awaited view p w b) :
    Ends p.stageBookings (fun _ w' => Reachable apiOp (view w'.server).db.toDb ∧
      ∀ b ∈ p.adapter.extractBookings, Concluded view p b w') (fun _ _ => True) w := by
  have hlisted : ∀ {α : Type} {q : Request} {f : Answer q → α} {w₁ : World σ},
      (∀ t, (openPms draws q t).2 = t) → (∀ body, q ≠ .createBooking body) →
      Ends (call p.client q >>= fun a => pure (f a)) (fun _ w' => Sent q w₁ w' ∧
        view w'.server = view w₁.server ∧ ∀ ext, Refused w'.log ext → Refused w₁.log ext)
        (fun _ _ => True) w₁ := by
    intro α q f w₁ hq hpost
    refine Passes.bind ((ends_read h hq w₁).mono (fun _ h => h) (fun _ _ _ h => h)
      fun _ _ _ _ => trivial) fun _ w' _ hw' => passes_pure trivial ⟨hw'.1, hw'.2.1, ?_⟩
    exact fun ext => hw'.1.refused fun body heq => absurd heq (hpost body)
  refine passes_bind (passes_modify trivial trivial ?_)
  refine (hlisted (fun _ => rfl) fun _ heq => by cases heq).bind
    fun roomTypes w₂ _ ⟨hsent₂, hview₂, hrefused₂⟩ => ?_
  refine (hlisted (fun _ => rfl) fun _ heq => by cases heq).bind
    fun ratePlans w₃ _ ⟨hsent₃, hview₃, hrefused₃⟩ => ?_
  have hview : view w₃.server = view w.server := hview₃.trans hview₂
  have hstore : w₃.store = w.store := hsent₃.store.trans hsent₂.store
  refine ends_migrateBookings h hdemands hids (hview.symm ▸ hreach)
    (fun b hb => ⟨?_, fun hrefused => ?_, ?_⟩) ..
  · rw [hview]
    exact (hawaited b hb).absent
  · exact (hawaited b hb).unrefused (hrefused₂ _ (hrefused₃ _ hrefused))
  · rw [hstore]
    exact (hawaited b hb).unrecorded

/-- Nothing has been written to the bookings stage of the state file. -/
def StageNew (p : MigrationPipeline σ) (w : World σ) : Prop :=
  ∀ run, p.runId = some run → w.store.stages run .bookings = none

theorem ends_runBookings (hreach : Reachable apiOp (view w.server).db.toDb)
    (hawaited : ∀ b ∈ p.adapter.extractBookings, Awaited view p w b) (hnew : StageNew p w) :
    Ends (p.runStage .bookings p.stageBookings)
      (fun _ w' => Reachable apiOp (view w'.server).db.toDb ∧
        ∀ b ∈ p.adapter.extractBookings, Concluded view p b w') (fun _ _ => True) w := by
  have hskip : Ends (p.maybeSkipStage .bookings) (fun skipped w' => skipped = false ∧ w' = w)
      (fun _ _ => True) w := by
    unfold MigrationPipeline.maybeSkipStage
    split
    · exact passes_pure trivial ⟨rfl, rfl⟩
    · next run hrun =>
      split
      · refine passes_bind (passes_select trivial ?_)
        rw [hnew run hrun]
        exact passes_pure trivial ⟨rfl, rfl⟩
      · exact passes_pure trivial ⟨rfl, rfl⟩
  have hbegin : Ends (p.beginStage .bookings) (fun _ w' => w'.server = w.server ∧
      w'.log = w.log ∧ w'.store.processed = w.store.processed) (fun _ _ => True) w := by
    unfold MigrationPipeline.beginStage MigrationPipeline.store
    split
    · exact passes_pure trivial ⟨rfl, rfl, rfl⟩
    · exact passes_modify trivial trivial ⟨rfl, rfl, rfl⟩
  have hend : ∀ w₁, Ends (p.endStage .bookings .done) (fun _ w' => w'.server = w₁.server ∧
      w'.log = w₁.log ∧ w'.report = w₁.report) (fun _ _ => True) w₁ := by
    intro w₁
    refine passes_bind (passes_select trivial ?_)
    unfold MigrationPipeline.store
    split
    · exact passes_pure trivial ⟨rfl, rfl, rfl⟩
    · exact passes_modify trivial trivial ⟨rfl, rfl, rfl⟩
  refine hskip.bind ?_
  rintro _ w - ⟨rfl, rfl⟩
  simp only [Bool.false_eq_true, if_false]
  refine hbegin.bind fun _ w₁ _ ⟨hserver, hlog, hprocessed⟩ => ?_
  have hstage : Ends p.stageBookings (fun _ w' => Reachable apiOp (view w'.server).db.toDb ∧
      ∀ b ∈ p.adapter.extractBookings, Concluded view p b w') (fun _ _ => True) w₁ := by
    refine ends_stageBookings h hdemands hids (hserver.symm ▸ hreach)
      fun b hb => ⟨?_, fun hrefused => ?_, ?_⟩
    · rw [hserver]
      exact (hawaited b hb).absent
    · exact (hawaited b hb).unrefused (hlog ▸ hrefused)
    · rw [hprocessed]
      exact (hawaited b hb).unrecorded
  refine Passes.bind (hstage.tryCatch fun e w₂ _ _ => ?_) fun _ w₂ _ hw₂ => ?_
  · exact (ends_always _ w₂).bind fun _ w₃ _ _ => passes_raise trivial trivial
  · refine (hend w₂).mono (fun _ h => h) ?_ fun _ _ _ h => h
    rintro _ w₃ - ⟨hserver₃, hlog₃, hreport₃⟩
    refine ⟨hserver₃.symm ▸ hw₂.1, fun b hb => (hw₂.2 b hb).mono ?_ ?_ ?_⟩
    · rw [hserver₃]
    · rw [hlog₃]
    · rw [hreport₃]

/-- The tables can be reached, and the bookings are these. -/
def Holding (view : σ → Tenant) (xs : List Stay) (s : σ) (_ : String) : Prop :=
  Reachable apiOp (view s).db.toDb ∧ stays (view s).db.toDb = xs

omit hdemands hids in
/-- The other stages leave the bookings as they are, and post none. -/
theorem writes_otherStage {g : Stage} {stage : Cli σ Unit} (hmem : (g, stage) ∈ p.stageRunners)
    (hg : g ≠ .bookings) (xs : List Stay) : Silent (Holding view xs) (p.runStage g stage) ∧
      Writes (fun f => ∀ w, ofBookings (f w).log = ofBookings w.log) (p.runStage g stage) := by
  have hentities : ∀ e, (g = .roomTypes ∧ e = .roomType) ∨ (g = .ratePlans ∧ e = .ratePlan) ∨
      (g = .guests ∧ e = .guest) ∨ (g = .bookings ∧ e = .booking) → e ≠ Entity.booking := by
    rintro e (⟨-, rfl⟩ | ⟨-, rfl⟩ | ⟨-, rfl⟩ | ⟨hbookings, -⟩)
    · decide
    · decide
    · decide
    · exact absurd hbookings hg
  have hclient : ∀ q, Permitted (· ≠ Entity.booking) q → Allowed (· ≠ Entity.booking) q → ∀ s,
      KeepsBookings (Holding view xs) s (p.client q s).2 := by
    rintro q hq - s ext ⟨hreach, hstays⟩
    have hother : ¬ q.OfBooking := hq.resolve_left fun hne => hne rfl
    rw [Holding, h.state]
    exact ⟨reachable_openPms hreach q, (stays_openPms hother _).trans hstays⟩
  obtain ⟨stats, rest, rfl, hrest⟩ := tame_stage (fun _ _ h => h) hclient hmem hentities
  refine ⟨silent_runStage hg (writes_bind (silent_setStats hg stats) fun _ =>
    silent_of_tame hrest), writes_runStage ?_ ?_ ?_⟩
  · exact fun _ => writes_modify fun _ => rfl
  · intro row
    unfold MigrationPipeline.store
    split
    · exact writes_pure _
    · exact writes_modify fun _ => rfl
  · refine writes_bind (writes_modify fun _ => rfl) fun _ => hrest.mono fun f hf w => ?_
    exact (hf w).exchanges fun hne => hne rfl

theorem ends_runStages (hreach : Reachable apiOp (view w.server).db.toDb)
    (hawaited : ∀ b ∈ p.adapter.extractBookings, Awaited view p w b) (hnew : StageNew p w) :
    Ends p.runStages (fun _ w' => w'.report.finalStatus = .success →
      w'.report.errors = [] ∧ ∀ b ∈ p.adapter.extractBookings, Concluded view p b w')
      (fun _ _ => True) w := by
  have hloop : Ends (forEach p.stageRunners fun runner => p.runStage runner.1 runner.2)
      (fun _ w' => ∀ b ∈ p.adapter.extractBookings, Concluded view p b w') (fun _ _ => True) w := by
    refine (passes_forEach (R := fun rest w' => Reachable apiOp (view w'.server).db.toDb ∧
      (.bookings ∈ rest.map (·.1) →
        (∀ b ∈ p.adapter.extractBookings, Awaited view p w' b) ∧ StageNew p w') ∧
      (.bookings ∉ rest.map (·.1) → ∀ b ∈ p.adapter.extractBookings, Concluded view p b w'))
      (fun _ _ => trivial) ?_ ⟨hreach, fun _ => ⟨hawaited, hnew⟩, fun hnot =>
        absurd (by simp [MigrationPipeline.stageRunners]) hnot⟩).mono (fun _ h => h)
      (fun _ _ _ h => h.2.2 List.not_mem_nil) fun _ _ _ h => h
    rintro ⟨g, stage⟩ rest hsuffix w₁ ⟨hreach₁, hbefore₁, hafter₁⟩
    have hmem : (g, stage) ∈ p.stageRunners := hsuffix.subset (List.mem_cons_self ..)
    by_cases hg : g = .bookings
    · subst hg
      obtain ⟨hawaited₁, hnew₁⟩ := hbefore₁ (List.mem_cons_self ..)
      rw [runner_bookings hmem]
      refine (ends_runBookings h hdemands hids hreach₁ hawaited₁ hnew₁).mono (fun _ h => h) ?_
        fun _ _ _ h => h
      exact fun _ w₂ _ hw₂ => ⟨hw₂.1, fun hin => absurd hin (stage_once hsuffix), fun _ => hw₂.2⟩
    · obtain ⟨hsilent, hposts⟩ := writes_otherStage h hmem hg (stays (view w₁.server).db.toDb)
      have hexchanges : (p.runStage g stage).Passes
          (fun w' => ofBookings w'.log = ofBookings w₁.log)
          (fun _ w' => ofBookings w'.log = ofBookings w₁.log)
          (fun _ w' => ofBookings w'.log = ofBookings w₁.log) w₁ :=
        hposts.passes (R := fun w w' : World σ => ofBookings w'.log = ofBookings w.log)
          (fun _ _ _ hab hbc => hbc.trans hab) rfl
      refine ((hsilent.passes (fun _ _ _ => Quiet.trans) (Quiet.refl w₁)).and hexchanges).mono
        (fun _ _ => trivial) ?_ fun _ _ _ _ => trivial
      rintro _ w₂ - ⟨hquiet, hsame⟩
      have hrefused : ∀ ext, Refused w₂.log ext ↔ Refused w₁.log ext := fun _ =>
        refused_of_exchanges hsame
      obtain ⟨hreach₂, hstays⟩ := hquiet.kept "" ⟨hreach₁, rfl⟩
      refine ⟨hreach₂, fun hin => ⟨fun b hb => ⟨?_, ?_, fun run hrun => ?_⟩, fun run hrun => ?_⟩,
        fun hnot b hb => ?_⟩
      · rw [entries_of_stays hstays]
        exact ((hbefore₁ (List.mem_cons_of_mem _ hin)).1 b hb).absent
      · rw [hrefused]
        exact ((hbefore₁ (List.mem_cons_of_mem _ hin)).1 b hb).unrefused
      · rw [hquiet.processed]
        exact ((hbefore₁ (List.mem_cons_of_mem _ hin)).1 b hb).unrecorded run hrun
      · rw [hquiet.row]
        exact (hbefore₁ (List.mem_cons_of_mem _ hin)).2 run hrun
      · have hnot₁ : .bookings ∉ ((g, stage) :: rest).map (·.1) := by
          simp only [List.map_cons, List.mem_cons, not_or]
          exact ⟨Ne.symm hg, hnot⟩
        exact (hafter₁ hnot₁ b hb).mono (entries_of_stays hstays _) (hrefused _) hquiet.errors
  refine hloop.bind fun _ w₁ _ hw₁ => passes_bind (passes_select trivial ?_)
  refine passes_modify trivial trivial fun hsuccess => ?_
  by_cases herrors : w₁.report.errors = []
  · refine ⟨herrors, fun b hb => (hw₁ b hb).mono rfl Iff.rfl List.prefix_rfl⟩
  · simp [herrors] at hsuccess

/-- A run that ends with SUCCESS has concluded every booking without an error. -/
theorem ends_run (hreach : Reachable apiOp (view w.server).db.toDb)
    (hawaited : ∀ b ∈ p.adapter.extractBookings, Awaited view p w b) (hnew : StageNew p w) :
    Ends p.run (fun _ w' => p.dryRun = false → w'.report.finalStatus = .success →
      w'.report.errors = [] ∧ ∀ b ∈ p.adapter.extractBookings, Concluded view p b w')
      (fun _ _ => True) w := by
  have hfailed : ∀ w', Ends (MigrationPipeline.setFinalStatus .failed)
      (fun _ w'' => p.dryRun = false → w''.report.finalStatus = .success →
        w''.report.errors = [] ∧ ∀ b ∈ p.adapter.extractBookings, Concluded view p b w'')
      (fun _ _ => True) w' := fun w' => passes_modify trivial trivial fun _ h => by cases h
  unfold MigrationPipeline.run
  split
  · exact (ends_always _ w).bind fun _ w' _ _ => hfailed w'
  · split
    · next hdry =>
      exact (ends_always _ w).mono (fun _ h => h)
        (fun _ _ _ _ hreal => absurd (hdry.symm.trans hreal) (by decide)) fun _ _ _ h => h
    · refine Passes.tryCatch ((ends_runStages h hdemands hids hreach hawaited hnew).mono
        (fun _ h => h) (fun _ _ _ hw' _ => hw') fun _ _ _ h => h) fun e w' _ _ => ?_
      exact (ends_always _ w').bind fun _ w'' _ _ => hfailed w''

omit h hdemands hids in
theorem entries_eq_nil {t : Tenant} {ext : String} :
    entries ext t = [] ↔ ¬ HasBooking t ext := by
  rw [List.eq_nil_iff_forall_not_mem]
  constructor
  · rintro hnone ⟨id, hmem⟩
    obtain ⟨b, hb, heq⟩ := List.mem_map.mp hmem
    exact hnone (stayOf b) (mem_entries.mpr ⟨List.mem_map_of_mem hb, congrArg Prod.snd heq⟩)
  · rintro hnone x hx
    obtain ⟨hmem, hext⟩ := mem_entries.mp hx
    obtain ⟨b, hb, rfl⟩ := List.mem_map.mp hmem
    exact hnone ⟨b.id, List.mem_map.mpr ⟨b, hb, congrArg (Prod.mk b.id) hext⟩⟩

/-- The server has one booking of the record, with its status. -/
def HasStatus (view : σ → Tenant) (b : BookingRecord) (w : World σ) : Prop :=
  ∃ bid, Only b.externalId bid b.status (view w.server)

/-- The first run over a data set of which the server has no booking: when it ends with
SUCCESS, and each 409 was about a booking that the server has, a booking has the status of
its record exactly when it is confirmed, or one patch of a confirmed booking sets its status
and in the skip mode no POST of the booking was answered with 409. -/
theorem bookings_have_source_status {s : σ} {st : StateStore}
    (hreach : Reachable apiOp (view s).db.toDb)
    (hempty : ∀ b ∈ p.adapter.extractBookings, ¬ HasBooking (view s) b.externalId)
    (hprocessed : ∀ run, p.runId = some run → ∀ ext, st.processed run .booking ext = none)
    (hstage : ∀ run, p.runId = some run → st.stages run .bookings = none)
    (hreal : p.dryRun = false) (hexec : p.run.exec (MigrationPipeline.start s st) = (.ok (), w))
    (hfit : HonestConflicts (fun s => HasBooking (view s)) w)
    (hsuccess : w.report.finalStatus = .success) :
    ∀ b ∈ p.adapter.extractBookings, HasStatus view b w ↔ Attained p b w := by
  have hawaited : ∀ b ∈ p.adapter.extractBookings,
      Awaited view p (MigrationPipeline.start s st) b := by
    refine fun b hb => ⟨entries_eq_nil.mpr (hempty b hb), ?_, fun run hrun =>
      hprocessed run hrun _⟩
    rintro ⟨body, -, hmem⟩
    cases hmem
  have hrun := ends_run h hdemands hids hreach hawaited hstage
  obtain ⟨herrors, hconcluded⟩ := (hrun.exec_ok hexec).2 hreal hsuccess
  intro b hb
  rcases hconcluded b hb with ⟨bid, s', ⟨x, hx, hid, rfl⟩, hiff⟩ | hfailed | ⟨hrefused, habsent⟩
  · rw [← hiff]
    constructor
    · rintro ⟨_, y, hy, -, hstatus⟩
      obtain rfl : x = y := List.singleton_injective (hx.symm.trans hy)
      exact hstatus
    · exact fun hstatus => ⟨bid, x, hx, hid, hstatus⟩
  · exact absurd herrors hfailed
  · exact absurd (hfit _ hrefused) (entries_eq_nil.mp habsent)

end Stages

/-! Statuses that are set, and statuses that are not -/

namespace Demo

/-- One property, and nothing else. -/
def bare : Tenant :=
  { tenant with db := { tenant.db with toDb := { Db.empty 100 with properties := [1] } } }

theorem reachable_bare : Reachable apiOp bare.db.toDb :=
  .tail (.administer (fun db => { db with properties := [1] }) fun _ => rfl) (.empty 100) trivial

theorem loses_lossy (lose : Request → Bool) :
    LosesAnswers (openPms draws) Prod.fst (lossy lose) := by
  constructor
  · intro q s
    unfold lossy
    split <;> rfl
  · intro q s
    unfold lossy
    split
    · exact .inr ⟨.transport, rfl, rfl⟩
    · exact .inl rfl

def losesPatch : Request → Bool
  | .patchBooking .. => true
  | _ => false

/-- One booking with the status. -/
def staying (status : BookingStatus) : BookingRecord :=
  { night "A" "a@x" with status := status }

/-- A first run with that booking, where the first answer to these requests is lost. -/
def firstRun (lose : Request → Bool) (status : BookingStatus) :
    Except Exn Unit × World (Tenant × Bool) :=
  (pipeline (lossy lose) (oneRoom [staying status])).run.exec
    (MigrationPipeline.start (bare, false) .empty)

theorem exec_of_isOk {out : Except Exn Unit × World σ} (h : out.1.isOk = true) :
    out = (.ok (), out.2) := by
  obtain ⟨result, w⟩ := out
  cases result with
  | ok => rfl
  | error e => cases h

/-- No POST was answered with 409. -/
theorem unrefused_of_codes {log : List Exchange}
    (h : log.all (fun e => e.status != some 409) = true) (ext : String) : ¬ Refused log ext := by
  rintro ⟨body, -, hmem⟩
  have hcode := List.all_eq_true.mp h _ hmem
  simp at hcode

theorem status_of_entry {status : BookingStatus} {w : World (Tenant × Bool)} {x : Stay}
    (hx : entries "A" w.server.1 = [x]) :
    HasStatus Prod.fst (staying status) w ↔ x.status = status := by
  constructor
  · rintro ⟨_, y, hy, -, hstatus⟩
    obtain rfl : x = y := List.singleton_injective (hx.symm.trans hy)
    exact hstatus
  · exact fun hstatus => ⟨x.id, x, hx, rfl, hstatus⟩

end Demo

set_option maxRecDepth 100000 in
/-- The answer to the PATCH of a cancelled booking is lost. -/
theorem bookings_have_source_status_cancelled :
    HasStatus Prod.fst (Demo.staying .cancelled)
        (Demo.firstRun Demo.losesPatch .cancelled).2 ∧
      (Demo.firstRun Demo.losesPatch .cancelled).2.server.2 = true := by
  obtain ⟨hok, hsuccess, hcodes, hpatch⟩ :
      (Demo.firstRun Demo.losesPatch .cancelled).1.isOk = true ∧
      (Demo.firstRun Demo.losesPatch .cancelled).2.report.finalStatus = .success ∧
      (Demo.firstRun Demo.losesPatch .cancelled).2.log.all
        (fun e => e.status != some 409) = true ∧
      (Demo.firstRun Demo.losesPatch .cancelled).2.server.2 = true := by decide +kernel
  have hids : Identified (Demo.oneRoom [Demo.staying .cancelled]) := by
    refine ⟨fun b hb => ?_, List.nodup_singleton _⟩
    obtain rfl := List.mem_singleton.mp hb
    exact Demo.clean_A
  have hempty : ∀ b ∈ (Demo.oneRoom [Demo.staying .cancelled]).extractBookings,
      ¬ HasBooking Demo.bare b.externalId := by
    rintro b - ⟨id, hmem⟩
    cases hmem
  have hall := bookings_have_source_status (Demo.loses_lossy Demo.losesPatch)
    (fun _ _ => rfl) hids
    (p := Demo.pipeline (Demo.lossy Demo.losesPatch) (Demo.oneRoom [Demo.staying .cancelled]))
    (s := (Demo.bare, false)) Demo.reachable_bare hempty (fun _ _ _ => rfl) (fun _ _ => rfl) rfl
    (Demo.exec_of_isOk hok)
    (fun ext hrefused => absurd hrefused (Demo.unrefused_of_codes hcodes ext))
    hsuccess (Demo.staying .cancelled) (List.mem_singleton.mpr rfl)
  exact ⟨hall.mpr (.inr ⟨trivial, fun _ => Demo.unrefused_of_codes hcodes _⟩), hpatch⟩

set_option maxRecDepth 100000 in
/-- A booking that left stays confirmed, with no answer lost, and so does a cancelled one
when the answer to its POST is lost: the second POST gets 409, and the booking is skipped.
Both runs report SUCCESS. -/
theorem bookings_lose_source_status :
    (∀ lose, LosesAnswers (openPms Demo.draws) Prod.fst (Demo.lossy lose)) ∧
    Reachable apiOp Demo.bare.db.toDb ∧
    ((Demo.firstRun (fun _ => false) .checkedOut).1.isOk = true ∧
      (Demo.firstRun (fun _ => false) .checkedOut).2.report.finalStatus = .success ∧
      (Demo.firstRun (fun _ => false) .checkedOut).2.server.2 = false ∧
      ¬ HasStatus Prod.fst (Demo.staying .checkedOut)
        (Demo.firstRun (fun _ => false) .checkedOut).2) ∧
    (Demo.firstRun Demo.losesBooking .cancelled).1.isOk = true ∧
      (Demo.firstRun Demo.losesBooking .cancelled).2.report.finalStatus = .success ∧
      ¬ HasStatus Prod.fst (Demo.staying .cancelled)
        (Demo.firstRun Demo.losesBooking .cancelled).2 := by
  obtain ⟨hok, hsuccess, hkept, hleft⟩ :
      (Demo.firstRun (fun _ => false) .checkedOut).1.isOk = true ∧
      (Demo.firstRun (fun _ => false) .checkedOut).2.report.finalStatus = .success ∧
      (Demo.firstRun (fun _ => false) .checkedOut).2.server.2 = false ∧
      (entries "A" (Demo.firstRun (fun _ => false) .checkedOut).2.server.1).map (·.status) =
        [.confirmed] := by decide +kernel
  obtain ⟨hok', hsuccess', hlost⟩ :
      (Demo.firstRun Demo.losesBooking .cancelled).1.isOk = true ∧
      (Demo.firstRun Demo.losesBooking .cancelled).2.report.finalStatus = .success ∧
      (entries "A" (Demo.firstRun Demo.losesBooking .cancelled).2.server.1).map (·.status) =
        [.confirmed] := by decide +kernel
  refine ⟨Demo.loses_lossy, Demo.reachable_bare, ⟨hok, hsuccess, hkept, ?_⟩, hok', hsuccess', ?_⟩
  · obtain ⟨x, hx, hstatus⟩ := List.map_eq_singleton_iff.mp hleft
    rw [Demo.status_of_entry hx, hstatus]
    decide
  · obtain ⟨x, hx, hstatus⟩ := List.map_eq_singleton_iff.mp hlost
    rw [Demo.status_of_entry hx, hstatus]
    decide

end OpenPms.Migration
