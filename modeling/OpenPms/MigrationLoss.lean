import OpenPms.MigrationServer
import OpenPms.MigrationWrites

/-!
What SUCCESS says about the bookings of a migration. The pipeline takes each 409 for a
duplicate, and a stage that is done for a stage whose records are all there; where both are
right, SUCCESS means that the server has every extracted booking.
-/
namespace OpenPms.Migration

open Transaction Prog KeyedTable

variable {σ : Type}

/-! One booking -/

/-- The bookings that the state file has for the run are settled. -/
def Noted (has : σ → String → Prop) (p : MigrationPipeline σ) (w : World σ) : Prop :=
  ∀ run, p.runId = some run → ∀ ext, w.store.isProcessed run .booking ext = true →
    Settled has w ext

/-- What holds throughout the bookings stage that starts at `w₀`. -/
structure Tracks (has : σ → String → Prop) (p : MigrationPipeline σ) (w₀ w : World σ) : Prop where
  grows : Grows has w₀ w
  noted : Noted has p w
  counting : (w₀.report.stages .bookings).isSome

theorem Noted.quiet {has : σ → String → Prop} {p : MigrationPipeline σ} {w w' : World σ}
    (h : Noted has p w) (hquiet : Quiet has w w') : Noted has p w' := by
  intro run hrun ext hprocessed
  rw [StateStore.isProcessed, hquiet.processed] at hprocessed
  exact (h run hrun ext hprocessed).mono hquiet.toGrows

section OneBooking
variable {has : σ → String → Prop} {p : MigrationPipeline σ} {w₀ w : World σ}

theorem Tracks.quiet {w' : World σ} (h : Tracks has p w₀ w) (hquiet : Quiet has w w') :
    Tracks has p w₀ w' :=
  ⟨h.grows.trans hquiet.toGrows, h.noted.quiet hquiet, h.counting⟩

theorem passes_quiet {α : Type} {prog : Cli σ α} {Q : α → World σ → Prop}
    {E : Exn → World σ → Prop} (hw : Tracks has p w₀ w) (h : prog.Passes (Quiet has w) Q E w) :
    prog.Passes (Tracks has p w₀) (fun a w' => Quiet has w w' ∧ Q a w')
      (fun e w' => Quiet has w w' ∧ E e w') w :=
  h.mono (fun _ hq => hw.quiet hq) (fun _ _ hq ha => ⟨hq, ha⟩) fun _ _ hq he => ⟨hq, he⟩

theorem passes_silent {α : Type} {prog : Cli σ α} (hw : Tracks has p w₀ w)
    (h : Silent has prog) :
    prog.Passes (Tracks has p w₀) (fun _ w' => Quiet has w w') (fun _ w' => Quiet has w w') w :=
  (h.passes (fun _ _ _ => Quiet.trans) (Quiet.refl w)).mono (fun _ hq => hw.quiet hq)
    (fun _ _ hq _ => hq) fun _ _ hq _ => hq

/-- A settled booking may be recorded. -/
theorem passes_markBooking {E : Exn → World σ → Prop} {ext : String} (hw : Tracks has p w₀ w)
    (hsettled : Settled has w ext) (id : Option IdText) (result : Outcome) :
    (p.markProcessed .booking ext id result).Passes (Tracks has p w₀)
      (fun _ w' => Settled has w' ext) E w := by
  unfold MigrationPipeline.markProcessed MigrationPipeline.store
  split
  · exact passes_pure hw hsettled
  · next run hrun =>
    refine passes_modify hw ⟨?_, ?_, hw.counting⟩ hsettled
    · exact hw.grows.trans ⟨fun _ h => h, List.suffix_refl _, List.prefix_rfl,
        fun stats h => ⟨stats, h, le_rfl⟩, fun _ => rfl⟩
    · intro run' hrun' ext' hprocessed
      by_cases hext : ext' = ext
      · subst hext
        exact hsettled
      · refine hw.noted run' hrun' ext' ?_
        simpa [StateStore.isProcessed, StateStore.markProcessed, hext] using hprocessed

/-- Silent statements leave a settled booking settled. -/
theorem passes_settled {α : Type} {prog : Cli σ α} {ext : String} (hw : Tracks has p w₀ w)
    (hsettled : Settled has w ext) (h : Silent has prog) :
    prog.Passes (Tracks has p w₀) (fun _ w' => Settled has w' ext)
      (fun _ w' => Settled has w' ext) w :=
  (passes_silent hw h).mono (fun _ h => h) (fun _ _ _ hquiet => hsettled.mono hquiet.toGrows)
    fun _ _ _ hquiet => hsettled.mono hquiet.toGrows

/-- The rule of a sequence that starts with silent statements. -/
theorem Tracks.bind_silent {α β : Type} {prog : Cli σ α} {f : α → Cli σ β}
    {Q : β → World σ → Prop} (hw : Tracks has p w₀ w) (h : Silent has prog)
    (hf : ∀ a w', Tracks has p w₀ w' → Quiet has w w' →
      (f a).Passes (Tracks has p w₀) Q (fun _ _ => True) w') :
    (prog >>= f).Passes (Tracks has p w₀) Q (fun _ _ => True) w :=
  ((passes_silent hw h).mono (fun _ h => h) (fun _ _ _ h => h) fun _ _ _ _ => trivial).bind hf

theorem passes_bookingDone {b : BookingRecord} (hw : Tracks has p w₀ w)
    (hsettled : Settled has w b.externalId) (id : Option UUID) {f : StageStats → StageStats}
    (hf : ∀ s, s.errors ≤ (f s).errors) (result : Outcome) :
    (p.bookingDone b id f result).Passes (Tracks has p w₀)
      (fun _ w' => Settled has w' b.externalId) (fun _ _ => True) w :=
  hw.bind_silent (silent_count hf) fun _ _ hw' hquiet =>
    passes_markBooking hw' (hsettled.mono hquiet.toGrows) ..

/-- An error of a booking is counted and reported. -/
theorem passes_bookingFault {b : BookingRecord} (hw : Tracks has p w₀ w) (message : Message) :
    (MigrationPipeline.bookingFault b message : Cli σ Unit).Passes (Tracks has p w₀)
      (fun _ w' => Failed w') (fun _ _ => True) w := by
  obtain ⟨stats₀, hstats₀⟩ := Option.isSome_iff_exists.mp hw.counting
  obtain ⟨stats, hstats, -⟩ := hw.grows.counted stats₀ hstats₀
  have hfailed : (MigrationPipeline.bookingFault b message : Cli σ Unit).Passes (fun _ => True)
      (fun _ w' => Failed w') (fun _ _ => True) w := by
    refine passes_modify trivial trivial ⟨?_, ?_⟩
    · simp [MigrationReport.addError]
    · refine ⟨{ stats with errors := stats.errors + 1 }, ?_, Nat.succ_ne_zero _⟩
      simp [MigrationReport.addError, MigrationReport.count, hstats]
  exact ((passes_silent hw (silent_fault (by decide))).and hfailed).mono (fun _ h => h.1)
    (fun _ _ _ h => h.2) fun _ _ _ _ => trivial

variable (ht : Truthful p.client has)
include ht

theorem silent_sync (id : UUID) (current : String) (target : BookingStatus) :
    Silent has (p.syncBookingLifecycleStatus id current target) := by
  unfold MigrationPipeline.syncBookingLifecycleStatus
  split
  · exact writes_pure _
  · refine writes_tryCatch ?_ fun _ => writes_pure _
    exact writes_bind (silent_attempts ht _ 4) fun _ => writes_pure _

theorem passes_foundExisting {b : BookingRecord} (hw : Tracks has p w₀ w)
    (hsettled : Settled has w b.externalId) (row : BookingItem)
    (reason : MigrationPipeline.Reason) :
    (p.handleBookingFoundExisting b row reason).Passes (Tracks has p w₀)
      (fun _ w' => Settled has w' b.externalId) (fun _ _ => True) w := by
  unfold MigrationPipeline.handleBookingFoundExisting
  split
  · exact passes_raise hw trivial
  · split
    · exact passes_raise hw trivial
    · split
      · refine passes_bookingDone hw hsettled _ (fun _ => ?_) _
        exact le_rfl
      · refine passes_bookingDone hw hsettled _ (fun _ => ?_) _
        exact le_rfl
    · refine hw.bind_silent (silent_sync ht ..) fun _ w' hw' hquiet => ?_
      refine passes_bookingDone hw' (hsettled.mono hquiet.toGrows) _ (fun _ => ?_) _
      exact le_rfl

/-- The booking is there, or the server has refused it with a 409, or another error is
raised. -/
theorem passes_createBooking {b : BookingRecord} (hclean : Clean b.externalId)
    (hw : Tracks has p w₀ w) (rt rp : UUID) :
    (p.createBooking b rt rp).Passes (Tracks has p w₀)
      (fun _ w' => Settled has w' b.externalId)
      (fun e w' => ∀ text, e = .conflict text → Settled has w' b.externalId) w := by
  have hsent : (p.bookingBody rt rp b).externalBookingId = b.externalId := hclean.take_eq
  have hcall := passes_quiet hw (passes_call ht (.createBooking (p.bookingBody rt rp b)) w)
  refine Passes.bind (hcall.mono (fun _ h => h) (fun _ _ _ h => h) ?_) ?_
  · rintro e w' - ⟨-, hlogged⟩ text htext
    exact .inr ⟨p.bookingBody rt rp b, hsent, hlogged text htext⟩
  · rintro id w₁ hw₁ ⟨-, s, code, text, hreply, hlo, hhi, hserver⟩
    have hsettled : Settled has w₁ b.externalId := by
      have hcreated := ht.created _ s code text _ hreply hlo hhi (hsent.symm ▸ hclean)
      rw [hsent] at hcreated
      exact .inl (hserver ▸ hcreated)
    -- from here on the booking is held, whatever is raised
    have hrest : ∀ {prog : Cli σ Unit} {w'},
        prog.Passes (Tracks has p w₀) (fun _ w' => Settled has w' b.externalId)
          (fun _ w' => Settled has w' b.externalId) w' →
        prog.Passes (Tracks has p w₀) (fun _ w' => Settled has w' b.externalId)
          (fun e w' => ∀ text, e = .conflict text → Settled has w' b.externalId) w' :=
      fun h => h.mono (fun _ h => h) (fun _ _ _ h => h) fun _ _ _ h _ _ => h
    refine hrest ((passes_settled hw₁ hsettled (silent_count ?_)).bind fun _ w₂ hw₂ hsettled₂ => ?_)
    · exact fun _ => le_rfl
    · split
      · exact passes_raise hw₂ hsettled₂
      · refine (passes_markBooking hw₂ hsettled₂ ..).bind fun _ w₃ hw₃ hsettled₃ => ?_
        split
        · exact passes_pure hw₃ hsettled₃
        · exact passes_settled hw₃ hsettled₃ (silent_sync ht ..)

/-- The row that is looked for makes no difference to a settled booking. -/
theorem passes_handleBookingConflict {b : BookingRecord} (hw : Tracks has p w₀ w)
    (hsettled : Settled has w b.externalId) :
    (p.handleBookingConflict b).Passes (Tracks has p w₀)
      (fun _ w' => Settled has w' b.externalId) (fun _ _ => True) w := by
  unfold MigrationPipeline.handleBookingConflict
  refine hw.bind_silent (silent_getBooking ht _) fun row w' hw' hquiet => ?_
  have hsettled := hsettled.mono hquiet.toGrows
  cases row with
  | none =>
    refine passes_bookingDone hw' hsettled _ (fun _ => ?_) _
    exact le_rfl
  | some row => exact passes_foundExisting ht hw' hsettled row _

theorem passes_tryCreateBooking {b : BookingRecord} (hclean : Clean b.externalId)
    (hw : Tracks has p w₀ w) (rt rp : UUID) :
    (p.tryCreateBooking b rt rp).Passes (Tracks has p w₀)
      (fun _ w' => Settled has w' b.externalId) (fun _ _ => True) w := by
  unfold MigrationPipeline.tryCreateBooking
  refine (passes_createBooking ht hclean hw rt rp).tryCatch fun e w' hw' hconflict => ?_
  cases e with
  | conflict text => exact passes_handleBookingConflict ht hw' (hconflict text rfl)
  | _ => exact passes_raise hw' trivial

theorem passes_createOrReport {b : BookingRecord} (hclean : Clean b.externalId)
    (hw : Tracks has p w₀ w) (rt rp : UUID) :
    (p.createOrReport b rt rp).Passes (Tracks has p w₀)
      (fun _ w' => Settled has w' b.externalId ∨ Failed w') (fun _ _ => True) w := by
  have htry := (passes_tryCreateBooking ht hclean hw rt rp).mono (fun _ h => h)
    (fun _ w' _ h => (.inl h : _ ∨ Failed w')) fun _ _ _ h => h
  have hfault : ∀ {w'} e, Tracks has p w₀ w' →
      (MigrationPipeline.bookingFault b (.exception e) : Cli σ Unit).Passes (Tracks has p w₀)
        (fun _ w' => Settled has w' b.externalId ∨ Failed w') (fun _ _ => True) w' :=
    fun e hw' => (passes_bookingFault hw' _).mono (fun _ h => h) (fun _ _ _ h => .inr h)
      fun _ _ _ h => h
  unfold MigrationPipeline.createOrReport
  refine htry.tryCatch fun e w' hw' _ => ?_
  cases e with
  | onConflictFail why => exact passes_raise hw' trivial
  | _ => exact hfault _ hw'

/-- A booking is settled by its turn, or an error is counted and reported. -/
theorem passes_migrateBooking {b : BookingRecord} (hclean : Clean b.externalId)
    (hw : Tracks has p w₀ w) (roomTypes ratePlans : String → Option UUID) :
    (p.migrateBooking roomTypes ratePlans b).Passes (Tracks has p w₀)
      (fun _ w' => Settled has w' b.externalId ∨ Failed w') (fun _ _ => True) w := by
  have hsettle : ∀ {prog : Cli σ Unit} {w'},
      prog.Passes (Tracks has p w₀) (fun _ w' => Settled has w' b.externalId)
        (fun _ _ => True) w' →
      prog.Passes (Tracks has p w₀) (fun _ w' => Settled has w' b.externalId ∨ Failed w')
        (fun _ _ => True) w' :=
    fun h => h.mono (fun _ h => h) (fun _ _ _ h => .inl h) fun _ _ _ h => h
  have hskip : (p.processedSkip .booking b.externalId).Passes (Tracks has p w₀)
      (fun done w' => done = true → Settled has w' b.externalId) (fun _ _ => True) w := by
    unfold MigrationPipeline.processedSkip
    split
    · exact passes_pure hw fun h => by cases h
    · next run hrun => exact passes_select hw fun h => hw.noted run hrun _ h
  refine hskip.bind fun done w₁ hw₁ hdone => ?_
  split
  · next hprocessed =>
    have hsettled := hdone hprocessed
    refine hsettle ((passes_settled hw₁ hsettled (silent_count ?_)).mono (fun _ h => h)
      (fun _ _ _ h => h) fun _ _ _ _ => trivial)
    exact fun _ => le_rfl
  · split
    · split
      · have hfind := passes_quiet hw₁ (passes_getBooking ht hclean w₁)
        refine (hfind.mono (fun _ h => h) (fun _ _ _ h => h) fun _ _ _ _ => trivial).bind ?_
        rintro row w₂ hw₂ ⟨-, hrow⟩
        cases row with
        | none => exact passes_createOrReport ht hclean hw₂ ..
        | some row => exact hsettle (passes_foundExisting ht hw₂ (.inl (hrow row rfl)) row _)
      · exact passes_createOrReport ht hclean hw₁ ..
    · exact (passes_bookingFault hw₁ _).mono (fun _ h => h) (fun _ _ _ h => .inr h)
        fun _ _ _ h => h

end OneBooking

/-! The bookings stage -/

/-- Where the state file has the bookings stage as done without an error, all bookings are
settled. -/
def Cleared (has : σ → String → Prop) (p : MigrationPipeline σ) (w : World σ) : Prop :=
  ∀ run, p.runId = some run → ∀ stats, w.store.stages run .bookings = some ⟨.done, some stats⟩ →
    stats.errors = 0 → ∀ b ∈ p.adapter.extractBookings, Settled has w b.externalId

/-- What the state file says of bookings is so. -/
structure Sound (has : σ → String → Prop) (p : MigrationPipeline σ) (w : World σ) : Prop where
  noted : Noted has p w
  cleared : Cleared has p w

/-- The bookings stage, if the state file has it as done, ended without an error. -/
def DoneClean (p : MigrationPipeline σ) (st : StateStore) : Prop :=
  p.resume = true → ∀ run, p.runId = some run → ∀ stats,
    st.stages run .bookings = some ⟨.done, some stats⟩ → stats.errors = 0

section Stages
variable {has : σ → String → Prop} {p : MigrationPipeline σ} {w : World σ}

theorem Cleared.grows {w' : World σ} (h : Cleared has p w) (hgrows : Grows has w w') :
    Cleared has p w' := by
  intro run hrun stats hrow herrors b hb
  rw [hgrows.row] at hrow
  exact (h run hrun stats hrow herrors b hb).mono hgrows

theorem Sound.quiet {w' : World σ} (h : Sound has p w) (hquiet : Quiet has w w') :
    Sound has p w' := ⟨h.noted.quiet hquiet, h.cleared.grows hquiet.toGrows⟩

/-- Only the server, its log and the state file matter. -/
theorem Sound.congr {w' : World σ} (h : Sound has p w) (hserver : w'.server = w.server)
    (hlog : w'.log = w.log) (hstore : w'.store = w.store) : Sound has p w' := by
  have hsettled : ∀ ext, Settled has w ext → Settled has w' ext := fun ext hext => by
    rwa [Settled, hserver, hlog]
  constructor
  · intro run hrun ext hprocessed
    rw [hstore] at hprocessed
    exact hsettled ext (h.noted run hrun ext hprocessed)
  · intro run hrun stats hrow herrors b hb
    rw [hstore] at hrow
    exact hsettled _ (h.cleared run hrun stats hrow herrors b hb)

variable (ht : Truthful p.client has)
  (hclean : ∀ b ∈ p.adapter.extractBookings, Clean b.externalId)
include ht hclean

/-- The loop over the bookings: those that have had their turn are settled, or an error is
counted and reported. -/
theorem passes_migrateBookings {w₁ : World σ} (hw : Tracks has p w₁ w)
    (roomTypes ratePlans : String → Option UUID) :
    (forEach p.adapter.extractBookings (p.migrateBooking roomTypes ratePlans)).Passes
      (Tracks has p w₁)
      (fun _ w' => (∀ b ∈ p.adapter.extractBookings, Settled has w' b.externalId) ∨ Failed w')
      (fun _ _ => True) w := by
  have hloop : (forEach p.adapter.extractBookings (p.migrateBooking roomTypes ratePlans)).Passes
      (Tracks has p w₁) (fun _ w' => Tracks has p w₁ w' ∧
        ∃ past, past ++ [] = p.adapter.extractBookings ∧
          ((∀ b ∈ past, Settled has w' b.externalId) ∨ Failed w')) (fun _ _ => True) w := by
    refine passes_forEach (R := fun rest w' => Tracks has p w₁ w' ∧
      ∃ past, past ++ rest = p.adapter.extractBookings ∧
        ((∀ b ∈ past, Settled has w' b.externalId) ∨ Failed w')) (fun _ h => h.1) ?_
      ⟨hw, [], rfl, .inl fun b hb => absurd hb List.not_mem_nil⟩
    rintro b rest hsuffix w₂ ⟨hw₂, past, hpast, hso⟩
    have hmem : b ∈ p.adapter.extractBookings := hsuffix.subset (List.mem_cons_self ..)
    have hcounting : (w₂.report.stages .bookings).isSome := by
      obtain ⟨stats, hstats⟩ := Option.isSome_iff_exists.mp hw₂.counting
      obtain ⟨stats', hstats', -⟩ := hw₂.grows.counted stats hstats
      simp [hstats']
    have hturn := passes_migrateBooking ht (hclean b hmem)
      (⟨Grows.refl w₂, hw₂.noted, hcounting⟩ : Tracks has p w₂ w₂) roomTypes ratePlans
    refine hturn.mono (fun _ h => ⟨hw₂.grows.trans h.grows, h.noted, hw₂.counting⟩) ?_
      fun _ _ _ h => h
    intro _ w₃ hw₃ hsettled
    refine ⟨⟨hw₂.grows.trans hw₃.grows, hw₃.noted, hw₂.counting⟩, past ++ [b], ?_, ?_⟩
    · simpa using hpast
    · rcases hso, hsettled with ⟨hso | hso, hsettled | hsettled⟩
      · refine .inl fun b' hb' => ?_
        rcases List.mem_append.mp hb' with hb' | hb'
        · exact (hso b' hb').mono hw₃.grows
        · rwa [List.mem_singleton.mp hb']
      · exact .inr hsettled
      · exact .inr (hso.mono hw₃.grows)
      · exact .inr hsettled
  refine hloop.mono (fun _ h => h) ?_ fun _ _ _ h => h
  rintro _ w' - ⟨-, past, hpast, hso⟩
  rwa [← hpast, List.append_nil]

theorem passes_stageBookings (hw : Sound has p w) :
    p.stageBookings.Passes (Sound has p)
      (fun _ w' => (∀ b ∈ p.adapter.extractBookings, Settled has w' b.externalId) ∨ Failed w')
      (fun _ _ => True) w := by
  have hmaps : ∀ w₁, Sound has p w₁ → (w₁.report.stages .bookings).isSome →
      (do
        let roomTypes ← p.roomTypeMap
        let ratePlans ← p.ratePlanMap
        forEach p.adapter.extractBookings (p.migrateBooking roomTypes ratePlans)).Passes
        (Sound has p) (fun _ w' =>
          (∀ b ∈ p.adapter.extractBookings, Settled has w' b.externalId) ∨ Failed w')
        (fun _ _ => True) w₁ := by
    intro w₁ hw₁ hcounting
    have hstart : Tracks has p w₁ w₁ := ⟨Grows.refl _, hw₁.noted, hcounting⟩
    refine Passes.mono (I := Tracks has p w₁) ?_
      (fun _ h => ⟨h.noted, hw₁.cleared.grows h.grows⟩) (fun _ _ _ h => h) fun _ _ _ h => h
    exact hstart.bind_silent (silent_roomTypeMap ht) fun _ _ hw₂ _ =>
      hw₂.bind_silent (silent_ratePlanMap ht) fun _ _ hw₃ _ =>
        passes_migrateBookings ht hclean hw₃ ..
  refine passes_bind (passes_modify hw (hw.congr rfl rfl rfl) (hmaps _ (hw.congr rfl rfl rfl) ?_))
  simp [MigrationReport.setStats]

omit ht hclean in
theorem passes_beginBookings (hw : Sound has p w) :
    (p.beginStage .bookings).Passes (Sound has p) (fun _ _ => True) (fun _ _ => True) w := by
  unfold MigrationPipeline.beginStage MigrationPipeline.store
  split
  · exact passes_pure hw trivial
  · next run hrun =>
    refine passes_modify hw ⟨?_, ?_⟩ trivial
    · exact fun run' hrun' ext hprocessed => hw.noted run' hrun' ext hprocessed
    · intro run' hrun' stats hrow
      obtain rfl : run = run' := Option.some.inj (hrun.symm.trans hrun')
      simp [StateStore.setStageStatus] at hrow

omit ht hclean in
/-- The stored counters of the stage have an error unless all bookings are settled. -/
theorem passes_endBookings {status : StageStatus} (hw : Sound has p w)
    (hso : status = .done →
      (∀ b ∈ p.adapter.extractBookings, Settled has w b.externalId) ∨ Failed w) :
    (p.endStage .bookings status).Passes (Sound has p)
      (fun _ w' => w'.server = w.server ∧ w'.log = w.log ∧ w'.report = w.report)
      (fun _ _ => True) w := by
  refine passes_bind (passes_select hw ?_)
  unfold MigrationPipeline.store
  split
  · exact passes_pure hw ⟨rfl, rfl, rfl⟩
  · next run hrun =>
    refine passes_modify hw ⟨?_, ?_⟩ ⟨rfl, rfl, rfl⟩
    · exact fun run' hrun' ext hprocessed => hw.noted run' hrun' ext hprocessed
    · intro run' hrun' stats hrow herrors b hb
      obtain rfl : run = run' := Option.some.inj (hrun.symm.trans hrun')
      have hwritten : some (⟨status, w.report.stages .bookings⟩ : StageRow) =
          some ⟨.done, some stats⟩ := by
        simpa [StateStore.setStageStatus] using hrow
      obtain ⟨hstatus, hstats⟩ := StageRow.mk.inj (Option.some.inj hwritten)
      rcases hso hstatus with hall | ⟨-, stats', hstats', hne⟩
      · exact hall b hb
      · rw [hstats] at hstats'
        cases hstats'
        exact absurd herrors hne

/-- A run that comes past the bookings stage without an error has settled every booking. -/
theorem passes_runBookings (hw : Sound has p w) :
    (p.runStage .bookings p.stageBookings).Passes (Sound has p)
      (fun _ w' => DoneClean p w.store → w'.report.errors = [] →
        ∀ b ∈ p.adapter.extractBookings, Settled has w' b.externalId) (fun _ _ => True) w := by
  have hskip : (p.maybeSkipStage .bookings).Passes (Sound has p)
      (fun skipped w' => skipped = true → DoneClean p w.store →
        ∀ b ∈ p.adapter.extractBookings, Settled has w' b.externalId) (fun _ _ => True) w := by
    unfold MigrationPipeline.maybeSkipStage
    split
    · exact passes_pure hw fun h => by cases h
    · next run hrun =>
      split
      · next hresume =>
        refine passes_bind (passes_select hw ?_)
        split
        · next stats hrow =>
          refine passes_bind (passes_modify hw (hw.congr rfl rfl rfl) ?_)
          refine passes_pure (hw.congr rfl rfl rfl) fun _ hdone => ?_
          exact hw.cleared run hrun stats hrow (hdone hresume run hrun stats hrow)
        · exact passes_pure hw fun h => by cases h
      · exact passes_pure hw fun h => by cases h
  refine hskip.bind fun skipped w₁ hw₁ hall => ?_
  split
  · next hskipped => exact passes_pure hw₁ fun hdone _ => hall hskipped hdone
  · refine (passes_beginBookings hw₁).bind fun _ w₂ hw₂ _ => ?_
    refine Passes.bind (R := fun _ w' =>
      (∀ b ∈ p.adapter.extractBookings, Settled has w' b.externalId) ∨ Failed w') ?_ ?_
    · refine (passes_stageBookings ht hclean hw₂).tryCatch fun e w₃ hw₃ _ => ?_
      have hnot : StageStatus.failed = .done →
          (∀ b ∈ p.adapter.extractBookings, Settled has w₃ b.externalId) ∨ Failed w₃ :=
        fun h => by cases h
      exact (passes_endBookings hw₃ hnot).bind fun _ w₄ hw₄ _ => passes_raise hw₄ trivial
    · intro _ w₃ hw₃ hso
      refine (passes_endBookings hw₃ fun _ => hso).mono (fun _ h => h) ?_ fun _ _ _ h => h
      rintro _ w₄ - ⟨hserver, hlog, hreport⟩ - herrors b hb
      rcases hso with hso | hso
      · rw [Settled, hserver, hlog]
        exact hso b hb
      · rw [hreport] at herrors
        exact absurd herrors hso.1

/-- A run that reports no error has settled every booking. -/
theorem passes_runStages (hw : Sound has p w) :
    p.runStages.Passes (Sound has p)
      (fun _ w' => DoneClean p w.store → w'.report.finalStatus = .success →
        ∀ b ∈ p.adapter.extractBookings, Settled has w' b.externalId) (fun _ _ => True) w := by
  have hloop : (forEach p.stageRunners fun runner => p.runStage runner.1 runner.2).Passes
      (Sound has p) (fun _ w' => DoneClean p w.store → w'.report.errors = [] →
        ∀ b ∈ p.adapter.extractBookings, Settled has w' b.externalId) (fun _ _ => True) w := by
    refine Passes.mono (passes_forEach (R := fun rest w' => Sound has p w' ∧
      (.bookings ∈ rest.map (·.1) → DoneClean p w.store → DoneClean p w'.store) ∧
      (.bookings ∉ rest.map (·.1) → DoneClean p w.store → w'.report.errors = [] →
        ∀ b ∈ p.adapter.extractBookings, Settled has w' b.externalId)) (fun _ h => h.1) ?_
      ⟨hw, fun _ h => h, fun hnot => absurd (by simp [MigrationPipeline.stageRunners]) hnot⟩)
      (fun _ h => h) (fun _ _ _ h => h.2.2 List.not_mem_nil) fun _ _ _ h => h
    rintro ⟨g, stage⟩ rest hsuffix w₁ ⟨hw₁, hdone₁, hall₁⟩
    have hmem : (g, stage) ∈ p.stageRunners := hsuffix.subset (List.mem_cons_self ..)
    by_cases hg : g = .bookings
    · subst hg
      rw [runner_bookings hmem]
      refine (passes_runBookings ht hclean hw₁).mono (fun _ h => h) ?_ fun _ _ _ h => h
      intro _ w₂ hw₂ hall
      exact ⟨hw₂, fun h => absurd h (stage_once hsuffix), fun _ hdone =>
        hall (hdone₁ (List.mem_cons_self ..) hdone)⟩
    · have hsilent := silent_runStage (p := p) hg (silent_stageRunners ht hmem hg)
      refine (hsilent.passes (fun _ _ _ => Quiet.trans) (Quiet.refl w₁)).mono
        (fun _ hquiet => hw₁.quiet hquiet) ?_ fun _ _ _ _ => trivial
      intro _ w₂ hquiet _
      refine ⟨hw₁.quiet hquiet, fun hin hdone => ?_, fun hnot hdone herrors b hb => ?_⟩
      · intro hresume run hrun stats hrow
        rw [hquiet.row] at hrow
        exact hdone₁ (List.mem_cons_of_mem _ hin) hdone hresume run hrun stats hrow
      · have herrors₁ : w₁.report.errors = [] := by
          have hprefix := hquiet.errors
          rw [herrors] at hprefix
          exact List.prefix_nil.mp hprefix
        have hnot₁ : .bookings ∉ ((g, stage) :: rest).map (·.1) := by
          simp only [List.map_cons, List.mem_cons, not_or]
          exact ⟨Ne.symm hg, hnot⟩
        exact (hall₁ hnot₁ hdone herrors₁ b hb).mono hquiet.toGrows
  refine hloop.bind fun _ w' hw' hall => passes_bind (passes_select hw' ?_)
  refine passes_modify hw' (hw'.congr rfl rfl rfl) ?_
  intro hdone hstatus b hb
  have herrors : w'.report.errors = [] := by
    by_contra hne
    simp [hne] at hstatus
  exact hall hdone herrors b hb

omit ht hclean in
/-- Statements that only change the report. -/
theorem passes_reporting {prog : Cli σ Unit} (hw : Sound has p w)
    (h : Writes (fun f => ∀ w : World σ, ∃ r, f w = { w with report := r }) prog) :
    prog.Passes (Sound has p) (fun _ _ => True) (fun _ _ => True) w := by
  refine (h.passes (R := fun w w' : World σ => ∃ r, w' = { w with report := r }) ?_
    ⟨w.report, rfl⟩).mono ?_ (fun _ _ _ _ => trivial) fun _ _ _ _ => trivial
  · rintro a b c ⟨r, rfl⟩ ⟨r', rfl⟩
    exact ⟨r', rfl⟩
  · rintro w' ⟨r, rfl⟩
    exact hw.congr rfl rfl rfl

/-- A real run that ends with SUCCESS has settled every booking. -/
theorem passes_run (hw : Sound has p w) :
    p.run.Passes (Sound has p) (fun _ w' => p.dryRun = false → DoneClean p w.store →
      w'.report.finalStatus = .success →
        ∀ b ∈ p.adapter.extractBookings, Settled has w' b.externalId) (fun _ _ => True) w := by
  have hfailed : ∀ w', Sound has p w' →
      (MigrationPipeline.setFinalStatus .failed : Cli σ Unit).Passes (Sound has p)
      (fun _ w'' => p.dryRun = false → DoneClean p w.store →
        w''.report.finalStatus = .success →
          ∀ b ∈ p.adapter.extractBookings, Settled has w'' b.externalId) (fun _ _ => True) w' :=
    fun w' hw' => passes_modify hw' (hw'.congr rfl rfl rfl) fun _ _ h => by cases h
  unfold MigrationPipeline.run
  split
  · refine (passes_reporting hw (writes_forEach fun _ => ?_)).bind fun _ w' hw' _ => hfailed w' hw'
    exact writes_modify fun w => ⟨_, rfl⟩
  · split
    · next hdry =>
      refine (passes_reporting hw ?_).mono (fun _ h => h)
        (fun _ _ _ _ hreal => absurd (hdry.symm.trans hreal) (by decide)) fun _ _ _ h => h
      have hset : ∀ g stats, Writes (fun f => ∀ w : World σ, ∃ r, f w = { w with report := r })
          (MigrationPipeline.setStats g stats) := fun _ _ => writes_modify fun w => ⟨_, rfl⟩
      exact writes_bind (hset ..) fun _ => writes_bind (hset ..) fun _ =>
        writes_bind (hset ..) fun _ => writes_bind (hset ..) fun _ => writes_bind (hset ..)
          fun _ => writes_bind (hset ..) fun _ => writes_bind (hset ..) fun _ => hset ..
    · refine ((passes_runStages ht hclean hw).mono (fun _ h => h) (fun _ _ _ h _ => h)
        fun _ _ _ h => h).tryCatch fun e w' hw' _ => ?_
      exact passes_bind (passes_modify hw' (hw'.congr rfl rfl rfl)
        (hfailed _ (hw'.congr rfl rfl rfl)))

end Stages

/-! Runs with the same files -/

/-- The states that runs over the same files lead to, each stopped at any point or ended,
where every 409 is about an id that the server has. Meanwhile the server may change, and
other runs may write their own rows of the state file. -/
inductive History (has : σ → String → Prop) (src : SourceAdapter) (run : String) :
    σ → StateStore → Prop
  | fresh {s : σ} {st : StateStore} (hprocessed : ∀ ext, st.processed run .booking ext = none)
      (hstage : st.stages run .bookings = none) : History has src run s st
  | meanwhile {s s' : σ} {st st' : StateStore} (hist : History has src run s st)
      (hkept : ∀ ext, has s ext → has s' ext)
      (hprocessed : st'.processed run = st.processed run)
      (hstages : st'.stages run = st.stages run) : History has src run s' st'
  | invoked {s : σ} {st : StateStore} (hist : History has src run s st) (p : MigrationPipeline σ)
      (n : ℕ) (htruthful : Truthful p.client has) (hadapter : p.adapter = src)
      (hrun : p.runId = some run)
      (hhonest : HonestConflicts has (p.run.upTo n (MigrationPipeline.start s st))) :
      History has src run (p.run.upTo n (MigrationPipeline.start s st)).server
        (p.run.upTo n (MigrationPipeline.start s st)).store

section Histories
variable {has : σ → String → Prop} {src : SourceAdapter} {run : String}

/-- What the state file says of bookings is so, without any refusal. -/
structure Held (has : σ → String → Prop) (src : SourceAdapter) (run : String) (s : σ)
    (st : StateStore) : Prop where
  processed : ∀ ext, st.isProcessed run .booking ext = true → has s ext
  done : ∀ stats, st.stages run .bookings = some ⟨.done, some stats⟩ → stats.errors = 0 →
    ∀ b ∈ src.extractBookings, has s b.externalId

theorem Held.sound {s : σ} {st : StateStore} (h : Held has src run s st)
    {p : MigrationPipeline σ} (hadapter : p.adapter = src)
    (hrun : ∀ r, p.runId = some r → r = run) : Sound has p (MigrationPipeline.start s st) := by
  constructor
  · intro r hr ext hprocessed
    obtain rfl := hrun r hr
    exact .inl (h.processed ext hprocessed)
  · intro r hr stats hrow herrors b hb
    obtain rfl := hrun r hr
    exact .inl (h.done stats hrow herrors b (hadapter ▸ hb))

theorem Sound.held {p : MigrationPipeline σ} {w : World σ} (h : Sound has p w)
    (hadapter : p.adapter = src) (hrun : p.runId = some run) (hhonest : HonestConflicts has w) :
    Held has src run w.server w.store := by
  have hsettled : ∀ ext, Settled has w ext → has w.server ext := fun ext hext =>
    hext.elim (fun h => h) (hhonest ext)
  constructor
  · exact fun ext hprocessed => hsettled ext (h.noted run hrun ext hprocessed)
  · intro stats hrow herrors b hb
    exact hsettled _ (h.cleared run hrun stats hrow herrors b (hadapter.symm ▸ hb))

theorem History.held (hclean : ∀ b ∈ src.extractBookings, Clean b.externalId) {s : σ}
    {st : StateStore} (hist : History has src run s st) : Held has src run s st := by
  induction hist with
  | fresh hprocessed hstage =>
    constructor
    · intro ext h
      simp [StateStore.isProcessed, hprocessed] at h
    · intro stats h
      simp [hstage] at h
  | meanwhile _ hkept hprocessed hstages ih =>
    constructor
    · intro ext h
      rw [StateStore.isProcessed, hprocessed] at h
      exact hkept ext (ih.processed ext h)
    · intro stats h herrors b hb
      rw [hstages] at h
      exact hkept _ (ih.done stats h herrors b hb)
  | invoked _ p n htruthful hadapter hrun hhonest ih =>
    have hstart := ih.sound hadapter fun r hr => Option.some.inj (hr.symm.trans hrun)
    have hpasses := passes_run htruthful (fun b hb => hclean b (hadapter ▸ hb)) hstart
    exact (hpasses.upTo n).held hadapter hrun hhonest

/-- Every real run that follows such a history and ends with SUCCESS has every extracted
booking on the server, when its own 409 answers are about ids that the server has, and it
does not pass over a bookings stage that ended with errors. -/
theorem migration_loses_no_booking (hclean : ∀ b ∈ src.extractBookings, Clean b.externalId)
    {s : σ} {st : StateStore} (hist : History has src run s st) {p : MigrationPipeline σ}
    (htruthful : Truthful p.client has) (hadapter : p.adapter = src)
    (hrun : ∀ r, p.runId = some r → r = run) (hreal : p.dryRun = false)
    (hdone : DoneClean p st) {w : World σ}
    (hexec : p.run.exec (MigrationPipeline.start s st) = (.ok (), w))
    (hhonest : HonestConflicts has w) (hsuccess : w.report.finalStatus = .success) :
    ∀ b ∈ src.extractBookings, has w.server b.externalId := by
  have hstart := (hist.held hclean).sound hadapter hrun
  have hpasses := passes_run htruthful (fun b hb => hclean b (hadapter ▸ hb)) hstart
  intro b hb
  have hsettled := (hpasses.exec_ok hexec).2 hreal hdone hsuccess b (hadapter.symm ▸ hb)
  exact hsettled.elim (fun h => h) (hhonest _)

end Histories

/-! The server of this repository -/

theorem externalRef_clean {ext : String} (h : Clean ext) : externalRef (some ext) = some ext := by
  simp only [externalRef, h.strip_eq, h.ne_empty, if_false, h.take_eq]

/-- The modelled server is truthful. -/
theorem truthful_openPms (draws : Draws) : Truthful (openPms draws) HasBooking := by
  constructor
  · intro q t ext h
    cases q with
    | listRoomTypes | listRatePlans | listGuests | listBookings | listBookingsWindow => exact h
    | createRoomType propertyId rt =>
      simp only [openPms, createRoomType]
      split
      · exact has_transaction (grow_kept (kept_createRoomType ..)) (fun _ _ => rfl) h
      · exact h
    | bulkCreateRooms rt rooms =>
      simp only [openPms, bulkCreateRooms]
      split
      · refine has_transaction (grow_kept (kept_createRoomsBulk ..)) (fun _ _ => ?_) h
        split <;> rfl
      · exact h
    | createRatePlan propertyId name policy =>
      simp only [openPms, createRatePlan]
      split
      · exact h
      · split
        · exact h
        · split <;> exact h
    | bulkPutRates rt rp start stop price =>
      simp only [openPms, bulkPutRates]
      split
      · split
        · next hupsert =>
          rw [bulkUpsertRates_db hupsert]
          exact h
        · exact h
      · exact h
    | seedAvailability rt start stop =>
      simp only [openPms, seedAvailability]
      split
      · exact has_transaction (grow_kept (kept_bulkSeed _)) (fun _ _ => rfl) h
      · exact h
    | createGuest body =>
      simp only [openPms, createGuest]
      split
      · split
        · exact h
        · split <;> exact h
      · exact h
    | patchGuest id body =>
      simp only [openPms, patchGuest]
      split
      · exact h
      · split
        · exact h
        · split <;> exact h
    | createBooking body =>
      simp only [openPms, postBooking]
      split
      · refine has_transaction (grow_createBooking ..) (fun out t => ?_) h
        split <;> rfl
      · exact h
    | patchBooking id status =>
      exact has_transaction (grow_kept (kept_patchStatusOnly ..)) (fun _ _ => rfl) h
  · intro body t code text json hreply hlo hhi hclean
    simp only [openPms, postBooking] at hreply ⊢
    split at hreply
    · next hok =>
      rw [dif_pos hok]
      unfold transaction at hreply ⊢
      split at hreply
      · next out core hexec =>
        have hmem := createBooking_externals hexec
        rw [show (body.request hok.2.1 hok.2.2).externalBookingId = some body.externalBookingId
          from rfl, externalRef_clean hclean] at hmem
        simp only
        split <;> exact ⟨_, hmem⟩
      · next e core hexec =>
        have hcode : code = postBookingStatus e := by
          simp only [refusal, Reply.response.injEq] at hreply
          exact hreply.1.symm
        have hrefused : 400 ≤ postBookingStatus e := by
          unfold postBookingStatus
          split <;> omega
        omega
    · simp only [refusal, Reply.response.injEq] at hreply
      omega
  · intro ext t code text item rest hreply hlo hhi hclean
    simp only [openPms, listBookings, hclean.strip_eq, hclean.ne_empty, if_false,
      hclean.take_eq, success, Reply.response.injEq, Option.some.injEq] at hreply
    obtain ⟨-, -, hrows⟩ := hreply
    cases hfind : t.db.bookings.rows.find? fun b => b.externalBookingId = some ext with
    | none => simp [hfind] at hrows
    | some b =>
      refine ⟨b.id, List.mem_map.mpr ⟨b, List.mem_of_find?_eq_some hfind, ?_⟩⟩
      have hext := List.find?_some hfind
      simpa using hext

/-! A property with one room -/

namespace Demo

def draws : Draws where
  env n :=
    { bookingId := 1000 + n, guestId := 2000 + n, folioId := fun k => 3000 + 10 * n + k,
      roomTypeId := 4000 + n, roomId := fun k => 5000 + 10 * n + k,
      countryPack := fun _ => none, checkinMessages := fun _ _ => [],
      foreignRevision := fun _ => false }
  ratePlanId n := 6000 + n
  guestPage q rows := (rows.filter fun g => g.email = q).take 10

/-- One property with a room type and a rate plan, without rooms. -/
def tenant : Tenant where
  db := { toDb := { Db.empty 100 with
            properties := [1]
            roomTypes := Table.empty.insert ⟨10, 1, "Std", 2, 4, false⟩
            ratePlans := [⟨20, 1⟩] }
          currency := fun _ => none
          links := []
          restrictions := fun _ _ _ => ⟨false, none, none⟩ }
  planColumns := fun _ => ⟨"BAR", "standard"⟩
  guestColumns := fun _ => ⟨none, false⟩
  drawn := 0

def night (externalId email : String) : BookingRecord where
  externalId := externalId
  checkIn := 100
  checkOut := 101
  roomTypeName := "Std"
  ratePlanName := "BAR"
  guest := ⟨"Ann", "Lee", email, "+1"⟩
  status := .confirmed
  source := "direct"

/-- One room for the bookings. -/
def oneRoom (bookings : List BookingRecord) : SourceAdapter where
  validate := ⟨true, []⟩
  extractGuests := []
  extractRoomTypes := [⟨"Std", 2, 4⟩]
  extractRooms := [⟨"Std", "1", "available"⟩]
  extractRatePlans := [⟨"BAR", "standard"⟩]
  extractBookings := bookings

def migration (src : SourceAdapter) : MigrationPipeline Tenant where
  adapter := src
  client := openPms draws
  propertyId := 1
  dryRun := false
  onConflict := .skip
  defaultNightRate := 100
  runId := some "run"
  resume := false
  precheckBookings := false

def first (src : SourceAdapter) : Except Exn Unit × World Tenant :=
  (migration src).run.exec (MigrationPipeline.start tenant .empty)

/-- What has to hold of a run for the theorem to speak of it, in a form that evaluates. -/
def goesWell (out : Except Exn Unit × World Tenant) : Bool :=
  out.1.isOk && decide (out.2.report.finalStatus = .success)

theorem eq_of_goesWell {out : Except Exn Unit × World Tenant} (h : goesWell out = true) :
    out = (.ok (), out.2) ∧ out.2.report.finalStatus = .success := by
  obtain ⟨hok, hstatus⟩ := Bool.and_eq_true_iff.mp h
  refine ⟨?_, of_decide_eq_true hstatus⟩
  obtain ⟨result, w⟩ := out
  cases result with
  | ok => rfl
  | error e => cases hok

theorem clean_A : Clean "A" := ⟨by decide, by decide, by decide⟩

theorem clean_B : Clean "B" := ⟨by decide, by decide, by decide⟩

/-- Two bookings, one after the other. -/
def twoNights : SourceAdapter :=
  oneRoom [night "A" "a@x", { night "B" "b@x" with checkIn := 101, checkOut := 102 }]

/-- The first of them has been migrated before, from another file. -/
def known : Tenant := (first (oneRoom [night "A" "a@x"])).2.server

def again : Except Exn Unit × World Tenant :=
  (migration twoNights).run.exec (MigrationPipeline.start known .empty)

def conflictOf : Exchange → Option String
  | ⟨.createBooking body, some 409⟩ => some body.externalBookingId
  | _ => none

theorem mem_conflicts {log : List Exchange} {ext : String} (h : Refused log ext) :
    ext ∈ log.filterMap conflictOf := by
  obtain ⟨body, rfl, hmem⟩ := h
  exact List.mem_filterMap.mpr ⟨_, hmem, rfl⟩

end Demo

set_option maxRecDepth 100000 in
/-- The server answers 409 for the booking that it has, and takes the other one. -/
theorem migration_loses_no_booking_again :
    Demo.again.2.log.filterMap Demo.conflictOf = ["A"] ∧
      ∀ b ∈ Demo.twoNights.extractBookings, HasBooking Demo.again.2.server b.externalId := by
  have hconflicts : Demo.again.2.log.filterMap Demo.conflictOf = ["A"] := by decide +kernel
  refine ⟨hconflicts, ?_⟩
  have hhonest : HonestConflicts HasBooking Demo.again.2 := by
    intro ext hrefused
    have hmem := Demo.mem_conflicts hrefused
    rw [hconflicts, List.mem_singleton] at hmem
    have hrows : Demo.again.2.server.db.toDb.externals = [(1001, some "A"), (1002, some "B")] := by
      decide +kernel
    refine ⟨1001, ?_⟩
    rw [hrows, hmem]
    exact List.mem_cons_self ..
  have hclean : ∀ b ∈ Demo.twoNights.extractBookings, Clean b.externalId := by
    intro b hb
    rcases List.mem_pair.mp hb with rfl | rfl
    · exact Demo.clean_A
    · exact Demo.clean_B
  have hwell : Demo.goesWell Demo.again = true := by decide +kernel
  obtain ⟨hexec, hsuccess⟩ := Demo.eq_of_goesWell hwell
  have hist : History HasBooking Demo.twoNights "run" Demo.known .empty := .fresh (fun _ => rfl) rfl
  exact migration_loses_no_booking hclean hist (truthful_openPms Demo.draws) rfl
    (fun r hr => (Option.some.inj hr).symm) rfl (fun h => absurd h Bool.false_ne_true)
    hexec hhonest hsuccess

set_option maxRecDepth 100000 in
/-- Two bookings overlap: the second one gets 409 for want of a room, no booking has its
id, and it is counted as skipped. The run reports SUCCESS without it. -/
theorem migration_loses_booking :
    Truthful (openPms Demo.draws) HasBooking ∧ Clean "A" ∧ Clean "B" ∧
    (Demo.migration (Demo.oneRoom [Demo.night "A" "a@x", Demo.night "B" "b@x"])).dryRun =
      false ∧
    (Demo.oneRoom [Demo.night "A" "a@x", Demo.night "B" "b@x"]).extractBookings.map
      (·.externalId) = ["A", "B"] ∧
    (Demo.migration (Demo.oneRoom [Demo.night "A" "a@x", Demo.night "B" "b@x"])).run.exec
        (MigrationPipeline.start Demo.tenant .empty) =
      (.ok (), (Demo.first (Demo.oneRoom [Demo.night "A" "a@x", Demo.night "B" "b@x"])).2) ∧
    (Demo.first (Demo.oneRoom [Demo.night "A" "a@x", Demo.night "B" "b@x"])).2.report.finalStatus
      = .success ∧
    ¬ HasBooking (Demo.first
      (Demo.oneRoom [Demo.night "A" "a@x", Demo.night "B" "b@x"])).2.server "B" := by
  have hwell : Demo.goesWell (Demo.first (Demo.oneRoom
      [Demo.night "A" "a@x", Demo.night "B" "b@x"])) = true := by decide +kernel
  obtain ⟨hexec, hsuccess⟩ := Demo.eq_of_goesWell hwell
  refine ⟨truthful_openPms _, Demo.clean_A, Demo.clean_B, rfl, rfl, hexec, hsuccess, ?_⟩
  have hrows : (Demo.first (Demo.oneRoom
      [Demo.night "A" "a@x", Demo.night "B" "b@x"])).2.server.db.toDb.externals =
      [(1001, some "A")] := by decide +kernel
  intro hhas
  obtain ⟨id, hmem⟩ := hhas
  rw [hrows] at hmem
  simp at hmem

end OpenPms.Migration
