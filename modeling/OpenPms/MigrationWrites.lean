import OpenPms.MigrationPipeline

/-!
What the statements of the migration leave as it is, where the server is truthful: it keeps
its bookings, creates one when it answers that it did, and lists only bookings with the
external id that was asked for. It may refuse, fail and lose answers at will. Only the
bookings stage records bookings and counts their errors.
-/
namespace OpenPms.Migration

open Transaction Prog

variable {σ : Type}

/-- The id is stored as it is: not blank, no space around it, and it fits the column. -/
structure Clean (ext : String) : Prop where
  ne_empty : ext ≠ ""
  strip_eq : Text.strip ext = ext
  take_eq : Text.take 128 ext = ext

/-- `has s ext`: the server in state `s` has a booking with the external id `ext`. -/
structure Truthful (api : Api σ) (has : σ → String → Prop) : Prop where
  kept : ∀ q s ext, has s ext → has (api q s).2 ext
  created : ∀ body s code text json,
    (api (.createBooking body) s).1 = .response code text json → 200 ≤ code → code < 300 →
    Clean body.externalBookingId → has (api (.createBooking body) s).2 body.externalBookingId
  listed : ∀ ext s code text item rest,
    (api (.listBookings ext) s).1 = .response code text (some (some item :: rest)) →
    200 ≤ code → code < 300 → Clean ext → has s ext

/-- A booking with the id was posted and answered with 409. -/
def Refused (log : List Exchange) (ext : String) : Prop :=
  ∃ body, body.externalBookingId = ext ∧ (⟨.createBooking body, some 409⟩ : Exchange) ∈ log

/-- Each 409 was about an external id that the server has. -/
def HonestConflicts (has : σ → String → Prop) (w : World σ) : Prop :=
  ∀ ext, Refused w.log ext → has w.server ext

/-! What a step leaves as it is -/

/-- Bookings stay, the log and the errors grow, and the bookings stage keeps its row. -/
structure Grows (has : σ → String → Prop) (w w' : World σ) : Prop where
  kept : ∀ ext, has w.server ext → has w'.server ext
  log : w.log <:+ w'.log
  errors : w.report.errors <+: w'.report.errors
  counted : ∀ stats, w.report.stages .bookings = some stats →
    ∃ stats', w'.report.stages .bookings = some stats' ∧ stats.errors ≤ stats'.errors
  row : ∀ run, w'.store.stages run .bookings = w.store.stages run .bookings

/-- No booking is recorded either. -/
structure Quiet (has : σ → String → Prop) (w w' : World σ) : Prop extends Grows has w w' where
  processed : ∀ run ext,
    w'.store.processed run .booking ext = w.store.processed run .booking ext

section Relations
variable {has : σ → String → Prop} {w w' w'' : World σ}

theorem Grows.refl (w : World σ) : Grows has w w :=
  ⟨fun _ h => h, List.suffix_refl _, List.prefix_rfl, fun stats h => ⟨stats, h, le_rfl⟩,
    fun _ => rfl⟩

theorem Grows.trans (h : Grows has w w') (h' : Grows has w' w'') : Grows has w w'' := by
  refine ⟨fun ext he => h'.kept ext (h.kept ext he), h.log.trans h'.log,
    h.errors.trans h'.errors, ?_, fun run => (h'.row run).trans (h.row run)⟩
  intro stats hstats
  obtain ⟨stats', hstats', hle⟩ := h.counted stats hstats
  obtain ⟨stats'', hstats'', hle'⟩ := h'.counted stats' hstats'
  exact ⟨stats'', hstats'', hle.trans hle'⟩

theorem Quiet.refl (w : World σ) : Quiet has w w := ⟨Grows.refl w, fun _ _ => rfl⟩

theorem Quiet.trans (h : Quiet has w w') (h' : Quiet has w' w'') : Quiet has w w'' :=
  ⟨h.toGrows.trans h'.toGrows, fun run ext => (h'.processed run ext).trans (h.processed run ext)⟩

/-- The server has the booking, or has refused it. -/
def Settled (has : σ → String → Prop) (w : World σ) (ext : String) : Prop :=
  has w.server ext ∨ Refused w.log ext

/-- The bookings stage has counted an error and the run has reported one. -/
def Failed (w : World σ) : Prop :=
  w.report.errors ≠ [] ∧ ∃ stats, w.report.stages .bookings = some stats ∧ stats.errors ≠ 0

theorem Refused.mono {ext : String} {log log' : List Exchange} (h : Refused log ext)
    (hlog : log <:+ log') : Refused log' ext := by
  obtain ⟨body, hbody, hmem⟩ := h
  exact ⟨body, hbody, hlog.subset hmem⟩

theorem Settled.mono {ext : String} (h : Settled has w ext) (hgrows : Grows has w w') :
    Settled has w' ext := by
  rcases h with h | h
  · exact .inl (hgrows.kept ext h)
  · exact .inr (h.mono hgrows.log)

theorem Failed.mono (h : Failed w) (hgrows : Grows has w w') : Failed w' := by
  obtain ⟨herrors, stats, hstats, hne⟩ := h
  obtain ⟨stats', hstats', hle⟩ := hgrows.counted stats hstats
  refine ⟨?_, stats', hstats', by omega⟩
  intro hnil
  have hprefix := hgrows.errors
  rw [hnil] at hprefix
  exact herrors (List.prefix_nil.mp hprefix)

end Relations

/-! Tame writes -/

/-- A POST or PATCH of a booking. -/
def Request.OfBooking : Request → Prop
  | .createBooking _ | .patchBooking .. => True
  | _ => False

instance : DecidablePred Request.OfBooking := fun q => by
  cases q <;> unfold Request.OfBooking <;> infer_instance

/-- A request that creates a name. -/
def Request.Naming : Request → Prop
  | .createRoomType .. | .createRatePlan .. => True
  | _ => False

/-- The exchanges that create bookings and set their statuses. -/
def ofBookings (log : List Exchange) : List Exchange := log.filter fun e => e.request.OfBooking

theorem refused_of_exchanges {log log' : List Exchange} (h : ofBookings log' = ofBookings log)
    {ext : String} : Refused log' ext ↔ Refused log ext := by
  have hmem : ∀ l (body : BookingBody), (⟨.createBooking body, some 409⟩ : Exchange) ∈ l ↔
      (⟨.createBooking body, some 409⟩ : Exchange) ∈ ofBookings l := by
    intro l body
    exact ⟨fun hin => List.mem_filter.mpr ⟨hin, decide_eq_true trivial⟩,
      fun hin => (List.mem_filter.mp hin).1⟩
  unfold Refused
  refine exists_congr fun body => and_congr_right fun _ => ?_
  rw [hmem log', hmem log, h]

/-- A record was reported as failed. -/
def RecordFault (r : MigrationReport) : Prop := ∃ e ∈ r.errors, e.entity ≠ "pipeline"

/-- Every counted error is reported. -/
def Tallied (r : MigrationReport) : Prop :=
  ∀ g stats, r.stages g = some stats → stats.errors ≠ 0 → RecordFault r

/-- A step of a stage of which the server makes what `R` allows, and which records only the
entities in `E`. -/
structure Tame (R : σ → σ → Prop) (E : Entity → Prop) (w w' : World σ) : Prop where
  server : R w.server w'.server
  log : w.log <:+ w'.log
  exchanges : ¬ E .booking → ofBookings w'.log = ofBookings w.log
  errors : w.report.errors <+: w'.report.errors
  counted : ∀ g stats, w.report.stages g = some stats →
    ∃ stats', w'.report.stages g = some stats' ∧ (g = .bookings → stats.errors ≤ stats'.errors)
  tallied : Tallied w.report → Tallied w'.report
  rows : w'.store.stages = w.store.stages
  processed : ∀ run e ext, ¬ E e → w'.store.processed run e ext = w.store.processed run e ext
  emails : ¬ E .guest → ∀ run email,
    w'.store.mappings run .guestEmail email = w.store.mappings run .guestEmail email

theorem RecordFault.mono {r r' : MigrationReport} (h : RecordFault r)
    (herrors : r.errors <+: r'.errors) : RecordFault r' := by
  obtain ⟨e, he, hne⟩ := h
  exact ⟨e, herrors.subset he, hne⟩

section Tame
variable {R : σ → σ → Prop} {E : Entity → Prop} {w w' w'' : World σ}

theorem Tame.trans (htrans : ∀ a b c, R a b → R b c → R a c) (h : Tame R E w w')
    (h' : Tame R E w' w'') : Tame R E w w'' where
  server := htrans _ _ _ h.server h'.server
  log := h.log.trans h'.log
  exchanges hE := (h'.exchanges hE).trans (h.exchanges hE)
  errors := h.errors.trans h'.errors
  counted g stats hstats := by
    obtain ⟨stats', hstats', hle⟩ := h.counted g stats hstats
    obtain ⟨stats'', hstats'', hle'⟩ := h'.counted g stats' hstats'
    exact ⟨stats'', hstats'', fun hg => (hle hg).trans (hle' hg)⟩
  tallied ht := h'.tallied (h.tallied ht)
  rows := h'.rows.trans h.rows
  processed run e ext hE := (h'.processed run e ext hE).trans (h.processed run e ext hE)
  emails hE run email := (h'.emails hE run email).trans (h.emails hE run email)

/-- A step that sends nothing and reports nothing. -/
theorem tame_store {f : StateStore → StateStore} (hrefl : ∀ s, R s s)
    (hrows : ∀ st, (f st).stages = st.stages)
    (hprocessed : ∀ st run e ext, ¬ E e → (f st).processed run e ext = st.processed run e ext)
    (hemails : ¬ E .guest → ∀ st run email,
      (f st).mappings run .guestEmail email = st.mappings run .guestEmail email) (w : World σ) :
    Tame R E w { w with store := f w.store } where
  server := hrefl _
  log := List.suffix_refl _
  exchanges _ := rfl
  errors := List.prefix_rfl
  counted _ stats h := ⟨stats, h, fun _ => le_rfl⟩
  tallied h := h
  rows := hrows _
  processed := hprocessed _
  emails hE := hemails hE _

theorem tame_report {f : MigrationReport → MigrationReport} (hrefl : ∀ s, R s s)
    (herrors : ∀ r, r.errors <+: (f r).errors)
    (hcounted : ∀ r g stats, r.stages g = some stats →
      ∃ stats', (f r).stages g = some stats' ∧ (g = .bookings → stats.errors ≤ stats'.errors))
    (htallied : ∀ r, Tallied r → Tallied (f r)) (w : World σ) :
    Tame R E w { w with report := f w.report } where
  server := hrefl _
  log := List.suffix_refl _
  exchanges _ := rfl
  errors := herrors _
  counted := hcounted _
  tallied := htallied _
  rows := rfl
  processed _ _ _ _ := rfl
  emails _ _ _ := rfl

theorem Tame.refl (hrefl : ∀ s, R s s) (w : World σ) : Tame R E w w :=
  tame_store hrefl (fun _ => rfl) (fun _ _ _ _ _ => rfl) (fun _ _ _ _ => rfl) w

end Tame

section TameWrites
variable {R : σ → σ → Prop} {E : Entity → Prop} {api : Api σ} {p : MigrationPipeline σ}

/-- What the program writes is tame. -/
abbrev TameWrites (R : σ → σ → Prop) (E : Entity → Prop) {α : Type} (prog : Cli σ α) : Prop :=
  Writes (fun f => ∀ w, Tame R E w (f w)) prog

/-- Requests that concern no booking, unless bookings may be recorded. -/
def Permitted (E : Entity → Prop) (q : Request) : Prop := E .booking ∨ ¬ q.OfBooking

/-- Requests that create no name, unless names may be recorded. -/
def Allowed (E : Entity → Prop) (q : Request) : Prop := q.Naming → E .roomType ∨ E .ratePlan

variable (hrefl : ∀ s, R s s) (hapi : ∀ q, Permitted E q → Allowed E q → ∀ s, R s (api q s).2)

include hapi in
theorem tame_send {q : Request} (hq : Permitted E q) (hname : Allowed E q) :
    TameWrites R E (send api q) := by
  refine .read fun _ => .write ?_ (.ret _)
  intro w
  constructor
  case server => exact hapi q hq hname w.server
  case log => exact List.suffix_cons _ _
  case exchanges =>
    intro hE
    exact List.filter_cons_of_neg (by simpa using hq.resolve_left hE)
  case errors => exact List.prefix_rfl
  case counted => exact fun _ stats h => ⟨stats, h, fun _ => le_rfl⟩
  case tallied => exact fun h => h
  case rows => rfl
  case processed => exact fun _ _ _ _ => rfl
  case emails => exact fun _ _ _ => rfl

include hapi in
theorem tame_attempts {q : Request} (hq : Permitted E q) (hname : Allowed E q) (n : ℕ) :
    TameWrites R E (attempts api q n) := by
  induction n with
  | zero => exact writes_bind (tame_send hapi hq hname) fun _ => writes_ofExcept _
  | succ n ih =>
    refine writes_bind (tame_send hapi hq hname) fun reply => ?_
    split
    · exact writes_pure _
    · split
      · exact ih
      · exact writes_raise _

include hapi in
theorem tame_call {q : Request} (hq : Permitted E q) (hname : Allowed E q) :
    TameWrites R E (call api q) := by
  refine writes_bind (tame_attempts hapi hq hname 4) fun json => ?_
  split
  · exact writes_pure _
  · exact writes_raise _

include hapi in
theorem tame_getBooking (ext : String) : TameWrites R E (getBookingByExternalId api ext) := by
  unfold getBookingByExternalId
  simp only
  split
  · exact writes_pure _
  · exact writes_bind (tame_call hapi (.inr id) False.elim) fun _ => writes_pure _

include hrefl

theorem tame_count {g : Stage} {f : StageStats → StageStats} (hf : ∀ s, (f s).errors = s.errors) :
    TameWrites R E (MigrationPipeline.count g f) := by
  have hstages : ∀ (r : MigrationReport) h, (r.count g f).stages h =
      if h = g then (r.stages h).map f else r.stages h := fun _ _ => rfl
  refine writes_modify (tame_report (f := (·.count g f)) hrefl (fun _ => List.prefix_rfl) ?_ ?_)
  · intro r h stats hstats
    rw [hstages, hstats]
    split
    · exact ⟨f stats, rfl, fun _ => (hf stats).ge⟩
    · exact ⟨stats, rfl, fun _ => le_rfl⟩
  · intro r htallied h stats hstats hne
    rw [hstages] at hstats
    split at hstats
    · obtain ⟨stats', hstats', rfl⟩ := Option.map_eq_some_iff.mp hstats
      exact htallied h stats' hstats' (hf stats' ▸ hne)
    · exact htallied h stats hstats hne

/-- Errors that are counted and reported. -/
theorem tame_reported {g : Stage} {f : StageStats → StageStats} {e : ReportError}
    (hf : g = .bookings → ∀ s, s.errors ≤ (f s).errors) (hentity : e.entity ≠ "pipeline") :
    TameWrites R E (modify fun w =>
      { w with report := (w.report.count g f).addError e } : Cli σ Unit) := by
  refine writes_modify (tame_report (f := fun r => (r.count g f).addError e) hrefl
    (fun r => List.prefix_append r.errors [e]) ?_ ?_)
  · intro r h stats hstats
    by_cases hh : h = g
    · subst hh
      refine ⟨f stats, ?_, fun hg => hf hg stats⟩
      simp [MigrationReport.addError, MigrationReport.count, hstats]
    · refine ⟨stats, ?_, fun _ => le_rfl⟩
      simp [MigrationReport.addError, MigrationReport.count, hstats, hh]
  · intro r _ h stats _ _
    exact ⟨e, List.mem_append_right _ (List.mem_singleton.mpr rfl), hentity⟩

theorem tame_fault {g : Stage} {n : ℕ} {entity ref : String} {message : Message}
    (hentity : entity ≠ "pipeline") :
    TameWrites R E (MigrationPipeline.fault g n entity ref message) :=
  tame_reported hrefl (fun _ _ => Nat.le_add_right ..) hentity

theorem tame_ofStore {f : String → StateStore → StateStore}
    (hrows : ∀ run st, (f run st).stages = st.stages)
    (hprocessed : ∀ r st run e ext, ¬ E e →
      (f r st).processed run e ext = st.processed run e ext)
    (hemails : ¬ E .guest → ∀ r st run email,
      (f r st).mappings run .guestEmail email = st.mappings run .guestEmail email) :
    TameWrites R E (p.store f) := by
  unfold MigrationPipeline.store
  split
  · exact writes_pure _
  · exact writes_modify (tame_store hrefl (hrows _) (hprocessed _) fun hE => hemails hE _)

theorem tame_putMapping {kind : MappingKind} (hkind : kind = .guestEmail → E .guest)
    (name : String) (id : IdText) : TameWrites R E (p.putMapping kind name id) := by
  refine tame_ofStore hrefl (fun _ _ => rfl) (fun _ _ _ _ _ _ => rfl) fun hE r st run email => ?_
  have hne : MappingKind.guestEmail ≠ kind := fun h => hE (hkind h.symm)
  simp [StateStore.putMapping, hne]

theorem tame_markProcessed {entity : Entity} (hentity : E entity) (ext : String)
    (id : Option IdText) (result : Outcome) :
    TameWrites R E (p.markProcessed entity ext id result) := by
  refine tame_ofStore hrefl (fun _ _ => rfl) (fun r st run e ext' hE => ?_) fun _ _ _ _ _ => rfl
  have hne : e ≠ entity := fun h => hE (h ▸ hentity)
  simp [StateStore.markProcessed, hne]

omit hrefl in
theorem tame_processedSkip (entity : Entity) (ext : String) :
    TameWrites R E (p.processedSkip entity ext) := by
  unfold MigrationPipeline.processedSkip
  split
  · exact writes_pure _
  · exact writes_select _

/-! The stages, after their counters have been set -/

variable (hclient : ∀ q, Permitted E q → Allowed E q → ∀ s, R s (p.client q s).2)

omit hrefl in
include hclient in
theorem tame_roomTypeMap : TameWrites R E p.roomTypeMap :=
  writes_bind (tame_call hclient (.inr id) False.elim) fun _ => writes_pure _

omit hrefl in
include hclient in
theorem tame_ratePlanMap : TameWrites R E p.ratePlanMap :=
  writes_bind (tame_call hclient (.inr id) False.elim) fun _ => writes_pure _

include hclient

theorem tame_migrateRoomTypes (hE : E .roomType) (byName : String → Option UUID)
    (rts : List RoomTypeRecord) : TameWrites R E (p.migrateRoomTypes byName rts) := by
  have hpersist : ∀ name id result, TameWrites R E (p.persistRoomType name id result) :=
    fun _ _ _ => writes_bind (tame_putMapping hrefl (fun h => by cases h) ..) fun _ =>
      tame_markProcessed hrefl hE ..
  induction rts generalizing byName with
  | nil => exact writes_pure _
  | cons rt rest ih =>
    refine writes_bind ?_ fun byName => ih byName
    unfold MigrationPipeline.migrateRoomType
    split
    · exact writes_bind (tame_count hrefl fun _ => rfl) fun _ =>
        writes_bind (hpersist ..) fun _ => writes_pure _
    · refine writes_tryCatch ?_ fun _ =>
        writes_bind (tame_fault hrefl (by decide)) fun _ => writes_pure _
      exact writes_bind (tame_call hclient (.inr id) fun _ => .inl hE) fun _ =>
        writes_bind (tame_count hrefl fun _ => rfl) fun _ =>
          writes_bind (hpersist ..) fun _ => writes_pure _

theorem tame_migrateRatePlans (hE : E .ratePlan) (byName : String → Option UUID)
    (rps : List RatePlanRecord) : TameWrites R E (p.migrateRatePlans byName rps) := by
  have hpersist : ∀ name id result, TameWrites R E (p.persistRatePlan name id result) :=
    fun _ _ _ => writes_bind (tame_putMapping hrefl (fun h => by cases h) ..) fun _ =>
      tame_markProcessed hrefl hE ..
  induction rps generalizing byName with
  | nil => exact writes_pure _
  | cons rp rest ih =>
    refine writes_bind ?_ fun byName => ih byName
    unfold MigrationPipeline.migrateRatePlan
    split
    · exact writes_bind (tame_count hrefl fun _ => rfl) fun _ =>
        writes_bind (hpersist ..) fun _ => writes_pure _
    · refine writes_tryCatch ?_ fun _ =>
        writes_bind (tame_fault hrefl (by decide)) fun _ => writes_pure _
      exact writes_bind (tame_call hclient (.inr id) fun _ => .inr hE) fun _ =>
        writes_bind (tame_count hrefl fun _ => rfl) fun _ =>
          writes_bind (hpersist ..) fun _ => writes_pure _

theorem tame_bulkRooms (rt : UUID) (chunk : List RoomItem) :
    TameWrites R E (p.bulkRooms rt chunk) :=
  writes_tryCatch (writes_bind (tame_call hclient (.inr id) False.elim) fun _ =>
    tame_count hrefl fun _ => rfl) fun _ => tame_fault hrefl (by decide)

theorem tame_bulkRoomsOfType (rt : UUID) (items : List RoomItem) :
    TameWrites R E (p.bulkRoomsOfType rt items) :=
  writes_bind (tame_count hrefl fun _ => rfl) fun _ =>
    writes_forEach fun chunk => tame_bulkRooms hrefl hclient rt chunk

theorem tame_sourceRooms (ids : String → Option UUID) (group : String × List RoomRecord) :
    TameWrites R E (p.sourceRooms ids group) := by
  unfold MigrationPipeline.sourceRooms
  split
  · exact writes_forEach fun _ => tame_fault hrefl (by decide)
  · exact tame_bulkRoomsOfType hrefl hclient ..

theorem tame_synthesizedRooms (ids : String → Option UUID) (need : String × ℕ) :
    TameWrites R E (p.synthesizedRooms ids need) := by
  unfold MigrationPipeline.synthesizedRooms
  split
  · exact tame_fault hrefl (by decide)
  · exact tame_bulkRoomsOfType hrefl hclient ..

theorem tame_putRates (rt rp : UUID) (chunk : ℤ × ℤ) : TameWrites R E (p.putRates rt rp chunk) :=
  writes_tryCatch (writes_bind (tame_call hclient (.inr id) False.elim) fun _ =>
    tame_count hrefl fun _ => rfl) fun _ => tame_fault hrefl (by decide)

theorem tame_seedAvailability (rt : UUID) (chunk : ℤ × ℤ) :
    TameWrites R E (p.seedAvailability rt chunk) :=
  writes_tryCatch (writes_bind (tame_call hclient (.inr id) False.elim) fun _ =>
    tame_count hrefl fun _ => rfl) fun _ => tame_fault hrefl (by decide)

theorem tame_guestLookup (hE : E .guest) (email : String) :
    TameWrites R E (p.guestLookupOpenpms email) := by
  refine writes_bind ?_ fun mapped => ?_
  · unfold MigrationPipeline.mappedGuest
    split
    · exact writes_pure _
    · exact writes_select _
  · split
    · exact writes_pure _
    · refine writes_bind (tame_call hclient (.inr id) False.elim) fun items =>
        writes_bind ?_ fun _ => writes_pure _
      unfold MigrationPipeline.firstWithEmail
      split
      · exact writes_pure _
      · split
        · exact writes_raise _
        · exact writes_bind (tame_putMapping hrefl (fun _ => hE) ..) fun _ => writes_pure _

theorem tame_updateGuest (hE : E .guest) (g : GuestRecord) (id : IdText) :
    TameWrites R E (p.updateGuest g id) := by
  refine writes_bind ?_ fun uuid => writes_bind (@tame_call _ _ _ _ hclient
    (.patchGuest uuid (guestPatchPayload g)) (.inr fun h => h) False.elim) fun _ =>
      writes_bind (tame_count hrefl fun _ => rfl) fun _ => tame_markProcessed hrefl hE ..
  cases id with
  | uuid id => exact writes_pure _
  | other text => exact writes_raise _

omit hclient in
theorem tame_skipGuest (hE : E .guest) (g : GuestRecord) (id : Option IdText) :
    TameWrites R E (p.skipGuest g id) :=
  writes_bind (tame_count hrefl fun _ => rfl) fun _ => tame_markProcessed hrefl hE ..

theorem tame_finalizeGuestExisting (hE : E .guest) (g : GuestRecord) (id : IdText) :
    TameWrites R E (p.finalizeGuestExisting g id) := by
  unfold MigrationPipeline.finalizeGuestExisting
  split
  · exact writes_raise _
  · exact writes_bind (tame_count hrefl fun _ => rfl) fun _ => tame_markProcessed hrefl hE ..
  · exact tame_updateGuest hrefl hclient hE ..

theorem tame_handleGuestPostConflict (hE : E .guest) (g : GuestRecord) :
    TameWrites R E (p.handleGuestPostConflict g) := by
  refine writes_bind (tame_guestLookup hrefl hclient hE _) fun found => ?_
  split
  · exact tame_skipGuest hrefl hE ..
  · split
    · exact writes_raise _
    · exact tame_skipGuest hrefl hE ..
    · exact tame_updateGuest hrefl hclient hE ..

theorem tame_postGuest (hE : E .guest) (g : GuestRecord) (body : GuestBody) :
    TameWrites R E (p.postGuest g body) := by
  refine writes_bind (tame_call hclient (.inr id) False.elim) fun id =>
    writes_bind (tame_count hrefl fun _ => rfl) fun _ => ?_
  split
  · exact writes_raise _
  · refine writes_bind (tame_markProcessed hrefl hE ..) fun _ => ?_
    split
    · exact writes_pure _
    · exact tame_putMapping hrefl (fun _ => hE) ..

theorem tame_createGuest (hE : E .guest) (g : GuestRecord) : TameWrites R E (p.createGuest g) := by
  have hfault : ∀ e, TameWrites R E (MigrationPipeline.guestFault g e : Cli σ Unit) :=
    fun _ => tame_fault hrefl (by decide)
  refine writes_tryCatch (tame_postGuest hrefl hclient hE ..) fun e => ?_
  split
  · exact tame_handleGuestPostConflict hrefl hclient hE g
  · refine writes_tryCatch (tame_postGuest hrefl hclient hE ..) fun e => ?_
    split
    · exact tame_handleGuestPostConflict hrefl hclient hE g
    · exact hfault _
  · exact hfault _

theorem tame_migrateGuest (hE : E .guest) (g : GuestRecord) :
    TameWrites R E (p.migrateGuest g) := by
  refine writes_bind (tame_processedSkip ..) fun done => ?_
  split
  · exact tame_count hrefl fun _ => rfl
  · split
    · exact tame_createGuest hrefl hclient hE g
    · refine writes_bind (tame_guestLookup hrefl hclient hE _) fun existing => ?_
      split
      · exact tame_finalizeGuestExisting hrefl hclient hE ..
      · exact tame_createGuest hrefl hclient hE g

omit hrefl in
theorem tame_sync (hE : E .booking) (id : UUID) (current : String) (target : BookingStatus) :
    TameWrites R E (p.syncBookingLifecycleStatus id current target) := by
  unfold MigrationPipeline.syncBookingLifecycleStatus
  split
  · exact writes_pure _
  · refine writes_tryCatch ?_ fun _ => writes_pure _
    exact writes_bind (@tame_attempts _ _ _ _ hclient (.patchBooking id target) (.inl hE)
      False.elim 4) fun _ => writes_pure _

omit hclient in
theorem tame_bookingDone (hE : E .booking) (b : BookingRecord) (id : Option UUID)
    {f : StageStats → StageStats} (hf : ∀ s, (f s).errors = s.errors) (result : Outcome) :
    TameWrites R E (p.bookingDone b id f result) :=
  writes_bind (tame_count hrefl hf) fun _ => tame_markProcessed hrefl hE ..

theorem tame_foundExisting (hE : E .booking) (b : BookingRecord) (row : BookingItem)
    (reason : MigrationPipeline.Reason) :
    TameWrites R E (p.handleBookingFoundExisting b row reason) := by
  unfold MigrationPipeline.handleBookingFoundExisting
  split
  · exact writes_raise _
  · split
    · exact writes_raise _
    · split <;> exact tame_bookingDone hrefl hE b _ (fun _ => by rfl) _
    · exact writes_bind (tame_sync hclient hE ..) fun _ =>
        tame_bookingDone hrefl hE b _ (fun _ => by rfl) _

theorem tame_createBooking (hE : E .booking) (b : BookingRecord) (rt rp : UUID) :
    TameWrites R E (p.createBooking b rt rp) := by
  refine writes_bind (tame_call hclient (.inl hE) False.elim) fun id =>
    writes_bind (tame_count hrefl fun _ => rfl) fun _ => ?_
  split
  · exact writes_raise _
  · refine writes_bind (tame_markProcessed hrefl hE ..) fun _ => ?_
    split
    · exact writes_pure _
    · exact tame_sync hclient hE ..

theorem tame_createOrReport (hE : E .booking) (b : BookingRecord) (rt rp : UUID) :
    TameWrites R E (p.createOrReport b rt rp) := by
  have hconflict : TameWrites R E (p.handleBookingConflict b) := by
    refine writes_bind (tame_getBooking hclient _) fun row => ?_
    split
    · exact tame_foundExisting hrefl hclient hE ..
    · exact tame_bookingDone hrefl hE b _ (fun _ => by rfl) _
  refine writes_tryCatch (writes_tryCatch (tame_createBooking hrefl hclient hE ..) fun e => ?_)
    fun e => ?_
  · split
    · exact hconflict
    · exact writes_raise _
  · split
    · exact writes_raise _
    · exact tame_fault hrefl (by decide)

theorem tame_migrateBooking (hE : E .booking) (roomTypes ratePlans : String → Option UUID)
    (b : BookingRecord) : TameWrites R E (p.migrateBooking roomTypes ratePlans b) := by
  refine writes_bind (tame_processedSkip ..) fun done => ?_
  split
  · exact tame_count hrefl fun _ => rfl
  · split
    · split
      · refine writes_bind (tame_getBooking hclient _) fun row => ?_
        split
        · exact tame_foundExisting hrefl hclient hE ..
        · exact tame_createOrReport hrefl hclient hE ..
      · exact tame_createOrReport hrefl hclient hE ..
    · exact tame_fault hrefl (by decide)

/-- Every stage sets its counters and is tame from then on. -/
theorem tame_stage {g : Stage} {stage : Cli σ Unit} (hmem : (g, stage) ∈ p.stageRunners)
    (hE : ∀ e, (g = .roomTypes ∧ e = .roomType) ∨ (g = .ratePlans ∧ e = .ratePlan) ∨
      (g = .guests ∧ e = .guest) ∨ (g = .bookings ∧ e = .booking) → E e) :
    ∃ stats rest, stage = (MigrationPipeline.setStats g stats >>= fun _ => rest) ∧
      TameWrites R E rest := by
  simp only [MigrationPipeline.stageRunners, List.mem_cons, List.not_mem_nil, or_false,
    Prod.mk.injEq] at hmem
  rcases hmem with ⟨rfl, rfl⟩ | ⟨rfl, rfl⟩ | ⟨rfl, rfl⟩ | ⟨rfl, rfl⟩ | ⟨rfl, rfl⟩ | ⟨rfl, rfl⟩ |
    ⟨rfl, rfl⟩ | ⟨rfl, rfl⟩
  · refine ⟨_, _, rfl, writes_bind (tame_roomTypeMap hclient) fun _ => ?_⟩
    exact tame_migrateRoomTypes hrefl hclient (hE _ (.inl ⟨rfl, rfl⟩)) ..
  · refine ⟨_, _, rfl, writes_bind (tame_roomTypeMap hclient) fun ids => ?_⟩
    split
    · exact writes_forEach fun group => tame_sourceRooms hrefl hclient ..
    · exact writes_forEach fun need => tame_synthesizedRooms hrefl hclient ..
  · refine ⟨_, _, rfl, writes_bind (tame_ratePlanMap hclient) fun _ => ?_⟩
    exact tame_migrateRatePlans hrefl hclient (hE _ (.inr (.inl ⟨rfl, rfl⟩))) ..
  · refine ⟨_, _, rfl, ?_⟩
    split
    · exact writes_pure _
    · exact writes_bind (tame_roomTypeMap hclient) fun _ =>
        writes_bind (tame_ratePlanMap hclient) fun _ =>
          writes_bind (writes_forEach fun pair => writes_forEach fun chunk =>
            tame_putRates hrefl hclient ..) fun _ => tame_count hrefl fun _ => rfl
  · refine ⟨_, _, rfl, ?_⟩
    split
    · exact writes_pure _
    · exact writes_bind (tame_roomTypeMap hclient) fun _ =>
        writes_bind (writes_forEach fun rt => writes_forEach fun chunk =>
          tame_seedAvailability hrefl hclient ..) fun _ => tame_count hrefl fun _ => rfl
  · exact ⟨_, _, rfl, writes_forEach fun g =>
      tame_migrateGuest hrefl hclient (hE _ (.inr (.inr (.inl ⟨rfl, rfl⟩)))) g⟩
  · refine ⟨_, _, rfl, writes_bind (tame_roomTypeMap hclient) fun _ =>
      writes_bind (tame_ratePlanMap hclient) fun _ => writes_forEach fun b => ?_⟩
    exact tame_migrateBooking hrefl hclient (hE _ (.inr (.inr (.inr ⟨rfl, rfl⟩)))) ..
  · refine ⟨_, _, rfl, ?_⟩
    split
    · exact tame_count hrefl fun _ => rfl
    · refine writes_tryCatch ?_ fun _ => ?_
      · exact writes_bind (tame_call hclient (.inr id) False.elim) fun _ =>
          tame_count hrefl fun _ => rfl
      · exact tame_reported hrefl (fun h => by cases h) (show "verify" ≠ "pipeline" by decide)

end TameWrites

/-! Quiet writes -/

section Writes
variable {has : σ → String → Prop}

/-- What the program writes is quiet. -/
abbrev Silent (has : σ → String → Prop) {α : Type} (prog : Cli σ α) : Prop :=
  Writes (fun f => ∀ w, Quiet has w (f w)) prog

/-- The server keeps its bookings. -/
def KeepsBookings (has : σ → String → Prop) (s s' : σ) : Prop := ∀ ext, has s ext → has s' ext

/-- Where no booking is recorded, what is tame is quiet. -/
theorem silent_of_tame {α : Type} {prog : Cli σ α}
    (h : TameWrites (KeepsBookings has) (· ≠ .booking) prog) : Silent has prog := by
  refine h.mono fun f hf w => ⟨⟨(hf w).server, (hf w).log, (hf w).errors, ?_, ?_⟩, ?_⟩
  · intro stats hstats
    obtain ⟨stats', hstats', hle⟩ := (hf w).counted .bookings stats hstats
    exact ⟨stats', hstats', hle rfl⟩
  · exact fun run => by rw [(hf w).rows]
  · exact fun run ext => (hf w).processed run .booking ext fun h => h rfl

theorem silent_report (f : MigrationReport → MigrationReport)
    (herrors : ∀ r, r.errors <+: (f r).errors)
    (hstats : ∀ r stats, r.stages .bookings = some stats →
      ∃ stats', (f r).stages .bookings = some stats' ∧ stats.errors ≤ stats'.errors) :
    Silent has (modify fun w => { w with report := f w.report } : Cli σ Unit) := by
  refine writes_modify fun w => ?_
  exact ⟨⟨fun _ h => h, List.suffix_refl _, herrors _, hstats _, fun _ => rfl⟩, fun _ _ => rfl⟩

theorem silent_setStats {g : Stage} (hg : g ≠ .bookings) (stats : StageStats) :
    Silent has (MigrationPipeline.setStats g stats) := by
  refine silent_report (·.setStats g stats) (fun _ => List.prefix_rfl)
    fun r s hs => ⟨s, ?_, le_rfl⟩
  simp [MigrationReport.setStats, hs, hg.symm]

theorem silent_count {g : Stage} {f : StageStats → StageStats}
    (hf : ∀ s, s.errors ≤ (f s).errors) : Silent has (MigrationPipeline.count g f) := by
  refine silent_report (·.count g f) (fun _ => List.prefix_rfl) fun r s hs => ?_
  by_cases hg : Stage.bookings = g
  · subst hg
    exact ⟨f s, by simp [MigrationReport.count, hs], hf s⟩
  · exact ⟨s, by simp [MigrationReport.count, hg, hs], le_rfl⟩

variable {p : MigrationPipeline σ}

theorem silent_setStage {g : Stage} (hg : g ≠ .bookings) (row : StageRow) :
    Silent has (p.store fun run st => st.setStageStatus run g row) := by
  unfold MigrationPipeline.store
  split
  · exact writes_pure _
  · refine writes_modify fun w => ⟨⟨fun _ h => h, List.suffix_refl _, List.prefix_rfl,
      fun stats h => ⟨stats, h, le_rfl⟩, fun run => ?_⟩, fun _ _ => rfl⟩
    simp [StateStore.setStageStatus, hg.symm]

theorem silent_attempts {api : Api σ} (ht : Truthful api has) (q : Request) (n : ℕ) :
    Silent has (attempts api q n) := by
  have hsend : Silent has (send api q) := by
    refine .read fun _ => .write ?_ (.ret _)
    intro w
    exact ⟨⟨ht.kept q w.server, List.suffix_cons _ _, List.prefix_rfl,
      fun stats h => ⟨stats, h, le_rfl⟩, fun _ => rfl⟩, fun _ _ => rfl⟩
  induction n with
  | zero => exact writes_bind hsend fun _ => writes_ofExcept _
  | succ n ih =>
    refine writes_bind hsend fun reply => ?_
    split
    · exact writes_pure _
    · split
      · exact ih
      · exact writes_raise _

theorem silent_fault {g : Stage} {n : ℕ} {entity ref : String} {message : Message}
    (hentity : entity ≠ "pipeline") :
    Silent has (MigrationPipeline.fault g n entity ref message : Cli σ Unit) :=
  silent_of_tame (tame_fault (fun _ _ h => h) hentity)

theorem silent_getBooking {api : Api σ} (ht : Truthful api has) (ext : String) :
    Silent has (getBookingByExternalId api ext) :=
  silent_of_tame (tame_getBooking (fun q _ _ => ht.kept q) ext)

variable (ht : Truthful p.client has)
include ht

theorem silent_roomTypeMap : Silent has p.roomTypeMap :=
  silent_of_tame (tame_roomTypeMap fun q _ _ => ht.kept q)

theorem silent_ratePlanMap : Silent has p.ratePlanMap :=
  silent_of_tame (tame_ratePlanMap fun q _ _ => ht.kept q)

/-- Only the bookings stage records bookings. -/
theorem silent_stageRunners {runner : Stage × Cli σ Unit} (hmem : runner ∈ p.stageRunners)
    (hne : runner.1 ≠ .bookings) : Silent has runner.2 := by
  obtain ⟨g, stage⟩ := runner
  have hentities : ∀ e, (g = .roomTypes ∧ e = .roomType) ∨ (g = .ratePlans ∧ e = .ratePlan) ∨
      (g = .guests ∧ e = .guest) ∨ (g = .bookings ∧ e = .booking) → e ≠ Entity.booking := by
    rintro e (⟨-, rfl⟩ | ⟨-, rfl⟩ | ⟨-, rfl⟩ | ⟨hg, -⟩)
    · decide
    · decide
    · decide
    · exact absurd hg hne
  obtain ⟨stats, rest, rfl, hrest⟩ := tame_stage (R := KeepsBookings has) (E := (· ≠ .booking))
    (fun _ _ h => h) (fun q _ _ => ht.kept q) hmem hentities
  exact writes_bind (silent_setStats hne stats) fun _ => silent_of_tame hrest

omit ht in
theorem runner_bookings {stage : Cli σ Unit} (hmem : (Stage.bookings, stage) ∈ p.stageRunners) :
    stage = p.stageBookings := by
  simpa [MigrationPipeline.stageRunners] using hmem

omit ht in
/-- Each stage runs once. -/
theorem stage_once {g : Stage} {stage : Cli σ Unit} {rest : List (Stage × Cli σ Unit)}
    (hsuffix : (g, stage) :: rest <:+ p.stageRunners) : g ∉ rest.map (·.1) := by
  have hnodup : (p.stageRunners.map (·.1)).Nodup := by
    change [Stage.roomTypes, .rooms, .ratePlans, .rates, .availability, .guests, .bookings,
      .verify].Nodup
    decide
  exact (List.nodup_cons.mp (hnodup.sublist (hsuffix.sublist.map (·.1)))).1

omit ht in
/-- What a stage and the statements around it write. -/
theorem writes_runStage {W : (World σ → World σ) → Prop} {g : Stage} {stage : Cli σ Unit}
    (hstats : ∀ stats, Writes W (MigrationPipeline.setStats g stats))
    (hrow : ∀ row, Writes W (p.store fun run st => st.setStageStatus run g row))
    (hstage : Writes W stage) : Writes W (p.runStage g stage) := by
  have hend : ∀ status, Writes W (p.endStage g status) := fun status =>
    writes_bind (writes_select _) fun stats => hrow _
  refine writes_bind ?_ fun skipped => ?_
  · unfold MigrationPipeline.maybeSkipStage
    split
    · exact writes_pure _
    · split
      · refine writes_bind (writes_select _) fun row => ?_
        split
        · exact writes_bind (hstats _) fun _ => writes_pure _
        · exact writes_pure _
      · exact writes_pure _
  · split
    · exact writes_pure _
    · refine writes_bind (hrow _) fun _ => writes_bind ?_ fun _ => hend _
      exact writes_tryCatch hstage fun e => writes_bind (hend _) fun _ => writes_raise _

omit ht in
theorem silent_runStage {g : Stage} {stage : Cli σ Unit} (hg : g ≠ .bookings)
    (hstage : Silent has stage) : Silent has (p.runStage g stage) :=
  writes_runStage (silent_setStats hg) (silent_setStage hg) hstage

end Writes

/-! Answers -/

theorem Reply.result_ok {β : Type} {reply : Reply β} {json : Option β}
    (h : reply.result = .ok json) :
    ∃ code text, reply = .response code text json ∧ 200 ≤ code ∧ code < 300 := by
  cases reply with
  | transportError => cases h
  | otherError => cases h
  | response code text json' =>
    simp only [Reply.result] at h
    split at h
    · cases h
    · split at h
      · cases h
      · split at h
        · cases h
        · split at h
          · next hcode =>
            cases h
            exact ⟨code, text, rfl, hcode⟩
          · cases h

theorem Reply.result_conflict {β : Type} {reply : Reply β} {text : String}
    (h : reply.result = .error (.conflict text)) : reply.status = some 409 := by
  cases reply with
  | transportError => cases h
  | otherError => cases h
  | response code text' json =>
    simp only [Reply.result] at h
    split at h
    · cases h
    · split at h
      · next hcode => simp [Reply.status, hcode]
      · split at h
        · cases h
        · split at h <;> cases h

/-- The request was answered with success, and the server is as it was then. -/
def Served (api : Api σ) (q : Request) (json : Option (Answer q)) (w : World σ) : Prop :=
  ∃ s code text, (api q s).1 = .response code text json ∧ 200 ≤ code ∧ code < 300 ∧
    w.server = (api q s).2

/-- An exception for a 409 comes from an exchange that the log has. -/
def ConflictLogged (q : Request) (e : Exn) (w : World σ) : Prop :=
  ∀ text, e = .conflict text → (⟨q, some 409⟩ : Exchange) ∈ w.log

section Answers
variable {has : σ → String → Prop} {api : Api σ} (ht : Truthful api has)
include ht

theorem quiet_send (q : Request) (w : World σ) : Quiet has w { w with
    server := (api q w.server).2
    log := ⟨q, (api q w.server).1.status⟩ :: w.log } :=
  ⟨⟨ht.kept q w.server, List.suffix_cons _ _, List.prefix_rfl, fun stats h => ⟨stats, h, le_rfl⟩,
    fun _ => rfl⟩, fun _ _ => rfl⟩

theorem passes_send {E : Exn → World σ → Prop} (q : Request) (w : World σ) :
    (send api q).Passes (Quiet has w) (fun reply w' => ∃ s, reply = (api q s).1 ∧
      w'.server = (api q s).2 ∧ (⟨q, reply.status⟩ : Exchange) ∈ w'.log) E w :=
  passes_read (passes_write (Quiet.refl w) (passes_pure (quiet_send ht q w)
    ⟨w.server, rfl, rfl, List.mem_cons_self ..⟩))

theorem passes_attempts (q : Request) (n : ℕ) (w : World σ) :
    (attempts api q n).Passes (Quiet has w) (Served api q) (ConflictLogged q) w := by
  have hserved : ∀ {reply : Reply (Answer q)} {json w'}, reply.result = .ok json →
      (∃ s, reply = (api q s).1 ∧ w'.server = (api q s).2 ∧
        (⟨q, reply.status⟩ : Exchange) ∈ w'.log) → Served api q json w' := by
    rintro reply json w' hok ⟨s, hreply, hserver, -⟩
    obtain ⟨code, text, hresponse, hlo, hhi⟩ := Reply.result_ok hok
    exact ⟨s, code, text, hreply ▸ hresponse, hlo, hhi, hserver⟩
  have hlogged : ∀ {reply : Reply (Answer q)} {e} {w' : World σ}, reply.result = .error e →
      (⟨q, reply.status⟩ : Exchange) ∈ w'.log → ConflictLogged q e w' := by
    rintro reply e w' herror hmem text rfl
    rwa [Reply.result_conflict herror] at hmem
  induction n generalizing w with
  | zero =>
    refine (passes_send ht q w).bind fun reply w' hquiet hreply => ?_
    cases hresult : reply.result with
    | ok json => exact passes_pure hquiet (hserved hresult hreply)
    | error e =>
      obtain ⟨s, -, -, hmem⟩ := hreply
      exact passes_raise hquiet (hlogged hresult hmem)
  | succ n ih =>
    refine (passes_send ht q w).bind fun reply w' hquiet hreply => ?_
    cases hresult : reply.result with
    | ok json => exact passes_pure hquiet (hserved hresult hreply)
    | error e =>
      obtain ⟨s, -, -, hmem⟩ := hreply
      simp only
      split
      · exact (ih w').mono (fun _ h => hquiet.trans h) (fun _ _ _ h => h) fun _ _ _ h => h
      · exact passes_raise hquiet (hlogged hresult hmem)

theorem passes_call (q : Request) (w : World σ) :
    (call api q).Passes (Quiet has w) (fun answer w' => Served api q (some answer) w')
      (ConflictLogged q) w := by
  refine (passes_attempts ht q 4 w).bind fun json w' hquiet hserved => ?_
  cases json with
  | none => exact passes_raise hquiet fun text h => by cases h
  | some answer => exact passes_pure hquiet hserved

/-- A booking that is found by its id is held. -/
theorem passes_getBooking {ext : String} (hclean : Clean ext) (w : World σ) :
    (getBookingByExternalId api ext).Passes (Quiet has w)
      (fun row w' => ∀ item, row = some item → has w'.server ext) (fun _ _ => True) w := by
  have hext : Text.take 128 (Text.strip ext) = ext := by
    rw [hclean.strip_eq, hclean.take_eq]
  unfold getBookingByExternalId
  generalize hsent : Text.take 128 (Text.strip ext) = sent
  obtain rfl : ext = sent := hext.symm.trans hsent
  simp only [hclean.ne_empty, if_false]
  refine Passes.bind (((passes_call ht _ w).mono (fun _ h => h) (fun _ _ _ h => h)
    fun _ _ _ _ => trivial)) fun items w' hquiet hserved => ?_
  refine passes_pure hquiet ?_
  rintro item hitem
  obtain ⟨s, code, text, hreply, hlo, hhi, hserver⟩ := hserved
  cases items with
  | nil => cases hitem
  | cons row rest =>
    have hrow : row = some item := hitem
    rw [hrow] at hreply
    have hhas : has s ext := ht.listed ext s code text item rest hreply hlo hhi hclean
    rw [hserver]
    exact ht.kept _ s ext hhas

end Answers

end OpenPms.Migration
