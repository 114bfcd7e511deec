import OpenPms.MigrationEmails

/-!
The counters of the guests stage and the bookings stage. A record is counted once if the
calls that no handler stands around are answered, and if a created row has an id: what is
counted as created before its id is missed is counted as an error again.
-/
namespace OpenPms.Migration

open Transaction Prog

/-! Counting -/

/-- The records that the counters account for. -/
def StageStats.handled (s : StageStats) : ℕ :=
  s.created + s.updated + s.existed + s.skipped + s.errors

section Counting
variable {σ : Type} {g : Stage} {m n : ℕ} {w w₁ w' : World σ}

/-- `n` more records are accounted for, of the same total. -/
def Counts (g : Stage) (n : ℕ) (w w' : World σ) : Prop :=
  ∀ s, w.report.stages g = some s →
    ∃ s', w'.report.stages g = some s' ∧ s'.total = s.total ∧ s'.handled = s.handled + n

theorem counts_of_report (h : w'.report = w.report) : Counts g 0 w w' := by
  intro s hs
  exact ⟨s, by rw [h, hs], rfl, rfl⟩

theorem Counts.trans (h : Counts g m w w₁) (h' : Counts g n w₁ w') : Counts g (m + n) w w' := by
  intro s hs
  obtain ⟨s₁, hs₁, htotal, hhandled⟩ := h s hs
  obtain ⟨s₂, hs₂, htotal', hhandled'⟩ := h' s₁ hs₁
  exact ⟨s₂, hs₂, htotal'.trans htotal, by omega⟩

theorem counts_count {f : StageStats → StageStats} (htotal : ∀ s, (f s).total = s.total)
    (hhandled : ∀ s, (f s).handled = s.handled + 1) :
    Counts g 1 w { w with report := w.report.count g f } := by
  intro s hs
  exact ⟨f s, by simp [MigrationReport.count, hs], htotal s, hhandled s⟩

theorem exec_count {f : StageStats → StageStats} (htotal : ∀ s, (f s).total = s.total)
    (hhandled : ∀ s, (f s).handled = s.handled + 1) :
    ∃ w', (MigrationPipeline.count g f : Cli σ Unit).exec w = (.ok (), w') ∧ Counts g 1 w w' :=
  ⟨_, rfl, counts_count htotal hhandled⟩

/-- A counter goes up, and something is stored. -/
theorem exec_count_store {p : MigrationPipeline σ} {f : StageStats → StageStats}
    {change : String → StateStore → StateStore} (htotal : ∀ s, (f s).total = s.total)
    (hhandled : ∀ s, (f s).handled = s.handled + 1) :
    ∃ w', (do MigrationPipeline.count g f; p.store change : Cli σ Unit).exec w = (.ok (), w') ∧
      Counts g 1 w w' := by
  obtain ⟨w₁, hcount, hone⟩ := exec_count (g := g) (w := w) htotal hhandled
  obtain ⟨w', hstore, hreport⟩ := p.exec_store change w₁
  exact ⟨w', exec_bind_ok.mpr ⟨(), w₁, hcount, hstore⟩, hone.trans (counts_of_report hreport)⟩

theorem exec_fault (entity ref : String) (message : Message) (w : World σ) :
    ∃ w', (MigrationPipeline.fault g 1 entity ref message : Cli σ Unit).exec w = (.ok (), w') ∧
      Counts g 1 w w' := by
  refine ⟨_, rfl, fun s hs => ⟨{ s with errors := s.errors + 1 }, ?_, rfl, ?_⟩⟩
  · simp [MigrationReport.count, MigrationReport.addError, hs]
  · simp only [StageStats.handled]
    omega

theorem counts_call (api : Api σ) (q : Request) : Counts g 0 w ((call api q).exec w).2 :=
  counts_of_report (sends_call api q w).report

/-- An exception that is not raised for the mode "fail". -/
def Exn.Caught (e : Exn) : Prop := ∀ why, e ≠ .onConflictFail why

theorem caught_result {β : Type} {reply : Reply β} {e : Exn} (h : reply.result = .error e) :
    e.Caught := by
  intro why he
  subst he
  unfold Reply.result at h
  repeat' split at h
  all_goals cases h

theorem raises_attempts (api : Api σ) (q : Request) (n : ℕ) :
    Raises Exn.Caught (attempts api q n) := by
  induction n with
  | zero =>
    refine raises_bind (fun s e s' h => by cases h) fun reply s e s' h => ?_
    cases hresult : reply.result with
    | error e' =>
      rw [hresult] at h
      cases h
      exact caught_result hresult
    | ok json =>
      rw [hresult] at h
      cases h
  | succ n ih =>
    refine raises_bind (fun s e s' h => by cases h) fun reply => ?_
    split
    · exact raises_pure _
    · next e hresult =>
      split
      · exact ih
      · exact raises_raise (caught_result hresult)

theorem raises_call (api : Api σ) (q : Request) : Raises Exn.Caught (call api q) := by
  refine raises_bind (raises_attempts api q 4) fun json => ?_
  cases json with
  | none => exact raises_raise (by simp [Exn.Caught])
  | some answer => exact raises_pure _

/-! Programs that count a record -/

/-- A safe record is counted once; one that is not raises, or it is counted twice. -/
structure Judged (g : Stage) (safe : Prop) (prog : Cli σ Unit) (w : World σ) : Prop where
  once : safe → ∃ w', prog.exec w = (.ok (), w') ∧ Counts g 1 w w'
  twice : ¬ safe → ∀ w', prog.exec w = (.ok (), w') → Counts g 2 w w'

variable {safe : Prop} {prog prog' : Cli σ Unit}

theorem judged_once (hsafe : safe) (h : ∃ w', prog.exec w = (.ok (), w') ∧ Counts g 1 w w') :
    Judged g safe prog w :=
  ⟨fun _ => h, fun hnot => absurd hsafe hnot⟩

theorem judged_twice (hsafe : ¬ safe)
    (h : ∃ w', prog.exec w = (.ok (), w') ∧ Counts g 2 w w') : Judged g safe prog w := by
  refine ⟨fun hsafe' => absurd hsafe' hsafe, fun _ w₂ hexec => ?_⟩
  obtain ⟨w', hexec', hcounts⟩ := h
  rw [hexec'] at hexec
  cases hexec
  exact hcounts

theorem judged_raises {e : Exn} (hsafe : ¬ safe) (h : (prog.exec w).1 = .error e) :
    Judged g safe prog w := by
  refine ⟨fun hsafe' => absurd hsafe' hsafe, fun _ w₂ hexec => ?_⟩
  rw [hexec] at h
  cases h

/-- What goes on from a state in which nothing has been counted yet. -/
theorem Judged.after (h : Judged g safe prog' w₁) (hexec : prog.exec w = prog'.exec w₁)
    (hcounts : Counts g 0 w w₁) : Judged g safe prog w := by
  refine ⟨fun hsafe => ?_, fun hsafe w' hok => ?_⟩
  · obtain ⟨w', hok, honce⟩ := h.once hsafe
    exact ⟨w', hexec.trans hok, by simpa using hcounts.trans honce⟩
  · rw [hexec] at hok
    simpa using hcounts.trans (h.twice hsafe w' hok)

theorem Judged.bind {α : Type} {first : Cli σ α} {next : α → Cli σ Unit} {a : α}
    (h : Judged g safe (next a) w₁) (hexec : first.exec w = (.ok a, w₁))
    (hcounts : Counts g 0 w w₁) : Judged g safe (first >>= next) w :=
  h.after (by rw [exec_bind, hexec]) hcounts

theorem judged_bind_raises {α : Type} {first : Cli σ α} {next : α → Cli σ Unit} {e : Exn}
    (hsafe : ¬ safe) (h : (first.exec w).1 = .error e) : Judged g safe (first >>= next) w := by
  refine judged_raises (e := e) hsafe ?_
  rcases hexec : first.exec w with ⟨e' | a, w'⟩
  · rw [hexec] at h
    cases h
    rw [exec_bind, hexec]
  · rw [hexec] at h
    cases h

end Counting

/-! Runs of a stage -/

section Runs
variable {σ α : Type} {g : Stage} {f : α → Cli σ Unit} {Safe : α → World σ → Prop}
  {items : List α} {w w' : World σ}

/-- Each record is safe in the state in which the loop comes to it. -/
def AllSafe (f : α → Cli σ Unit) (Safe : α → World σ → Prop) : List α → World σ → Prop
  | [], _ => True
  | a :: rest, w => Safe a w ∧ ∀ w', (f a).exec w = (.ok (), w') → AllSafe f Safe rest w'

theorem forEach_once (hstep : ∀ a w, Judged g (Safe a w) (f a) w)
    (hsafe : AllSafe f Safe items w) :
    ∃ w', (forEach items f).exec w = (.ok (), w') ∧ Counts g items.length w w' := by
  induction items generalizing w with
  | nil => exact ⟨w, rfl, counts_of_report rfl⟩
  | cons a rest ih =>
    obtain ⟨w₁, hfirst, honce⟩ := (hstep a w).once hsafe.1
    obtain ⟨w₂, hrest, hcounts⟩ := ih (hsafe.2 w₁ hfirst)
    refine ⟨w₂, exec_bind_ok.mpr ⟨(), w₁, hfirst, hrest⟩, ?_⟩
    rw [List.length_cons, Nat.add_comm]
    exact honce.trans hcounts

/-- A loop that ends has counted every record, and more if one of them was not safe. -/
theorem forEach_counts (hstep : ∀ a w, Judged g (Safe a w) (f a) w)
    (hexec : (forEach items f).exec w = (.ok (), w')) :
    ∃ n, items.length ≤ n ∧ Counts g n w w' ∧ (n = items.length → AllSafe f Safe items w) := by
  induction items generalizing w with
  | nil =>
    cases hexec
    exact ⟨0, le_refl _, counts_of_report rfl, fun _ => trivial⟩
  | cons a rest ih =>
    obtain ⟨_, w₁, hfirst, hrest⟩ := exec_bind_ok.mp hexec
    obtain ⟨n, hle, hcounts, hall⟩ := ih hrest
    by_cases hsafe : Safe a w
    · obtain ⟨w₂, hfirst', honce⟩ := (hstep a w).once hsafe
      rw [hfirst] at hfirst'
      cases hfirst'
      refine ⟨1 + n, by simp only [List.length_cons]; omega, honce.trans hcounts, fun hn => ?_⟩
      refine ⟨hsafe, fun w₂ hfirst' => ?_⟩
      rw [hfirst] at hfirst'
      cases hfirst'
      exact hall (by simp only [List.length_cons] at hn; omega)
    · have htwice := (hstep a w).twice hsafe w₁ hfirst
      refine ⟨2 + n, by simp only [List.length_cons]; omega, htwice.trans hcounts, fun hn => ?_⟩
      simp only [List.length_cons] at hn
      omega

/-- Every record is come to, and dealt with. -/
theorem forEach_attempts (hexec : (forEach items f).exec w = (.ok (), w')) {before after : List α}
    {a : α} (hsplit : items = before ++ a :: after) :
    ∃ w₁ w₂, (forEach before f).exec w = (.ok (), w₁) ∧ (f a).exec w₁ = (.ok (), w₂) := by
  induction before generalizing items w with
  | nil =>
    rw [hsplit] at hexec
    obtain ⟨_, w₂, hfirst, -⟩ := exec_bind_ok.mp hexec
    exact ⟨w, w₂, rfl, hfirst⟩
  | cons b rest ih =>
    rw [hsplit] at hexec
    obtain ⟨_, w₀, hfirst, hrest⟩ := exec_bind_ok.mp hexec
    obtain ⟨w₁, w₂, hbefore, hat⟩ := ih hrest rfl
    exact ⟨w₁, w₂, exec_bind_ok.mpr ⟨(), w₀, hfirst, hbefore⟩, hat⟩

/-- The stage returns, and its counters add up to the total. -/
def Counted (g : Stage) (stage : Cli σ Unit) (total : ℕ) (w : World σ) : Prop :=
  ∃ w' s, stage.exec w = (.ok (), w') ∧ w'.report.stages g = some s ∧ s.total = total ∧
    s.created + s.updated + s.existed + s.skipped + s.errors = total

/-- The stage comes to every record, and it goes on from there. -/
def Attempted (stage : Cli σ Unit) (f : α → Cli σ Unit) (items : List α) (w : World σ) : Prop :=
  ∃ start, stage.exec w = (forEach items f).exec start ∧
    ∀ before a after, items = before ++ a :: after →
      ∃ w₁ w₂, (forEach before f).exec start = (.ok (), w₁) ∧ (f a).exec w₁ = (.ok (), w₂)

/-- The counters of a loop add up exactly when each record is safe when its turn comes. -/
theorem counted_iff {stage : Cli σ Unit} {total : ℕ} {start : World σ} {s₀ : StageStats}
    (hstep : ∀ a w, Judged g (Safe a w) (f a) w)
    (hexec : stage.exec w = (forEach items f).exec start)
    (hstats : start.report.stages g = some s₀) (htotal : s₀.total = total)
    (hrest : s₀.handled + items.length = total) :
    Counted g stage total w ↔ AllSafe f Safe items start := by
  constructor
  · rintro ⟨w', s, hstage, hs, -, hsum⟩
    rw [hexec] at hstage
    obtain ⟨n, hle, hcounts, hall⟩ := forEach_counts hstep hstage
    obtain ⟨s', hs', -, hhandled⟩ := hcounts s₀ hstats
    rw [hs] at hs'
    cases hs'
    refine hall ?_
    simp only [StageStats.handled] at hhandled hrest
    omega
  · intro hsafe
    obtain ⟨w', hloop, hcounts⟩ := forEach_once hstep hsafe
    obtain ⟨s, hs, htotal', hhandled⟩ := hcounts s₀ hstats
    refine ⟨w', s, hexec.trans hloop, hs, htotal'.trans htotal, ?_⟩
    simp only [StageStats.handled] at hhandled hrest
    omega

theorem Counted.attempted {stage : Cli σ Unit} {total : ℕ} {start : World σ}
    (h : Counted g stage total w) (hexec : stage.exec w = (forEach items f).exec start) :
    Attempted stage f items w := by
  obtain ⟨w', s, hstage, -⟩ := h
  rw [hexec] at hstage
  exact ⟨start, hexec, fun before a after hsplit => forEach_attempts hstage hsplit⟩

end Runs

namespace MigrationPipeline

variable {σ : Type} (p : MigrationPipeline σ)

/-- The record was dealt with by an earlier run. -/
def AlreadyProcessed (entity : Entity) (externalId : String) (w : World σ) : Prop :=
  ∃ run, p.runId = some run ∧ w.store.isProcessed run entity externalId = true

theorem exec_processedSkip (entity : Entity) (externalId : String) (w : World σ) :
    ∃ done, (p.processedSkip entity externalId).exec w = (.ok done, w) ∧
      (done = true ↔ p.AlreadyProcessed entity externalId w) := by
  unfold processedSkip AlreadyProcessed
  cases p.runId with
  | none => exact ⟨false, rfl, by simp⟩
  | some run => exact ⟨_, rfl, by simp⟩

/-! Guests -/

/-- The id that the state file has for the address; an empty one does not count. -/
def remembered (w : World σ) (email : String) : Option IdText :=
  (p.runId.bind fun run => w.store.mappings run .guestEmail email).filter (· ≠ .other "")

/-- What a lookup of the address finds, and where it leaves the run, unless the list is not
answered or the row that it finds has no id. -/
def lookedUp (email : String) (w : World σ) : Option (Option IdText × World σ) :=
  match p.remembered w email with
  | some id => some (some id, w)
  | none =>
    match (call p.client (.listGuests email)).exec w with
    | (.error _, _) => none
    | (.ok items, w₁) =>
      match items.find? fun item => nameKey item.email = email with
      | none => some (none, w₁)
      | some item => item.id.map fun id =>
        ((some id).filter (· ≠ .other ""), ((p.putMapping .guestEmail email id).exec w₁).2)

theorem exec_lookup {email : String} {w : World σ} {found : Option IdText} {w' : World σ}
    (h : p.lookedUp email w = some (found, w')) :
    (p.guestLookupOpenpms email).exec w = (.ok found, w') ∧ Counts .guests 0 w w' := by
  rw [guestLookupOpenpms, exec_bind, exec_mappedGuest]
  cases hremembered : p.remembered w email with
  | some id =>
    have hfilter : (p.runId.bind fun run => w.store.mappings run .guestEmail email).filter
        (· ≠ .other "") = some id := hremembered
    simp only [lookedUp, hremembered] at h
    cases h
    simp only [hfilter]
    exact ⟨rfl, counts_of_report rfl⟩
  | none =>
    have hfilter : (p.runId.bind fun run => w.store.mappings run .guestEmail email).filter
        (· ≠ .other "") = none := hremembered
    have hcounts := counts_call (g := .guests) (w := w) p.client (.listGuests email)
    simp only [lookedUp, hremembered] at h
    simp only [hfilter]
    rw [exec_bind]
    rcases hcall : (call p.client (.listGuests email)).exec w with ⟨e | items, w₁⟩
    · simp [hcall] at h
    · rw [hcall] at h hcounts
      simp only at h ⊢
      unfold firstWithEmail
      cases hfind : items.find? fun item => nameKey item.email = email with
      | none =>
        simp only [hfind] at h
        cases h
        exact ⟨rfl, hcounts⟩
      | some item =>
        simp only [hfind] at h
        cases hid : item.id with
        | none => simp [hid] at h
        | some id =>
          obtain ⟨w₂, hput, hreport⟩ := p.exec_store
            (fun run st => st.putMapping run .guestEmail email id) w₁
          have hmapped : (p.putMapping .guestEmail email id).exec w₁ = (.ok (), w₂) := hput
          simp only [hid, hmapped, Option.map_some, Option.some.injEq, Prod.mk.injEq] at h
          obtain ⟨rfl, rfl⟩ := h
          simp only [hid]
          rw [exec_bind, exec_bind, hmapped]
          exact ⟨rfl, hcounts.trans (counts_of_report hreport)⟩

theorem exec_lookup_none {email : String} {w : World σ} (h : p.lookedUp email w = none) :
    ∃ e, ((p.guestLookupOpenpms email).exec w).1 = .error e := by
  rw [guestLookupOpenpms, exec_bind, exec_mappedGuest]
  cases hremembered : p.remembered w email with
  | some id => simp [lookedUp, hremembered] at h
  | none =>
    have hfilter : (p.runId.bind fun run => w.store.mappings run .guestEmail email).filter
        (· ≠ .other "") = none := hremembered
    simp only [lookedUp, hremembered] at h
    simp only [hfilter]
    rw [exec_bind]
    rcases hcall : (call p.client (.listGuests email)).exec w with ⟨e | items, w₁⟩
    · exact ⟨e, rfl⟩
    · rw [hcall] at h
      simp only at h ⊢
      unfold firstWithEmail
      cases hfind : items.find? fun item => nameKey item.email = email with
      | none => simp [hfind] at h
      | some item =>
        cases hid : item.id with
        | none =>
          simp only [hid]
          exact ⟨.malformed, rfl⟩
        | some id => simp [hfind, hid] at h

/-- The id is one, and the patch of the guest is answered. -/
def PatchAnswered (g : GuestRecord) (id : IdText) (w : World σ) : Prop :=
  ∃ uuid w', id = .uuid uuid ∧
    (call p.client (.patchGuest uuid (guestPatchPayload g))).exec w = (.ok (), w')

def ExistingAnswered (g : GuestRecord) (id : IdText) (w : World σ) : Prop :=
  p.onConflict = .update → p.PatchAnswered g id w

/-- After a 409 the lookup is answered, and so is the patch of the guest that it finds. -/
def ConflictAnswered (g : GuestRecord) (w : World σ) : Prop :=
  ∃ found w', p.lookedUp (safeEmailForGuest g) w = some (found, w') ∧
    ∀ id ∈ found, p.ExistingAnswered g id w'

/-- A created guest has an id; a 409 and a 422 go on from where they leave the run; any other
exception is caught. -/
def PostAnswered (g : GuestRecord) (body : GuestBody) (retried : World σ → Prop) (w : World σ) :
    Prop :=
  match (call p.client (.createGuest body)).exec w with
  | (.ok id, _) => id.isSome
  | (.error (.conflict _), w₁) => p.ConflictAnswered g w₁
  | (.error (.validation _), w₁) => retried w₁
  | (.error _, _) => True

def CreateAnswered (g : GuestRecord) (w : World σ) : Prop :=
  p.PostAnswered g (guestBody g)
    (p.PostAnswered g { guestBody g with nationality := none } fun _ => True) w

/-- The calls for the guest outside of any handler are answered. -/
def GuestAnswered (g : GuestRecord) (w : World σ) : Prop :=
  p.AlreadyProcessed .guest g.externalId w ∨
    if isSyntheticGuestEmail (safeEmailForGuest g) then p.CreateAnswered g w
    else ∃ found w', p.lookedUp (safeEmailForGuest g) w = some (found, w') ∧
      match found with
      | some id => p.ExistingAnswered g id w'
      | none => p.CreateAnswered g w'

section Guests
variable {p} {g : GuestRecord} {w : World σ}

theorem judged_skipGuest (id : Option IdText) : Judged .guests True (p.skipGuest g id) w :=
  judged_once trivial (exec_count_store (fun _ => rfl) fun s => by
    simp only [StageStats.handled]
    omega)

theorem judged_updateGuest (id : IdText) :
    Judged .guests (p.PatchAnswered g id w) (p.updateGuest g id) w := by
  unfold updateGuest
  cases id with
  | other text =>
    refine judged_raises (e := .malformed) ?_ rfl
    rintro ⟨uuid, -, hid, -⟩
    cases hid
  | uuid uuid =>
    have hcounts := counts_call (g := .guests) (w := w) p.client
      (.patchGuest uuid (guestPatchPayload g))
    refine Judged.bind (a := uuid) ?_ rfl (counts_of_report rfl)
    rcases hcall : (call p.client (.patchGuest uuid (guestPatchPayload g))).exec w
      with ⟨e | answer, w₁⟩
    · refine judged_bind_raises (e := e) ?_ (by rw [hcall])
      rintro ⟨uuid', w', hid, hanswer⟩
      cases hid
      rw [hcall] at hanswer
      cases hanswer
    · rw [hcall] at hcounts
      refine Judged.bind ?_ hcall hcounts
      exact judged_once ⟨uuid, w₁, rfl, hcall⟩ (exec_count_store (fun _ => rfl) fun s => by
        simp only [StageStats.handled]
        omega)

theorem judged_finalizeGuestExisting (hconflict : p.onConflict ≠ .fail) (id : IdText) :
    Judged .guests (p.ExistingAnswered g id w) (p.finalizeGuestExisting g id) w := by
  unfold finalizeGuestExisting ExistingAnswered
  cases hmode : p.onConflict with
  | fail => exact absurd hmode hconflict
  | skip =>
    exact judged_once (by simp) (exec_count_store (fun _ => rfl) fun s => by
      simp only [StageStats.handled]
      omega)
  | update => simpa using judged_updateGuest id

theorem judged_handleGuestPostConflict (hconflict : p.onConflict ≠ .fail) :
    Judged .guests (p.ConflictAnswered g w) (p.handleGuestPostConflict g) w := by
  unfold handleGuestPostConflict ConflictAnswered
  cases hlook : p.lookedUp (safeEmailForGuest g) w with
  | none =>
    obtain ⟨e, he⟩ := p.exec_lookup_none hlook
    exact judged_bind_raises (by simp) he
  | some looked =>
    obtain ⟨found, w₁⟩ := looked
    obtain ⟨hexec, hcounts⟩ := p.exec_lookup hlook
    have hsafe : (∃ found' w', some (found, w₁) = some (found', w') ∧
        ∀ id ∈ found', p.ExistingAnswered g id w') ↔ ∀ id ∈ found, p.ExistingAnswered g id w₁ := by
      simp
    rw [hsafe]
    refine Judged.bind ?_ hexec hcounts
    cases found with
    | none => simpa using judged_skipGuest none
    | some id =>
      unfold ExistingAnswered
      cases hmode : p.onConflict with
      | fail => exact absurd hmode hconflict
      | skip => simpa using judged_skipGuest (some id)
      | update => simpa using judged_updateGuest id

/-- A created guest without an id is counted, and its error as well. -/
theorem exec_postGuest {body : GuestBody} {id : Option IdText} {w₁ : World σ}
    (h : (call p.client (.createGuest body)).exec w = (.ok id, w₁)) :
    ∃ w', Counts .guests 1 w w' ∧
      (p.postGuest g body).exec w = (if id.isSome then .ok () else .error .malformed, w') := by
  have hcall := counts_call (g := .guests) (w := w) p.client (.createGuest body)
  rw [h] at hcall
  obtain ⟨w₂, hcount, hone⟩ := exec_count (g := .guests) (w := w₁)
    (f := fun s => { s with created := s.created + 1 }) (fun _ => rfl) fun s => by
      simp only [StageStats.handled]
      omega
  have hcounts : Counts .guests 1 w w₂ := by simpa using hcall.trans hone
  unfold postGuest
  rw [exec_bind, h]
  simp only
  rw [exec_bind, hcount]
  cases id with
  | none => exact ⟨w₂, hcounts, rfl⟩
  | some id =>
    obtain ⟨w₃, hmarked, hreport⟩ := p.exec_store
      (fun run st => st.markProcessed run .guest g.externalId ⟨some id, .created⟩) w₂
    have hmark : (p.markProcessed .guest g.externalId (some id) .created).exec w₂
        = (.ok (), w₃) := hmarked
    simp only
    rw [exec_bind, hmark]
    simp only
    split
    · exact ⟨w₃, hcounts.trans (counts_of_report hreport), rfl⟩
    · obtain ⟨w₄, hmapped, hreport'⟩ := p.exec_store
        (fun run st => st.putMapping run .guestEmail body.email id) w₃
      exact ⟨w₄, (hcounts.trans (counts_of_report hreport)).trans (counts_of_report hreport'),
        hmapped⟩

/-- The caught exceptions are those that the two handlers do not look at. -/
theorem judged_post {body : GuestBody} {handler : Exn → Cli σ Unit} {retried : World σ → Prop}
    (hconf : ∀ text w₁, Judged .guests (p.ConflictAnswered g w₁) (handler (.conflict text)) w₁)
    (hvalid : ∀ text w₁, Judged .guests (retried w₁) (handler (.validation text)) w₁)
    (hother : ∀ e, (∀ text, e ≠ .conflict text) → (∀ text, e ≠ .validation text) →
      handler e = guestFault g e) :
    Judged .guests (p.PostAnswered g body retried w) ((p.postGuest g body).tryCatch handler) w := by
  unfold PostAnswered
  have hcounts := counts_call (g := .guests) (w := w) p.client (.createGuest body)
  rcases hcall : (call p.client (.createGuest body)).exec w with ⟨e | id, w₁⟩
  · rw [hcall] at hcounts
    have hraised : (p.postGuest g body).exec w = (.error e, w₁) := by
      rw [postGuest, exec_bind, hcall]
    have hexec : ((p.postGuest g body).tryCatch handler).exec w = (handler e).exec w₁ := by
      rw [exec_tryCatch, hraised]
    have hcaught (hc : ∀ text, e ≠ .conflict text) (hv : ∀ text, e ≠ .validation text) :
        Judged .guests True ((p.postGuest g body).tryCatch handler) w := by
      refine Judged.after (judged_once trivial ?_) hexec hcounts
      rw [hother e hc hv]
      exact exec_fault ..
    cases e with
    | conflict text => exact (hconf text w₁).after hexec hcounts
    | validation text => exact (hvalid text w₁).after hexec hcounts
    | _ => exact hcaught (by simp) (by simp)
  · obtain ⟨w₂, hcreated, hpost⟩ := exec_postGuest (g := g) hcall
    cases id with
    | some id =>
      refine judged_once rfl ⟨w₂, ?_, hcreated⟩
      rw [exec_tryCatch, hpost]
      rfl
    | none =>
      obtain ⟨w₃, hfault, hcounted⟩ := exec_fault (g := .guests) "guest" g.externalId
        (.exception .malformed) w₂
      refine judged_twice (by simp) ⟨w₃, ?_, hcreated.trans hcounted⟩
      rw [exec_tryCatch, hpost]
      simp only [Option.isSome_none, Bool.false_eq_true, if_false]
      rw [hother .malformed (by simp) (by simp)]
      exact hfault

theorem judged_createGuest (hconflict : p.onConflict ≠ .fail) :
    Judged .guests (p.CreateAnswered g w) (p.createGuest g) w := by
  unfold createGuest CreateAnswered
  refine judged_post (fun _ _ => judged_handleGuestPostConflict hconflict) (fun _ w₁ => ?_) ?_
  · refine judged_post (fun _ _ => judged_handleGuestPostConflict hconflict) (fun _ w₂ => ?_) ?_
    · exact judged_once trivial (exec_fault ..)
    · intro e hc hv
      cases e with
      | conflict text => exact absurd rfl (hc text)
      | _ => rfl
  · intro e hc hv
    cases e with
    | conflict text => exact absurd rfl (hc text)
    | validation text => exact absurd rfl (hv text)
    | _ => rfl

theorem judged_migrateGuest (hconflict : p.onConflict ≠ .fail) (g : GuestRecord) (w : World σ) :
    Judged .guests (p.GuestAnswered g w) (p.migrateGuest g) w := by
  obtain ⟨done, hskip, hdone⟩ := p.exec_processedSkip .guest g.externalId w
  unfold migrateGuest GuestAnswered
  refine Judged.bind ?_ hskip (counts_of_report rfl)
  rw [← hdone]
  cases done with
  | true =>
    refine judged_once (.inl rfl) ⟨_, rfl, counts_count (fun _ => rfl) fun s => ?_⟩
    simp only [StageStats.handled]
    omega
  | false =>
    simp only [Bool.false_eq_true, if_false, false_or]
    split
    · exact judged_createGuest hconflict
    · cases hlook : p.lookedUp (safeEmailForGuest g) w with
      | none =>
        obtain ⟨e, he⟩ := p.exec_lookup_none hlook
        exact judged_bind_raises (by simp) he
      | some looked =>
        obtain ⟨found, w₁⟩ := looked
        obtain ⟨hexec, hcounts⟩ := p.exec_lookup hlook
        refine Judged.bind ?_ hexec hcounts
        cases found with
        | none => simpa using judged_createGuest hconflict
        | some id => simpa using judged_finalizeGuestExisting hconflict id

end Guests

/-! Bookings -/

/-- The answer to a booking that is created has its id. -/
def BookingCreateAnswered (b : BookingRecord) (rt rp : UUID) (w : World σ) : Prop :=
  ((call p.client (.createBooking (p.bookingBody rt rp b))).exec w).1 ≠ .ok none

/-- The search for the booking before it is posted is answered, with an id if it is found. -/
def PrecheckAnswered (b : BookingRecord) (rt rp : UUID) (w : World σ) : Prop :=
  match (getBookingByExternalId p.client b.externalId).exec w with
  | (.error _, _) => False
  | (.ok (some row), _) => row.id.isSome
  | (.ok none, w₁) => p.BookingCreateAnswered b rt rp w₁

def BookingAnswered (roomTypes ratePlans : String → Option UUID) (b : BookingRecord)
    (w : World σ) : Prop :=
  p.AlreadyProcessed .booking b.externalId w ∨
    match roomTypes (nameKey b.roomTypeName), ratePlans (nameKey b.ratePlanName) with
    | some rt, some rp =>
      if p.precheckBookings then p.PrecheckAnswered b rt rp w
      else p.BookingCreateAnswered b rt rp w
    | _, _ => True

section Bookings
variable {p} {b : BookingRecord} {rt rp : UUID} {w : World σ}

theorem exec_bookingDone (b : BookingRecord) (id : Option UUID) {f : StageStats → StageStats}
    (result : Outcome) (w : World σ) (htotal : ∀ s, (f s).total = s.total)
    (hhandled : ∀ s, (f s).handled = s.handled + 1) :
    ∃ w', (p.bookingDone b id f result).exec w = (.ok (), w') ∧ Counts .bookings 1 w w' :=
  exec_count_store htotal hhandled

/-- A patch of the status never raises. -/
theorem exec_syncStatus (id : UUID) (current : String) (target : BookingStatus) (w : World σ) :
    ∃ w', (p.syncBookingLifecycleStatus id current target).exec w = (.ok (), w') ∧
      Counts .bookings 0 w w' := by
  unfold syncBookingLifecycleStatus
  split
  · exact ⟨w, rfl, counts_of_report rfl⟩
  · have hreport := (sends_attempts p.client (.patchBooking id target) 4 w).report
    rw [exec_tryCatch, patchBooking, exec_bind, request]
    rcases hcall : (attempts p.client (.patchBooking id target) 4).exec w with ⟨e | json, w₁⟩
    · rw [hcall] at hreport
      exact ⟨w₁, rfl, counts_of_report hreport⟩
    · rw [hcall] at hreport
      exact ⟨w₁, rfl, counts_of_report hreport⟩

theorem exec_foundExisting (hconflict : p.onConflict ≠ .fail) {row : BookingItem} {id : UUID}
    (hid : row.id = some id) (reason : Reason) (w : World σ) :
    ∃ w', (p.handleBookingFoundExisting b row reason).exec w = (.ok (), w') ∧
      Counts .bookings 1 w w' := by
  unfold handleBookingFoundExisting
  simp only [hid]
  cases hmode : p.onConflict with
  | fail => exact absurd hmode hconflict
  | skip =>
    cases reason with
    | precheck =>
      exact exec_bookingDone b (some id) _ w (fun _ => rfl) fun s => by
        simp only [StageStats.handled]
        omega
    | conflict =>
      exact exec_bookingDone b (some id) _ w (fun _ => rfl) fun s => by
        simp only [StageStats.handled]
        omega
  | update =>
    obtain ⟨w₁, hsync, hcounts⟩ := p.exec_syncStatus id row.status b.status w
    obtain ⟨w', hdone, hone⟩ := exec_bookingDone (p := p)
      (f := fun s => { s with updated := s.updated + 1 }) b (some id) .updated w₁ (fun _ => rfl)
      fun s => by
        simp only [StageStats.handled]
        omega
    exact ⟨w', exec_bind_ok.mpr ⟨(), w₁, hsync, hdone⟩, by simpa using hcounts.trans hone⟩

theorem counts_getBooking (ext : String) (w : World σ) :
    Counts .bookings 0 w ((getBookingByExternalId p.client ext).exec w).2 := by
  unfold getBookingByExternalId
  simp only
  split
  · exact counts_of_report rfl
  · have hcounts := counts_call (g := .bookings) (w := w) p.client
      (.listBookings (Text.take 128 (Text.strip ext)))
    rw [exec_bind]
    rcases hcall : (call p.client (.listBookings (Text.take 128 (Text.strip ext)))).exec w
      with ⟨e | items, w₁⟩
    · rw [hcall] at hcounts
      exact hcounts
    · rw [hcall] at hcounts
      exact hcounts

theorem raises_getBooking (ext : String) :
    Raises Exn.Caught (getBookingByExternalId p.client ext) := by
  unfold getBookingByExternalId
  simp only
  split
  · exact raises_pure _
  · exact raises_bind (raises_call _ _) fun _ => raises_pure _

/-- After a 409 the booking is counted, or an exception is raised that is caught. -/
theorem exec_bookingConflict (hconflict : p.onConflict ≠ .fail) (b : BookingRecord)
    (w : World σ) :
    (∃ w', (p.handleBookingConflict b).exec w = (.ok (), w') ∧ Counts .bookings 1 w w') ∨
      ∃ e w', (p.handleBookingConflict b).exec w = (.error e, w') ∧ Counts .bookings 0 w w' ∧
        e.Caught := by
  have hcounts := counts_getBooking (p := p) b.externalId w
  unfold handleBookingConflict
  rw [exec_bind]
  rcases hget : (getBookingByExternalId p.client b.externalId).exec w with ⟨e | row, w₁⟩
  · rw [hget] at hcounts
    exact .inr ⟨e, w₁, rfl, hcounts, raises_getBooking b.externalId w e w₁ hget⟩
  · rw [hget] at hcounts
    cases row with
    | none =>
      obtain ⟨w', hdone, hone⟩ := exec_bookingDone (p := p)
        (f := fun s => { s with skipped := s.skipped + 1 }) b none .skipped w₁ (fun _ => rfl)
        fun s => by
          simp only [StageStats.handled]
          omega
      exact .inl ⟨w', hdone, by simpa using hcounts.trans hone⟩
    | some row =>
      cases hid : row.id with
      | none =>
        refine .inr ⟨.malformed, w₁, ?_, hcounts, by simp [Exn.Caught]⟩
        simp only [handleBookingFoundExisting, hid]
        rfl
      | some id =>
        obtain ⟨w', hdone, hone⟩ := exec_foundExisting (b := b) hconflict hid .conflict w₁
        exact .inl ⟨w', hdone, by simpa using hcounts.trans hone⟩

/-- A created booking without an id is counted, and its error as well. -/
theorem exec_createBooking {id : Option UUID} {w₁ : World σ}
    (h : (call p.client (.createBooking (p.bookingBody rt rp b))).exec w = (.ok id, w₁)) :
    ∃ w', Counts .bookings 1 w w' ∧
      (p.createBooking b rt rp).exec w
        = (if id.isSome then .ok () else .error .malformed, w') := by
  have hcall := counts_call (g := .bookings) (w := w) p.client
    (.createBooking (p.bookingBody rt rp b))
  rw [h] at hcall
  obtain ⟨w₂, hcount, hone⟩ := exec_count (g := .bookings) (w := w₁)
    (f := fun s => { s with created := s.created + 1 }) (fun _ => rfl) fun s => by
      simp only [StageStats.handled]
      omega
  have hcounts : Counts .bookings 1 w w₂ := by simpa using hcall.trans hone
  unfold createBooking
  rw [exec_bind, h]
  simp only
  rw [exec_bind, hcount]
  cases id with
  | none => exact ⟨w₂, hcounts, rfl⟩
  | some id =>
    obtain ⟨w₃, hmarked, hreport⟩ := p.exec_store
      (fun run st => st.markProcessed run .booking b.externalId ⟨some (.uuid id), .created⟩) w₂
    have hmark : (p.markProcessed .booking b.externalId (some (.uuid id)) .created).exec w₂
        = (.ok (), w₃) := hmarked
    simp only
    rw [exec_bind, hmark]
    simp only
    split
    · exact ⟨w₃, hcounts.trans (counts_of_report hreport), rfl⟩
    · obtain ⟨w₄, hsync, hcounts'⟩ := p.exec_syncStatus id BookingStatus.confirmed.text b.status w₃
      exact ⟨w₄, (hcounts.trans (counts_of_report hreport)).trans hcounts', hsync⟩

/-- What is caught around a booking that nothing was counted of is counted as an error. -/
theorem judged_reported {e : Exn} {w₁ : World σ}
    (hexec : (p.tryCreateBooking b rt rp).exec w = (.error e, w₁))
    (hcounts : Counts .bookings 0 w w₁) (he : e.Caught) :
    Judged .bookings True (p.createOrReport b rt rp) w := by
  have hfault : (p.createOrReport b rt rp).exec w =
      (bookingFault b (.exception e) : Cli σ Unit).exec w₁ := by
    rw [createOrReport, exec_tryCatch, hexec]
    cases e with
    | onConflictFail why => exact absurd rfl (he why)
    | _ => rfl
  exact (judged_once trivial (exec_fault ..)).after hfault hcounts

theorem judged_createOrReport (hconflict : p.onConflict ≠ .fail) :
    Judged .bookings (p.BookingCreateAnswered b rt rp w) (p.createOrReport b rt rp) w := by
  unfold BookingCreateAnswered
  have hcounts := counts_call (g := .bookings) (w := w) p.client
    (.createBooking (p.bookingBody rt rp b))
  rcases hcall : (call p.client (.createBooking (p.bookingBody rt rp b))).exec w
    with ⟨e | id, w₁⟩
  · rw [hcall] at hcounts
    have hraised : (p.createBooking b rt rp).exec w = (.error e, w₁) := by
      rw [createBooking, exec_bind, hcall]
    have hcaught := raises_call p.client _ w e w₁ hcall
    have hsafe : (Except.error e : Except Exn (Option UUID)) ≠ .ok none := by simp
    rw [iff_true_intro hsafe]
    cases e with
    | conflict text =>
      have htry : (p.tryCreateBooking b rt rp).exec w = (p.handleBookingConflict b).exec w₁ := by
        rw [tryCreateBooking, exec_tryCatch, hraised]
      rcases exec_bookingConflict hconflict b w₁ with ⟨w', hdone, hone⟩ | ⟨e, w', hdone, hzero, he⟩
      · refine judged_once trivial ⟨w', ?_, by simpa using hcounts.trans hone⟩
        rw [createOrReport, exec_tryCatch, htry, hdone]
      · exact judged_reported (htry.trans hdone) (by simpa using hcounts.trans hzero) he
    | _ =>
      refine judged_reported ?_ hcounts hcaught
      rw [tryCreateBooking, exec_tryCatch, hraised]
      rfl
  · obtain ⟨w₂, hcreated, hcreate⟩ := exec_createBooking hcall
    have htry : (p.tryCreateBooking b rt rp).exec w =
        (if id.isSome then .ok () else .error .malformed, w₂) := by
      rw [tryCreateBooking, exec_tryCatch, hcreate]
      cases id <;> rfl
    cases id with
    | some id =>
      refine judged_once (by simp) ⟨w₂, ?_, hcreated⟩
      rw [createOrReport, exec_tryCatch, htry]
      rfl
    | none =>
      obtain ⟨w₃, hfault, hcounted⟩ := exec_fault (g := .bookings) "booking" b.externalId
        (.exception .malformed) w₂
      refine judged_twice (by simp) ⟨w₃, ?_, hcreated.trans hcounted⟩
      rw [createOrReport, exec_tryCatch, htry]
      exact hfault

theorem judged_precheck (hconflict : p.onConflict ≠ .fail)
    {next : Option BookingItem → Cli σ Unit}
    (hfound : ∀ row, next (some row) = p.handleBookingFoundExisting b row .precheck)
    (hnew : next none = p.createOrReport b rt rp) :
    Judged .bookings (p.PrecheckAnswered b rt rp w)
      (getBookingByExternalId p.client b.externalId >>= next) w := by
  have hcounts := counts_getBooking (p := p) b.externalId w
  unfold PrecheckAnswered
  rcases hget : (getBookingByExternalId p.client b.externalId).exec w with ⟨e | row, w₁⟩
  · exact judged_bind_raises (e := e) not_false (by rw [hget])
  · rw [hget] at hcounts
    refine Judged.bind ?_ hget hcounts
    cases row with
    | none =>
      rw [hnew]
      exact judged_createOrReport hconflict
    | some row =>
      rw [hfound]
      cases hid : row.id with
      | none =>
        refine judged_raises (e := .malformed) (by simp [hid]) ?_
        simp only [handleBookingFoundExisting, hid]
        rfl
      | some id => exact judged_once (by simp [hid]) (exec_foundExisting hconflict hid .precheck w₁)

theorem judged_migrateBooking (hconflict : p.onConflict ≠ .fail)
    (roomTypes ratePlans : String → Option UUID) (b : BookingRecord) (w : World σ) :
    Judged .bookings (p.BookingAnswered roomTypes ratePlans b w)
      (p.migrateBooking roomTypes ratePlans b) w := by
  obtain ⟨done, hskip, hdone⟩ := p.exec_processedSkip .booking b.externalId w
  unfold migrateBooking BookingAnswered
  refine Judged.bind ?_ hskip (counts_of_report rfl)
  rw [← hdone]
  cases done with
  | true =>
    refine judged_once (.inl rfl) ⟨_, rfl, counts_count (fun _ => rfl) fun s => ?_⟩
    simp only [StageStats.handled]
    omega
  | false =>
    simp only [Bool.false_eq_true, if_false, false_or]
    have hmissing : Judged .bookings True (missingTypeOrPlan b) w := by
      unfold missingTypeOrPlan bookingFault
      exact judged_once trivial (exec_fault ..)
    cases roomTypes (nameKey b.roomTypeName) with
    | none => exact hmissing
    | some rt =>
      cases ratePlans (nameKey b.ratePlanName) with
      | none => exact hmissing
      | some rp =>
        cases hprecheck : p.precheckBookings with
        | true =>
          simp only [if_true]
          exact judged_precheck hconflict (fun _ => rfl) rfl
        | false => simpa using judged_createOrReport hconflict

end Bookings

/-! The stages -/

/-- The counters with which the guests stage starts: the duplicates are skipped. -/
def guestsStats : StageStats where
  total := p.adapter.extractGuests.length
  skipped := (dedupeGuestsByEmail p.adapter.extractGuests).2

def guestsStart (w : World σ) : World σ :=
  { w with report := w.report.setStats .guests p.guestsStats }

/-- Every call of the guests stage outside of a handler is answered. -/
def GuestsAnswered (w : World σ) : Prop :=
  AllSafe p.migrateGuest p.GuestAnswered (dedupeGuestsByEmail p.adapter.extractGuests).1
    (p.guestsStart w)

def bookingsStart (w : World σ) : World σ :=
  { w with report := w.report.setStats .bookings { total := p.adapter.extractBookings.length } }

/-- The two lists at the start of the stage are answered, and so is every call for a booking
outside of a handler. -/
def BookingsAnswered (w : World σ) : Prop :=
  ∃ types w₁ plans w₂,
    (call p.client (.listRoomTypes p.propertyId)).exec (p.bookingsStart w) = (.ok types, w₁) ∧
    (call p.client (.listRatePlans p.propertyId)).exec w₁ = (.ok plans, w₂) ∧
    AllSafe (p.migrateBooking (idsByName types) (idsByName plans))
      (p.BookingAnswered (idsByName types) (idsByName plans)) p.adapter.extractBookings w₂

/-- Every guest that is not left out as a duplicate is attempted, and all are counted. -/
def GuestsComplete (w : World σ) : Prop :=
  Counted .guests p.stageGuests p.adapter.extractGuests.length w ∧
    Attempted p.stageGuests p.migrateGuest (dedupeGuestsByEmail p.adapter.extractGuests).1 w

def BookingsComplete (w : World σ) : Prop :=
  Counted .bookings p.stageBookings p.adapter.extractBookings.length w ∧
    ∃ roomTypes ratePlans, Attempted p.stageBookings (p.migrateBooking roomTypes ratePlans)
      p.adapter.extractBookings w

section Stages
variable {p} {w : World σ}

theorem exec_stageGuests : p.stageGuests.exec w =
    (forEach (dedupeGuestsByEmail p.adapter.extractGuests).1 p.migrateGuest).exec
      (p.guestsStart w) := by
  unfold stageGuests guestsStart guestsStats
  rcases dedupeGuestsByEmail p.adapter.extractGuests with ⟨guests, dups⟩
  rw [exec_bind]
  rfl

theorem guests_complete_iff (hconflict : p.onConflict ≠ .fail) :
    p.GuestsComplete w ↔ p.GuestsAnswered w := by
  have hlength := length_dropSeenEmails []
    (p.adapter.extractGuests.insertionSort fun a b => a.externalId ≤ b.externalId)
  rw [List.length_insertionSort] at hlength
  have hstats : (p.guestsStart w).report.stages .guests = some p.guestsStats := by
    simp [guestsStart, MigrationReport.setStats]
  have hiff := counted_iff (judged_migrateGuest hconflict) exec_stageGuests hstats rfl
    (by simp only [StageStats.handled, guestsStats, dedupeGuestsByEmail]; omega)
  exact ⟨fun h => hiff.mp h.1, fun h => ⟨hiff.mpr h, (hiff.mpr h).attempted exec_stageGuests⟩⟩

theorem exec_stageBookings {types plans : List NamedRow} {w₁ w₂ : World σ}
    (htypes : (call p.client (.listRoomTypes p.propertyId)).exec (p.bookingsStart w)
      = (.ok types, w₁))
    (hplans : (call p.client (.listRatePlans p.propertyId)).exec w₁ = (.ok plans, w₂)) :
    p.stageBookings.exec w =
      (forEach p.adapter.extractBookings
        (p.migrateBooking (idsByName types) (idsByName plans))).exec w₂ := by
  have hroomTypes : p.roomTypeMap.exec (p.bookingsStart w) = (.ok (idsByName types), w₁) := by
    rw [roomTypeMap, exec_bind, htypes]
    rfl
  have hratePlans : p.ratePlanMap.exec w₁ = (.ok (idsByName plans), w₂) := by
    rw [ratePlanMap, exec_bind, hplans]
    rfl
  have hstart : (setStats .bookings { total := p.adapter.extractBookings.length } :
      Cli σ Unit).exec w = (.ok (), p.bookingsStart w) := rfl
  rw [stageBookings, exec_bind, hstart]
  simp only
  rw [exec_bind, hroomTypes]
  simp only
  rw [exec_bind, hratePlans]

theorem stats_bookings {types plans : List NamedRow} {w₁ w₂ : World σ}
    (htypes : (call p.client (.listRoomTypes p.propertyId)).exec (p.bookingsStart w)
      = (.ok types, w₁))
    (hplans : (call p.client (.listRatePlans p.propertyId)).exec w₁ = (.ok plans, w₂)) :
    w₂.report.stages .bookings = some { total := p.adapter.extractBookings.length } := by
  have hreport₁ := (sends_call p.client (.listRoomTypes p.propertyId) (p.bookingsStart w)).report
  have hreport₂ := (sends_call p.client (.listRatePlans p.propertyId) w₁).report
  rw [htypes] at hreport₁
  rw [hplans] at hreport₂
  rw [hreport₂, hreport₁]
  simp [bookingsStart, MigrationReport.setStats]

theorem bookings_complete_iff (hconflict : p.onConflict ≠ .fail) :
    p.BookingsComplete w ↔ p.BookingsAnswered w := by
  have hiff {types plans : List NamedRow} {w₁ w₂ : World σ}
      (htypes : (call p.client (.listRoomTypes p.propertyId)).exec (p.bookingsStart w)
        = (.ok types, w₁))
      (hplans : (call p.client (.listRatePlans p.propertyId)).exec w₁ = (.ok plans, w₂)) :
      Counted .bookings p.stageBookings p.adapter.extractBookings.length w ↔
        AllSafe (p.migrateBooking (idsByName types) (idsByName plans))
          (p.BookingAnswered (idsByName types) (idsByName plans)) p.adapter.extractBookings w₂ :=
    counted_iff (judged_migrateBooking hconflict (idsByName types) (idsByName plans))
      (exec_stageBookings htypes hplans) (stats_bookings htypes hplans) rfl
      (by simp [StageStats.handled])
  constructor
  · rintro ⟨hcounted, -⟩
    have ⟨w', s, hstage, _⟩ := hcounted
    obtain ⟨_, _, hstart, hstage⟩ := exec_bind_ok.mp hstage
    cases hstart
    obtain ⟨_, w₁, hroomTypes, hstage⟩ := exec_bind_ok.mp hstage
    obtain ⟨types, _, htypes, hpure⟩ := exec_bind_ok.mp hroomTypes
    cases hpure
    obtain ⟨_, w₂, hratePlans, hstage⟩ := exec_bind_ok.mp hstage
    obtain ⟨plans, _, hplans, hpure⟩ := exec_bind_ok.mp hratePlans
    cases hpure
    exact ⟨types, _, plans, _, htypes, hplans, (hiff htypes hplans).mp hcounted⟩
  · rintro ⟨types, w₁, plans, w₂, htypes, hplans, hsafe⟩
    have hcounted := (hiff htypes hplans).mpr hsafe
    exact ⟨hcounted, _, _, hcounted.attempted (exec_stageBookings htypes hplans)⟩

end Stages

end MigrationPipeline

/-- The stages attempt and count every record exactly when every call outside of a handler is
answered and every created row has an id. -/
theorem stages_count_iff {σ : Type} {p : MigrationPipeline σ} (hconflict : p.onConflict ≠ .fail)
    (w : World σ) :
    (p.GuestsComplete w ↔ p.GuestsAnswered w) ∧ (p.BookingsComplete w ↔ p.BookingsAnswered w) :=
  ⟨MigrationPipeline.guests_complete_iff hconflict,
    MigrationPipeline.bookings_complete_iff hconflict⟩

namespace Demo

/-- A server that lists no guests, or fails to; the ids of what it creates may be missing. -/
def patchyApi (sound : Bool) : Api Unit := fun q s =>
  (match q with
    | .listRoomTypes _ => .response 200 "" (some [⟨1, "Room"⟩])
    | .listRatePlans _ => .response 200 "" (some [⟨2, "Plan"⟩])
    | .listGuests _ => if sound then .response 200 "" (some []) else .transportError
    | .createGuest _ => .response 201 "" (some (some (.uuid 7)))
    | .createBooking _ => .response 201 "" (some (if sound then some 8 else none))
    | _ => .otherError, s)

def tallyGuest : GuestRecord :=
  ⟨"g1", "Ana", "Reis", some "ana@reis.pt", none, none, none, false⟩

def tallyBooking : BookingRecord :=
  ⟨"b1", 0, 2, "Room", "Plan", ⟨"Ana", "Reis", "ana@reis.pt", ""⟩, .confirmed, ""⟩

def tallyPipeline (sound : Bool) : MigrationPipeline Unit where
  adapter := ⟨⟨true, []⟩, [tallyGuest], [], [], [], [tallyBooking]⟩
  client := patchyApi sound
  propertyId := 5
  dryRun := false
  onConflict := .skip
  defaultNightRate := 0
  runId := none
  resume := false
  precheckBookings := false

def tallyWorld : World Unit := MigrationPipeline.start () .empty

theorem dedupe_tallyGuest (sound : Bool) :
    (dedupeGuestsByEmail (tallyPipeline sound).adapter.extractGuests).1 = [tallyGuest] := by
  simp [tallyPipeline, dedupeGuestsByEmail, dropSeenEmails]

theorem notSynthetic_tallyGuest :
    isSyntheticGuestEmail (safeEmailForGuest tallyGuest) = false := by
  decide

end Demo

theorem stages_count_sound :
    (Demo.tallyPipeline true).GuestsComplete Demo.tallyWorld ∧
      (Demo.tallyPipeline true).BookingsComplete Demo.tallyWorld := by
  have hiff := stages_count_iff (p := Demo.tallyPipeline true) (by decide) Demo.tallyWorld
  refine ⟨hiff.1.mpr ?_, hiff.2.mpr ?_⟩
  · unfold MigrationPipeline.GuestsAnswered
    rw [Demo.dedupe_tallyGuest]
    refine ⟨.inr ?_, fun _ _ => trivial⟩
    rw [Demo.notSynthetic_tallyGuest]
    exact ⟨none, _, rfl, rfl⟩
  · refine ⟨[⟨1, "Room"⟩], _, [⟨2, "Plan"⟩], _, rfl, rfl, .inr ?_, fun _ _ => trivial⟩
    have htype : MigrationPipeline.idsByName [⟨1, "Room"⟩]
        (nameKey Demo.tallyBooking.roomTypeName) = some 1 := by
      decide
    have hplan : MigrationPipeline.idsByName [⟨2, "Plan"⟩]
        (nameKey Demo.tallyBooking.ratePlanName) = some 2 := by
      decide
    rw [htype, hplan]
    intro hmissing
    cases hmissing

/-- A list of guests that is not answered stops the guests, and a booking that is created
without an id is counted twice. -/
theorem stages_miscount :
    ¬ (Demo.tallyPipeline false).GuestsComplete Demo.tallyWorld ∧
      ¬ (Demo.tallyPipeline false).BookingsComplete Demo.tallyWorld := by
  constructor
  · rintro ⟨⟨w', s, hstage, -⟩, -⟩
    have hraises : ((Demo.tallyPipeline false).stageGuests.exec Demo.tallyWorld).1
        = .error .transport := by
      decide
    rw [hstage] at hraises
    cases hraises
  · rintro ⟨⟨w', s, hstage, hs, -, hsum⟩, -⟩
    have htwice : ((Demo.tallyPipeline false).stageBookings.exec Demo.tallyWorld).2.report.stages
        .bookings = some { total := 1, created := 1, errors := 1 } := by
      decide
    rw [hstage, hs] at htwice
    cases htwice
    exact absurd hsum (by decide)

end OpenPms.Migration
