import OpenPms.MigrationLoss
import OpenPms.MigrationTwins

/-!
The migration run again and again over requests that fail, each time from whatever state
file there is, and killed anywhere. What a run gives up may take effect while it goes on or
after it. No run adds a guest or a booking twice. A run adds no name twice as long as the
requests that create names take effect only if they are answered.
-/
namespace OpenPms.Migration

open Transaction Prog KeyedTable

variable {σ τ : Type}

/-! Where a program leads the server -/

/-- At every point the server is where `R` allows it to be. -/
def Guides (R : σ → σ → Prop) {α : Type} (prog : Cli σ α) : Prop :=
  ∀ w, prog.Passes (fun w' => R w.server w'.server) (fun _ w' => R w.server w'.server)
    (fun _ w' => R w.server w'.server) w

/-- A relation of what is seen of the server. -/
abbrev Through (view : σ → τ) (Q : τ → τ → Prop) (s s' : σ) : Prop := Q (view s) (view s')

theorem local_setStats (g : Stage) (stats : StageStats) :
    Local (MigrationPipeline.setStats g stats : Cli σ Unit) := local_modify fun _ => rfl

theorem local_fault (g : Stage) (n : ℕ) (entity ref : String) (message : Message) :
    Local (MigrationPipeline.fault g n entity ref message : Cli σ Unit) :=
  local_modify fun _ => rfl

theorem local_forEach {α : Type} {xs : List α} {f : α → Cli σ Unit} (hf : ∀ x, Local (f x)) :
    Local (forEach xs f) := by
  induction xs with
  | nil => exact local_pure ()
  | cons x rest ih => exact (hf x).bind fun _ => ih

/-- Statements that send nothing, before others that send nothing and return what `Q`
allows. -/
theorem Local.then {α β : Type} {prog : Cli σ α} {next : α → Cli σ β} {Q : β → Prop}
    (h : Local prog) (hnext : ∀ a w, (next a).Passes (fun w' => w'.server = w.server)
      (fun b w' => w'.server = w.server ∧ Q b) (fun _ _ => False) w) (w : World σ) :
    (prog >>= next).Passes (fun w' => w'.server = w.server)
      (fun b w' => w'.server = w.server ∧ Q b) (fun _ _ => False) w := by
  refine (h w).bind fun a w' _ hw' => ?_
  exact (hnext a w').mono (fun _ h => h.trans hw') (fun _ _ _ h => ⟨h.1.trans hw', h.2⟩)
    fun _ _ _ h => h

section Guides
variable {R : σ → σ → Prop} (hrefl : ∀ s, R s s)
include hrefl

theorem guides_local {α : Type} {prog : Cli σ α} (h : Local prog) : Guides R prog := fun w =>
  (h w).mono (fun _ h => h ▸ hrefl _) (fun _ _ _ h => h ▸ hrefl _) fun _ _ _ h => h.elim

theorem guides_raise {α : Type} (e : Exn) : Guides R (raise e : Cli σ α) := fun _ =>
  passes_raise (hrefl _) (hrefl _)

variable (htrans : ∀ a b c, R a b → R b c → R a c)
include htrans

omit hrefl in
theorem Guides.bind {α β : Type} {prog : Cli σ α} {next : α → Cli σ β} (h : Guides R prog)
    (hnext : ∀ a, Guides R (next a)) : Guides R (prog >>= next) := by
  intro w
  refine (h w).bind fun a w' _ hw' => ?_
  exact (hnext a w').mono (fun _ h => htrans _ _ _ hw' h) (fun _ _ _ h => htrans _ _ _ hw' h)
    fun _ _ _ h => htrans _ _ _ hw' h

omit hrefl in
theorem Guides.tryCatch {α : Type} {prog : Cli σ α} {handler : Exn → Cli σ α}
    (h : Guides R prog) (hhandler : ∀ e, Guides R (handler e)) :
    Guides R (prog.tryCatch handler) := by
  intro w
  refine Passes.tryCatch (h w) fun e w' _ hw' => ?_
  exact (hhandler e w').mono (fun _ h => htrans _ _ _ hw' h) (fun _ _ _ h => htrans _ _ _ hw' h)
    fun _ _ _ h => htrans _ _ _ hw' h

theorem guides_forEach {α : Type} {xs : List α} {f : α → Cli σ Unit}
    (hf : ∀ x ∈ xs, Guides R (f x)) : Guides R (forEach xs f) := by
  induction xs with
  | nil => exact guides_local hrefl (local_pure ())
  | cons x rest ih =>
    refine Guides.bind htrans (hf x (List.mem_cons_self ..)) fun _ => ?_
    exact ih fun y hy => hf y (List.mem_cons_of_mem _ hy)

theorem guides_tame {α : Type} {E : Entity → Prop} {prog : Cli σ α} (h : TameWrites R E prog) :
    Guides R prog := by
  have hsteps : ∀ a b c : World σ, Tame R E a b → Tame R E b c → Tame R E a c :=
    fun _ _ _ => Tame.trans htrans
  intro w
  exact (h.passes hsteps (Tame.refl hrefl w)).mono (fun _ h => h.server)
    (fun _ _ _ h => h.server) fun _ _ _ h => h.server

variable {p : MigrationPipeline σ}

/-- Around a stage nothing is sent. -/
theorem guides_runStage {g : Stage} {stage : Cli σ Unit} (h : Guides R stage) :
    Guides R (p.runStage g stage) := by
  have hend : ∀ status, Guides R (p.endStage g status) := fun _ =>
    guides_local hrefl ((local_select _).bind fun _ => local_store _ _)
  refine Guides.bind htrans (guides_local hrefl ?_) fun skipped => ?_
  · unfold MigrationPipeline.maybeSkipStage
    split
    · exact local_pure _
    · split
      · refine (local_select _).bind fun row => ?_
        split
        · exact (local_setStats _ _).bind fun _ => local_pure _
        · exact local_pure _
      · exact local_pure _
  · split
    · exact guides_local hrefl (local_pure ())
    · refine Guides.bind htrans (guides_local hrefl (local_store _ _)) fun _ => ?_
      refine Guides.bind htrans (Guides.tryCatch htrans h fun e => ?_) fun _ => hend _
      exact Guides.bind htrans (hend _) fun _ => guides_raise hrefl e

theorem guides_run (h : ∀ runner ∈ p.stageRunners, Guides R runner.2) : Guides R p.run := by
  have hstatus : ∀ status, Local (MigrationPipeline.setFinalStatus status : Cli σ Unit) :=
    fun _ => local_modify fun _ => rfl
  unfold MigrationPipeline.run
  split
  · refine guides_local hrefl (Local.bind (local_forEach fun _ => ?_) fun _ => hstatus _)
    exact local_modify fun _ => rfl
  · split
    · refine guides_local hrefl ?_
      exact (local_setStats _ _).bind fun _ => (local_setStats _ _).bind fun _ =>
        (local_setStats _ _).bind fun _ => (local_setStats _ _).bind fun _ =>
          (local_setStats _ _).bind fun _ => (local_setStats _ _).bind fun _ =>
            (local_setStats _ _).bind fun _ => local_setStats _ _
    · refine Guides.tryCatch htrans ?_ fun e => guides_local hrefl ?_
      · refine Guides.bind htrans (guides_forEach hrefl htrans fun runner hmem => ?_) fun _ => ?_
        · exact guides_runStage hrefl htrans (h runner hmem)
        · exact guides_local hrefl ((local_select _).bind fun _ => hstatus _)
      · exact Local.bind (local_modify fun _ => rfl) fun _ => hstatus _

end Guides

section Faulty
variable {server : Api τ} {critical : Request → Prop} {view : σ → τ} {api : Api σ}

/-- A request leaves what it and those around it leave. -/
theorem Faulty.keeps (hf : Faulty server critical view api) {Q : τ → τ → Prop}
    (hrefl : ∀ t, Q t t) (htrans : ∀ a b c, Q a b → Q b c → Q a c)
    (hserver : ∀ q, ¬ critical q → ∀ t, Q t (server q t).2) {q : Request}
    (hq : ∀ t, Q t (server q t).2) (s : σ) : Q (view s) (view (api q s).2) := by
  rcases hf.attempt q s with ⟨t, hbefore, -, hafter⟩ | ⟨-, hdrifts⟩
  · refine htrans _ _ _ (hbefore.keeps hrefl htrans hserver) ?_
    exact htrans _ _ _ (hq t) (hafter.keeps hrefl htrans hserver)
  · exact hdrifts.keeps hrefl htrans hserver

end Faulty

/-! Guests and bookings -/

section Views
variable {draws : Draws} {critical : Request → Prop} {view : σ → Tenant} {p : MigrationPipeline σ}

def KeysGrown (keys : Db → List String) (t t' : Tenant) : Prop :=
  Grown (keys t.db.toDb) (keys t'.db.toDb)

theorem KeysGrown.served {keys : Db → List String} (hkeys : Unrepeated keys) (q : Request)
    (t : Tenant) : KeysGrown keys t (openPms draws q t).2 := (adds_openPms hkeys draws q t).grown

/-- Whatever fails, no guest and no booking is added twice. -/
theorem guides_unrepeated {keys : Db → List String} (hkeys : Unrepeated keys)
    (hf : Faulty (openPms draws) critical view p.client) :
    Guides (Through view (KeysGrown keys)) p.run := by
  have hrefl : ∀ s, Through view (KeysGrown keys) s s := fun _ => .refl _
  have htrans : ∀ a b c, Through view (KeysGrown keys) a b → Through view (KeysGrown keys) b c →
      Through view (KeysGrown keys) a c := fun _ _ _ => Grown.trans
  refine guides_run hrefl htrans fun runner hmem => ?_
  obtain ⟨stats, rest, heq, htame⟩ := tame_stage (E := fun _ => True) hrefl
    (fun q _ _ s => hf.keeps (Q := KeysGrown keys) (fun _ => .refl _) (fun _ _ _ => Grown.trans)
      (fun q _ => KeysGrown.served hkeys q) (KeysGrown.served hkeys q) s)
    hmem fun _ _ => trivial
  rw [heq]
  exact Guides.bind htrans (guides_local hrefl (local_setStats _ _)) fun _ =>
    guides_tame hrefl htrans htame

/-! Names -/

/-- Each name of the property that was added is new, and was added once. -/
structure NamesGrown (propertyId : UUID) (t t' : Tenant) : Prop where
  roomTypes : Grown (roomTypeNames propertyId t) (roomTypeNames propertyId t')
  ratePlans : Grown (ratePlanNames propertyId t) (ratePlanNames propertyId t')

variable {propertyId : UUID} {t t' t'' : Tenant}

theorem NamesGrown.refl (t : Tenant) : NamesGrown propertyId t t := ⟨.refl _, .refl _⟩

theorem NamesGrown.trans (h : NamesGrown propertyId t t') (h' : NamesGrown propertyId t' t'') :
    NamesGrown propertyId t t'' :=
  ⟨h.roomTypes.trans h'.roomTypes, h.ratePlans.trans h'.ratePlans⟩

theorem NamesGrown.of_eq (h : t' = t) : NamesGrown propertyId t t' := by
  rw [h]
  exact .refl t

theorem SameNames.grown (h : SameNames t t') : NamesGrown propertyId t t' := by
  constructor
  · rw [h.roomTypeNames]
    exact .refl _
  · rw [h.ratePlanNames]
    exact .refl _

/-- What runs over names that only critical requests create leaves the names. -/
theorem Drifts.sameNames (hnaming : ∀ q : Request, q.Naming → critical q)
    (h : Drifts (openPms draws) critical t t') : SameNames t t' :=
  h.keeps .refl (fun _ _ _ => SameNames.trans) fun q hq =>
    sameNames_openPms fun hname => hq (hnaming q hname)

/-- The map that a stage looks names up in has every name. -/
def Covers (names : List String) (byName : String → Option UUID) : Prop :=
  ∀ n ∈ names, (byName n).isSome

section Turn
variable {names : Tenant → List String} {q : Request} {key : String}
  {byName : String → Option UUID} {w : World σ}

/-- A record whose name the map does not have is created at most once. -/
theorem passes_nameRecord (hf : Faulty (openPms draws) critical view p.client)
    (hnaming : ∀ q : Request, q.Naming → critical q)
    (hsame : ∀ t t', SameNames t t' → names t' = names t)
    (hcreate : ∀ t, (key ∉ names t → NamesGrown propertyId t (openPms draws q t).2) ∧
      ∀ n ∈ names (openPms draws q t).2, n ∈ names t ∨ n = key)
    {rest : Answer q → Cli σ (String → Option UUID)}
    {handler : Exn → Cli σ (String → Option UUID)}
    (hrest : ∀ a w, (rest a).Passes (fun w' => w'.server = w.server)
      (fun b w' => w'.server = w.server ∧ ∀ n, (b n).isSome ↔ n = key ∨ (byName n).isSome)
      (fun _ _ => False) w)
    (hhandler : ∀ e w, (handler e).Passes (fun w' => w'.server = w.server)
      (fun b w' => w'.server = w.server ∧ b = byName) (fun _ _ => False) w)
    (hkey : byName key = none) (hcovers : Covers (names (view w.server)) byName) :
    ((call p.client q >>= rest).tryCatch handler).Passes
      (fun w' => NamesGrown propertyId (view w.server) (view w'.server))
      (fun b w' => Covers (names (view w'.server)) b) (fun _ _ => False) w := by
  have hnew : key ∉ names (view w.server) := fun hmem => by
    have hsome := hcovers key hmem
    rw [hkey] at hsome
    cases hsome
  have hserved : ∀ {t t'}, Drifts (openPms draws) critical (view w.server) t →
      Drifts (openPms draws) critical (openPms draws q t).2 t' →
      NamesGrown propertyId (view w.server) t' := by
    intro t t' hbefore hafter
    have hkept := hbefore.sameNames hnaming
    have hgrown := (hcreate t).1 (hsame _ _ hkept ▸ hnew)
    exact hkept.grown.trans (hgrown.trans (hafter.sameNames hnaming).grown)
  have hpoint : ∀ w' : World σ,
      Underway (openPms draws) critical q (view w.server) (view w'.server) →
      NamesGrown propertyId (view w.server) (view w'.server) := by
    rintro w' (hdrifts | ⟨reply, t, hbefore, -, hafter⟩)
    · exact (hdrifts.sameNames hnaming).grown
    · exact hserved hbefore hafter
  refine Passes.tryCatch
    (F := fun _ (w' : World σ) =>
      Drifts (openPms draws) critical (view w.server) (view w'.server))
    (Passes.bind (R := fun _ (w' : World σ) =>
      ∃ t, Drifts (openPms draws) critical (view w.server) t ∧
      Drifts (openPms draws) critical (openPms draws q t).2 (view w'.server)) ?_ ?_) ?_
  · refine (passes_served (orderly_openPms draws) hf w).mono hpoint ?_ fun _ _ _ h => h
    rintro a w' - ⟨t, hbefore, -, hafter⟩
    exact ⟨t, hbefore, hafter⟩
  · rintro a w' hw' ⟨t, hbefore, hafter⟩
    refine (hrest a w').mono (fun w'' h => h ▸ hw') ?_ fun _ _ _ h => h.elim
    rintro b w'' - ⟨hserver, hmap⟩ n hn
    rw [hserver, hsame _ _ (hafter.sameNames hnaming)] at hn
    refine (hmap n).mpr (((hcreate t).2 n hn).symm.imp_right fun hn => hcovers n ?_)
    rwa [hsame _ _ (hbefore.sameNames hnaming)] at hn
  · intro e w' hw' hdrifts
    refine (hhandler e w').mono (fun w'' h => h ▸ hw') ?_ fun _ _ _ h => h
    rintro b w'' - ⟨hserver, rfl⟩
    rw [hserver, hsame _ _ (hdrifts.sameNames hnaming)]
    exact hcovers

/-- The loop of a stage that creates names, from the turn of one record. -/
theorem passes_nameRecords {ρ : Type}
    {turn : (String → Option UUID) → ρ → Cli σ (String → Option UUID)}
    {loop : (String → Option UUID) → List ρ → Cli σ Unit} (hnil : ∀ b, loop b [] = pure ())
    (hcons : ∀ b x xs, loop b (x :: xs) = turn b x >>= fun b => loop b xs)
    (hturn : ∀ b x w, Covers (names (view w.server)) b → (turn b x).Passes
      (fun w' => NamesGrown propertyId (view w.server) (view w'.server))
      (fun b w' => Covers (names (view w'.server)) b) (fun _ _ => False) w)
    (xs : List ρ) (hcovers : Covers (names (view w.server)) byName) :
    (loop byName xs).Passes (fun w' => NamesGrown propertyId (view w.server) (view w'.server))
      (fun _ _ => True) (fun _ _ => False) w := by
  induction xs generalizing byName w with
  | nil =>
    rw [hnil]
    exact passes_pure (.refl _) trivial
  | cons x rest ih =>
    rw [hcons]
    refine (hturn byName x w hcovers).bind fun b w' hw' hb => ?_
    exact (ih hb).mono (fun _ h => hw'.trans h) (fun _ _ _ h => h) fun _ _ _ h => h

/-- A stage that reads the names of the server first. -/
theorem guides_nameStage {ρ : Type} {g : Stage} {stats : StageStats}
    {read : Answer q → String → Option UUID}
    {turn : (String → Option UUID) → ρ → Cli σ (String → Option UUID)}
    {loop : (String → Option UUID) → List ρ → Cli σ Unit} {xs : List ρ}
    (hf : Faulty (openPms draws) critical view p.client)
    (hnaming : ∀ q : Request, q.Naming → critical q)
    (hsame : ∀ t t', SameNames t t' → names t' = names t)
    (hq : ∀ t, (openPms draws q t).2 = t)
    (hread : ∀ t a, (openPms draws q t).1.body = .ok a → Covers (names t) (read a))
    (hnil : ∀ b, loop b [] = pure ())
    (hcons : ∀ b x xs, loop b (x :: xs) = turn b x >>= fun b => loop b xs)
    (hturn : ∀ b x w, Covers (names (view w.server)) b → (turn b x).Passes
      (fun w' => NamesGrown propertyId (view w.server) (view w'.server))
      (fun b w' => Covers (names (view w'.server)) b) (fun _ _ => False) w) :
    Guides (Through view (NamesGrown propertyId)) (MigrationPipeline.setStats g stats >>= fun _ =>
      (call p.client q >>= fun a => pure (read a)) >>= fun b => loop b xs) := by
  have hlisted : ∀ {s t t'}, Drifts (openPms draws) critical s t →
      Drifts (openPms draws) critical (openPms draws q t).2 t' →
      Drifts (openPms draws) critical s t' := by
    intro s t t' hbefore hafter
    rw [hq] at hafter
    exact hbefore.trans hafter
  intro w
  refine (local_setStats g stats w).mono (fun _ h => NamesGrown.of_eq (congrArg view h)) ?_
    (fun _ _ _ h => h.elim) |> passes_bind
  rintro - w₁ - hserver
  refine passes_bind (passes_bind ((passes_served (orderly_openPms draws) hf w₁).mono ?_ ?_ ?_))
  · rintro w₂ (hdrifts | ⟨reply, t, hbefore, -, hafter⟩)
    · exact hserver ▸ (hdrifts.sameNames hnaming).grown
    · exact hserver ▸ ((hlisted hbefore hafter).sameNames hnaming).grown
  · rintro a w₂ - ⟨t, hbefore, hok, hafter⟩
    have hkept := (hlisted hbefore hafter).sameNames hnaming
    rw [hserver] at hkept
    refine passes_pure hkept.grown ?_
    have hcovers : Covers (names (view w₂.server)) (read a) := by
      rw [hq] at hafter
      rw [hsame _ _ (hafter.sameNames hnaming)]
      exact hread _ _ hok
    have hloop := passes_nameRecords hnil hcons hturn xs hcovers
    exact hloop.mono (fun _ h => hkept.grown.trans h) (fun _ _ h _ => hkept.grown.trans h)
      fun _ _ _ h => h.elim
  · rintro e w₂ - hdrifts
    exact hserver ▸ (hdrifts.sameNames hnaming).grown

/-- A record whose name the map has sends nothing. -/
theorem passes_known {prog : Cli σ (String → Option UUID)}
    (h : ∀ w, prog.Passes (fun w' => w'.server = w.server)
      (fun b w' => w'.server = w.server ∧ b = byName) (fun _ _ => False) w)
    (hcovers : Covers (names (view w.server)) byName) :
    prog.Passes (fun w' => NamesGrown propertyId (view w.server) (view w'.server))
      (fun b w' => Covers (names (view w'.server)) b) (fun _ _ => False) w := by
  refine (h w).mono (fun w' hw' => hw' ▸ .refl _) ?_ fun _ _ _ h => h
  rintro b w' - ⟨hserver, rfl⟩
  rwa [hserver]

theorem isSome_insert {id : UUID} (n : String) :
    (if n = key then some id else byName n).isSome ↔ n = key ∨ (byName n).isSome := by
  by_cases hn : n = key
  · simp [hn]
  · simp [hn]

end Turn

/-! The stages -/

theorem covers_roomTypes {rows : List NamedRow}
    (h : (openPms draws (.listRoomTypes propertyId) t).1.body = .ok rows) :
    Covers (roomTypeNames propertyId t) (MigrationPipeline.idsByName rows) := by
  intro n hn
  obtain ⟨r, hr, rfl⟩ := List.mem_map.mp hn
  have hrows : rows = roomTypeRows propertyId t := (Except.ok.inj h).symm
  refine idsByName_isSome.mpr ⟨⟨r.id, r.name⟩, ?_, rfl⟩
  rw [hrows]
  exact List.mem_map_of_mem ((List.perm_insertionSort _ _).mem_iff.mpr hr)

theorem covers_ratePlans {rows : List NamedRow}
    (h : (openPms draws (.listRatePlans propertyId) t).1.body = .ok rows) :
    Covers (ratePlanNames propertyId t) (MigrationPipeline.idsByName rows) := by
  intro n hn
  obtain ⟨r, hr, rfl⟩ := List.mem_map.mp hn
  have hrows : rows = ratePlanRows propertyId t := (Except.ok.inj h).symm
  refine idsByName_isSome.mpr ⟨⟨r.id, (t.planColumns r.id).name⟩, ?_, rfl⟩
  rw [hrows]
  exact (List.perm_insertionSort _ _).mem_iff.mpr (List.mem_map_of_mem hr)

variable (hf : Faulty (openPms draws) critical view p.client)
  (hnaming : ∀ q : Request, q.Naming → critical q)
include hf hnaming

theorem passes_migrateRoomType {byName : String → Option UUID} {rt : RoomTypeRecord} {w : World σ}
    (hcovers : Covers (roomTypeNames p.propertyId (view w.server)) byName) :
    (p.migrateRoomType byName rt).Passes
      (fun w' => NamesGrown p.propertyId (view w.server) (view w'.server))
      (fun b w' => Covers (roomTypeNames p.propertyId (view w'.server)) b) (fun _ _ => False) w := by
  have hpersist : ∀ id result, Local (p.persistRoomType rt.name id result) := fun _ _ =>
    Local.bind (local_store _ _) fun _ => local_store _ _
  unfold MigrationPipeline.migrateRoomType
  split
  · refine passes_known (fun w => ?_) hcovers
    refine Local.then (local_count _ _) (fun _ => Local.then (hpersist _ _) fun _ _ => ?_) w
    exact passes_pure rfl ⟨rfl, rfl⟩
  · next hkey =>
    refine passes_nameRecord hf hnaming (fun _ _ h => h.roomTypeNames _) (fun t => ?_) ?_ ?_ hkey
      hcovers
    · obtain ⟨happends, hplans⟩ := @names_createRoomType draws p.propertyId t rt
      refine ⟨fun hnew => ⟨(happends.adds hnew).grown, ?_⟩, fun n hn => happends.mem hn⟩
      rw [hplans]
      exact .refl _
    · intro id w
      refine Local.then (local_count _ _) (fun _ => Local.then (hpersist _ _) fun _ _ => ?_) w
      exact passes_pure rfl ⟨rfl, isSome_insert⟩
    · intro e w
      refine Local.then (local_fault _ _ _ _ _) (fun _ _ => ?_) w
      exact passes_pure rfl ⟨rfl, rfl⟩

theorem passes_migrateRatePlan {byName : String → Option UUID} {rp : RatePlanRecord} {w : World σ}
    (hcovers : Covers (ratePlanNames p.propertyId (view w.server)) byName) :
    (p.migrateRatePlan byName rp).Passes
      (fun w' => NamesGrown p.propertyId (view w.server) (view w'.server))
      (fun b w' => Covers (ratePlanNames p.propertyId (view w'.server)) b) (fun _ _ => False) w := by
  have hpersist : ∀ id result, Local (p.persistRatePlan rp.name id result) := fun _ _ =>
    Local.bind (local_store _ _) fun _ => local_store _ _
  unfold MigrationPipeline.migrateRatePlan
  split
  · refine passes_known (fun w => ?_) hcovers
    refine Local.then (local_count _ _) (fun _ => Local.then (hpersist _ _) fun _ _ => ?_) w
    exact passes_pure rfl ⟨rfl, rfl⟩
  · next hkey =>
    generalize (if rp.cancellationPolicy = "" then "standard" else rp.cancellationPolicy) = policy
    refine passes_nameRecord hf hnaming (fun _ _ h => h.ratePlanNames _) (fun t => ?_) ?_ ?_ hkey
      hcovers
    · obtain ⟨happends, htypes⟩ := @names_createRatePlan draws p.propertyId t rp.name policy
      refine ⟨fun hnew => ⟨?_, (happends.adds hnew).grown⟩, fun n hn => happends.mem hn⟩
      rw [htypes]
      exact .refl _
    · intro id w
      refine Local.then (local_count _ _) (fun _ => Local.then (hpersist _ _) fun _ _ => ?_) w
      exact passes_pure rfl ⟨rfl, isSome_insert⟩
    · intro e w
      refine Local.then (local_fault _ _ _ _ _) (fun _ _ => ?_) w
      exact passes_pure rfl ⟨rfl, rfl⟩

theorem guides_stageRoomTypes :
    Guides (Through view (NamesGrown p.propertyId)) p.stageRoomTypes :=
  guides_nameStage (q := .listRoomTypes p.propertyId) hf hnaming
    (fun _ _ h => h.roomTypeNames _) (fun _ => rfl) (fun _ _ => covers_roomTypes) (fun _ => rfl)
    (fun _ _ _ => rfl)
    fun _ _ _ => passes_migrateRoomType hf hnaming

theorem guides_stageRatePlans :
    Guides (Through view (NamesGrown p.propertyId)) p.stageRatePlans :=
  guides_nameStage (q := .listRatePlans p.propertyId) hf hnaming
    (fun _ _ h => h.ratePlanNames _) (fun _ => rfl) (fun _ _ => covers_ratePlans) (fun _ => rfl)
    (fun _ _ _ => rfl)
    fun _ _ _ => passes_migrateRatePlan hf hnaming

/-- No name is added twice when the requests that create names take effect only if they
are answered. -/
theorem guides_names : Guides (Through view (NamesGrown p.propertyId)) p.run := by
  have hrefl : ∀ s, Through view (NamesGrown p.propertyId) s s := fun _ => .refl _
  have htrans : ∀ a b c, Through view (NamesGrown p.propertyId) a b →
      Through view (NamesGrown p.propertyId) b c → Through view (NamesGrown p.propertyId) a c :=
    fun _ _ _ => NamesGrown.trans
  refine guides_run hrefl htrans fun runner hmem => ?_
  obtain ⟨g, stage⟩ := runner
  by_cases hnames : g = .roomTypes ∨ g = .ratePlans
  · rcases hnames with rfl | rfl
    · obtain rfl : stage = p.stageRoomTypes := by
        simpa [MigrationPipeline.stageRunners] using hmem
      exact guides_stageRoomTypes hf hnaming
    · obtain rfl : stage = p.stageRatePlans := by
        simpa [MigrationPipeline.stageRunners] using hmem
      exact guides_stageRatePlans hf hnaming
  · rw [not_or] at hnames
    have hentities : ∀ e, (g = .roomTypes ∧ e = .roomType) ∨ (g = .ratePlans ∧ e = .ratePlan) ∨
        (g = .guests ∧ e = .guest) ∨ (g = .bookings ∧ e = .booking) →
        e ≠ Entity.roomType ∧ e ≠ .ratePlan := by
      rintro e (⟨hg, -⟩ | ⟨hg, -⟩ | ⟨-, rfl⟩ | ⟨-, rfl⟩)
      · exact absurd hg hnames.1
      · exact absurd hg hnames.2
      · decide
      · decide
    have hclient : ∀ q, Permitted (fun e => e ≠ .roomType ∧ e ≠ .ratePlan) q →
        Allowed (fun e => e ≠ .roomType ∧ e ≠ .ratePlan) q → ∀ s,
        Through view (NamesGrown p.propertyId) s (p.client q s).2 := by
      intro q _ hallowed s
      have hkept : ∀ q : Request, ¬ q.Naming → ∀ t,
          NamesGrown p.propertyId t (openPms draws q t).2 := fun q hq t =>
        (sameNames_openPms hq t).grown
      refine hf.keeps (Q := NamesGrown p.propertyId) .refl (fun _ _ _ => NamesGrown.trans)
        (fun q hq => hkept q fun hname => hq (hnaming q hname)) (hkept q fun hq => ?_) s
      rcases hallowed hq with h | h
      · exact h.1 rfl
      · exact h.2 rfl
    obtain ⟨stats, rest, rfl, htame⟩ := tame_stage hrefl hclient hmem hentities
    exact Guides.bind htrans (guides_local hrefl (local_setStats _ _)) fun _ =>
      guides_tame hrefl htrans htame

end Views

/-! Any number of runs -/

/-- The states of the server to which runs for one property lead, each with whatever state
file, over requests that may fail, and stopped at any point or ended. Between the runs the
server goes on with what was given up. -/
inductive Reruns (server : Api τ) (critical : Request → Prop) (view : σ → τ) (propertyId : UUID)
    (s₀ : σ) : σ → Prop
  | start : Reruns server critical view propertyId s₀ s₀
  | invoked {s : σ} (h : Reruns server critical view propertyId s₀ s) (p : MigrationPipeline σ)
      (st : StateStore) (n : ℕ) (hf : Faulty server critical view p.client)
      (hproperty : p.propertyId = propertyId) :
      Reruns server critical view propertyId s₀
        (p.run.upTo n (MigrationPipeline.start s st)).server
  | drifted {s s' : σ} (h : Reruns server critical view propertyId s₀ s)
      (hdrifts : Drifts server critical (view s) (view s')) :
      Reruns server critical view propertyId s₀ s'

section Reruns
variable {server : Api τ} {draws : Draws} {critical : Request → Prop} {propertyId : UUID}
  {s₀ s : σ}

/-- What every run keeps, all of them keep. -/
theorem Reruns.guided {view : σ → τ} (h : Reruns server critical view propertyId s₀ s)
    {Q : τ → τ → Prop} (hrefl : ∀ t, Q t t) (htrans : ∀ a b c, Q a b → Q b c → Q a c)
    (hserver : ∀ q, ¬ critical q → ∀ t, Q t (server q t).2)
    (hrun : ∀ p : MigrationPipeline σ, Faulty server critical view p.client →
      p.propertyId = propertyId → Guides (Through view Q) p.run) : Q (view s₀) (view s) := by
  induction h with
  | start => exact hrefl _
  | invoked _ p st n hf hproperty ih =>
    exact htrans _ _ _ ih ((hrun p hf hproperty (MigrationPipeline.start _ st)).upTo n)
  | drifted _ hdrifts ih => exact htrans _ _ _ ih (hdrifts.keeps hrefl htrans hserver)

/-- Runs add each guest and each booking at most once, whatever answers are lost and whenever
the requests take effect. They add each name at most once if a request that creates a room
type or a rate plan takes effect only if it is answered. -/
theorem retries_create_nothing_twice {view : σ → Tenant}
    (h : Reruns (openPms draws) critical view propertyId s₀ s) :
    Grown (guestEmails (view s₀).db.toDb) (guestEmails (view s).db.toDb) ∧
    Grown (bookingIds (view s₀).db.toDb) (bookingIds (view s).db.toDb) ∧
    ((∀ q : Request, q.Naming → critical q) →
      Grown (roomTypeNames propertyId (view s₀)) (roomTypeNames propertyId (view s)) ∧
      Grown (ratePlanNames propertyId (view s₀)) (ratePlanNames propertyId (view s))) := by
  have hkeys : ∀ {keys : Db → List String}, Unrepeated keys → KeysGrown keys (view s₀) (view s) :=
    fun {keys} hkeys => h.guided (Q := KeysGrown keys) (fun _ => .refl _)
      (fun _ _ _ => Grown.trans) (fun q _ => KeysGrown.served hkeys q)
      fun p hf _ => guides_unrepeated hkeys hf
  refine ⟨hkeys unrepeated_guestEmails, hkeys unrepeated_bookingIds, fun hnaming => ?_⟩
  have hgrown : NamesGrown propertyId (view s₀) (view s) :=
    h.guided (Q := NamesGrown propertyId) .refl (fun _ _ _ => NamesGrown.trans)
      (fun q hq t => (sameNames_openPms (fun hname => hq (hnaming q hname)) t).grown)
      fun p hf hproperty => hproperty ▸ guides_names hf hnaming
  exact ⟨hgrown.roomTypes, hgrown.ratePlans⟩

end Reruns

/-! One lost answer -/

namespace Demo

/-- What became of the one request that is given up. -/
inductive Fate (lose : Request → Bool)
  | unsent
  | abandoned (q : Request) (h : lose q = true)
  | served

def Fate.isServed {lose : Request → Bool} : Fate lose → Bool
  | .served => true
  | _ => false

/-- The first of the requests is given up, and takes effect after the next one. -/
def belated (lose : Request → Bool) : Api (Tenant × Fate lose) := fun q s =>
  match s.2 with
  | .unsent =>
    if h : lose q = true then (.transportError, (s.1, .abandoned q h))
    else ((openPms draws q s.1).1, ((openPms draws q s.1).2, .unsent))
  | .abandoned q' _ =>
    ((openPms draws q s.1).1, ((openPms draws q' (openPms draws q s.1).2).2, .served))
  | .served => ((openPms draws q s.1).1, ((openPms draws q s.1).2, .served))

/-- The answer to the first of the requests is lost after the request has taken effect. -/
def lossy (lose : Request → Bool) : Api (Tenant × Bool) := fun q s =>
  if lose q && !s.2 then (.transportError, ((openPms draws q s.1).2, true))
  else ((openPms draws q s.1).1, ((openPms draws q s.1).2, s.2))

section Faults
variable {lose : Request → Bool} {critical : Request → Prop}
  (h : ∀ q, lose q = true → ¬ critical q)
include h

theorem faulty_belated : Faulty (openPms draws) critical Prod.fst (belated lose) := by
  refine ⟨fun q s => ?_⟩
  unfold belated
  split
  · split
    · exact .inr ⟨trivial, .refl⟩
    · exact .inl ⟨s.1, .refl, rfl, .refl⟩
  · next q' hlose _ => exact .inl ⟨s.1, .refl, rfl, Drifts.refl.served (h q' hlose)⟩
  · exact .inl ⟨s.1, .refl, rfl, .refl⟩

theorem faulty_lossy : Faulty (openPms draws) critical Prod.fst (lossy lose) := by
  refine ⟨fun q s => ?_⟩
  unfold lossy
  split
  · next hlose =>
    exact .inr ⟨trivial, Drifts.refl.served (h q (Bool.and_eq_true_iff.mp hlose).1)⟩
  · exact .inl ⟨s.1, .refl, rfl, .refl⟩

end Faults

def losesRoomType : Request → Bool
  | .createRoomType .. => true
  | _ => false

def losesBooking : Request → Bool
  | .createBooking _ => true
  | _ => false

/-- A room type that the property does not have. -/
def suite : SourceAdapter :=
  { oneRoom [] with extractRoomTypes := [⟨"Suite", 2, 4⟩], extractRooms := [] }

def pipeline (client : Api σ) (src : SourceAdapter) : MigrationPipeline σ where
  adapter := src
  client := client
  propertyId := 1
  dryRun := false
  onConflict := .skip
  defaultNightRate := 100
  runId := some "run"
  resume := false
  precheckBookings := false

end Demo

set_option maxRecDepth 100000 in
/-- The booking is given up and sent again. What was given up is served after that, and the
booking is there once. -/
theorem retries_create_nothing_twice_one :
    let run := (Demo.pipeline (Demo.belated Demo.losesBooking)
      (Demo.oneRoom [Demo.night "A" "a@x"])).run.upTo 200
        (MigrationPipeline.start (Demo.tenant, Demo.Fate.unsent) .empty)
    Grown (guestEmails Demo.tenant.db.toDb) (guestEmails run.server.1.db.toDb) ∧
      Grown (bookingIds Demo.tenant.db.toDb) (bookingIds run.server.1.db.toDb) ∧
      Grown (roomTypeNames 1 Demo.tenant) (roomTypeNames 1 run.server.1) ∧
      Grown (ratePlanNames 1 Demo.tenant) (ratePlanNames 1 run.server.1) ∧
      bookingIds run.server.1.db.toDb = ["A"] ∧ run.server.2.isServed = true := by
  have hfaulty : Faulty (openPms Demo.draws) Request.Naming Prod.fst
      (Demo.belated Demo.losesBooking) := by
    refine Demo.faulty_belated fun q hlose hnaming => ?_
    cases q with
    | createBooking body => exact hnaming
    | _ => cases hlose
  have hruns : Reruns (openPms Demo.draws) Request.Naming Prod.fst 1
      (Demo.tenant, Demo.Fate.unsent) _ :=
    .invoked .start (Demo.pipeline (Demo.belated Demo.losesBooking)
      (Demo.oneRoom [Demo.night "A" "a@x"])) .empty 200 hfaulty rfl
  obtain ⟨hguests, hbookings, hnames⟩ := retries_create_nothing_twice hruns
  refine ⟨hguests, hbookings, (hnames fun _ h => h).1, (hnames fun _ h => h).2, ?_, ?_⟩
  · decide +kernel
  · decide +kernel

set_option maxRecDepth 100000 in
/-- The answer to the room type is lost. It is sent again, and is there twice, and the run
reports SUCCESS. -/
theorem retries_create_twice :
    let p := Demo.pipeline (Demo.lossy Demo.losesRoomType) Demo.suite
    let run := p.run.exec (MigrationPipeline.start (Demo.tenant, false) .empty)
    Faulty (openPms Demo.draws) (fun q => Demo.losesRoomType q = false) Prod.fst p.client ∧
      run.1.isOk = true ∧ run.2.report.finalStatus = .success ∧
      roomTypeNames 1 Demo.tenant = ["std"] ∧
      roomTypeNames 1 run.2.server.1 = ["std", "suite", "suite"] := by
  refine ⟨Demo.faulty_lossy fun q h h' => ?_, ?_, ?_, ?_, ?_⟩
  · rw [h] at h'
    cases h'
  · decide
  · decide
  · decide
  · decide

end OpenPms.Migration
