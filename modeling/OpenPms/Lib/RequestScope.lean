import Mathlib.Data.List.Basic
import Mathlib.Logic.Function.Basic

/-!
Requests whose transaction ends with the scope of the request. A handler returns a response
with background tasks; the tasks run after the response, and the transaction of a handler
that has not committed itself is committed when the scope is left, which is after them. Tasks
read what is committed, as do the jobs that they hand to workers.
-/
namespace RequestScope

variable {ι σ τ π : Type}

/-- What a handler has done: committed a state, or left its writes to the scope. -/
inductive Outcome (σ : Type) where
  | committed (db : σ)
  | pending (write : σ → σ)

structure Response (σ τ : Type) where
  outcome : Outcome σ
  tasks : List τ

/-- What a task does: it reads the database and goes on with further tasks, it hands a job to
the workers, or it does neither. -/
inductive Effect (σ τ π : Type) where
  | read (next : σ → List τ)
  | enqueue (job : π)
  | other

/-- `respond` is `none` when the handler raises. -/
structure App (ι σ τ π : Type) where
  respond : ι → σ → Option (Response σ τ)
  effect : τ → Effect σ τ π

inductive Session (σ τ : Type) where
  | waiting
  | responded (pending : Option (σ → σ)) (tasks : List τ)
  | exited
  | failed

/-- The writes of the request are committed. -/
def Session.committed : Session σ τ → Bool
  | responded none _ => true
  | exited => true
  | _ => false

/-- `seen` are the commits before the reading, the newest first. -/
structure Reading (ι σ τ π : Type) where
  request : ι
  source : τ ⊕ π
  db : σ
  seen : List (Option ι × σ)

/-- Commits are recorded with the request, if any, and the state that they made. -/
structure State (ι σ τ π : Type) where
  db : σ
  log : List (Option ι × σ)
  sessions : ι → Session σ τ
  queue : List (ι × π)
  readings : List (Reading ι σ τ π)

/-- A job may be worked on any number of times, and a task may raise. -/
inductive Event (ι σ : Type) where
  | respond (i : ι)
  | background (i : ι)
  | raise (i : ι)
  | exit (i : ι)
  | work (n : ℕ)
  | other (write : σ → σ)

/-- The state that was read is the one that the request has committed, or one that was
committed after it. -/
def Reading.Reflects (r : Reading ι σ τ π) : Prop :=
  ∃ newer d older, r.seen = newer ++ (some r.request, d) :: older ∧
    r.db = (newer.head?.map (·.2)).getD d

namespace State

def initial (db : σ) : State ι σ τ π := ⟨db, [], fun _ => .waiting, [], []⟩

variable [DecidableEq ι]

def setSession (s : State ι σ τ π) (i : ι) (x : Session σ τ) : State ι σ τ π :=
  { s with sessions := Function.update s.sessions i x }

def commit (s : State ι σ τ π) (i : Option ι) (db : σ) : State ι σ τ π :=
  { s with db := db, log := (i, db) :: s.log }

def observe (s : State ι σ τ π) (i : ι) (source : τ ⊕ π) : State ι σ τ π :=
  { s with readings := ⟨i, source, s.db, s.log⟩ :: s.readings }

def next (A : App ι σ τ π) (s : State ι σ τ π) : Event ι σ → State ι σ τ π
  | .respond i =>
    match s.sessions i with
    | .waiting =>
      match A.respond i s.db with
      | none => s.setSession i .failed
      | some ⟨.committed db, tasks⟩ => (s.commit (some i) db).setSession i (.responded none tasks)
      | some ⟨.pending write, tasks⟩ => s.setSession i (.responded (some write) tasks)
    | _ => s
  | .background i =>
    match s.sessions i with
    | .responded pending (t :: rest) =>
      match A.effect t with
      | .read more =>
        (s.observe i (.inl t)).setSession i (.responded pending (more s.db ++ rest))
      | .enqueue job =>
        { s with queue := s.queue ++ [(i, job)] }.setSession i (.responded pending rest)
      | .other => s.setSession i (.responded pending rest)
    | _ => s
  | .raise i =>
    match s.sessions i with
    | .responded none (_ :: _) => s.setSession i .exited
    | .responded (some _) (_ :: _) => s.setSession i .failed
    | _ => s
  | .exit i =>
    match s.sessions i with
    | .responded none [] => s.setSession i .exited
    | .responded (some write) [] => (s.commit (some i) (write s.db)).setSession i .exited
    | _ => s
  | .work n =>
    match s.queue[n]? with
    | some (i, job) => s.observe i (.inr job)
    | none => s
  | .other write => s.commit none (write s.db)

def run (A : App ι σ τ π) (s : State ι σ τ π) (es : List (Event ι σ)) : State ι σ τ π :=
  es.foldl (next A) s

/-- The event reads for the request. -/
def Reads (A : App ι σ τ π) (s : State ι σ τ π) (i : ι) : Event ι σ → Prop
  | .background j => j = i ∧ ∃ pending t rest more,
      s.sessions i = .responded pending (t :: rest) ∧ A.effect t = .read more
  | .work n => ∃ job, s.queue[n]? = some (i, job)
  | _ => False

/-- At every reading the writes of the request are committed. -/
def Timely (A : App ι σ τ π) (s : State ι σ τ π) : List (Event ι σ) → Prop
  | [] => True
  | e :: rest => (∀ i, s.Reads A i e → (s.sessions i).committed = true) ∧
      Timely A (s.next A e) rest

/-! What the log says -/

/-- The database is the newest committed state, and so is what each reading has read; the
log has a request exactly when its session says so. -/
structure Recorded (db₀ : σ) (s : State ι σ τ π) : Prop where
  db : s.db = (s.log.head?.map (·.2)).getD db₀
  log : ∀ i, (∃ d, (some i, d) ∈ s.log) ↔ (s.sessions i).committed = true
  readings : ∀ r ∈ s.readings, r.db = (r.seen.head?.map (·.2)).getD db₀

variable {A : App ι σ τ π} {s : State ι σ τ π} {db₀ : σ}

omit [DecidableEq ι] in
theorem recorded_initial : Recorded db₀ (initial db₀ : State ι σ τ π) where
  db := rfl
  log i := ⟨fun ⟨_, h⟩ => absurd h List.not_mem_nil, fun h => by cases h⟩
  readings _ h := absurd h List.not_mem_nil

/-- A session changes without a commit. -/
theorem Recorded.setSession (h : Recorded db₀ s) {i : ι} {x : Session σ τ}
    (hx : x.committed = (s.sessions i).committed) : Recorded db₀ (s.setSession i x) where
  db := h.db
  log j := by
    change (∃ d, (some j, d) ∈ s.log) ↔ (Function.update s.sessions i x j).committed = true
    rw [h.log j]
    by_cases hj : j = i
    · subst hj
      rw [Function.update_self, hx]
    · rw [Function.update_of_ne hj]
  readings := h.readings

/-- A request commits and its session says so. -/
theorem Recorded.commit (h : Recorded db₀ s) {i : ι} {db : σ} {x : Session σ τ}
    (hx : x.committed = true) : Recorded db₀ ((s.commit (some i) db).setSession i x) where
  db := rfl
  log j := by
    change (∃ d, (some j, d) ∈ (some i, db) :: s.log) ↔
      (Function.update s.sessions i x j).committed = true
    by_cases hj : j = i
    · subst hj
      rw [Function.update_self]
      exact ⟨fun _ => hx, fun _ => ⟨db, List.mem_cons_self ..⟩⟩
    · rw [Function.update_of_ne hj, ← h.log j]
      constructor
      · rintro ⟨d, hd⟩
        rcases List.mem_cons.mp hd with heq | hd
        · cases heq
          exact absurd rfl hj
        · exact ⟨d, hd⟩
      · rintro ⟨d, hd⟩
        exact ⟨d, List.mem_cons_of_mem _ hd⟩
  readings := h.readings

omit [DecidableEq ι] in
theorem Recorded.other (h : Recorded db₀ s) (db : σ) : Recorded db₀ (s.commit none db) where
  db := rfl
  log j := by
    change (∃ d, (some j, d) ∈ (none, db) :: s.log) ↔ (s.sessions j).committed = true
    rw [← h.log j]
    constructor
    · rintro ⟨d, hd⟩
      rcases List.mem_cons.mp hd with heq | hd
      · cases heq
      · exact ⟨d, hd⟩
    · rintro ⟨d, hd⟩
      exact ⟨d, List.mem_cons_of_mem _ hd⟩
  readings := h.readings

omit [DecidableEq ι] in
theorem Recorded.observe (h : Recorded db₀ s) (i : ι) (source : τ ⊕ π) :
    Recorded db₀ (s.observe i source) where
  db := h.db
  log := h.log
  readings r hr := by
    rcases List.mem_cons.mp hr with rfl | hr
    · exact h.db
    · exact h.readings r hr

omit [DecidableEq ι] in
/-- A reading reflects its request exactly when the request is in what it has seen. -/
theorem reflects_iff {r : Reading ι σ τ π} (hdb : r.db = (r.seen.head?.map (·.2)).getD db₀) :
    r.Reflects ↔ ∃ d, (some r.request, d) ∈ r.seen := by
  constructor
  · rintro ⟨newer, d, older, hseen, -⟩
    exact ⟨d, hseen ▸ List.mem_append_right _ (List.mem_cons_self ..)⟩
  · rintro ⟨d, hd⟩
    obtain ⟨newer, older, hseen⟩ := List.append_of_mem hd
    refine ⟨newer, d, older, hseen, ?_⟩
    rw [hdb, hseen]
    cases newer with
    | nil => rfl
    | cons x rest => rfl

omit [DecidableEq ι] in
/-- A reading made now reflects its request exactly when that is committed. -/
theorem Recorded.reflects (h : Recorded db₀ s) (i : ι) (source : τ ⊕ π) :
    (⟨i, source, s.db, s.log⟩ : Reading ι σ τ π).Reflects ↔ (s.sessions i).committed = true :=
  (reflects_iff h.db).trans (h.log i)

/-! Steps -/

theorem recorded_respond {i : ι} (h : Recorded db₀ s) : Recorded db₀ (s.next A (.respond i)) := by
  unfold next
  dsimp only
  cases hi : s.sessions i with
  | waiting =>
    dsimp only
    rcases A.respond i s.db with _ | ⟨outcome, tasks⟩
    · exact h.setSession (by rw [hi]; rfl)
    · cases outcome with
      | committed db => exact h.commit rfl
      | pending write => exact h.setSession (by rw [hi]; rfl)
  | responded pending tasks => exact h
  | exited => exact h
  | failed => exact h

/-- What a background task does to the session leaves it committed or not. -/
theorem committed_responded {pending : Option (σ → σ)} {tasks tasks' : List τ} :
    (Session.responded pending tasks).committed = (Session.responded pending tasks').committed := by
  cases pending <;> rfl

theorem recorded_background {i : ι} (h : Recorded db₀ s) :
    Recorded db₀ (s.next A (.background i)) := by
  unfold next
  dsimp only
  split
  · next pending t rest hi =>
    have hsame : ∀ tasks, (Session.responded pending tasks).committed =
        (s.sessions i).committed := fun tasks => by rw [hi, committed_responded]
    split
    · exact (h.observe i (.inl t)).setSession (hsame _)
    · next job _ =>
      have hqueue : Recorded db₀ { s with queue := s.queue ++ [(i, job)] } :=
        ⟨h.db, h.log, h.readings⟩
      exact hqueue.setSession (hsame _)
    · exact h.setSession (hsame _)
  · exact h

theorem recorded_next (e : Event ι σ) (h : Recorded db₀ s) : Recorded db₀ (s.next A e) := by
  cases e with
  | respond i => exact recorded_respond h
  | background i => exact recorded_background h
  | raise i =>
    unfold next
    dsimp only
    split
    · next hi => exact h.setSession (by rw [hi]; rfl)
    · next hi => exact h.setSession (by rw [hi]; rfl)
    · exact h
  | exit i =>
    unfold next
    dsimp only
    split
    · next hi => exact h.setSession (by rw [hi]; rfl)
    · exact h.commit rfl
    · exact h
  | work n =>
    unfold next
    dsimp only
    split
    · exact h.observe _ _
    · exact h
  | other write => exact h.other _

/-- A step makes one reading, for the request that reads, or none. A task reads while its
request has responded and has not exited. -/
theorem readings_next (e : Event ι σ) :
    (∃ i source, (∀ j, s.Reads A j e ↔ j = i) ∧
      (∀ t, source = .inl t → ∃ pending tasks, s.sessions i = .responded pending tasks) ∧
      (s.next A e).readings = ⟨i, source, s.db, s.log⟩ :: s.readings) ∨
    (∀ j, ¬ s.Reads A j e) ∧ (s.next A e).readings = s.readings := by
  cases e with
  | background i =>
    unfold next
    dsimp only
    split
    · next pending t rest hi =>
      split
      · next more heffect =>
        refine .inl ⟨i, .inl t, fun j => ⟨fun hj => hj.1.symm, ?_⟩,
          fun _ _ => ⟨pending, t :: rest, hi⟩, rfl⟩
        rintro rfl
        exact ⟨rfl, pending, t, rest, more, hi, heffect⟩
      · next job heffect =>
        refine .inr ⟨fun j hj => ?_, rfl⟩
        obtain ⟨rfl, _, t', _, _, hi', hread⟩ := hj
        rw [hi] at hi'
        cases hi'
        rw [heffect] at hread
        cases hread
      · next heffect =>
        refine .inr ⟨fun j hj => ?_, rfl⟩
        obtain ⟨rfl, _, t', _, _, hi', hread⟩ := hj
        rw [hi] at hi'
        cases hi'
        rw [heffect] at hread
        cases hread
    · next hi =>
      refine .inr ⟨fun j hj => ?_, rfl⟩
      obtain ⟨rfl, pending, t, rest, _, hi', -⟩ := hj
      exact hi pending t rest hi'
  | work n =>
    unfold next
    dsimp only
    split
    · next i job hn =>
      refine .inl ⟨i, .inr job, fun j => ⟨fun hj => ?_, ?_⟩, fun _ heq => (by cases heq), rfl⟩
      · obtain ⟨job', hjob⟩ := hj
        rw [hn] at hjob
        cases hjob
        rfl
      · rintro rfl
        exact ⟨job, hn⟩
    · next hn =>
      refine .inr ⟨fun j hj => ?_, rfl⟩
      obtain ⟨job, hjob⟩ := hj
      rw [hn] at hjob
      cases hjob
  | respond i =>
    refine .inr ⟨fun _ => id, ?_⟩
    unfold next
    dsimp only
    split
    · split <;> rfl
    · rfl
  | raise i =>
    refine .inr ⟨fun _ => id, ?_⟩
    unfold next
    dsimp only
    split <;> rfl
  | exit i =>
    refine .inr ⟨fun _ => id, ?_⟩
    unfold next
    dsimp only
    split <;> rfl
  | other write => exact .inr ⟨fun _ => id, rfl⟩

theorem reflects_next (e : Event ι σ) (h : Recorded db₀ s) :
    (∀ r ∈ (s.next A e).readings, r.Reflects) ↔ (∀ r ∈ s.readings, r.Reflects) ∧
      ∀ i, s.Reads A i e → (s.sessions i).committed = true := by
  rcases readings_next (A := A) (s := s) e with
    ⟨i, source, hreads, -, hnext⟩ | ⟨hreads, hnext⟩
  · rw [hnext, List.forall_mem_cons, h.reflects i source, and_comm]
    simp only [hreads, forall_eq]
  · rw [hnext]
    exact ⟨fun hall => ⟨hall, fun i hi => absurd hi (hreads i)⟩, And.left⟩

/-- All readings of a run reflect their requests exactly when each is made in time. -/
theorem reflects_run {es : List (Event ι σ)} (h : Recorded db₀ s) :
    (∀ r ∈ (s.run A es).readings, r.Reflects) ↔
      (∀ r ∈ s.readings, r.Reflects) ∧ s.Timely A es := by
  induction es generalizing s with
  | nil => exact ⟨fun hall => ⟨hall, trivial⟩, And.left⟩
  | cons e rest ih =>
    change (∀ r ∈ ((s.next A e).run A rest).readings, r.Reflects) ↔ _
    rw [ih (recorded_next e h), reflects_next e h, and_assoc]
    rfl

/-! Requests by the way they commit -/

/-- What one step can do to the session of a request. -/
inductive Moves (A : App ι σ τ π) (i : ι) (db : σ) : Session σ τ → Session σ τ → Prop
  | stays (x : Session σ τ) : Moves A i db x x
  | refused : Moves A i db .waiting .failed
  | committed {d : σ} {tasks : List τ} (h : A.respond i db = some ⟨.committed d, tasks⟩) :
      Moves A i db .waiting (.responded none tasks)
  | pending {write : σ → σ} {tasks : List τ} (h : A.respond i db = some ⟨.pending write, tasks⟩) :
      Moves A i db .waiting (.responded (some write) tasks)
  | works (pending : Option (σ → σ)) (tasks tasks' : List τ) :
      Moves A i db (.responded pending tasks) (.responded pending tasks')
  | exits (pending : Option (σ → σ)) (tasks : List τ) :
      Moves A i db (.responded pending tasks) .exited
  | fails (write : σ → σ) (tasks : List τ) :
      Moves A i db (.responded (some write) tasks) .failed

theorem moves_setSession {i j : ι} {x : Session σ τ} {s' : State ι σ τ π}
    (hsame : s'.sessions = s.sessions) (hx : Moves A j s.db (s.sessions j) x) :
    Moves A i s.db (s.sessions i) ((s'.setSession j x).sessions i) := by
  change Moves A i s.db (s.sessions i) (Function.update s'.sessions j x i)
  rw [hsame]
  by_cases hij : i = j
  · subst hij
    rw [Function.update_self]
    exact hx
  · rw [Function.update_of_ne hij]
    exact .stays _

theorem moves_next (e : Event ι σ) (i : ι) :
    Moves A i s.db (s.sessions i) ((s.next A e).sessions i) := by
  cases e with
  | respond j =>
    unfold next
    dsimp only
    split
    · next hj =>
      split
      · exact moves_setSession rfl (hj ▸ .refused)
      · next hrespond => exact moves_setSession rfl (hj ▸ .committed hrespond)
      · next hrespond => exact moves_setSession rfl (hj ▸ .pending hrespond)
    · exact .stays _
  | background j =>
    unfold next
    dsimp only
    split
    · next pending t rest hj =>
      split
      · exact moves_setSession rfl (hj ▸ .works _ _ _)
      · exact moves_setSession rfl (hj ▸ .works _ _ _)
      · exact moves_setSession rfl (hj ▸ .works _ _ _)
    · exact .stays _
  | raise j =>
    unfold next
    dsimp only
    split
    · next hj => exact moves_setSession rfl (hj ▸ .exits _ _)
    · next hj => exact moves_setSession rfl (hj ▸ .fails _ _)
    · exact .stays _
  | exit j =>
    unfold next
    dsimp only
    split
    · next hj => exact moves_setSession rfl (hj ▸ .exits _ _)
    · next hj => exact moves_setSession rfl (hj ▸ .exits _ _)
    · exact .stays _
  | work n =>
    unfold next
    dsimp only
    split
    · exact .stays _
    · exact .stays _
  | other write => exact .stays _

/-- A job is handed over by a request that has responded. -/
theorem queue_next (e : Event ι σ) :
    (s.next A e).queue = s.queue ∨ ∃ i job pending tasks,
      (s.next A e).queue = s.queue ++ [(i, job)] ∧
      (s.next A e).sessions i = .responded pending tasks := by
  cases e with
  | background i =>
    unfold next
    dsimp only
    split
    · next pending t rest _ =>
      split
      · exact .inl rfl
      · next job _ => exact .inr ⟨i, job, pending, rest, rfl, Function.update_self ..⟩
      · exact .inl rfl
    · exact .inl rfl
  | respond i =>
    refine .inl ?_
    unfold next
    dsimp only
    split
    · split <;> rfl
    · rfl
  | raise i =>
    refine .inl ?_
    unfold next
    dsimp only
    split <;> rfl
  | exit i =>
    refine .inl ?_
    unfold next
    dsimp only
    split <;> rfl
  | work n =>
    refine .inl ?_
    unfold next
    dsimp only
    split <;> rfl
  | other write => exact .inl rfl

/-- The handler commits before it returns. -/
def CommitsItself (A : App ι σ τ π) (i : ι) : Prop :=
  ∀ db write tasks, A.respond i db ≠ some ⟨.pending write, tasks⟩

/-- The handler leaves its writes to the scope. -/
def LeavesCommit (A : App ι σ τ π) (i : ι) : Prop :=
  ∀ db d tasks, A.respond i db ≠ some ⟨.committed d, tasks⟩

/-- A request that commits itself is committed as soon as it has responded. -/
structure Prompt (s : State ι σ τ π) (i : ι) : Prop where
  session : ∀ write tasks, s.sessions i ≠ .responded (some write) tasks
  queued : ∀ job, (i, job) ∈ s.queue → (s.sessions i).committed = true

omit [DecidableEq ι] in
theorem Moves.committed_stays {db : σ} {i : ι} {x y : Session σ τ} (h : Moves A i db x y)
    (hx : x.committed = true) : y.committed = true := by
  cases h with
  | stays => exact hx
  | works pending tasks tasks' => exact (committed_responded).symm.trans hx
  | exits => rfl
  | fails => cases hx
  | refused => cases hx
  | committed => cases hx
  | pending => cases hx

theorem Prompt.next {i : ι} (hi : CommitsItself A i) (h : s.Prompt i) (e : Event ι σ) :
    (s.next A e).Prompt i := by
  have hmoves := moves_next (A := A) (s := s) e i
  have hsession : ∀ write tasks, (s.next A e).sessions i ≠ .responded (some write) tasks := by
    intro write tasks heq
    rw [heq] at hmoves
    generalize hx : s.sessions i = x at hmoves
    cases hmoves with
    | stays => exact h.session write tasks hx
    | pending hrespond => exact hi _ _ _ hrespond
    | works _ tasks₀ => exact h.session write tasks₀ hx
  refine ⟨hsession, fun job hjob => ?_⟩
  rcases queue_next (A := A) (s := s) e with hqueue | ⟨j, job', pending, tasks, hqueue, hj⟩
  · rw [hqueue] at hjob
    exact hmoves.committed_stays (h.queued job hjob)
  · rw [hqueue] at hjob
    rcases List.mem_append.mp hjob with hjob | hjob
    · exact hmoves.committed_stays (h.queued job hjob)
    · cases List.mem_singleton.mp hjob
      cases pending with
      | none =>
        rw [hj]
        rfl
      | some write => exact absurd hj (hsession write tasks)

omit [DecidableEq ι] in
/-- A request that commits itself reads when its session is committed. -/
theorem Prompt.reads {i : ι} (h : s.Prompt i) {e : Event ι σ} (he : s.Reads A i e) :
    (s.sessions i).committed = true := by
  cases e with
  | background j =>
    obtain ⟨rfl, pending, t, rest, _, hj, -⟩ := he
    cases pending with
    | none =>
      rw [hj]
      rfl
    | some write => exact absurd hj (h.session write _)
  | work n =>
    obtain ⟨job, hjob⟩ := he
    exact h.queued job (List.mem_of_getElem? hjob)
  | respond j => exact he.elim
  | raise j => exact he.elim
  | exit j => exact he.elim
  | other write => exact he.elim

/-- Every reading of a request that commits itself reflects it. -/
theorem reflects_of_commitsItself {i : ι} (hi : CommitsItself A i) {es : List (Event ι σ)}
    (h : Recorded db₀ s) (hprompt : s.Prompt i)
    (hall : ∀ r ∈ s.readings, r.request = i → r.Reflects) :
    ∀ r ∈ (s.run A es).readings, r.request = i → r.Reflects := by
  induction es generalizing s with
  | nil => exact hall
  | cons e rest ih =>
    refine ih (recorded_next e h) (hprompt.next hi e) ?_
    rcases readings_next (A := A) (s := s) e with ⟨j, source, hreads, -, hnext⟩ | ⟨-, hnext⟩
    · intro r hr hri
      rw [hnext] at hr
      rcases List.mem_cons.mp hr with rfl | hr
      · obtain rfl : j = i := hri
        exact (h.reflects j source).mpr (hprompt.reads ((hreads j).mpr rfl))
      · exact hall r hr hri
    · rw [hnext]
      exact hall

theorem open_next {i : ι} (hi : LeavesCommit A i)
    (h : ∀ tasks, s.sessions i ≠ .responded none tasks) (e : Event ι σ) (tasks : List τ) :
    (s.next A e).sessions i ≠ .responded none tasks := by
  intro heq
  have hmoves := moves_next (A := A) (s := s) e i
  rw [heq] at hmoves
  generalize hx : s.sessions i = x at hmoves
  cases hmoves with
  | stays => exact h tasks hx
  | committed hrespond => exact hi _ _ _ hrespond
  | works _ tasks₀ => exact h tasks₀ hx

/-- No reading of a task reflects a request that leaves its commit to the scope. -/
theorem not_reflects_of_leavesCommit {i : ι} (hi : LeavesCommit A i) {es : List (Event ι σ)}
    (h : Recorded db₀ s) (hopen : ∀ tasks, s.sessions i ≠ .responded none tasks)
    (hall : ∀ r ∈ s.readings, r.request = i → ∀ t, r.source = .inl t → ¬ r.Reflects) :
    ∀ r ∈ (s.run A es).readings, r.request = i → ∀ t, r.source = .inl t → ¬ r.Reflects := by
  induction es generalizing s with
  | nil => exact hall
  | cons e rest ih =>
    refine ih (recorded_next e h) (open_next hi hopen e) ?_
    rcases readings_next (A := A) (s := s) e with ⟨j, source, -, htask, hnext⟩ | ⟨-, hnext⟩
    · intro r hr hri t ht
      rw [hnext] at hr
      rcases List.mem_cons.mp hr with rfl | hr
      · obtain ⟨pending, tasks, hj⟩ := htask t ht
        rw [h.reflects j source]
        intro hcommitted
        rw [hj] at hcommitted
        cases pending with
        | none => exact hopen tasks (hri ▸ hj)
        | some write => cases hcommitted
      · exact hall r hr hri t ht
    · rw [hnext]
      exact hall

/-- At every reading the handler has committed itself, or the scope has been left. -/
def InTime (A : App ι σ τ π) (self : ι → Prop) (s : State ι σ τ π) : List (Event ι σ) → Prop
  | [] => True
  | e :: rest => (∀ i, s.Reads A i e → self i ∨ s.sessions i = .exited) ∧
      InTime A self (s.next A e) rest

/-- Each handler either commits itself, or leaves that to the scope. -/
theorem timely_iff {self : ι → Prop} (hself : ∀ i, self i → CommitsItself A i)
    (hleaves : ∀ i, ¬ self i → LeavesCommit A i) {es : List (Event ι σ)}
    (hprompt : ∀ i, self i → s.Prompt i)
    (hopen : ∀ i, ¬ self i → ∀ tasks, s.sessions i ≠ .responded none tasks) :
    s.Timely A es ↔ s.InTime A self es := by
  induction es generalizing s with
  | nil => exact Iff.rfl
  | cons e rest ih =>
    refine and_congr (forall_congr' fun i => forall_congr' fun hreads => ?_) ?_
    · constructor
      · intro hcommitted
        by_cases hi : self i
        · exact .inl hi
        · cases hx : s.sessions i with
          | exited => exact .inr rfl
          | waiting =>
            rw [hx] at hcommitted
            cases hcommitted
          | failed =>
            rw [hx] at hcommitted
            cases hcommitted
          | responded pending tasks =>
            cases pending with
            | none => exact absurd hx (hopen i hi tasks)
            | some write =>
              rw [hx] at hcommitted
              cases hcommitted
      · rintro (hi | hexited)
        · exact (hprompt i hi).reads hreads
        · rw [hexited]
          rfl
    · exact ih (fun i hi => (hprompt i hi).next (hself i hi) e)
        fun i hi => open_next (hleaves i hi) (hopen i hi) e

end State

end RequestScope
