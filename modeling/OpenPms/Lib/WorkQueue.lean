import OpenPms.Lib.KeyedTable
import Mathlib.Logic.Function.Basic

/-!
A table of jobs that any number of workers serve. A worker claims one row that nobody has
locked, works on the row it has read, and either commits an entry of the log together with
the change of the row, or loses both. What is true of a row and of the entries committed for
it is an invariant as soon as single commits keep it.
-/
namespace WorkQueue

open KeyedTable

variable {κ ρ χ ω ι : Type} {key : ρ → κ}

/-- `held` is the row a worker has locked, as it has read it, with its progress; `seen` are
the keys of all rows so far. The log has the newest entry first. -/
structure State (χ ω ι : Type) (key : ρ → κ) where
  rows : Table key
  owner : κ → Option ι
  held : ι → Option (ρ × ω)
  log : List (κ × χ)
  seen : List κ

/-- An update of a row that keeps its key. -/
structure Change (key : ρ → κ) where
  apply : ρ → ρ
  keeps : ∀ row, key (apply row) = key row

variable [DecidableEq κ] [DecidableEq ι]

namespace State

/-- What has been committed for a row. -/
def entries (s : State χ ω ι key) (k : κ) : List χ :=
  (s.log.filter fun e => e.1 = k).map (·.2)

/-- A row under a key that has not been used before. -/
def enqueue (s : State χ ω ι key) (row : ρ) : State χ ω ι key :=
  if key row ∈ s.seen then s
  else { s with rows := s.rows.insert row, seen := key row :: s.seen }

def claim (s : State χ ω ι key) (i : ι) (k : κ) (start : ω) : Option (State χ ω ι key) :=
  match s.rows.find k with
  | none => none
  | some row =>
    if s.owner k = none ∧ s.held i = none then
      some { s with
        owner := Function.update s.owner k (some i)
        held := Function.update s.held i (some (row, start)) }
    else none

/-- The worker gets on with the row it holds. -/
def work (s : State χ ω ι key) (i : ι) (progress : ω) : State χ ω ι key :=
  match s.held i with
  | none => s
  | some (row, _) => { s with held := Function.update s.held i (some (row, progress)) }

/-- The end of the transaction, by itself that of a worker that crashes. -/
def release (s : State χ ω ι key) (i : ι) : State χ ω ι key :=
  match s.held i with
  | none => s
  | some (row, _) =>
    { s with
      owner := Function.update s.owner (key row) none
      held := Function.update s.held i none }

def resolved (s : State χ ω ι key) (k : κ) (entry : χ) (change : Option (Change key)) :
    State χ ω ι key :=
  { s with
    rows := match change with
      | none => s.rows.erase k
      | some c => s.rows.update k c.apply c.keeps
    log := (k, entry) :: s.log }

/-- The row is deleted without a change of it. -/
def commit (s : State χ ω ι key) (i : ι) (entry : χ) (change : Option (Change key)) :
    State χ ω ι key :=
  match s.held i with
  | none => s
  | some (row, _) => (s.release i).resolved (key row) entry change

/-- Workers hold the rows as they are, each under its own lock. -/
structure Sound (s : State χ ω ι key) : Prop where
  held : ∀ i row progress, s.held i = some (row, progress) →
    s.owner (key row) = some i ∧ s.rows.find (key row) = some row
  seen : ∀ k row, s.rows.find k = some row → k ∈ s.seen
  logged : ∀ e ∈ s.log, e.1 ∈ s.seen

/-- Every row, or its absence, goes with what has been logged for it. -/
def Told (R : List χ → Option ρ → Prop) (s : State χ ω ι key) : Prop :=
  ∀ k ∈ s.seen, R (s.entries k) (s.rows.find k)

variable {s s' : State χ ω ι key} {i : ι} {k : κ} {row : ρ} {R : List χ → Option ρ → Prop}

/-! Sound states -/

omit [DecidableEq ι] in
theorem Sound.unseen (h : Sound s) (hk : k ∉ s.seen) : s.rows.find k = none ∧ s.entries k = [] := by
  constructor
  · cases hfind : s.rows.find k with
    | none => rfl
    | some row => exact absurd (h.seen k row hfind) hk
  · unfold entries
    rw [List.map_eq_nil_iff, List.filter_eq_nil_iff]
    intro e he heq
    rw [decide_eq_true_eq] at heq
    exact hk (heq ▸ h.logged e he)

omit [DecidableEq ι] in
/-- Two workers never hold one row. -/
theorem Sound.exclusive (h : Sound s) {j : ι} {row' : ρ} {p p' : ω}
    (hi : s.held i = some (row, p)) (hj : s.held j = some (row', p'))
    (hkey : key row = key row') : i = j := by
  have howner := (h.held i row p hi).1
  rw [hkey, (h.held j row' p' hj).1] at howner
  exact (Option.some.inj howner).symm

omit [DecidableEq ι] in
theorem Sound.enqueue (h : Sound s) (row : ρ) : Sound (s.enqueue row) := by
  unfold State.enqueue
  split
  · exact h
  · next hnew =>
    have hfree := (h.unseen hnew).1
    refine ⟨?_, ?_, fun e he => List.mem_cons_of_mem _ (h.logged e he)⟩
    · intro j row' p hj
      obtain ⟨howner, hfind⟩ := h.held j row' p hj
      exact ⟨howner, Table.find_insert_of_some hfree hfind⟩
    · intro k row' hfind
      obtain ⟨hmem, hkey⟩ := Table.find_eq_some.mp hfind
      rcases (Table.mem_insert hfree).mp hmem with hold | rfl
      · exact List.mem_cons_of_mem _ (h.seen k row' (Table.find_eq_some.mpr ⟨hold, hkey⟩))
      · rw [← hkey]
        exact List.mem_cons_self

theorem claim_eq {start : ω} (h : s.claim i k start = some s') :
    ∃ row, s.rows.find k = some row ∧ s.owner k = none ∧ s.held i = none ∧
      s' = { s with
        owner := Function.update s.owner k (some i)
        held := Function.update s.held i (some (row, start)) } := by
  unfold claim at h
  split at h
  · cases h
  · next row hrow =>
    split at h
    · next hfree =>
      cases h
      exact ⟨row, hrow, hfree.1, hfree.2, rfl⟩
    · cases h

theorem Sound.claim (h : Sound s) {start : ω} (hc : s.claim i k start = some s') : Sound s' := by
  obtain ⟨row, hrow, hfree, -, rfl⟩ := claim_eq hc
  have hkey : key row = k := (Table.find_eq_some.mp hrow).2
  refine ⟨?_, h.seen, h.logged⟩
  intro j row' p hj
  by_cases hij : j = i
  · subst hij
    simp only [Function.update_self, Option.some.injEq, Prod.mk.injEq] at hj
    obtain ⟨rfl, -⟩ := hj
    refine ⟨?_, by rw [hkey]; exact hrow⟩
    simp only [hkey, Function.update_self]
  · simp only [Function.update_of_ne hij] at hj
    obtain ⟨howner, hfind⟩ := h.held j row' p hj
    refine ⟨?_, hfind⟩
    have hne : key row' ≠ k := by
      intro heq
      rw [heq, hfree] at howner
      cases howner
    simp only [Function.update_of_ne hne]
    exact howner

omit [DecidableEq κ] in
theorem held_work {progress : ω} {j : ι} {p : ω} (h : (s.work i progress).held j = some (row, p)) :
    ∃ p', s.held j = some (row, p') ∧ (j ≠ i → p' = p) ∧ (j = i → p = progress) := by
  unfold work at h
  split at h
  · next hnone =>
    refine ⟨p, h, fun _ => rfl, ?_⟩
    rintro rfl
    rw [hnone] at h
    cases h
  · next row' p' hsome =>
    by_cases hij : j = i
    · subst hij
      simp only [Function.update_self, Option.some.injEq, Prod.mk.injEq] at h
      obtain ⟨rfl, rfl⟩ := h
      exact ⟨p', hsome, fun hne => absurd rfl hne, fun _ => rfl⟩
    · simp only [Function.update_of_ne hij] at h
      exact ⟨p, h, fun _ => rfl, fun heq => absurd heq hij⟩

theorem Sound.work (h : Sound s) (progress : ω) : Sound (s.work i progress) := by
  have hsame : (s.work i progress).rows = s.rows ∧ (s.work i progress).owner = s.owner ∧
      (s.work i progress).log = s.log ∧ (s.work i progress).seen = s.seen := by
    unfold State.work
    split <;> exact ⟨rfl, rfl, rfl, rfl⟩
  obtain ⟨hrows, howner, hlog, hseen⟩ := hsame
  refine ⟨?_, by rw [hrows, hseen]; exact h.seen, by rw [hlog, hseen]; exact h.logged⟩
  intro j row p hj
  obtain ⟨p', hj', -, -⟩ := held_work hj
  rw [hrows, howner]
  exact h.held j row p' hj'

theorem held_release {j : ι} {p : ω} (h : (s.release i).held j = some (row, p)) :
    j ≠ i ∧ s.held j = some (row, p) := by
  unfold release at h
  split at h
  · next hnone =>
    refine ⟨?_, h⟩
    rintro rfl
    rw [hnone] at h
    cases h
  · by_cases hij : j = i
    · subst hij
      simp only [Function.update_self] at h
      cases h
    · simp only [Function.update_of_ne hij] at h
      exact ⟨hij, h⟩

theorem Sound.owner_release (h : Sound s) {j : ι} {p : ω} (hj : s.held j = some (row, p))
    (hij : j ≠ i) : (s.release i).owner (key row) = some j := by
  unfold release
  split
  · exact (h.held j row p hj).1
  · next row' p' hi =>
    have hne : key row ≠ key row' := fun heq => hij (h.exclusive hj hi heq)
    simp only [Function.update_of_ne hne]
    exact (h.held j row p hj).1

theorem Sound.release (h : Sound s) : Sound (s.release i) := by
  have hsame : (s.release i).rows = s.rows ∧ (s.release i).log = s.log ∧
      (s.release i).seen = s.seen := by
    unfold State.release
    split <;> exact ⟨rfl, rfl, rfl⟩
  obtain ⟨hrows, hlog, hseen⟩ := hsame
  refine ⟨?_, by rw [hrows, hseen]; exact h.seen, by rw [hlog, hseen]; exact h.logged⟩
  intro j row p hj
  obtain ⟨hij, hj'⟩ := held_release hj
  rw [hrows]
  exact ⟨h.owner_release hj' hij, (h.held j row p hj').2⟩

theorem commit_eq {entry : χ} {change : Option (Change key)} {p : ω}
    (h : s.held i = some (row, p)) :
    s.commit i entry change = (s.release i).resolved (key row) entry change := by
  simp only [commit, h]

theorem rows_release : (s.release i).rows = s.rows := by
  unfold release
  split <;> rfl

theorem log_release : (s.release i).log = s.log := by
  unfold release
  split <;> rfl

theorem seen_release : (s.release i).seen = s.seen := by
  unfold release
  split <;> rfl

omit [DecidableEq ι] in
theorem find_resolved_self {entry : χ} {change : Option (Change key)}
    (h : s.rows.find k = some row) :
    (s.resolved k entry change).rows.find k = change.map fun c => c.apply row := by
  cases change with
  | none => exact Table.find_erase_self
  | some c =>
    change (s.rows.update k c.apply c.keeps).find k = _
    rw [Table.find_update_self, h]
    rfl

omit [DecidableEq ι] in
theorem find_resolved_of_ne {entry : χ} {change : Option (Change key)} {k' : κ} (hne : k' ≠ k) :
    (s.resolved k entry change).rows.find k' = s.rows.find k' := by
  cases change with
  | none => exact Table.find_erase_of_ne hne
  | some c =>
    change (s.rows.update k c.apply c.keeps).find k' = _
    rw [Table.find_update_of_ne hne]

theorem Sound.commit (h : Sound s) (entry : χ) (change : Option (Change key)) :
    Sound (s.commit i entry change) := by
  cases hi : s.held i with
  | none =>
    simp only [State.commit, hi]
    exact h
  | some pair =>
    obtain ⟨row, p⟩ := pair
    rw [commit_eq hi]
    have hfind := (h.held i row p hi).2
    refine ⟨?_, ?_, ?_⟩
    · intro j row' p' hj
      obtain ⟨hij, hj'⟩ := held_release hj
      have hne : key row' ≠ key row := fun heq => hij (h.exclusive hj' hi heq)
      refine ⟨h.owner_release hj' hij, ?_⟩
      rw [find_resolved_of_ne hne, rows_release]
      exact (h.held j row' p' hj').2
    · intro k row' hk
      change k ∈ (s.release i).seen
      rw [seen_release]
      by_cases hkey : k = key row
      · rw [hkey]
        exact h.seen _ row hfind
      · rw [find_resolved_of_ne hkey, rows_release] at hk
        exact h.seen k row' hk
    · intro e he
      change e.1 ∈ (s.release i).seen
      rw [seen_release]
      rcases List.mem_cons.mp he with rfl | hold
      · exact h.seen _ row hfind
      · rw [log_release] at hold
        exact h.logged e hold

/-! What is told of the rows -/

omit [DecidableEq ι] in
theorem Told.of_same (h : Told R s) (hrows : s'.rows = s.rows) (hlog : s'.log = s.log)
    (hseen : s'.seen = s.seen) : Told R s' := by
  intro k hk
  unfold entries
  rw [hrows, hlog]
  exact h k (hseen ▸ hk)

omit [DecidableEq ι] in
theorem Told.enqueue (hs : Sound s) (h : Told R s) (hnew : R [] (some row)) :
    Told R (s.enqueue row) := by
  unfold State.enqueue
  split
  · exact h
  · next hunseen =>
    obtain ⟨hfree, hnone⟩ := hs.unseen hunseen
    intro k hk
    change R (s.entries k) _
    by_cases hkey : k = key row
    · subst hkey
      rw [hnone, Table.find_insert_self hfree]
      exact hnew
    · rw [Table.find_insert_of_ne hkey]
      exact h k ((List.mem_cons.mp hk).resolve_left hkey)

/-- One commit only has to be looked at for the row that it is about. -/
theorem Told.commit (hs : Sound s) (h : Told R s) {p : ω} (hi : s.held i = some (row, p))
    {entry : χ} {change : Option (Change key)}
    (hstep : R (s.entries (key row)) (some row) →
      R (entry :: s.entries (key row)) (change.map fun c => c.apply row)) :
    Told R (s.commit i entry change) := by
  rw [commit_eq hi]
  have hfind := (hs.held i row p hi).2
  have hlogs : ∀ k, ((s.release i).resolved (key row) entry change).entries k
      = if key row = k then entry :: s.entries k else s.entries k := by
    intro k
    unfold entries resolved
    by_cases heq : key row = k
    · simp [heq, log_release]
    · simp [heq, log_release]
  intro k hk
  change k ∈ (s.release i).seen at hk
  rw [seen_release] at hk
  rw [hlogs]
  by_cases hkey : key row = k
  · subst hkey
    rw [if_pos rfl, find_resolved_self (by rw [rows_release]; exact hfind)]
    exact hstep (hfind ▸ h (key row) hk)
  · rw [if_neg hkey, find_resolved_of_ne (Ne.symm hkey), rows_release]
    exact h k hk

end State

end WorkQueue
