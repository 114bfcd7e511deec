import OpenPms.Lib.Transaction
import Mathlib.Data.Set.BooleanAlgebra
import Mathlib.Data.Set.Disjoint
import Mathlib.Data.Set.Insert
import Mathlib.Order.CompletePartialOrder

/-!
Concurrent transactions under READ COMMITTED. Each statement of a transaction sees
the committed state with the transaction's own writes on top; a row lock is held
until the transaction ends; a commit publishes the writes. Any transaction may be
killed at any step. The rely-guarantee rule below reduces a property of every
interleaving to one derivation for each program.
-/
namespace Interleaving

open Transaction

variable {σ κ ε α ι : Type}

/-- `pending` is the composition of the writes so far; `reads` are the committed
states that the statements of the transaction read from, the last one first. -/
inductive TxState (σ κ ε α : Type) : Type where
  | running (prog : Prog σ κ ε α) (pending : σ → σ) (reads : List σ)
  | committed (result : α)
  | aborted

structure Config (σ κ ε α ι : Type) where
  db : σ
  owner : κ → Option ι
  tx : ι → TxState σ κ ε α

inductive Event (ι : Type) : Type where
  | step (i : ι)
  | kill (i : ι)

/-- A condition on when each transaction takes a lock or commits: what it has read
against the committed state of that moment. -/
structure Timing (σ ι : Type) where
  lock : ι → List σ → σ → Prop
  commit : ι → List σ → σ → Prop

def Timing.any : Timing σ ι := ⟨fun _ _ _ => True, fun _ _ _ => True⟩

section Semantics
variable [DecidableEq ι]

namespace Config

def start (db : σ) (progs : ι → Prog σ κ ε α) : Config σ κ ε α ι :=
  ⟨db, fun _ => none, fun i => .running (progs i) id []⟩

def setTx (c : Config σ κ ε α ι) (i : ι) (t : TxState σ κ ε α) : Config σ κ ε α ι :=
  { c with tx := Function.update c.tx i t }

/-- The end of a transaction releases every lock it holds. -/
def release (c : Config σ κ ε α ι) (i : ι) : Config σ κ ε α ι :=
  { c with owner := fun r => if c.owner r = some i then none else c.owner r }

def abort (c : Config σ κ ε α ι) (i : ι) : Config σ κ ε α ι :=
  (c.release i).setTx i .aborted

def commit (c : Config σ κ ε α ι) (i : ι) (pending : σ → σ) (a : α) : Config σ κ ε α ι :=
  { (c.release i).setTx i (.committed a) with db := pending c.db }

variable [DecidableEq κ]

/-- One event; `none` when the transaction has ended or waits for a lock. -/
def next (c : Config σ κ ε α ι) : Event ι → Option (Config σ κ ε α ι)
  | .kill i =>
    match c.tx i with
    | .running _ _ _ => some (c.abort i)
    | _ => none
  | .step i =>
    match c.tx i with
    | .running (.ret a) w _ => some (c.commit i w a)
    | .running (.raise _) _ _ => some (c.abort i)
    | .running (.read k) w o => some (c.setTx i (.running (k (w c.db)) w (c.db :: o)))
    | .running (.lock r k) w o =>
      if c.owner r = none ∨ c.owner r = some i then
        some ({ c with owner := Function.update c.owner r (some i) }.setTx i (.running k w o))
      else none
    | .running (.write f k) w o => some (c.setTx i (.running k (f ∘ w) o))
    | .committed _ => none
    | .aborted => none

def run (c : Config σ κ ε α ι) : List (Event ι) → Option (Config σ κ ε α ι)
  | [] => some c
  | e :: rest => (c.next e).bind (run · rest)

theorem run_append {c c' : Config σ κ ε α ι} {es es' : List (Event ι)} :
    c.run (es ++ es') = some c' ↔ ∃ c₁, c.run es = some c₁ ∧ c₁.run es' = some c' := by
  induction es generalizing c with
  | nil => simp [run]
  | cons e rest ih =>
    simp only [List.cons_append, run, Option.bind_eq_some_iff, ih]
    constructor
    · rintro ⟨c₁, hnext, c₂, hrest, hlast⟩
      exact ⟨c₂, ⟨c₁, hnext, hrest⟩, hlast⟩
    · rintro ⟨c₂, ⟨c₁, hnext, hrest⟩, hlast⟩
      exact ⟨c₁, hnext, c₂, hrest, hlast⟩

/-- The event meets the condition on its time. -/
def Admits (T : Timing σ ι) (c : Config σ κ ε α ι) : Event ι → Prop
  | .kill _ => True
  | .step i =>
    match c.tx i with
    | .running (.lock _ _) _ o => T.lock i o c.db
    | .running (.ret _) _ o => T.commit i o c.db
    | _ => True

/-- Configurations reached by runs all of whose steps meet the condition. -/
inductive Reach (T : Timing σ ι) (c₀ : Config σ κ ε α ι) : Config σ κ ε α ι → Prop
  | refl : Reach T c₀ c₀
  | tail {c c' : Config σ κ ε α ι} {e : Event ι} :
      Reach T c₀ c → c.Admits T e → c.next e = some c' → Reach T c₀ c'

theorem Reach.trans {T : Timing σ ι} {c₀ c c' : Config σ κ ε α ι}
    (h₁ : Reach T c₀ c) (h₂ : Reach T c c') : Reach T c₀ c' := by
  induction h₂ with
  | refl => exact h₁
  | tail _ ha hn ih => exact .tail ih ha hn

omit [DecidableEq ι] [DecidableEq κ] in
theorem Admits.mono {T T' : Timing σ ι} (hlock : ∀ i o s, T.lock i o s → T'.lock i o s)
    (hcommit : ∀ i o s, T.commit i o s → T'.commit i o s) {c : Config σ κ ε α ι} {e : Event ι}
    (h : c.Admits T e) : c.Admits T' e := by
  unfold Admits at h ⊢
  split
  · trivial
  · split
    · next hi =>
      simp only [hi] at h
      exact hlock _ _ _ h
    · next hi =>
      simp only [hi] at h
      exact hcommit _ _ _ h
    · trivial

theorem Reach.mono {T T' : Timing σ ι} (hlock : ∀ i o s, T.lock i o s → T'.lock i o s)
    (hcommit : ∀ i o s, T.commit i o s → T'.commit i o s) {c c' : Config σ κ ε α ι}
    (h : Reach T c c') : Reach T' c c' := by
  induction h with
  | refl => exact .refl
  | tail _ ha hn ih => exact .tail ih (ha.mono hlock hcommit) hn

instance (T : Timing σ ι) [∀ i o s, Decidable (T.lock i o s)]
    [∀ i o s, Decidable (T.commit i o s)] (c : Config σ κ ε α ι) :
    (e : Event ι) → Decidable (c.Admits T e)
  | .kill _ => .isTrue trivial
  | .step i =>
    match h : c.tx i with
    | .running (.lock _ _) _ o => decidable_of_iff (T.lock i o c.db) (by simp [Admits, h])
    | .running (.ret _) _ o => decidable_of_iff (T.commit i o c.db) (by simp [Admits, h])
    | .running (.raise _) _ _ => .isTrue (by simp [Admits, h])
    | .running (.read _) _ _ => .isTrue (by simp [Admits, h])
    | .running (.write _ _) _ _ => .isTrue (by simp [Admits, h])
    | .committed _ => .isTrue (by simp [Admits, h])
    | .aborted => .isTrue (by simp [Admits, h])

/-- A run that stops at the first step that does not meet the condition. -/
def runIn (T : Timing σ ι) [∀ i o s, Decidable (T.lock i o s)]
    [∀ i o s, Decidable (T.commit i o s)] (c : Config σ κ ε α ι) :
    List (Event ι) → Option (Config σ κ ε α ι)
  | [] => some c
  | e :: rest => if c.Admits T e then (c.next e).bind (runIn T · rest) else none

theorem reach_of_runIn {T : Timing σ ι} [∀ i o s, Decidable (T.lock i o s)]
    [∀ i o s, Decidable (T.commit i o s)] {c c' : Config σ κ ε α ι} {es : List (Event ι)}
    (h : c.runIn T es = some c') : Reach T c c' := by
  induction es generalizing c with
  | nil =>
    cases h
    exact .refl
  | cons e rest ih =>
    unfold runIn at h
    split at h
    · next ha =>
      obtain ⟨c₁, h₁, h₂⟩ := Option.bind_eq_some_iff.mp h
      exact Reach.trans (.tail .refl ha h₁) (ih h₂)
    · cases h

omit [DecidableEq ι] [DecidableEq κ] in
theorem admits_any (c : Config σ κ ε α ι) (e : Event ι) : c.Admits .any e := by
  unfold Admits
  split
  · trivial
  · split <;> trivial

/-- With no condition on the steps every executable run is a reachability proof. -/
theorem reach_of_run {c c' : Config σ κ ε α ι} {es : List (Event ι)}
    (h : c.run es = some c') : Reach .any c c' := by
  induction es generalizing c with
  | nil =>
    cases h
    exact .refl
  | cons e rest ih =>
    obtain ⟨c₁, h₁, h₂⟩ := Option.bind_eq_some_iff.mp h
    exact Reach.trans (.tail .refl (admits_any c e) h₁) (ih h₂)

end Config

end Semantics

/-- What holds of committed states, what a commit may do while it holds a set of
locks, and when locks are taken and commits happen. -/
structure Discipline (σ κ ι : Type) where
  inv : σ → Prop
  guar : Set κ → σ → σ → Prop
  timing : Timing σ ι

variable (D : Discipline σ κ ι)

/-- An assertion that no commit of another transaction can break, as long as the
locks `L` are held: the other one holds none of them. -/
def Stable (L : Set κ) (A : σ → Prop) : Prop :=
  ∀ L' s s', Disjoint L L' → D.inv s → D.guar L' s s' → A s → A s'

variable {D}

theorem Stable.mono {L L' : Set κ} {A : σ → Prop} (h : Stable D L A) (hL : L ⊆ L') :
    Stable D L' A := by
  intro K s s' hd hi hg hA
  exact h K s s' (Set.disjoint_of_subset_left hL hd) hi hg hA

theorem Stable.and {L : Set κ} {A B : σ → Prop} (hA : Stable D L A) (hB : Stable D L B) :
    Stable D L (fun s => A s ∧ B s) :=
  fun K s s' hd hi hg h => ⟨hA K s s' hd hi hg h.1, hB K s s' hd hi hg h.2⟩

theorem stable_true (L : Set κ) : Stable D L (fun _ => True) :=
  fun _ _ _ _ _ _ _ => trivial

abbrev Post (σ κ ε α : Type) : Type :=
  Except ε α → List σ → Set κ → (σ → σ) → (σ → Prop) → Prop

variable (D)

/-- `Ok D i p o L w A Q`: with the locks `L` held, the writes `w` pending, the reads `o`
made and `A` true of the committed state, every way to run `p` as transaction `i` among
disciplined ones ends in `Q`. -/
def Ok (i : ι) :
    Prog σ κ ε α → List σ → Set κ → (σ → σ) → (σ → Prop) → Post σ κ ε α → Prop
  | .ret a, o, L, w, A, Q => Q (.ok a) o L w A
  | .raise e, o, L, w, A, Q => Q (.error e) o L w A
  | .read k, o, L, w, A, Q => ∀ s, D.inv s → A s →
      ∃ A', A' s ∧ Stable D L A' ∧ Ok i (k (w s)) (s :: o) L w A' Q
  | .lock r k, o, L, w, A, Q => ∀ s, D.inv s → A s → D.timing.lock i o s →
      ∃ A', A' s ∧ Stable D (insert r L) A' ∧ Ok i k o (insert r L) w A' Q
  | .write f k, o, L, w, A, Q => Ok i k o L (f ∘ w) A Q

/-- What is promised of a return holds of a failure. -/
theorem of_error_eq_ok {e : ε} {a : α} {p : Prop} (h : (.error e : Except ε α) = .ok a) : p := by
  cases h

/-- A returning transaction keeps the invariant and its guarantee. -/
def Commits (i : ι) : Post σ κ ε α := fun r o L w A =>
  ∀ a, r = .ok a → ∀ s, D.inv s → A s → D.timing.commit i o s → D.guar L s (w s) ∧ D.inv (w s)

/-- The program can be run as transaction `i` in any company of disciplined programs. -/
def Disciplined (i : ι) (p : Prog σ κ ε α) : Prop :=
  Ok D i p [] ∅ id (fun _ => True) (Commits D i)

variable {D} {i : ι}

theorem Ok.mono {p : Prog σ κ ε α} {o : List σ} {L : Set κ} {w : σ → σ} {A : σ → Prop}
    {Q Q' : Post σ κ ε α} (h : Ok D i p o L w A Q)
    (hQ : ∀ r o L w A, Q r o L w A → Q' r o L w A) : Ok D i p o L w A Q' := by
  induction p generalizing o L w A with
  | ret a => exact hQ _ _ _ _ _ h
  | raise e => exact hQ _ _ _ _ _ h
  | read k ih =>
    intro s hi hA
    obtain ⟨A', hA', hst, hok⟩ := h s hi hA
    exact ⟨A', hA', hst, ih (w s) hok⟩
  | lock r k ih =>
    intro s hi hA hf
    obtain ⟨A', hA', hst, hok⟩ := h s hi hA hf
    exact ⟨A', hA', hst, ih hok⟩
  | write f k ih => exact ih h

/-- The reads of a transaction are never forgotten. -/
theorem Ok.reads {p : Prog σ κ ε α} {o : List σ} {L : Set κ} {w : σ → σ} {A : σ → Prop}
    {Q : Post σ κ ε α} (h : Ok D i p o L w A Q) :
    Ok D i p o L w A fun r o' L' w' A' => o <:+ o' ∧ Q r o' L' w' A' := by
  induction p generalizing o L w A with
  | ret a => exact ⟨List.suffix_rfl, h⟩
  | raise e => exact ⟨List.suffix_rfl, h⟩
  | read k ih =>
    intro s hi hA
    obtain ⟨A', hA', hst, hok⟩ := h s hi hA
    refine ⟨A', hA', hst, (ih (w s) hok).mono ?_⟩
    rintro r o' L' w' A' ⟨hsuffix, hend⟩
    exact ⟨(List.suffix_cons s o).trans hsuffix, hend⟩
  | lock r k ih =>
    intro s hi hA hf
    obtain ⟨A', hA', hst, hok⟩ := h s hi hA hf
    exact ⟨A', hA', hst, ih hok⟩
  | write f k ih => exact ih h

theorem ok_bind {β : Type} {p : Prog σ κ ε α} {f : α → Prog σ κ ε β} {o : List σ} {L : Set κ}
    {w : σ → σ} {A : σ → Prop} {Q : Post σ κ ε β}
    (h : Ok D i p o L w A (fun r o L w A =>
      match r with
      | .ok a => Ok D i (f a) o L w A Q
      | .error e => Q (.error e) o L w A)) : Ok D i (p >>= f) o L w A Q := by
  rw [Prog.bind_def]
  induction p generalizing o L w A with
  | ret a => exact h
  | raise e => exact h
  | read k ih =>
    intro s hi hA
    obtain ⟨A', hA', hst, hok⟩ := h s hi hA
    exact ⟨A', hA', hst, ih (w s) hok⟩
  | lock r k ih =>
    intro s hi hA hf
    obtain ⟨A', hA', hst, hok⟩ := h s hi hA hf
    exact ⟨A', hA', hst, ih hok⟩
  | write g k ih => exact ih h

theorem ok_tryCatch {p : Prog σ κ ε α} {g : ε → Prog σ κ ε α} {o : List σ} {L : Set κ}
    {w : σ → σ} {A : σ → Prop} {Q : Post σ κ ε α}
    (h : Ok D i p o L w A (fun r o L w A =>
      match r with
      | .ok a => Q (.ok a) o L w A
      | .error e => Ok D i (g e) o L w A Q)) : Ok D i (p.tryCatch g) o L w A Q := by
  induction p generalizing o L w A with
  | ret a => exact h
  | raise e => exact h
  | read k ih =>
    intro s hi hA
    obtain ⟨A', hA', hst, hok⟩ := h s hi hA
    exact ⟨A', hA', hst, ih (w s) hok⟩
  | lock r k ih =>
    intro s hi hA hf
    obtain ⟨A', hA', hst, hok⟩ := h s hi hA hf
    exact ⟨A', hA', hst, ih hok⟩
  | write f k ih => exact ih h

/-! One statement at a time -/

/-- `Ok` as a structure, so that a goal about a program keeps its shape. -/
structure Runs (D : Discipline σ κ ι) (i : ι) (o : List σ) (L : Set κ) (w : σ → σ)
    (A : σ → Prop) (Q : Post σ κ ε α) (p : Prog σ κ ε α) : Prop where
  ok : Ok D i p o L w A Q

theorem Runs.disciplined {p : Prog σ κ ε α}
    (h : Runs D i [] ∅ id (fun _ => True) (Commits D i) p) : Disciplined D i p := h.ok

section Statements
variable {β : Type} {o : List σ} {L : Set κ} {w : σ → σ} {A : σ → Prop}

theorem runs_raise {e : ε} {Q : Post σ κ ε α} (he : Q (.error e) o L w A) :
    Runs D i o L w A Q (.raise e) := ⟨he⟩

theorem commits_error (e : ε) : Commits D i (.error e : Except ε α) o L w A :=
  fun _ => of_error_eq_ok

theorem runs_pure {a : α} {Q : Post σ κ ε α} (h : Q (.ok a) o L w A) :
    Runs D i o L w A Q (pure a) := ⟨h⟩

theorem runs_bind {p : Prog σ κ ε α} {f : α → Prog σ κ ε β} {P : Post σ κ ε α}
    {Q : Post σ κ ε β} (hp : Runs D i o L w A P p)
    (he : ∀ e o L w A, P (.error e) o L w A → Q (.error e) o L w A)
    (hf : ∀ a o L w A, P (.ok a) o L w A → Runs D i o L w A Q (f a)) :
    Runs D i o L w A Q (p >>= f) := by
  refine ⟨ok_bind (hp.ok.mono ?_)⟩
  intro r o' L' w' A' h'
  cases r with
  | ok a => exact (hf a o' L' w' A' h').ok
  | error e => exact he e o' L' w' A' h'

theorem runs_raiseIf_bind {c : Prop} [Decidable c] {e : ε} {f : Unit → Prog σ κ ε α}
    {Q : Post σ κ ε α} (he : Q (.error e) o L w A) (h : ¬ c → Runs D i o L w A Q (f ())) :
    Runs D i o L w A Q (Prog.raiseIf c e >>= f) := by
  unfold Prog.raiseIf
  split
  · exact ⟨he⟩
  · next hc => exact ⟨(h hc).ok⟩

theorem runs_select_bind {q : σ → α} {f : α → Prog σ κ ε β} {Q : Post σ κ ε β}
    (hst : Stable D L A) (h : ∀ s, D.inv s → A s → Runs D i (s :: o) L w A Q (f (q (w s)))) :
    Runs D i o L w A Q (Prog.select q >>= f) :=
  ⟨fun s hs hA => ⟨A, hA, hst, (h s hs hA).ok⟩⟩

/-- What the read state says may be kept as the assertion, if it is stable. -/
theorem runs_select_assert {q : σ → α} {f : α → Prog σ κ ε β} {Q : Post σ κ ε β}
    (h : ∀ s, D.inv s → A s → ∃ A', A' s ∧ Stable D L A' ∧
      Runs D i (s :: o) L w A' Q (f (q (w s)))) :
    Runs D i o L w A Q (Prog.select q >>= f) := by
  refine ⟨fun s hs hA => ?_⟩
  obtain ⟨A', hA', hst, hruns⟩ := h s hs hA
  exact ⟨A', hA', hst, hruns.ok⟩

theorem runs_select_tryCatch {q : σ → α} {f : α → Prog σ κ ε β} {g : ε → Prog σ κ ε β}
    {Q : Post σ κ ε β} (hst : Stable D L A)
    (h : ∀ s, D.inv s → A s → Runs D i (s :: o) L w A Q ((f (q (w s))).tryCatch g)) :
    Runs D i o L w A Q ((Prog.select q >>= f).tryCatch g) :=
  ⟨fun s hs hA => ⟨A, hA, hst, (h s hs hA).ok⟩⟩

theorem runs_ofExcept_bind {x : Except ε α} {f : α → Prog σ κ ε β} {Q : Post σ κ ε β}
    (he : ∀ e, Q (.error e) o L w A) (h : ∀ a, x = .ok a → Runs D i o L w A Q (f a)) :
    Runs D i o L w A Q (Prog.ofExcept x >>= f) := by
  cases x with
  | error e => exact ⟨he e⟩
  | ok a => exact ⟨(h a rfl).ok⟩

theorem runs_modify_bind {g : σ → σ} {f : Unit → Prog σ κ ε α} {Q : Post σ κ ε α}
    (h : Runs D i o L (g ∘ w) A Q (f ())) : Runs D i o L w A Q (Prog.modify g >>= f) :=
  ⟨h.ok⟩

theorem runs_acquire_bind {r : κ} {f : Unit → Prog σ κ ε α} {Q : Post σ κ ε α}
    (hst : Stable D L A) (h : Runs D i o (insert r L) w A Q (f ())) :
    Runs D i o L w A Q (Prog.acquire r >>= f) :=
  ⟨fun _ _ hA _ => ⟨A, hA, hst.mono (Set.subset_insert _ _), h.ok⟩⟩

theorem runs_runIf_acquire_bind {c : Prop} [Decidable c] {r : κ} {f : Unit → Prog σ κ ε α}
    {Q : Post σ κ ε α} (hst : Stable D L A) (h : ∀ L', L ⊆ L' → Runs D i o L' w A Q (f ())) :
    Runs D i o L w A Q (Prog.runIf c (Prog.acquire r) >>= f) := by
  unfold Prog.runIf
  split
  · exact runs_acquire_bind hst (h _ (Set.subset_insert _ _))
  · exact ⟨(h L subset_rfl).ok⟩

/-- The answer of a transaction does not matter to its commit. -/
theorem runs_answer {p : Prog σ κ ε α} {g : α → β} (h : Runs D i o L w A (Commits D i) p) :
    Runs D i o L w A (Commits D i) (p >>= fun a => pure (g a)) :=
  runs_bind h (fun _ _ _ _ _ _ => nofun) fun a _ _ _ _ hcommit =>
    ⟨fun _ _ => hcommit a rfl⟩

end Statements

/-! Assertions on the locks and writes that a program carries along -/

/-- An assertion that survives reading and the taking of locks. -/
structure Carried (D : Discipline σ κ ι) (H : Set κ → (σ → σ) → (σ → Prop) → Prop) : Prop where
  stable : ∀ {L w A}, H L w A → Stable D L A
  lock : ∀ {L w A} (r : κ) (s : σ), H L w A → D.inv s → A s →
    ∃ A', A' s ∧ H (insert r L) w A'

/-- However the program ends, the assertion still holds. -/
structure Carries (D : Discipline σ κ ι) (i : ι) (H : Set κ → (σ → σ) → (σ → Prop) → Prop)
    (p : Prog σ κ ε α) : Prop where
  ok : ∀ o L w A, H L w A → Ok D i p o L w A fun _ _ L w A => H L w A

section Carries
variable {β : Type} {H : Set κ → (σ → σ) → (σ → Prop) → Prop}

theorem carries_pure (a : α) : Carries D i H (pure a : Prog σ κ ε α) := ⟨fun _ _ _ _ h => h⟩

theorem carries_raise (e : ε) : Carries D i H (.raise e : Prog σ κ ε α) := ⟨fun _ _ _ _ h => h⟩

theorem carries_raiseIf {c : Prop} [Decidable c] (e : ε) :
    Carries D i H (Prog.raiseIf c e : Prog σ κ ε Unit) := by
  unfold Prog.raiseIf
  split
  · exact carries_raise e
  · exact carries_pure ()

theorem carries_select (hH : Carried D H) (q : σ → α) :
    Carries D i H (Prog.select q : Prog σ κ ε α) :=
  ⟨fun _ _ _ A h _ _ hA => ⟨A, hA, hH.stable h, h⟩⟩

theorem carries_acquire (hH : Carried D H) (r : κ) :
    Carries D i H (Prog.acquire r : Prog σ κ ε Unit) := by
  refine ⟨fun o L w A h s hi hA _ => ?_⟩
  obtain ⟨A', hA', hnew⟩ := hH.lock r s h hi hA
  exact ⟨A', hA', hH.stable hnew, hnew⟩

theorem carries_modify {f : σ → σ} (hf : ∀ {L w A}, H L w A → H L (f ∘ w) A) :
    Carries D i H (Prog.modify f : Prog σ κ ε Unit) :=
  ⟨fun _ _ _ _ h => hf h⟩

/-- What follows a program is carried when it is from every result of it. -/
theorem Carries.then {p : Prog σ κ ε α} {f : α → Prog σ κ ε β} {o : List σ} {L : Set κ}
    {w : σ → σ} {A : σ → Prop} (hp : Ok D i p o L w A fun _ _ L w A => H L w A)
    (hf : ∀ a, Carries D i H (f a)) : Ok D i (p >>= f) o L w A fun _ _ L w A => H L w A := by
  apply ok_bind
  refine hp.mono ?_
  intro r o' L' w' A' h'
  cases r with
  | ok a => exact (hf a).ok o' L' w' A' h'
  | error e => exact h'

theorem carries_bind {p : Prog σ κ ε α} {f : α → Prog σ κ ε β} (hp : Carries D i H p)
    (hf : ∀ a, Carries D i H (f a)) : Carries D i H (p >>= f) :=
  ⟨fun o L w A h => Carries.then (hp.ok o L w A h) hf⟩

theorem carries_tryCatch {p : Prog σ κ ε α} {g : ε → Prog σ κ ε α} (hp : Carries D i H p)
    (hg : ∀ e, Carries D i H (g e)) : Carries D i H (p.tryCatch g) := by
  refine ⟨fun o L w A h => ok_tryCatch ((hp.ok o L w A h).mono ?_)⟩
  intro r o' L' w' A' h'
  cases r with
  | ok a => exact h'
  | error e => exact (hg e).ok o' L' w' A' h'

theorem carries_runIf {c : Prop} [Decidable c] {p : Prog σ κ ε Unit} (hp : Carries D i H p) :
    Carries D i H (Prog.runIf c p) := by
  unfold Prog.runIf
  split
  · exact hp
  · exact carries_pure ()

theorem carries_forEach {xs : List β} {p : β → Prog σ κ ε Unit} (hp : ∀ x, Carries D i H (p x)) :
    Carries D i H (Prog.forEach xs p) := by
  induction xs with
  | nil => exact carries_pure ()
  | cons x rest ih => exact carries_bind (hp x) fun _ => ih

theorem carries_ofExcept (x : Except ε α) : Carries D i H (Prog.ofExcept x : Prog σ κ ε α) := by
  cases x with
  | error e => exact carries_raise e
  | ok a => exact carries_pure a

/-- An assertion that every write of the program keeps is carried through it. -/
theorem carries_of_writes {W : (σ → σ) → Prop} {p : Prog σ κ ε α} (hH : Carried D H)
    (hW : ∀ {f}, W f → ∀ {L w A}, H L w A → H L (f ∘ w) A) (h : Prog.Writes W p) :
    Carries D i H p := by
  induction h with
  | ret a => exact carries_pure a
  | raise e => exact carries_raise e
  | read _ ih =>
    refine ⟨fun o L w A h s hi hA => ⟨A, hA, hH.stable h, ?_⟩⟩
    exact (ih (w s)).ok (s :: o) L w A h
  | @lock r k _ ih =>
    refine ⟨fun o L w A h s hi hA _ => ?_⟩
    obtain ⟨A', hA', hnew⟩ := hH.lock r s h hi hA
    exact ⟨A', hA', hH.stable hnew, ih.ok o (insert r L) w A' hnew⟩
  | write hf _ ih => exact ⟨fun o L w A h => ih.ok o L _ A (hW hf h)⟩

/-- A carried program in the middle of a transaction: the assertion holds of the writes
and locks at its end, and the reads made before it are still the first ones. -/
theorem Carries.runs_bind {p : Prog σ κ ε α} {f : α → Prog σ κ ε β} {o : List σ} {L : Set κ}
    {w : σ → σ} {A : σ → Prop} {Q : Post σ κ ε β} (hp : Carries D i H p) (h : H L w A)
    (he : ∀ e o' L' w' A', Q (.error e) o' L' w' A')
    (hf : ∀ a o' L' w' A', o <:+ o' → H L' w' A' → Runs D i o' L' w' A' Q (f a)) :
    Runs D i o L w A Q (p >>= f) := by
  refine ⟨ok_bind ((hp.ok o L w A h).reads.mono ?_)⟩
  rintro r o' L' w' A' ⟨hsuffix, hend⟩
  cases r with
  | ok a => exact (hf a o' L' w' A' hsuffix hend).ok
  | error e => exact he e o' L' w' A'

end Carries

/-! Soundness -/

/-- The configuration invariant behind the rules: every running transaction has a
derivation for what is left of it, under locks that it owns. -/
structure Sound (D : Discipline σ κ ι) (Q : ι → Post σ κ ε α) (c : Config σ κ ε α ι) : Prop where
  inv : D.inv c.db
  running : ∀ i p w o, c.tx i = .running p w o → ∃ L A,
    (∀ r ∈ L, c.owner r = some i) ∧ A c.db ∧ Stable D L A ∧ Ok D i p o L w A (Q i)

variable {Q : ι → Post σ κ ε α}

theorem sound_start {db : σ} {progs : ι → Prog σ κ ε α} (hi : D.inv db)
    (hp : ∀ i, Ok D i (progs i) [] ∅ id (fun _ => True) (Q i)) :
    Sound D Q (Config.start db progs) where
  inv := hi
  running i p w o h := by
    cases h
    exact ⟨∅, fun _ => True, by simp, trivial, stable_true _, hp i⟩

/-- What a transaction is derived to end in is true when it commits. -/
theorem Sound.ends {c : Config σ κ ε α ι} (h : Sound D Q c) {i : ι} {w : σ → σ} {a : α}
    {o : List σ} (hi : c.tx i = .running (.ret a) w o) :
    ∃ L A, (∀ r ∈ L, c.owner r = some i) ∧ A c.db ∧ Q i (.ok a) o L w A := by
  obtain ⟨L, A, hL, hA, -, hok⟩ := h.running i _ _ _ hi
  exact ⟨L, A, hL, hA, hok⟩

section Soundness
variable [DecidableEq ι]

/-- Changing one transaction needs a derivation for that one only. -/
theorem sound_setTx {c : Config σ κ ε α ι} (h : Sound D Q c) (i : ι) {owner : κ → Option ι}
    {t : TxState σ κ ε α}
    (howner : ∀ j, j ≠ i → ∀ r, c.owner r = some j → owner r = some j)
    (ht : ∀ p w o, t = .running p w o → ∃ L A,
      (∀ r ∈ L, owner r = some i) ∧ A c.db ∧ Stable D L A ∧ Ok D i p o L w A (Q i)) :
    Sound D Q ({ c with owner := owner }.setTx i t) where
  inv := h.inv
  running j p w o hj := by
    by_cases hij : j = i
    · subst hij
      exact ht p w o (by simpa [Config.setTx] using hj)
    · have hold : c.tx j = .running p w o := by simpa [Config.setTx, hij] using hj
      obtain ⟨L, A, hL, hA, hst, hok⟩ := h.running j p w o hold
      exact ⟨L, A, fun r hr => howner j hij r (hL r hr), hA, hst, hok⟩

theorem sound_abort {c : Config σ κ ε α ι} (h : Sound D Q c) (i : ι) : Sound D Q (c.abort i) := by
  apply sound_setTx h i
  · intro j hij r hr
    simpa [hr] using hij
  · intro p w o ht
    cases ht

variable (hQ : ∀ i r o L w A, Q i r o L w A → Commits D i r o L w A)
include hQ

/-- A commit cannot disturb the others: they hold locks that it does not. -/
theorem sound_commit {c : Config σ κ ε α ι} (h : Sound D Q c) (i : ι) {w : σ → σ} {a : α}
    {o : List σ} (hi : c.tx i = .running (.ret a) w o)
    (htime : D.timing.commit i o c.db) : Sound D Q (c.commit i w a) := by
  obtain ⟨L, A, hL, hA, hok⟩ := h.ends hi
  obtain ⟨hguar, hinv⟩ := hQ i _ _ _ _ _ hok a rfl c.db h.inv hA htime
  refine ⟨hinv, ?_⟩
  intro j p w' o' hj
  have hij : j ≠ i := by
    rintro rfl
    simp [Config.commit, Config.setTx] at hj
  have hold : c.tx j = .running p w' o' := by
    simpa [Config.commit, Config.setTx, Config.release, hij] using hj
  obtain ⟨L', A', hL', hA', hst', hok'⟩ := h.running j _ _ _ hold
  have hdisj : Disjoint L' L := by
    rw [Set.disjoint_left]
    intro r hr hr'
    have heq := (hL' r hr).symm.trans (hL r hr')
    exact hij (Option.some.inj heq)
  refine ⟨L', A', ?_, hst' L c.db (w c.db) hdisj h.inv hguar hA', hst', hok'⟩
  intro r hr
  simp [Config.commit, Config.setTx, Config.release, hL' r hr, hij]

theorem sound_next [DecidableEq κ] {c c' : Config σ κ ε α ι} {e : Event ι} (h : Sound D Q c)
    (ha : c.Admits D.timing e) (hn : c.next e = some c') : Sound D Q c' := by
  cases e with
  | kill i =>
    simp only [Config.next] at hn
    split at hn
    · cases hn
      exact sound_abort h i
    · cases hn
  | step i =>
    simp only [Config.next] at hn
    split at hn
    · next a w o hi =>
      cases hn
      have htime : D.timing.commit i o c.db := by simpa [Config.Admits, hi] using ha
      exact sound_commit hQ h i hi htime
    · cases hn
      exact sound_abort h i
    · next k w o hi =>
      cases hn
      obtain ⟨L, A, hL, hA, -, hok⟩ := h.running i _ _ _ hi
      obtain ⟨A', hA', hst, hk⟩ := hok c.db h.inv hA
      apply sound_setTx h i (fun _ _ _ hr => hr)
      intro p w' o' ht
      cases ht
      exact ⟨L, A', hL, hA', hst, hk⟩
    · next r k w o hi =>
      split at hn
      · next hfree =>
        cases hn
        obtain ⟨L, A, hL, hA, -, hok⟩ := h.running i _ _ _ hi
        have hf : D.timing.lock i o c.db := by simpa [Config.Admits, hi] using ha
        obtain ⟨A', hA', hst, hk⟩ := hok c.db h.inv hA hf
        apply sound_setTx h i
        · intro j hij r' hr'
          rw [Function.update_of_ne]
          · exact hr'
          · rintro rfl
            rcases hfree with hnone | hsome
            · simp [hnone] at hr'
            · exact hij (Option.some.inj (hr'.symm.trans hsome))
        · intro p w' o' ht
          cases ht
          refine ⟨insert r L, A', ?_, hA', hst, hk⟩
          intro r' hr'
          by_cases hrr : r' = r
          · simp [hrr]
          · rw [Function.update_of_ne hrr]
            exact hL r' (hr'.resolve_left hrr)
      · cases hn
    · next f k w o hi =>
      cases hn
      obtain ⟨L, A, hL, hA, hst, hok⟩ := h.running i _ _ _ hi
      apply sound_setTx h i (fun _ _ _ hr => hr)
      intro p w' o' ht
      cases ht
      exact ⟨L, A, hL, hA, hst, hok⟩
    · cases hn
    · cases hn

theorem sound_of_reach [DecidableEq κ] {db : σ} {progs : ι → Prog σ κ ε α} (hi : D.inv db)
    (hp : ∀ i, Ok D i (progs i) [] ∅ id (fun _ => True) (Q i)) {c : Config σ κ ε α ι}
    (hr : Config.Reach D.timing (Config.start db progs) c) : Sound D Q c := by
  induction hr with
  | refl => exact sound_start hi hp
  | tail _ ha hn ih => exact sound_next hQ ih ha hn

omit hQ in
/-- Rely-guarantee: disciplined programs keep the invariant of the committed state
in every configuration of every run whose steps meet the condition. -/
theorem inv_of_reach [DecidableEq κ] {db : σ} {progs : ι → Prog σ κ ε α} (hi : D.inv db)
    (hp : ∀ i, Disciplined D i (progs i)) {c : Config σ κ ε α ι}
    (hr : Config.Reach D.timing (Config.start db progs) c) : D.inv c.db :=
  (sound_of_reach (fun _ _ _ _ _ _ h => h) hi hp hr).inv

end Soundness

/-! What the transactions have answered -/

def TxState.result : TxState σ κ ε α → Option α
  | .committed a => some a
  | _ => none

namespace Config

/-- The answers of the transactions that have committed. -/
def results (c : Config σ κ ε α ι) (i : ι) : Option α := (c.tx i).result

theorem tx_of_results {c : Config σ κ ε α ι} {i : ι} {a : α} (h : c.results i = some a) :
    c.tx i = .committed a := by
  unfold results at h
  cases hi : c.tx i with
  | running p w o =>
    rw [hi] at h
    cases h
  | committed b =>
    rw [hi] at h
    rw [show b = a from Option.some.inj h]
  | aborted =>
    rw [hi] at h
    cases h

variable [DecidableEq ι]

theorem results_setTx (c : Config σ κ ε α ι) (i : ι) (t : TxState σ κ ε α)
    {owner : κ → Option ι} :
    ({ c with owner := owner }.setTx i t).results = Function.update c.results i t.result := by
  funext j
  by_cases hij : j = i
  · subst hij
    simp [results, setTx]
  · simp [results, setTx, hij]

theorem results_setTx_running (c : Config σ κ ε α ι) {i : ι} {t : TxState σ κ ε α}
    {owner : κ → Option ι} {p : Prog σ κ ε α} {w : σ → σ} {o : List σ}
    (hi : c.tx i = .running p w o) (ht : t.result = none) :
    ({ c with owner := owner }.setTx i t).results = c.results := by
  rw [results_setTx, ht, Function.update_eq_self_iff]
  simp [results, hi, TxState.result]

/-- An event is a commit, or leaves the committed state and the answers as they are. -/
theorem next_cases [DecidableEq κ] {c c' : Config σ κ ε α ι} {e : Event ι}
    (h : c.next e = some c') :
    (∃ i a w o, e = .step i ∧ c.tx i = .running (.ret a) w o ∧ c' = c.commit i w a) ∨
      (c'.db = c.db ∧ c'.results = c.results) := by
  cases e with
  | kill i =>
    simp only [next] at h
    split at h
    · next hi =>
      cases h
      exact .inr ⟨rfl, results_setTx_running c hi rfl⟩
    · cases h
  | step i =>
    simp only [next] at h
    split at h
    · next a w o hi =>
      cases h
      exact .inl ⟨i, a, w, o, rfl, hi, rfl⟩
    · next hi =>
      cases h
      exact .inr ⟨rfl, results_setTx_running c hi rfl⟩
    · next hi =>
      cases h
      exact .inr ⟨rfl, results_setTx_running c hi rfl⟩
    · next hi =>
      split at h
      · cases h
        exact .inr ⟨rfl, results_setTx_running c hi rfl⟩
      · cases h
    · next hi =>
      cases h
      exact .inr ⟨rfl, results_setTx_running c hi rfl⟩
    · cases h
    · cases h

end Config

/-- A relation between the answers and the committed state that every commit keeps holds from
then on: what a transaction is derived to end in is known when it commits. -/
theorem results_from [DecidableEq ι] [DecidableEq κ] {J : (ι → Option α) → σ → Prop}
    (hQ : ∀ i r o L w A, Q i r o L w A → Commits D i r o L w A)
    (hJ : ∀ i a o L w A m s, Q i (.ok a) o L w A → D.inv s → A s → D.timing.commit i o s →
      m i = none → J m s → J (Function.update m i (some a)) (w s))
    {db : σ} {progs : ι → Prog σ κ ε α} (hi : D.inv db)
    (hp : ∀ i, Runs D i [] ∅ id (fun _ => True) (Q i) (progs i)) {c₁ c : Config σ κ ε α ι}
    (hr₁ : Config.Reach D.timing (Config.start db progs) c₁) (h₁ : J c₁.results c₁.db)
    (hr : Config.Reach D.timing c₁ c) : J c.results c.db := by
  have hok := fun i => (hp i).ok
  induction hr with
  | refl => exact h₁
  | @tail c c' e hprev ha hn ih =>
    have hsound := sound_of_reach hQ hi hok (hr₁.trans hprev)
    rcases Config.next_cases hn with ⟨i, a, w, o, rfl, htx, rfl⟩ | ⟨hdb, hres⟩
    · obtain ⟨L, A, -, hA, hend⟩ := hsound.ends htx
      have htime : D.timing.commit i o c.db := by simpa [Config.Admits, htx] using ha
      have hres : (c.commit i w a).results = Function.update c.results i (some a) :=
        Config.results_setTx c i (.committed a)
      rw [hres]
      refine hJ i a o L w A c.results c.db hend hsound.inv hA htime ?_ ih
      simp [Config.results, htx, TxState.result]
    · rw [hdb, hres]
      exact ih

theorem results_of_reach [DecidableEq ι] [DecidableEq κ] {J : (ι → Option α) → σ → Prop}
    (hQ : ∀ i r o L w A, Q i r o L w A → Commits D i r o L w A)
    (hJ : ∀ i a o L w A m s, Q i (.ok a) o L w A → D.inv s → A s → D.timing.commit i o s →
      m i = none → J m s → J (Function.update m i (some a)) (w s))
    {db : σ} {progs : ι → Prog σ κ ε α} (hi : D.inv db) (h0 : J (fun _ => none) db)
    (hp : ∀ i, Runs D i [] ∅ id (fun _ => True) (Q i) (progs i)) {c : Config σ κ ε α ι}
    (hr : Config.Reach D.timing (Config.start db progs) c) : J c.results c.db :=
  results_from hQ hJ hi hp .refl h0 hr

/-! The committed states of a run -/

section Passes
variable [DecidableEq ι] [DecidableEq κ] {T : Timing σ ι} {c₀ c : Config σ κ ε α ι}
  {passed : List σ}

/-- A run with the committed states that it has passed, the last one first. -/
inductive Passes (T : Timing σ ι) (c₀ : Config σ κ ε α ι) :
    List σ → Config σ κ ε α ι → Prop
  | refl : Passes T c₀ [c₀.db] c₀
  | tail {passed : List σ} {c c' : Config σ κ ε α ι} {e : Event ι} (hc : Passes T c₀ passed c)
      (ha : c.Admits T e) (hn : c.next e = some c') : Passes T c₀ (c'.db :: passed) c'

theorem Passes.reach (h : Passes T c₀ passed c) : Config.Reach T c₀ c := by
  induction h with
  | refl => exact .refl
  | tail _ ha hn ih => exact .tail ih ha hn

/-- With no condition on the steps an executable run passes some states. -/
theorem Passes.run {c' : Config σ κ ε α ι} {es : List (Event ι)} (h : Passes .any c₀ passed c)
    (hrun : c.run es = some c') : ∃ passed', Passes .any c₀ passed' c' := by
  induction es generalizing c passed with
  | nil =>
    cases hrun
    exact ⟨passed, h⟩
  | cons e rest ih =>
    obtain ⟨c₁, hnext, hrest⟩ := Option.bind_eq_some_iff.mp hrun
    exact ih (.tail h (Config.admits_any c e) hnext) hrest

theorem Passes.current (h : Passes T c₀ passed c) : c.db ∈ passed := by
  cases h with
  | refl => exact List.mem_singleton_self _
  | tail _ _ _ => exact List.mem_cons_self ..

/-- An event adds at most the committed state to what a transaction has read. -/
theorem next_reads {c' : Config σ κ ε α ι} {e : Event ι} (hn : c.next e = some c') {i : ι}
    {p' : Prog σ κ ε α} {w' : σ → σ} {o' : List σ} (hi : c'.tx i = .running p' w' o') :
    ∃ p w o, c.tx i = .running p w o ∧ (o' = o ∨ o' = c.db :: o) := by
  have hother : ∀ {j : ι} {t : TxState σ κ ε α}, Function.update c.tx j t i = .running p' w' o' →
      j ≠ i → ∃ p w o, c.tx i = .running p w o ∧ (o' = o ∨ o' = c.db :: o) := by
    intro j t hupd hji
    rw [Function.update_of_ne (Ne.symm hji)] at hupd
    exact ⟨p', w', o', hupd, .inl rfl⟩
  cases e with
  | kill j =>
    simp only [Config.next] at hn
    split at hn
    · cases hn
      by_cases hji : j = i
      · subst hji
        simp [Config.abort, Config.setTx] at hi
      · exact hother hi hji
    · cases hn
  | step j =>
    by_cases hji : j = i
    · subst hji
      simp only [Config.next] at hn
      split at hn
      · cases hn
        simp [Config.commit, Config.setTx] at hi
      · cases hn
        simp [Config.abort, Config.setTx] at hi
      · next hj =>
        cases hn
        simp only [Config.setTx, Function.update_self, TxState.running.injEq] at hi
        exact ⟨_, _, _, hj, .inr hi.2.2.symm⟩
      · next hj =>
        split at hn
        · cases hn
          simp only [Config.setTx, Function.update_self, TxState.running.injEq] at hi
          exact ⟨_, _, _, hj, .inl hi.2.2.symm⟩
        · cases hn
      · next hj =>
        cases hn
        simp only [Config.setTx, Function.update_self, TxState.running.injEq] at hi
        exact ⟨_, _, _, hj, .inl hi.2.2.symm⟩
      · cases hn
      · cases hn
    · simp only [Config.next] at hn
      split at hn
      · cases hn
        exact hother hi hji
      · cases hn
        exact hother hi hji
      · cases hn
        exact hother hi hji
      · split at hn
        · cases hn
          exact hother hi hji
        · cases hn
      · cases hn
        exact hother hi hji
      · cases hn
      · cases hn

theorem next_other {c' : Config σ κ ε α ι} {i j : ι} (hij : j ≠ i)
    (hn : c.next (.step i) = some c') : c'.tx j = c.tx j := by
  simp only [Config.next] at hn
  split at hn
  · cases hn
    exact Function.update_of_ne hij _ _
  · cases hn
    exact Function.update_of_ne hij _ _
  · cases hn
    exact Function.update_of_ne hij _ _
  · split at hn
    · cases hn
      exact Function.update_of_ne hij _ _
    · cases hn
  · cases hn
    exact Function.update_of_ne hij _ _
  · cases hn
  · cases hn

/-- Steps of one transaction alone. Everything that it has read is still committed, so
they meet each condition that asks for this. -/
theorem reach_alone {i : ι} (hlock : ∀ o s, T.lock i o s)
    (hcommit : ∀ o s, (∀ t ∈ o, t = s) → T.commit i o s) {n : ℕ} {c' : Config σ κ ε α ι}
    (hreads : ∀ p w o, c.tx i = .running p w o → ∀ t ∈ o, t = c.db)
    (hrun : c.run (List.replicate n (.step i)) = some c') :
    Config.Reach T c c' ∧ ∀ j, j ≠ i → c'.tx j = c.tx j := by
  induction n generalizing c with
  | zero =>
    cases hrun
    exact ⟨.refl, fun _ _ => rfl⟩
  | succ n ih =>
    obtain ⟨c₁, hnext, hrest⟩ := Option.bind_eq_some_iff.mp hrun
    have hadm : c.Admits T (.step i) := by
      unfold Config.Admits
      simp only
      split
      · exact hlock _ _
      · next hi => exact hcommit _ _ (hreads _ _ _ hi)
      · trivial
    have hreads₁ : ∀ p w o, c₁.tx i = .running p w o → ∀ t ∈ o, t = c₁.db := by
      intro p₁ w₁ o₁ hi₁
      obtain ⟨p, w, o, hi, ho⟩ := next_reads hnext hi₁
      rcases Config.next_cases hnext with ⟨j, a, w', o', hj, -, rfl⟩ | ⟨hdb, -⟩
      · cases hj
        simp [Config.commit, Config.setTx] at hi₁
      · rw [hdb]
        rcases ho with rfl | rfl
        · exact hreads p w o₁ hi
        · intro t ht
          rcases List.mem_cons.mp ht with rfl | ht
          · rfl
          · exact hreads p w o hi t ht
    obtain ⟨hreach, hother⟩ := ih hreads₁ hrest
    refine ⟨.trans (.tail .refl hadm hnext) hreach, ?_⟩
    intro j hij
    rw [hother j hij, next_other hij hnext]

/-- What a transaction has read was committed before. -/
theorem Passes.reads {db : σ} {progs : ι → Prog σ κ ε α}
    (h : Passes T (Config.start db progs) passed c) {i : ι} {p : Prog σ κ ε α} {w : σ → σ}
    {o : List σ} (hi : c.tx i = .running p w o) : ∀ s ∈ o, s ∈ passed := by
  induction h generalizing p w o with
  | refl =>
    cases hi
    nofun
  | @tail passed c c' e hc _ hn ih =>
    intro s hs
    obtain ⟨p₀, w₀, o₀, hi₀, rfl | rfl⟩ := next_reads hn hi
    · exact List.mem_cons_of_mem _ (ih hi₀ s hs)
    · rcases List.mem_cons.mp hs with rfl | hs
      · exact List.mem_cons_of_mem _ hc.current
      · exact List.mem_cons_of_mem _ (ih hi₀ s hs)

/-- What an answer says of the states committed up to it, later ones apart, is known when
the transaction commits. -/
theorem answers_of_passes {G : α → List σ → Prop}
    (hQ : ∀ i r o L w A, Q i r o L w A → Commits D i r o L w A)
    (hmono : ∀ a s passed, G a passed → G a (s :: passed))
    (hend : ∀ i a o L w A s passed, Q i (.ok a) o L w A → D.inv s → A s →
      D.timing.commit i o s → (∀ t ∈ o, t ∈ passed) → G a (w s :: passed))
    {db : σ} {progs : ι → Prog σ κ ε α} (hi : D.inv db)
    (hp : ∀ i, Runs D i [] ∅ id (fun _ => True) (Q i) (progs i))
    (hr : Passes D.timing (Config.start db progs) passed c) {i : ι} {a : α}
    (ha : c.results i = some a) : G a passed := by
  have hok := fun i => (hp i).ok
  induction hr with
  | refl => cases ha
  | @tail passed c c' e hc hadm hn ih =>
    rcases Config.next_cases hn with ⟨j, b, w, o, rfl, htx, rfl⟩ | ⟨hdb, hres⟩
    · have hsound := sound_of_reach hQ hi hok hc.reach
      obtain ⟨L, A, -, hA, hends⟩ := hsound.ends htx
      have htime : D.timing.commit j o c.db := by simpa [Config.Admits, htx] using hadm
      have hres : (c.commit j w b).results = Function.update c.results j (some b) :=
        Config.results_setTx c j (.committed b)
      rw [hres] at ha
      by_cases hij : i = j
      · subst hij
        rw [Function.update_self] at ha
        cases ha
        exact hend i a o L w A c.db passed hends hsound.inv hA htime (hc.reads htx)
      · rw [Function.update_of_ne hij] at ha
        exact hmono a _ passed (ih ha)
    · rw [hres] at ha
      exact hmono a _ passed (ih ha)

end Passes

end Interleaving
