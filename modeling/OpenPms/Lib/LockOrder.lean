import OpenPms.Lib.Interleaving
import Mathlib.Data.DFinsupp.WellFounded
import Mathlib.SetTheory.Ordinal.Rank

/-!
Lock orders. Transactions that take each new lock above the locks that they hold never
wait for each other in a circle. So however any finite company of them is scheduled, and
whichever of them are killed, a configuration comes in which all of them have ended.
-/
namespace Interleaving

open Transaction

variable {σ κ ε α β ρ ι : Type}

/-! What a program locks -/

/-- The program takes no lock outside of `K`. -/
inductive Locks (K : Set κ) : Prog σ κ ε α → Prop
  | ret (a : α) : Locks K (.ret a)
  | raise (e : ε) : Locks K (.raise e)
  | read {k : σ → Prog σ κ ε α} (hk : ∀ s, Locks K (k s)) : Locks K (.read k)
  | lock {r : κ} {k : Prog σ κ ε α} (hr : r ∈ K) (hk : Locks K k) : Locks K (.lock r k)
  | write {f : σ → σ} {k : Prog σ κ ε α} (hk : Locks K k) : Locks K (.write f k)

section Locks
variable {K : Set κ}

theorem Locks.mono {K' : Set κ} {p : Prog σ κ ε α} (h : Locks K p) (hK : K ⊆ K') :
    Locks K' p := by
  induction h with
  | ret a => exact .ret a
  | raise e => exact .raise e
  | read _ ih => exact .read ih
  | lock hr _ ih => exact .lock (hK hr) ih
  | write _ ih => exact .write ih

/-- A program without locks fits anywhere. -/
theorem Locks.anywhere {p : Prog σ κ ε α} (h : Locks ∅ p) : Locks K p :=
  h.mono (Set.empty_subset K)

theorem locks_pure (a : α) : Locks K (pure a : Prog σ κ ε α) := .ret a

theorem locks_raise (e : ε) : Locks K (.raise e : Prog σ κ ε α) := .raise e

theorem locks_select (q : σ → α) : Locks K (Prog.select q : Prog σ κ ε α) :=
  .read fun s => .ret (q s)

theorem locks_modify (f : σ → σ) : Locks K (Prog.modify f : Prog σ κ ε Unit) :=
  .write (.ret ())

theorem locks_acquire {r : κ} (hr : r ∈ K) : Locks K (Prog.acquire r : Prog σ κ ε Unit) :=
  .lock hr (.ret ())

theorem locks_raiseIf {c : Prop} [Decidable c] (e : ε) :
    Locks K (Prog.raiseIf c e : Prog σ κ ε Unit) := by
  unfold Prog.raiseIf
  split
  · exact .raise e
  · exact .ret ()

theorem locks_runIf {c : Prop} [Decidable c] {p : Prog σ κ ε Unit} (hp : Locks K p) :
    Locks K (Prog.runIf c p) := by
  unfold Prog.runIf
  split
  · exact hp
  · exact .ret ()

theorem locks_ofExcept (x : Except ε α) : Locks K (Prog.ofExcept x : Prog σ κ ε α) := by
  cases x with
  | error e => exact .raise e
  | ok a => exact .ret a

theorem locks_bind {p : Prog σ κ ε α} {f : α → Prog σ κ ε β} (hp : Locks K p)
    (hf : ∀ a, Locks K (f a)) : Locks K (p >>= f) := by
  rw [Prog.bind_def]
  induction hp with
  | ret a => exact hf a
  | raise e => exact .raise e
  | read _ ih => exact .read ih
  | lock hr _ ih => exact .lock hr ih
  | write _ ih => exact .write ih

theorem locks_tryCatch {p : Prog σ κ ε α} {g : ε → Prog σ κ ε α} (hp : Locks K p)
    (hg : ∀ e, Locks K (g e)) : Locks K (p.tryCatch g) := by
  induction hp with
  | ret a => exact .ret a
  | raise e => exact hg e
  | read _ ih => exact .read ih
  | lock hr _ ih => exact .lock hr ih
  | write _ ih => exact .write ih

theorem locks_forEach {xs : List β} {p : β → Prog σ κ ε Unit} (hp : ∀ x ∈ xs, Locks K (p x)) :
    Locks K (Prog.forEach xs p) := by
  induction xs with
  | nil => exact .ret ()
  | cons x rest ih =>
    exact locks_bind (hp x (List.mem_cons_self ..)) fun _ =>
      ih fun y hy => hp y (List.mem_cons_of_mem _ hy)

end Locks

/-! The order in which it locks -/

section Ascending
variable [Preorder ρ] (rank : κ → ρ)

/-- With the locks `L` held, each lock that the program takes is held already or above
all those held. -/
inductive Ascending : Set κ → Prog σ κ ε α → Prop
  | ret {L : Set κ} (a : α) : Ascending L (.ret a)
  | raise {L : Set κ} (e : ε) : Ascending L (.raise e)
  | read {L : Set κ} {k : σ → Prog σ κ ε α} (hk : ∀ s, Ascending L (k s)) :
      Ascending L (.read k)
  | lock {L : Set κ} {r : κ} {k : Prog σ κ ε α} (hr : r ∈ L ∨ ∀ h ∈ L, rank h < rank r)
      (hk : Ascending (insert r L) k) : Ascending L (.lock r k)
  | write {L : Set κ} {f : σ → σ} {k : Prog σ κ ε α} (hk : Ascending L k) :
      Ascending L (.write f k)

variable {rank} {L : Set κ}

/-- One lock, taken any number of times. -/
theorem ascending_of_single {p : Prog σ κ ε α} {r : κ} (h : Locks {r} p)
    (hL : ∀ h ∈ L, h = r ∨ rank h < rank r) : Ascending rank L p := by
  induction h generalizing L with
  | ret a => exact .ret a
  | raise e => exact .raise e
  | read _ ih => exact .read fun s => ih s hL
  | lock hr _ ih =>
    cases Set.mem_singleton_iff.mp hr
    refine .lock ?_ (ih ?_)
    · by_cases hheld : r ∈ L
      · exact .inl hheld
      · refine .inr fun h hh => (hL h hh).resolve_left ?_
        rintro rfl
        exact hheld hh
    · rintro h (rfl | hh)
      · exact .inl rfl
      · exact hL h hh
  | write _ ih => exact .write (ih hL)

theorem ascending_of_lockless {p : Prog σ κ ε α} (h : Locks ∅ p) : Ascending rank L p := by
  induction h generalizing L with
  | ret a => exact .ret a
  | raise e => exact .raise e
  | read _ ih => exact .read fun s => ih s
  | lock hr _ _ => exact absurd hr (Set.notMem_empty _)
  | write _ ih => exact .write ih

/-- What follows a program is entered with the locks from before it and some of its own. -/
theorem ascending_bind {K : Set κ} {p : Prog σ κ ε α} {f : α → Prog σ κ ε β}
    (hp : Ascending rank L p) (hK : Locks K p)
    (hf : ∀ a L', L' ⊆ L ∪ K → Ascending rank L' (f a)) : Ascending rank L (p >>= f) := by
  rw [Prog.bind_def]
  induction hp with
  | ret a => exact hf a _ Set.subset_union_left
  | raise e => exact .raise e
  | read _ ih =>
    cases hK with
    | read hk => exact .read fun s => ih s (hk s) hf
  | @lock L r k hr _ ih =>
    cases hK with
    | lock hmem hk =>
      refine .lock hr (ih hk fun a L' hL' => hf a L' (hL'.trans ?_))
      rintro h ((rfl | hh) | hh)
      · exact .inr hmem
      · exact .inl hh
      · exact .inr hh
  | write _ ih =>
    cases hK with
    | write hk => exact .write (ih hk hf)

/-- What is read before any lock does not matter. -/
theorem ascending_lockless_bind {p : Prog σ κ ε α} {f : α → Prog σ κ ε β} (hp : Locks ∅ p)
    (hf : ∀ a, Ascending rank L (f a)) : Ascending rank L (p >>= f) := by
  rw [Prog.bind_def]
  induction hp with
  | ret a => exact hf a
  | raise e => exact .raise e
  | read _ ih => exact .read ih
  | lock hr _ _ => exact absurd hr (Set.notMem_empty _)
  | write _ ih => exact .write ih

theorem ascending_tryCatch {p : Prog σ κ ε α} {g : ε → Prog σ κ ε α}
    (hp : Ascending rank L p) (hg : ∀ e, Locks ∅ (g e)) : Ascending rank L (p.tryCatch g) := by
  induction hp with
  | ret a => exact .ret a
  | raise e => exact ascending_of_lockless (hg e)
  | read _ ih => exact .read ih
  | lock hr _ ih => exact .lock hr ih
  | write _ ih => exact .write ih

/-- The answer of a transaction takes no lock. -/
theorem ascending_answer {p : Prog σ κ ε α} {g : α → β} (hp : Ascending rank L p) :
    Ascending rank L (p >>= fun a => pure (g a)) := by
  rw [Prog.bind_def]
  induction hp with
  | ret a => exact .ret (g a)
  | raise e => exact .raise e
  | read _ ih => exact .read ih
  | lock hr _ ih => exact .lock hr ih
  | write _ ih => exact .write ih

/-- Locks in ascending order, all of them above those held. -/
theorem ascending_acquireAll {xs : List β} (key : β → κ)
    (hsorted : xs.Pairwise fun x y => rank (key x) < rank (key y))
    (hL : ∀ h ∈ L, ∀ x ∈ xs, rank h < rank (key x)) :
    Ascending rank L (Prog.forEach xs fun x => (Prog.acquire (key x) : Prog σ κ ε Unit)) := by
  induction xs generalizing L with
  | nil => exact .ret ()
  | cons x rest ih =>
    obtain ⟨hx, hrest⟩ := List.pairwise_cons.mp hsorted
    refine .lock (.inr fun h hh => hL h hh x (List.mem_cons_self ..)) (ih hrest ?_)
    rintro h (rfl | hh) y hy
    · exact hx y hy
    · exact hL h hh y (List.mem_cons_of_mem _ hy)

end Ascending

/-! The way to the end -/

/-- What is left of a program after one of its statements. -/
inductive Remainder : Prog σ κ ε α → Prog σ κ ε α → Prop
  | read (k : σ → Prog σ κ ε α) (s : σ) : Remainder (k s) (.read k)
  | lock (r : κ) (k : Prog σ κ ε α) : Remainder k (.lock r k)
  | write (f : σ → σ) (k : Prog σ κ ε α) : Remainder k (.write f k)

theorem wellFounded_remainder :
    WellFounded (Remainder : Prog σ κ ε α → Prog σ κ ε α → Prop) := by
  refine ⟨fun p => ?_⟩
  induction p with
  | ret a => exact ⟨_, fun q hq => by cases hq⟩
  | raise e => exact ⟨_, fun q hq => by cases hq⟩
  | read k ih =>
    refine ⟨_, fun q hq => ?_⟩
    cases hq with
    | read _ s => exact ih s
  | lock r k ih =>
    refine ⟨_, fun q hq => ?_⟩
    cases hq
    exact ih
  | write f k ih =>
    refine ⟨_, fun q hq => ?_⟩
    cases hq
    exact ih

instance : IsWellFounded (Prog σ κ ε α) Remainder := ⟨wellFounded_remainder⟩

/-- How far a transaction is from its end. -/
noncomputable def TxState.distance : TxState σ κ ε α → Ordinal.{0}
  | .running p _ _ => Order.succ (IsWellFounded.rank Remainder p)
  | .committed _ => 0
  | .aborted => 0

theorem distance_remainder {p q : Prog σ κ ε α} {w w' : σ → σ} {o o' : List σ}
    (h : Remainder q p) :
    (TxState.running q w' o').distance < (TxState.running p w o).distance :=
  Order.succ_lt_succ (IsWellFounded.rank_lt_of_rel h)

theorem distance_running (p : Prog σ κ ε α) (w : σ → σ) (o : List σ) :
    0 < (TxState.running p w o).distance :=
  Order.bot_lt_succ _

noncomputable def Config.distances (c : Config σ κ ε α ι) (i : ι) : Ordinal.{0} :=
  (c.tx i).distance

/-! The order in a configuration -/

section Progress
variable [DecidableEq ι] [DecidableEq κ] [Preorder ρ] {rank : κ → ρ}

/-- The locks of a running transaction are those it owns, and the rest of its program
takes locks above them. Whoever owns a lock is running. -/
structure Ranked (rank : κ → ρ) (c : Config σ κ ε α ι) : Prop where
  running : ∀ i p w o, c.tx i = .running p w o → Ascending rank {r | c.owner r = some i} p
  owned : ∀ i r, c.owner r = some i → ∃ p w o, c.tx i = .running p w o

omit [DecidableEq ι] [DecidableEq κ] in
theorem ranked_start {db : σ} {progs : ι → Prog σ κ ε α}
    (hp : ∀ i, Ascending rank ∅ (progs i)) : Ranked rank (Config.start db progs) where
  running i p w o h := by
    cases h
    have hnone : {r | (Config.start db progs).owner r = some i} = ∅ := by
      ext r
      simp [Config.start]
    rw [hnone]
    exact hp i
  owned i r h := by cases h

omit [DecidableEq κ] in
/-- The end of a transaction leaves the others and their locks. -/
theorem Ranked.finish {c : Config σ κ ε α ι} (h : Ranked rank c) (i : ι) {db : σ}
    {t : TxState σ κ ε α} (ht : ∀ p w o, t ≠ .running p w o) :
    Ranked rank { (c.release i).setTx i t with db := db } where
  running j p w o hj := by
    by_cases hij : j = i
    · subst hij
      exact absurd (by simpa [Config.setTx] using hj) (ht p w o)
    · have hold : c.tx j = .running p w o := by
        simpa [Config.setTx, Config.release, hij] using hj
      have hsame : {r | (c.release i).owner r = some j} = {r | c.owner r = some j} := by
        ext r
        simp only [Config.release, Set.mem_ofPred_eq]
        split
        · next howner => simp [howner, Ne.symm hij]
        · rfl
      change Ascending rank {r | (c.release i).owner r = some j} p
      rw [hsame]
      exact h.running j p w o hold
  owned j r hj := by
    have hne : ¬ c.owner r = some i ∧ c.owner r = some j := by
      change (if c.owner r = some i then none else c.owner r) = some j at hj
      split at hj
      · cases hj
      · next hfree => exact ⟨hfree, hj⟩
    have hij : j ≠ i := by
      rintro rfl
      exact hne.1 hne.2
    obtain ⟨p, w, o, hp⟩ := h.owned j r hne.2
    exact ⟨p, w, o, by simpa [Config.setTx, Config.release, hij] using hp⟩

omit [DecidableEq κ] in
/-- A step inside a transaction that takes no lock. -/
theorem Ranked.proceed {c : Config σ κ ε α ι} (h : Ranked rank c) {i : ι}
    {p' : Prog σ κ ε α} {w' : σ → σ} {o' : List σ}
    (hp' : Ascending rank {r | c.owner r = some i} p') :
    Ranked rank (c.setTx i (.running p' w' o')) where
  running j p w o hj := by
    by_cases hij : j = i
    · subst hij
      simp only [Config.setTx, Function.update_self, TxState.running.injEq] at hj
      obtain ⟨rfl, -, -⟩ := hj
      exact hp'
    · exact h.running j p w o (by simpa [Config.setTx, hij] using hj)
  owned j r hj := by
    by_cases hij : j = i
    · subst hij
      exact ⟨p', w', o', by simp [Config.setTx]⟩
    · obtain ⟨p, w, o, hp⟩ := h.owned j r hj
      exact ⟨p, w, o, by simpa [Config.setTx, hij] using hp⟩

/-- A lock that nobody else owns is added to those of its transaction. -/
theorem Ranked.take {c : Config σ κ ε α ι} (h : Ranked rank c) {i : ι} {r : κ}
    {k : Prog σ κ ε α} {w' : σ → σ} {o' : List σ} (hfree : c.owner r = none ∨ c.owner r = some i)
    (hk : Ascending rank (insert r {r | c.owner r = some i}) k) :
    Ranked rank ({ c with owner := Function.update c.owner r (some i) }.setTx i
      (.running k w' o')) := by
  have howner : ∀ j r', Function.update c.owner r (some i) r' = some j ↔
      if r' = r then i = j else c.owner r' = some j := by
    intro j r'
    by_cases hr : r' = r
    · subst hr
      simp
    · simp [hr]
  constructor
  · intro j p w o hj
    change Ascending rank {r' | Function.update c.owner r (some i) r' = some j} p
    by_cases hij : j = i
    · subst hij
      simp only [Config.setTx, Function.update_self, TxState.running.injEq] at hj
      obtain ⟨rfl, -, -⟩ := hj
      have hset : {r' | Function.update c.owner r (some j) r' = some j} =
          insert r {r | c.owner r = some j} := by
        ext r'
        rw [Set.mem_ofPred_eq, howner]
        by_cases hr : r' = r
        · simp [hr]
        · simp [hr]
      rw [hset]
      exact hk
    · have hset : {r' | Function.update c.owner r (some i) r' = some j} =
          {r' | c.owner r' = some j} := by
        ext r'
        rw [Set.mem_ofPred_eq, howner, Set.mem_ofPred_eq]
        by_cases hr : r' = r
        · subst hr
          rcases hfree with hnone | hsome
          · simp [hnone, Ne.symm hij]
          · simp [hsome, Ne.symm hij]
        · simp [hr]
      rw [hset]
      exact h.running j p w o (by simpa [Config.setTx, hij] using hj)
  · intro j r' hj
    by_cases hij : j = i
    · subst hij
      exact ⟨k, w', o', by simp [Config.setTx]⟩
    · have hold : c.owner r' = some j := by
        have hcases := (howner j r').mp hj
        split at hcases
        · exact absurd hcases.symm hij
        · exact hcases
      obtain ⟨p, w, o, hp⟩ := h.owned j r' hold
      exact ⟨p, w, o, by simpa [Config.setTx, hij] using hp⟩

theorem Ranked.next {c c' : Config σ κ ε α ι} {e : Event ι} (h : Ranked rank c)
    (hn : c.next e = some c') : Ranked rank c' := by
  cases e with
  | kill i =>
    simp only [Config.next] at hn
    split at hn
    · cases hn
      exact h.finish i (by simp)
    · cases hn
  | step i =>
    simp only [Config.next] at hn
    split at hn
    · cases hn
      exact h.finish i (by simp)
    · cases hn
      exact h.finish i (by simp)
    · next k w o hi =>
      cases hn
      cases h.running i _ _ _ hi with
      | read hk => exact h.proceed (hk _)
    · next r k w o hi =>
      split at hn
      · next hfree =>
        cases hn
        cases h.running i _ _ _ hi with
        | lock _ hk => exact h.take hfree hk
      · cases hn
    · next f k w o hi =>
      cases hn
      cases h.running i _ _ _ hi with
      | write hk => exact h.proceed hk
    · cases hn
    · cases hn

theorem ranked_of_reach {db : σ} {progs : ι → Prog σ κ ε α}
    (hp : ∀ i, Ascending rank ∅ (progs i)) {T : Timing σ ι} {c : Config σ κ ε α ι}
    (hr : Config.Reach T (Config.start db progs) c) : Ranked rank c := by
  induction hr with
  | refl => exact ranked_start hp
  | tail _ _ hn ih => exact ih.next hn

/-! Nobody waits for ever -/

/-- The transaction has committed or is aborted. -/
def Config.Ended (c : Config σ κ ε α ι) (i : ι) : Prop := ∀ p w o, c.tx i ≠ .running p w o

/-- The transaction cannot step before another one lets the lock go. -/
def Config.Waits (c : Config σ κ ε α ι) (i : ι) (r : κ) : Prop :=
  ∃ k w o j, c.tx i = .running (.lock r k) w o ∧ c.owner r = some j ∧ j ≠ i

omit [DecidableEq ι] in
/-- A running transaction steps or waits. -/
theorem Config.steps_or_waits [DecidableEq ι] (c : Config σ κ ε α ι) {i : ι}
    (hrun : ¬ c.Ended i) : (∃ c', c.next (.step i) = some c') ∨ ∃ r, c.Waits i r := by
  unfold Config.Ended at hrun
  push Not at hrun
  obtain ⟨p, w, o, hi⟩ := hrun
  cases p with
  | ret a => exact .inl ⟨c.commit i w a, by simp [Config.next, hi]⟩
  | raise e => exact .inl ⟨c.abort i, by simp [Config.next, hi]⟩
  | read k => exact .inl ⟨_, by simp only [Config.next, hi]; rfl⟩
  | write f k => exact .inl ⟨_, by simp only [Config.next, hi]; rfl⟩
  | lock r k =>
    by_cases hfree : c.owner r = none ∨ c.owner r = some i
    · exact .inl ⟨_, by simp only [Config.next, hi, if_pos hfree]; rfl⟩
    · obtain ⟨hsome, hother⟩ := not_or.mp hfree
      obtain ⟨j, hj⟩ := Option.ne_none_iff_exists'.mp hsome
      refine .inr ⟨r, k, w, o, j, hi, hj, ?_⟩
      rintro rfl
      exact hother hj

omit [DecidableEq ι] [DecidableEq κ] in
/-- The owner of a lock waits for a higher one only. -/
theorem Ranked.waits_above {c : Config σ κ ε α ι} (h : Ranked rank c) {j : ι} {r r' : κ}
    (howner : c.owner r = some j) (hwaits : c.Waits j r') : rank r < rank r' := by
  obtain ⟨k, w, o, i', hj, hother, hne⟩ := hwaits
  cases h.running j _ _ _ hj with
  | lock hr _ =>
    rcases hr with hheld | habove
    · exact absurd (Option.some.inj (hother.symm.trans hheld)) hne
    · exact habove r howner

/-- Some transaction can step, as long as one is running. -/
theorem Ranked.progress [Finite ι] {c : Config σ κ ε α ι} (h : Ranked rank c)
    (hrun : ¬ ∀ i, c.Ended i) : ∃ i c', c.next (.step i) = some c' := by
  by_contra hstuck
  push Not at hstuck
  have hwait : ∀ i, ¬ c.Ended i → ∃ r, c.Waits i r := by
    intro i hi
    refine (c.steps_or_waits hi).resolve_left ?_
    rintro ⟨c', hc'⟩
    exact hstuck i c' hc'
  -- among the locks waited for, one has no other above it
  let waited : Set κ := {r | ∃ i, c.Waits i r}
  have hfinite : waited.Finite := by
    have hsub : ∀ i, {r | c.Waits i r}.Subsingleton := by
      rintro i r ⟨k, w, o, j, hi, -⟩ r' ⟨k', w', o', j', hi', -⟩
      rw [hi] at hi'
      cases hi'
      rfl
    have hunion : waited = ⋃ i, {r | c.Waits i r} := by
      ext r
      simp [waited]
    rw [hunion]
    exact Set.finite_iUnion fun i => (hsub i).finite
  push Not at hrun
  obtain ⟨i, hi⟩ := hrun
  obtain ⟨r₀, hr₀⟩ := hwait i hi
  obtain ⟨r, ⟨i₁, k, w, o, j, hi₁, howner, hne⟩, hmax⟩ :=
    hfinite.exists_maximalFor rank waited ⟨r₀, i, hr₀⟩
  obtain ⟨p', w', o', hj⟩ := h.owned j r howner
  obtain ⟨r', hr'⟩ := hwait j fun hend => hend p' w' o' hj
  have hlt := h.waits_above howner hr'
  exact absurd (hmax ⟨j, hr'⟩ hlt.le) hlt.not_ge

/-! All of them end -/

/-- However the run goes on from here, it comes to a configuration with the property: it
cannot get stuck before, and it cannot go on for ever. -/
inductive Config.Inevitable (P : Config σ κ ε α ι → Prop) : Config σ κ ε α ι → Prop
  | now {c : Config σ κ ε α ι} (h : P c) : Inevitable P c
  | later {c : Config σ κ ε α ι} (hmove : ∃ i c', c.next (.step i) = some c')
      (hnext : ∀ e c', c.next e = some c' → Inevitable P c') : Inevitable P c

omit [DecidableEq κ] in
theorem distances_lt {c c' : Config σ κ ε α ι} {i : ι} {t : TxState σ κ ε α}
    (htx : c'.tx = Function.update c.tx i t) (h : t.distance < (c.tx i).distance) :
    c'.distances < c.distances := by
  refine Pi.lt_def.mpr ⟨fun j => ?_, i, ?_⟩
  · by_cases hij : j = i
    · subst hij
      simpa [Config.distances, htx] using h.le
    · simp [Config.distances, htx, hij]
  · simpa [Config.distances, htx] using h

/-- Every event brings one transaction closer to its end and moves no other. -/
theorem distances_next {c c' : Config σ κ ε α ι} {e : Event ι} (hn : c.next e = some c') :
    c'.distances < c.distances := by
  cases e with
  | kill i =>
    simp only [Config.next] at hn
    split at hn
    · next hi =>
      cases hn
      exact distances_lt rfl (by rw [hi]; exact distance_running _ _ _)
    · cases hn
  | step i =>
    simp only [Config.next] at hn
    split at hn
    · next hi =>
      cases hn
      exact distances_lt rfl (by rw [hi]; exact distance_running _ _ _)
    · next hi =>
      cases hn
      exact distances_lt rfl (by rw [hi]; exact distance_running _ _ _)
    · next k w o hi =>
      cases hn
      exact distances_lt rfl (by rw [hi]; exact distance_remainder (.read k _))
    · next r k w o hi =>
      split at hn
      · cases hn
        exact distances_lt rfl (by rw [hi]; exact distance_remainder (.lock r k))
      · cases hn
    · next f k w o hi =>
      cases hn
      exact distances_lt rfl (by rw [hi]; exact distance_remainder (.write f k))
    · cases hn
    · cases hn

theorem Ranked.inevitable [Finite ι] {c : Config σ κ ε α ι} (h : Ranked rank c) :
    c.Inevitable fun c => ∀ i, c.Ended i := by
  have hwf : WellFounded fun x y : ι → Ordinal.{0} => x < y := wellFounded_lt
  generalize hd : c.distances = d
  induction d using hwf.induction generalizing c with
  | _ d ih =>
    subst hd
    by_cases hend : ∀ i, c.Ended i
    · exact .now hend
    · exact .later (h.progress hend) fun e c' hn =>
        ih c'.distances (distances_next hn) (h.next hn) rfl

/-- Transactions that lock in ascending order all end, in whatever order they step. -/
theorem inevitable_of_ascending [Finite ι] {db : σ} {progs : ι → Prog σ κ ε α}
    (hp : ∀ i, Ascending rank ∅ (progs i)) {T : Timing σ ι} {c : Config σ κ ε α ι}
    (hr : Config.Reach T (Config.start db progs) c) :
    c.Inevitable fun c => ∀ i, c.Ended i :=
  (ranked_of_reach hp hr).inevitable

end Progress

end Interleaving
