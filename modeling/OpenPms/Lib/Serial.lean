import OpenPms.Lib.Interleaving

/-!
Transactions whose commits are atomic executions. When everything that a program has
read looks the same at its commit, because the rows are locked, because no other
transaction changes them or because the commit is asked to have found them so, then
the commit writes what the program would write if it ran alone at that moment.
-/
namespace Interleaving

open Transaction

variable {σ κ ε α ι : Type}

/-- `kept L` relates states that look the same to a holder of the locks `L` as far as
the protocol guarantees it; `frame L` is what a holder of `L` may change. -/
structure Protocol (σ κ : Type) where
  kept : Set κ → σ → σ → Prop
  frame : Set κ → σ → σ → Prop
  kept_refl : ∀ L s, kept L s s
  kept_trans : ∀ {L s s' s''}, kept L s s' → kept L s' s'' → kept L s s''
  kept_anti : ∀ {L L' s s'}, L ⊆ L' → kept L' s s' → kept L s s'
  frame_refl : ∀ L s, frame L s s
  frame_trans : ∀ {L s s' s''}, frame L s s' → frame L s' s'' → frame L s s''
  frame_mono : ∀ {L L' s s'}, L ⊆ L' → frame L s s' → frame L' s s'
  kept_of_frame : ∀ {L L' s s'}, Disjoint L L' → frame L' s s' → kept L s s'

variable (P : Protocol σ κ) (V : σ → σ → Prop)

/-- States that look the same to a transaction: what is kept for it, and what its
commit validates. -/
def Agree (L : Set κ) (s s' : σ) : Prop := V s s' ∧ P.kept L s s'

/-- Equal looks before the write are equal looks after it. -/
def Respects (f : σ → σ) : Prop := ∀ L s s', Agree P V L s s' → Agree P V L (f s) (f s')

/-- Each read depends on what looks the same only, each write stays in the frame of the
locks held at that point. -/
inductive Orderly : Set κ → Prog σ κ ε α → Prop
  | ret {L : Set κ} (a : α) : Orderly L (.ret a)
  | raise {L : Set κ} (e : ε) : Orderly L (.raise e)
  | read {L : Set κ} {k : σ → Prog σ κ ε α} (hsame : ∀ s s', Agree P V L s s' → k s = k s')
      (hk : ∀ s, Orderly L (k s)) : Orderly L (.read k)
  | lock {L : Set κ} {r : κ} {k : Prog σ κ ε α} (hk : Orderly (insert r L) k) :
      Orderly L (.lock r k)
  | write {L : Set κ} {f : σ → σ} {k : Prog σ κ ε α} (hf : Respects P V f)
      (hframe : ∀ s, P.frame L s (f s)) (hk : Orderly L k) : Orderly L (.write f k)

variable {P V} {L : Set κ}

theorem Agree.anti {L' : Set κ} {s s' : σ} (h : Agree P V L' s s') (hL : L ⊆ L') :
    Agree P V L s s' :=
  ⟨h.1, P.kept_anti hL h.2⟩

theorem Orderly.mono {p : Prog σ κ ε α} {L' : Set κ} (h : Orderly P V L p) (hL : L ⊆ L') :
    Orderly P V L' p := by
  induction h generalizing L' with
  | ret a => exact .ret a
  | raise e => exact .raise e
  | read hsame _ ih => exact .read (fun s s' hs => hsame s s' (hs.anti hL)) fun s => ih s hL
  | lock _ ih => exact .lock (ih (Set.insert_subset_insert hL))
  | write hf hframe _ ih => exact .write hf (fun s => P.frame_mono hL (hframe s)) (ih hL)

/-! How the statements compose -/

section Rules
variable {β : Type}

theorem orderly_pure (a : α) : Orderly P V L (pure a : Prog σ κ ε α) := .ret a

theorem orderly_raise (e : ε) : Orderly P V L (.raise e : Prog σ κ ε α) := .raise e

theorem orderly_raiseIf {c : Prop} [Decidable c] (e : ε) :
    Orderly P V L (Prog.raiseIf c e : Prog σ κ ε Unit) := by
  unfold Prog.raiseIf
  split
  · exact .raise e
  · exact .ret ()

theorem orderly_ofExcept (x : Except ε α) : Orderly P V L (Prog.ofExcept x : Prog σ κ ε α) := by
  cases x with
  | error e => exact .raise e
  | ok a => exact .ret a

theorem orderly_select {q : σ → α} (hq : ∀ s s', Agree P V L s s' → q s = q s') :
    Orderly P V L (Prog.select q : Prog σ κ ε α) :=
  .read (fun s s' hs => congrArg Prog.ret (hq s s' hs)) fun _ => .ret _

/-- A read of which the rest uses only what looks the same. -/
theorem orderly_select_bind {q : σ → α} {f : α → Prog σ κ ε β}
    (hsame : ∀ s s', Agree P V L s s' → f (q s) = f (q s')) (hf : ∀ a, Orderly P V L (f a)) :
    Orderly P V L (Prog.select q >>= f) :=
  .read hsame fun s => hf (q s)

theorem orderly_modify {f : σ → σ} (hf : Respects P V f) (hframe : ∀ s, P.frame L s (f s)) :
    Orderly P V L (Prog.modify f : Prog σ κ ε Unit) :=
  .write hf hframe (.ret ())

theorem orderly_acquire (r : κ) : Orderly P V L (Prog.acquire r : Prog σ κ ε Unit) :=
  .lock (.ret ())

theorem orderly_bind {p : Prog σ κ ε α} {f : α → Prog σ κ ε β} (hp : Orderly P V L p)
    (hf : ∀ a, Orderly P V L (f a)) : Orderly P V L (p >>= f) := by
  rw [Prog.bind_def]
  induction hp with
  | ret a => exact hf a
  | raise e => exact .raise e
  | read hsame _ ih =>
    refine .read (fun s s' hs => ?_) fun s => ih s hf
    exact congrArg (Prog.bind · f) (hsame s s' hs)
  | lock _ ih => exact .lock (ih fun a => (hf a).mono (Set.subset_insert _ _))
  | write hg hframe _ ih => exact .write hg hframe (ih hf)

theorem orderly_tryCatch {p : Prog σ κ ε α} {g : ε → Prog σ κ ε α} (hp : Orderly P V L p)
    (hg : ∀ e, Orderly P V L (g e)) : Orderly P V L (p.tryCatch g) := by
  induction hp with
  | ret a => exact .ret a
  | raise e => exact hg e
  | read hsame _ ih =>
    refine .read (fun s s' hs => ?_) fun s => ih s hg
    exact congrArg (Prog.tryCatch · g) (hsame s s' hs)
  | lock _ ih => exact .lock (ih fun e => (hg e).mono (Set.subset_insert _ _))
  | write hf hframe _ ih => exact .write hf hframe (ih hg)

theorem orderly_runIf {c : Prop} [Decidable c] {p : Prog σ κ ε Unit} (hp : Orderly P V L p) :
    Orderly P V L (Prog.runIf c p) := by
  unfold Prog.runIf
  split
  · exact hp
  · exact .ret ()

/-- A loop whose locks are all held for what follows it. -/
theorem orderly_acquireAll {xs : List α} (key : α → κ) {p : Prog σ κ ε β}
    (hp : Orderly P V (L ∪ {r | ∃ x ∈ xs, key x = r}) p) :
    Orderly P V L (Prog.forEach xs (fun x => Prog.acquire (key x)) >>= fun _ => p) := by
  induction xs generalizing L with
  | nil => exact hp.mono (by simp)
  | cons x rest ih =>
    refine .lock (ih (hp.mono ?_))
    rintro r (hr | ⟨y, hy, rfl⟩)
    · exact .inl (.inr hr)
    · rcases List.mem_cons.mp hy with rfl | hy
      · exact .inl (.inl rfl)
      · exact .inr ⟨y, hy, rfl⟩

theorem orderly_forEach {xs : List α} {p : α → Prog σ κ ε Unit}
    (hp : ∀ x ∈ xs, Orderly P V L (p x)) : Orderly P V L (Prog.forEach xs p) := by
  induction xs with
  | nil => exact .ret ()
  | cons x rest ih =>
    exact orderly_bind (hp x (List.mem_cons_self ..)) fun _ =>
      ih fun y hy => hp y (List.mem_cons_of_mem _ hy)

end Rules

/-! The commit is the execution -/

variable {D : Discipline σ κ ι} {i : ι}

theorem respects_id : Respects P V id := fun _ _ _ h => h

theorem Respects.comp {f g : σ → σ} (hf : Respects P V f) (hg : Respects P V g) :
    Respects P V (f ∘ g) :=
  fun L s s' h => hf L _ _ (hg L s s' h)

/-- `new` are the states read since; `w` is what was pending before. -/
def Replays (D : Discipline σ κ ι) (P : Protocol σ κ) (V : σ → σ → Prop) (p : Prog σ κ ε α)
    (o : List σ) (w : σ → σ) (A : σ → Prop) : Post σ κ ε α :=
  fun r o' L' w' A' => ∃ new, o' = new ++ o ∧ (∀ t ∈ new, D.inv t) ∧ (∀ s, A' s → A s) ∧
    (∀ s, P.frame L' s (w' s)) ∧ Respects P V w' ∧
    ∀ s, A' s → (∀ t ∈ new, V t s) → p.exec (w s) = (r, w' s)

theorem Orderly.ok {p : Prog σ κ ε α} {o : List σ} {w : σ → σ} {A : σ → Prop}
    (hguar : D.guar = P.frame) (h : Orderly P V L p) (hw : Respects P V w)
    (hframe : ∀ s, P.frame L s (w s)) (hst : Stable D L A) :
    Ok D i p o L w A (Replays D P V p o w A) := by
  induction h generalizing o w A with
  | ret a => exact ⟨[], rfl, nofun, fun _ hA => hA, hframe, hw, fun _ _ _ => rfl⟩
  | raise e => exact ⟨[], rfl, nofun, fun _ hA => hA, hframe, hw, fun _ _ _ => rfl⟩
  | @read L k hsame _ ih =>
    intro t ht hA
    -- what was read stays as the locks held here keep it
    have hst' : Stable D L fun s => A s ∧ P.kept L t s := by
      refine hst.and ?_
      intro L' s s' hdisj _ hg hk
      rw [hguar] at hg
      exact P.kept_trans hk (P.kept_of_frame hdisj hg)
    refine ⟨fun s => A s ∧ P.kept L t s, ⟨hA, P.kept_refl L t⟩, hst', ?_⟩
    refine (ih (w t) hw hframe hst').mono ?_
    rintro r o' L' w' A' ⟨new, rfl, hnew, hA', hfr, hresp, hexec⟩
    refine ⟨new ++ [t], by simp, ?_, fun s hs => (hA' s hs).1, hfr, hresp, ?_⟩
    · intro u hu
      rcases List.mem_append.mp hu with hold | hlast
      · exact hnew u hold
      · rw [List.mem_singleton.mp hlast]
        exact ht
    intro s hs hvalid
    have hagree : Agree P V L t s := ⟨hvalid t (by simp), (hA' s hs).2⟩
    change (k (w s)).exec (w s) = _
    rw [← hsame _ _ (hw L t s hagree)]
    exact hexec s hs fun u hu => hvalid u (List.mem_append_left _ hu)
  | lock _ ih =>
    intro t _ hA _
    refine ⟨A, hA, hst.mono (Set.subset_insert _ _), ?_⟩
    exact ih hw (fun s => P.frame_mono (Set.subset_insert _ _) (hframe s))
      (hst.mono (Set.subset_insert _ _))
  | write hf hfr _ ih =>
    exact ih (hf.comp hw) (fun s => P.frame_trans (hframe s) (hfr (w s))) hst

/-- What is left of a transaction after the reads `o` and the writes `w`, when the commit
validates the reads that follow and its execution keeps the invariant. -/
theorem Orderly.commits {p : Prog σ κ ε α} {o : List σ} {w : σ → σ} {A : σ → Prop}
    (hguar : D.guar = P.frame) (h : Orderly P V L p) (hw : Respects P V w)
    (hframe : ∀ s, P.frame L s (w s)) (hst : Stable D L A)
    (hvalid : ∀ new s, D.inv s → (∀ t ∈ new, D.inv t) → D.timing.commit i (new ++ o) s →
      ∀ t ∈ new, V t s)
    (hinv : ∀ new s a s' L', D.inv s → A s → D.timing.commit i (new ++ o) s → P.frame L' s s' →
      p.exec (w s) = (.ok a, s') → D.inv s') :
    Ok D i p o L w A (Commits D i) := by
  refine (h.ok hguar hw hframe hst).mono ?_
  rintro r o' L' w' A' ⟨new, rfl, hnew, hA', hfr, -, hexec⟩ a rfl s hs hA htime
  refine ⟨?_, ?_⟩
  · rw [hguar]
    exact hfr s
  · exact hinv new s a (w' s) L' hs (hA' s hA) htime (hfr s)
      (hexec s hA (hvalid new s hs hnew htime))

/-- A program that validates all of its reads may run in any company, provided that its
execution alone keeps the invariant. -/
theorem Orderly.disciplined {p : Prog σ κ ε α} (hguar : D.guar = P.frame)
    (h : Orderly P V ∅ p)
    (hvalid : ∀ o s, D.inv s → (∀ t ∈ o, D.inv t) → D.timing.commit i o s → ∀ t ∈ o, V t s)
    (hinv : ∀ o s a s' L, D.inv s → D.timing.commit i o s → P.frame L s s' →
      p.exec s = (.ok a, s') → D.inv s') :
    Disciplined D i p := by
  refine h.commits hguar respects_id (fun s => P.frame_refl _ s) (stable_true _) ?_ ?_
  · intro new s hs hnew htime
    rw [List.append_nil] at htime
    exact hvalid new s hs hnew htime
  · intro new s a s' L' hs _ htime
    rw [List.append_nil] at htime
    exact hinv new s a s' L' hs htime

end Interleaving
