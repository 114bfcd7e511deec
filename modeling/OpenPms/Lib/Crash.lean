import OpenPms.Lib.Transaction

/-!
Programs that can be stopped between any two of their steps. `upTo` is the state at which
a program that was stopped leaves things; `Passes` states what holds at every such point,
what holds when the program returns and what holds when it raises.
-/
namespace Transaction.Prog

variable {σ κ ε α β : Type}

/-- The state after the first `n` steps. -/
def upTo : ℕ → Prog σ κ ε α → σ → σ
  | 0, _, s => s
  | _ + 1, ret _, s => s
  | _ + 1, raise _, s => s
  | n + 1, read k, s => (k s).upTo n s
  | n + 1, lock _ k, s => k.upTo n s
  | n + 1, write f k, s => k.upTo n (f s)

/-- Every state that the program passes is in `I`; it returns in `Q` and raises in `E`. -/
def Passes (I : σ → Prop) (Q : α → σ → Prop) (E : ε → σ → Prop) : Prog σ κ ε α → σ → Prop
  | ret a, s => I s ∧ Q a s
  | raise e, s => I s ∧ E e s
  | read k, s => (k s).Passes I Q E s
  | lock _ k, s => k.Passes I Q E s
  | write f k, s => I s ∧ k.Passes I Q E (f s)

section Passes
variable {I : σ → Prop} {Q : α → σ → Prop} {E : ε → σ → Prop} {p : Prog σ κ ε α} {s s' : σ}

theorem Passes.start (h : p.Passes I Q E s) : I s := by
  induction p generalizing s with
  | ret a => exact h.1
  | raise e => exact h.1
  | read k ih => exact ih s h
  | lock r k ih => exact ih h
  | write f k ih => exact h.1

theorem Passes.upTo (h : p.Passes I Q E s) (n : ℕ) : I (p.upTo n s) := by
  induction p generalizing s n with
  | ret a => cases n <;> exact h.1
  | raise e => cases n <;> exact h.1
  | read k ih =>
    cases n with
    | zero => exact h.start
    | succ n => exact ih s h n
  | lock r k ih =>
    cases n with
    | zero => exact h.start
    | succ n => exact ih h n
  | write f k ih =>
    cases n with
    | zero => exact h.1
    | succ n => exact ih h.2 n

theorem Passes.exec_ok {a : α} (h : p.Passes I Q E s) (hexec : p.exec s = (.ok a, s')) :
    I s' ∧ Q a s' := by
  induction p generalizing s with
  | ret b =>
    cases hexec
    exact h
  | raise e => cases hexec
  | read k ih => exact ih s h hexec
  | lock r k ih => exact ih h hexec
  | write f k ih => exact ih h.2 hexec

theorem Passes.exec_error {e : ε} (h : p.Passes I Q E s) (hexec : p.exec s = (.error e, s')) :
    I s' ∧ E e s' := by
  induction p generalizing s with
  | ret b => cases hexec
  | raise e' =>
    cases hexec
    exact h
  | read k ih => exact ih s h hexec
  | lock r k ih => exact ih h hexec
  | write f k ih => exact ih h.2 hexec

theorem Passes.mono {I' : σ → Prop} {Q' : α → σ → Prop} {E' : ε → σ → Prop}
    (h : p.Passes I Q E s) (hI : ∀ s, I s → I' s) (hQ : ∀ a s, I s → Q a s → Q' a s)
    (hE : ∀ e s, I s → E e s → E' e s) : p.Passes I' Q' E' s := by
  induction p generalizing s with
  | ret a => exact ⟨hI _ h.1, hQ _ _ h.1 h.2⟩
  | raise e => exact ⟨hI _ h.1, hE _ _ h.1 h.2⟩
  | read k ih => exact ih s h
  | lock r k ih => exact ih h
  | write f k ih => exact ⟨hI _ h.1, ih h.2⟩

theorem Passes.and {I' : σ → Prop} {Q' : α → σ → Prop} {E' : ε → σ → Prop}
    (h : p.Passes I Q E s) (h' : p.Passes I' Q' E' s) :
    p.Passes (fun s => I s ∧ I' s) (fun a s => Q a s ∧ Q' a s) (fun e s => E e s ∧ E' e s) s := by
  induction p generalizing s with
  | ret a => exact ⟨⟨h.1, h'.1⟩, h.2, h'.2⟩
  | raise e => exact ⟨⟨h.1, h'.1⟩, h.2, h'.2⟩
  | read k ih => exact ih s h h'
  | lock r k ih => exact ih h h'
  | write f k ih => exact ⟨⟨h.1, h'.1⟩, ih h.2 h'.2⟩

theorem passes_read {k : σ → Prog σ κ ε α} (h : (k s).Passes I Q E s) :
    (read k).Passes I Q E s := h

theorem passes_write {f : σ → σ} (hI : I s) (h : p.Passes I Q E (f s)) :
    (write f p).Passes I Q E s := ⟨hI, h⟩

theorem passes_pure {a : α} (hI : I s) (hQ : Q a s) :
    (pure a : Prog σ κ ε α).Passes I Q E s := ⟨hI, hQ⟩

theorem passes_raise {e : ε} (hI : I s) (hE : E e s) :
    (raise e : Prog σ κ ε α).Passes I Q E s := ⟨hI, hE⟩

theorem passes_select {q : σ → α} (hI : I s) (hQ : Q (q s) s) :
    (select q : Prog σ κ ε α).Passes I Q E s := ⟨hI, hQ⟩

theorem passes_modify {f : σ → σ} {Q : Unit → σ → Prop} (hI : I s) (hI' : I (f s))
    (hQ : Q () (f s)) : (modify f : Prog σ κ ε Unit).Passes I Q E s := ⟨hI, hI', hQ⟩

theorem passes_bind {f : α → Prog σ κ ε β} {Q : β → σ → Prop}
    (h : p.Passes I (fun a s => (f a).Passes I Q E s) E s) : (p >>= f).Passes I Q E s := by
  rw [bind_def]
  induction p generalizing s with
  | ret a => exact h.2
  | raise e => exact h
  | read k ih => exact ih s h
  | lock r k ih => exact ih h
  | write g k ih => exact ⟨h.1, ih h.2⟩

theorem passes_tryCatch {h : ε → Prog σ κ ε α}
    (hp : p.Passes I Q (fun e s => (h e).Passes I Q E s) s) : (p.tryCatch h).Passes I Q E s := by
  induction p generalizing s with
  | ret a => exact hp
  | raise e => exact hp.2
  | read k ih => exact ih s hp
  | lock r k ih => exact ih hp
  | write g k ih => exact ⟨hp.1, ih hp.2⟩

theorem Passes.bind {R : α → σ → Prop} {Q : β → σ → Prop} {f : α → Prog σ κ ε β}
    (hp : p.Passes I R E s) (hf : ∀ a s, I s → R a s → (f a).Passes I Q E s) :
    (p >>= f).Passes I Q E s :=
  passes_bind (hp.mono (fun _ h => h) hf fun _ _ _ h => h)

theorem Passes.tryCatch {F : ε → σ → Prop} {h : ε → Prog σ κ ε α}
    (hp : p.Passes I Q F s) (hh : ∀ e s, I s → F e s → (h e).Passes I Q E s) :
    (p.tryCatch h).Passes I Q E s :=
  passes_tryCatch (hp.mono (fun _ h => h) (fun _ _ _ h => h) hh)

/-- The rule of a loop: `R` speaks of the elements that are left. -/
theorem passes_forEach {R : List α → σ → Prop} {f : α → Prog σ κ ε Unit} {xs : List α}
    (hI : ∀ s, R [] s → I s)
    (hstep : ∀ x rest, x :: rest <:+ xs → ∀ s, R (x :: rest) s →
      (f x).Passes I (fun _ s => R rest s) E s)
    (hs : R xs s) : (forEach xs f).Passes I (fun _ s => R [] s) E s := by
  induction xs generalizing s with
  | nil => exact ⟨hI s hs, hs⟩
  | cons x rest ih =>
    refine passes_bind ?_
    refine (hstep x rest (List.suffix_refl _) s hs).mono (fun _ h => h) ?_ fun _ _ _ h => h
    intro _ s1 _ hs1
    exact ih (fun y more hmore => hstep y more (hmore.trans (List.suffix_cons x rest))) hs1

end Passes

/-- What every write of a program extends, the program extends at every point. -/
theorem Writes.passes {R : σ → σ → Prop} {p : Prog σ κ ε α} {s₀ s : σ}
    (h : Writes (fun f => ∀ s, R s (f s)) p) (htrans : ∀ a b c, R a b → R b c → R a c)
    (hs : R s₀ s) : p.Passes (R s₀) (fun _ s => R s₀ s) (fun _ s => R s₀ s) s := by
  induction h generalizing s with
  | ret a => exact ⟨hs, hs⟩
  | raise e => exact ⟨hs, hs⟩
  | read _ ih => exact ih s hs
  | lock _ ih => exact ih hs
  | write hf _ ih => exact ⟨hs, ih (htrans _ _ _ hs (hf s))⟩

-- a program is taken apart by the rules, never by evaluating it
attribute [irreducible] Passes

end Transaction.Prog
