import OpenPms.Lib.Transaction

/-!
Two transactions on two databases that look alike. They answer alike, and the databases
still look alike when they have returned. Nothing is said of the databases at which both
have raised, since a transaction that raises is rolled back. Then programs that commute with
a change of the state.
-/
namespace Transaction.Prog

variable {σ κ ε α β : Type}

/-- From databases related by `R` both return the same value and `S` relates what they
leave, or both raise the same error. -/
def Alike (R : σ → σ → Prop) (p q : Prog σ κ ε α) (S : α → σ → σ → Prop) : Prop :=
  ∀ s s', R s s' →
    (∃ a t t', p.exec s = (.ok a, t) ∧ q.exec s' = (.ok a, t') ∧ S a t t') ∨
      ∃ e t t', p.exec s = (.error e, t) ∧ q.exec s' = (.error e, t')

section Rules
variable {R R' : σ → σ → Prop} {S : α → σ → σ → Prop}

theorem Alike.weaken {p q : Prog σ κ ε α} {S' : α → σ → σ → Prop} (h : Alike R p q S)
    (hR : ∀ s s', R' s s' → R s s') (hS : ∀ a s s', S a s s' → S' a s s') : Alike R' p q S' := by
  intro s s' hs
  rcases h s s' (hR s s' hs) with ⟨a, t, t', hp, hq, ht⟩ | herr
  · exact .inl ⟨a, t, t', hp, hq, hS a t t' ht⟩
  · exact .inr herr

theorem alike_pure {a : α} (h : ∀ s s', R s s' → S a s s') :
    Alike R (pure a : Prog σ κ ε α) (pure a) S :=
  fun s s' hs => .inl ⟨a, s, s', rfl, rfl, h s s' hs⟩

theorem alike_raise (e : ε) : Alike R (.raise e : Prog σ κ ε α) (.raise e) S :=
  fun s s' _ => .inr ⟨e, s, s', rfl, rfl⟩

theorem alike_bind {p q : Prog σ κ ε α} {f g : α → Prog σ κ ε β} {T : β → σ → σ → Prop}
    (hpq : Alike R p q S) (hfg : ∀ a, Alike (S a) (f a) (g a) T) :
    Alike R (p >>= f) (q >>= g) T := by
  intro s s' hs
  rcases hpq s s' hs with ⟨a, t, t', hp, hq, ht⟩ | ⟨e, t, t', hp, hq⟩
  · rcases hfg a t t' ht with ⟨b, u, u', hf, hg, hu⟩ | ⟨e, u, u', hf, hg⟩
    · exact .inl ⟨b, u, u', exec_bind_ok.mpr ⟨a, t, hp, hf⟩, exec_bind_ok.mpr ⟨a, t', hq, hg⟩, hu⟩
    · exact .inr ⟨e, u, u', exec_bind_error.mpr (.inr ⟨a, t, hp, hf⟩),
        exec_bind_error.mpr (.inr ⟨a, t', hq, hg⟩)⟩
  · exact .inr ⟨e, t, t', exec_bind_error.mpr (.inl hp), exec_bind_error.mpr (.inl hq)⟩

/-- A statement that reads the same on both sides; what it read may be kept. -/
theorem alike_select {q : σ → α} (hq : ∀ s s', R s s' → q s = q s') :
    Alike R (select q : Prog σ κ ε α) (select q) fun a s s' => R s s' ∧ a = q s ∧ a = q s' :=
  fun s s' hs => .inl ⟨q s, s, s', rfl, by rw [exec_select, hq s s' hs], hs, rfl, hq s s' hs⟩

/-- A statement that may read different values, for what follows to agree on. -/
theorem alike_select_bind {γ : Type} {q : σ → α} {f g : α → Prog σ κ ε γ}
    {T : γ → σ → σ → Prop}
    (h : ∀ s s', R s s' → Alike (fun t t' => t = s ∧ t' = s') (f (q s)) (g (q s')) T) :
    Alike R (select q >>= f) (select q >>= g) T :=
  fun s s' hs => h s s' hs s s' ⟨rfl, rfl⟩

theorem alike_modify {f g : σ → σ} {S : Unit → σ → σ → Prop}
    (h : ∀ s s', R s s' → S () (f s) (g s')) :
    Alike R (modify f : Prog σ κ ε Unit) (modify g) S :=
  fun s s' hs => .inl ⟨(), f s, g s', rfl, rfl, h s s' hs⟩

/-- Which rows are locked does not matter to a transaction that runs alone. -/
theorem alike_acquireAll (xs ys : List κ) :
    Alike R (forEach xs acquire : Prog σ κ ε Unit) (forEach ys acquire) fun _ => R := by
  have hexec : ∀ (keys : List κ) (s : σ),
      (forEach keys acquire : Prog σ κ ε Unit).exec s = (.ok (), s) := by
    intro keys s
    induction keys with
    | nil => rfl
    | cons key rest ih =>
      rw [forEach, exec_bind, exec_acquire]
      exact ih
  exact fun s s' hs => .inl ⟨(), s, s', hexec xs s, hexec ys s', hs⟩

theorem alike_acquire (r : κ) :
    Alike R (acquire r : Prog σ κ ε Unit) (acquire r) fun _ => R :=
  fun s s' hs => .inl ⟨(), s, s', rfl, rfl, hs⟩

theorem alike_raiseIf {c : Prop} [Decidable c] (e : ε) :
    Alike R (raiseIf c e : Prog σ κ ε Unit) (raiseIf c e) fun _ => R := by
  unfold raiseIf
  split
  · exact alike_raise e
  · exact alike_pure fun _ _ hs => hs

theorem alike_runIf {c : Prop} [Decidable c] {p q : Prog σ κ ε Unit}
    (h : Alike R p q fun _ => R) : Alike R (runIf c p) (runIf c q) fun _ => R := by
  unfold runIf
  split
  · exact h
  · exact alike_pure fun _ _ hs => hs

/-- The answers are the same, and what both leave looks alike when `R` is enough for it. -/
theorem Alike.transact {p q : Prog σ κ ε α} {T : σ → σ → Prop} (h : Alike R p q fun _ => T)
    (hT : ∀ s s', R s s' → T s s') {s s' : σ} (hs : R s s') :
    (p.exec s).1 = (q.exec s').1 ∧ T (p.transact s) (q.transact s') := by
  rcases h s s' hs with ⟨a, t, t', hp, hq, ht⟩ | ⟨e, t, t', hp, hq⟩
  · rw [hp, hq, transact_ok hp, transact_ok hq]
    exact ⟨rfl, ht⟩
  · rw [hp, hq, transact_error hp, transact_error hq]
    exact ⟨rfl, hT s s' hs⟩

end Rules

end Transaction.Prog

/-! Programs that answer as they would without the change, and for which it makes no
difference whether the change comes before them or after them -/

namespace Transaction

variable {σ κ ε α β : Type}

/-- The program neither sees the change nor touches it. -/
def Blind (g : σ → σ) (p : Prog σ κ ε α) : Prop :=
  ∀ s, p.exec (g s) = ((p.exec s).1, g (p.exec s).2)

namespace Prog

variable {g : σ → σ} {p : Prog σ κ ε α} {s s' : σ}

theorem Blind.exec (h : Blind g p) {out : Except ε α} (hexec : p.exec s = (out, s')) :
    p.exec (g s) = (out, g s') := by
  rw [h s, hexec]

/-- A run after the change is a run before it. -/
theorem Blind.before (h : Blind g p) {out : Except ε α} (hexec : p.exec (g s) = (out, s')) :
    ∃ s₁, p.exec s = (out, s₁) ∧ s' = g s₁ := by
  rw [h s] at hexec
  obtain ⟨hout, hstate⟩ := Prod.mk.inj hexec
  exact ⟨(p.exec s).2, Prod.ext hout rfl, hstate.symm⟩

theorem blind_pure (a : α) : Blind g (pure a : Prog σ κ ε α) := fun _ => rfl

theorem blind_raise (e : ε) : Blind g (raise e : Prog σ κ ε α) := fun _ => rfl

theorem blind_acquire (r : κ) : Blind g (acquire r : Prog σ κ ε Unit) := fun _ => rfl

theorem blind_select {q : σ → α} (hq : ∀ s, q (g s) = q s) :
    Blind g (select q : Prog σ κ ε α) := by
  intro s
  rw [exec_select, exec_select, hq]

theorem blind_modify {f : σ → σ} (hf : ∀ s, f (g s) = g (f s)) :
    Blind g (modify f : Prog σ κ ε Unit) := by
  intro s
  rw [exec_modify, exec_modify, hf]

theorem blind_raiseIf {c : Prop} [Decidable c] (e : ε) :
    Blind g (raiseIf c e : Prog σ κ ε Unit) := by
  unfold raiseIf
  split
  · exact blind_raise e
  · exact blind_pure ()

theorem blind_ofExcept (x : Except ε α) : Blind g (ofExcept x : Prog σ κ ε α) := by
  cases x with
  | error e => exact blind_raise e
  | ok a => exact blind_pure a

theorem blind_bind {f : α → Prog σ κ ε β} (hp : Blind g p) (hf : ∀ a, Blind g (f a)) :
    Blind g (p >>= f) := by
  intro s
  rw [exec_bind, exec_bind, hp s]
  rcases p.exec s with ⟨e | a, s₁⟩
  · rfl
  · exact hf a s₁

theorem blind_runIf {c : Prop} [Decidable c] {p : Prog σ κ ε Unit} (hp : Blind g p) :
    Blind g (runIf c p) := by
  unfold runIf
  split
  · exact hp
  · exact blind_pure ()

theorem blind_forEach {xs : List α} {f : α → Prog σ κ ε Unit} (hf : ∀ x, Blind g (f x)) :
    Blind g (forEach xs f) := by
  induction xs with
  | nil => exact blind_pure ()
  | cons x rest ih => exact blind_bind (hf x) fun _ => ih

end Prog

end Transaction
