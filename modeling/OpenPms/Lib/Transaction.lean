import Mathlib.Logic.Function.Basic
import Mathlib.Data.List.Basic

/-!
Database transactions as programs over an arbitrary state. A program reads the
state that its statements see, takes row locks, writes, and ends by returning a
value or raising an error. `exec` runs a program alone; an error keeps the state
at which it was raised, so that a handler sees the writes made before it.
`transact` is the boundary that commits a result and rolls an error back.
-/

theorem Except.bind_eq_ok {ε α β : Type} {m : Except ε α} {f : α → Except ε β} {b : β} :
    (m >>= f) = .ok b ↔ ∃ a, m = .ok a ∧ f a = .ok b := by
  cases m with
  | error e => exact ⟨(fun h => by cases h), (fun ⟨_, h, _⟩ => by cases h)⟩
  | ok a => exact ⟨fun h => ⟨a, rfl, h⟩, fun ⟨_, ha, hf⟩ => Except.ok.inj ha ▸ hf⟩

theorem Except.bind_eq_error {ε α β : Type} {m : Except ε α} {f : α → Except ε β} {e : ε} :
    (m >>= f) = .error e ↔ m = .error e ∨ ∃ a, m = .ok a ∧ f a = .error e := by
  cases m with
  | error e' =>
    refine ⟨fun h => .inl (by cases h; rfl), fun h => ?_⟩
    obtain rfl := Except.error.inj (h.resolve_right fun ⟨_, hm, _⟩ => by cases hm)
    rfl
  | ok a =>
    refine ⟨fun h => .inr ⟨a, rfl, h⟩, fun h => ?_⟩
    obtain ⟨_, ha, hf⟩ := h.resolve_left fun h => by cases h
    exact Except.ok.inj ha ▸ hf

namespace Transaction

/-- `σ` is the database, `κ` names the rows that can be locked. -/
inductive Prog (σ κ ε α : Type) : Type where
  | ret (a : α)
  | raise (e : ε)
  | read (k : σ → Prog σ κ ε α)
  | lock (r : κ) (k : Prog σ κ ε α)
  | write (f : σ → σ) (k : Prog σ κ ε α)

variable {σ κ ε α β : Type}

namespace Prog

def bind : Prog σ κ ε α → (α → Prog σ κ ε β) → Prog σ κ ε β
  | ret a, f => f a
  | raise e, _ => raise e
  | read k, f => read fun s => (k s).bind f
  | lock r k, f => lock r (k.bind f)
  | write g k, f => write g (k.bind f)

/-- The handler continues from the writes made before the error. -/
def tryCatch : Prog σ κ ε α → (ε → Prog σ κ ε α) → Prog σ κ ε α
  | ret a, _ => ret a
  | raise e, h => h e
  | read k, h => read fun s => (k s).tryCatch h
  | lock r k, h => lock r (k.tryCatch h)
  | write g k, h => write g (k.tryCatch h)

instance : Monad (Prog σ κ ε) where
  pure := ret
  bind := bind

theorem pure_def (a : α) : (pure a : Prog σ κ ε α) = ret a := rfl

theorem bind_def (p : Prog σ κ ε α) (f : α → Prog σ κ ε β) : p >>= f = p.bind f := rfl

theorem bind_ret (p : Prog σ κ ε α) : p.bind ret = p := by
  induction p with
  | ret a => rfl
  | raise e => rfl
  | read k ih => exact congrArg read (funext ih)
  | lock r k ih => exact congrArg (lock r) ih
  | write g k ih => exact congrArg (write g) ih

theorem bind_bind {γ : Type} (p : Prog σ κ ε α) (f : α → Prog σ κ ε β) (g : β → Prog σ κ ε γ) :
    (p.bind f).bind g = p.bind fun a => (f a).bind g := by
  induction p with
  | ret a => rfl
  | raise e => rfl
  | read k ih => exact congrArg read (funext ih)
  | lock r k ih => exact congrArg (lock r) ih
  | write g' k ih => exact congrArg (write g') ih

instance : LawfulMonad (Prog σ κ ε) :=
  LawfulMonad.mk' _ bind_ret (fun _ _ => rfl) bind_bind

/-- One statement that reads: the answer is computed from the state it sees. -/
def select (q : σ → α) : Prog σ κ ε α := read fun s => ret (q s)

def modify (f : σ → σ) : Prog σ κ ε Unit := write f (ret ())

def acquire (r : κ) : Prog σ κ ε Unit := lock r (ret ())

def raiseIf (c : Prop) [Decidable c] (e : ε) : Prog σ κ ε Unit :=
  if c then raise e else ret ()

def runIf (c : Prop) [Decidable c] (p : Prog σ κ ε Unit) : Prog σ κ ε Unit :=
  if c then p else ret ()

def ofExcept : Except ε α → Prog σ κ ε α
  | .ok a => ret a
  | .error e => raise e

def forEach : List α → (α → Prog σ κ ε Unit) → Prog σ κ ε Unit
  | [], _ => ret ()
  | a :: rest, f => f a >>= fun _ => forEach rest f

def exec : Prog σ κ ε α → σ → Except ε α × σ
  | ret a, s => (.ok a, s)
  | raise e, s => (.error e, s)
  | read k, s => (k s).exec s
  | lock _ k, s => k.exec s
  | write f k, s => k.exec (f s)

/-- Commit what a returning program wrote; roll a raising one back. -/
def transact (p : Prog σ κ ε α) (s : σ) : σ :=
  match p.exec s with
  | (.ok _, s') => s'
  | (.error _, _) => s

section Exec
variable {s s' : σ}

@[simp] theorem exec_pure (a : α) : (pure a : Prog σ κ ε α).exec s = (.ok a, s) := rfl

@[simp] theorem exec_ret (a : α) : (ret a : Prog σ κ ε α).exec s = (.ok a, s) := rfl

@[simp] theorem exec_raise (e : ε) : (raise e : Prog σ κ ε α).exec s = (.error e, s) := rfl

@[simp] theorem exec_select (q : σ → α) :
    (select q : Prog σ κ ε α).exec s = (.ok (q s), s) := rfl

@[simp] theorem exec_modify (f : σ → σ) :
    (modify f : Prog σ κ ε Unit).exec s = (.ok (), f s) := rfl

@[simp] theorem exec_acquire (r : κ) : (acquire r : Prog σ κ ε Unit).exec s = (.ok (), s) := rfl

theorem exec_bind (p : Prog σ κ ε α) (f : α → Prog σ κ ε β) :
    (p >>= f).exec s = match p.exec s with
      | (.ok a, s1) => (f a).exec s1
      | (.error e, s1) => (.error e, s1) := by
  rw [bind_def]
  induction p generalizing s with
  | ret a => rfl
  | raise e => rfl
  | read k ih => exact ih s
  | lock r k ih => exact ih
  | write g k ih => exact ih

theorem exec_tryCatch (p : Prog σ κ ε α) (h : ε → Prog σ κ ε α) :
    (p.tryCatch h).exec s = match p.exec s with
      | (.ok a, s1) => (.ok a, s1)
      | (.error e, s1) => (h e).exec s1 := by
  induction p generalizing s with
  | ret a => rfl
  | raise e => rfl
  | read k ih => exact ih s
  | lock r k ih => exact ih
  | write g k ih => exact ih

/-- A sequence returns exactly when both of its parts do. -/
theorem exec_bind_ok {p : Prog σ κ ε α} {f : α → Prog σ κ ε β} {b : β} :
    (p >>= f).exec s = (.ok b, s') ↔
      ∃ a s1, p.exec s = (.ok a, s1) ∧ (f a).exec s1 = (.ok b, s') := by
  rw [exec_bind]
  rcases hp : p.exec s with ⟨a | a, s1⟩ <;> simp

/-- A sequence raises in its first part, or in its second after the first. -/
theorem exec_bind_error {p : Prog σ κ ε α} {f : α → Prog σ κ ε β} {e : ε} :
    (p >>= f).exec s = (.error e, s') ↔
      p.exec s = (.error e, s') ∨
        ∃ a s1, p.exec s = (.ok a, s1) ∧ (f a).exec s1 = (.error e, s') := by
  rw [exec_bind]
  rcases hp : p.exec s with ⟨a | a, s1⟩ <;> simp

theorem exec_bind_congr {p p' : Prog σ κ ε α} {f : α → Prog σ κ ε β} (h : p.exec s = p'.exec s) :
    (p >>= f).exec s = (p' >>= f).exec s := by
  rw [exec_bind, exec_bind, h]

/-- A handler that only replaces the error does not change what is returned. -/
theorem exec_tryCatch_ok_of_raises {p : Prog σ κ ε α} {h : ε → Prog σ κ ε α} {a : α}
    (hraise : ∀ e, ∃ e', h e = raise e') :
    (p.tryCatch h).exec s = (.ok a, s') ↔ p.exec s = (.ok a, s') := by
  rw [exec_tryCatch]
  rcases hp : p.exec s with ⟨e | b, s1⟩
  · obtain ⟨e', he⟩ := hraise e
    simp [he]
  · simp

theorem exec_raiseIf {c : Prop} [Decidable c] {e : ε} :
    (raiseIf c e : Prog σ κ ε Unit).exec s = if c then (.error e, s) else (.ok (), s) := by
  unfold raiseIf
  split
  · rfl
  · rfl

theorem exec_raiseIf_ok {c : Prop} [Decidable c] {e : ε} {u : Unit} :
    (raiseIf c e : Prog σ κ ε Unit).exec s = (.ok u, s') ↔ ¬ c ∧ s = s' := by
  unfold raiseIf
  by_cases hc : c
  · simp [hc]
  · simp [hc]

theorem exec_raiseIf_error {c : Prop} [Decidable c] {e e' : ε} :
    (raiseIf c e : Prog σ κ ε Unit).exec s = (.error e', s') ↔ c ∧ e = e' ∧ s = s' := by
  unfold raiseIf
  by_cases hc : c
  · simp [hc]
  · simp [hc]

theorem exec_runIf_ok {c : Prop} [Decidable c] {p : Prog σ κ ε Unit} {u : Unit} :
    (runIf c p).exec s = (.ok u, s') ↔ c ∧ p.exec s = (.ok u, s') ∨ ¬ c ∧ s = s' := by
  unfold runIf
  by_cases hc : c
  · simp [hc]
  · simp [hc]

theorem exec_ofExcept_ok {x : Except ε α} {a : α} :
    (ofExcept x : Prog σ κ ε α).exec s = (.ok a, s') ↔ x = .ok a ∧ s = s' := by
  cases x <;> simp [ofExcept]

theorem transact_ok {p : Prog σ κ ε α} {a : α} (h : p.exec s = (.ok a, s')) :
    p.transact s = s' := by simp [transact, h]

theorem transact_error {p : Prog σ κ ε α} {e : ε} (h : p.exec s = (.error e, s')) :
    p.transact s = s := by simp [transact, h]

theorem exec_eq_transact {p : Prog σ κ ε α} {a : α} (h : (p.exec s).1 = .ok a) :
    p.exec s = (.ok a, p.transact s) := by
  rcases hp : p.exec s with ⟨e | b, s1⟩
  · simp [hp] at h
  · rw [transact_ok hp]
    rw [hp] at h
    rw [show (Except.ok b : Except ε α) = .ok a from h]

/-- A relation that every returning run establishes holds across `transact`. -/
theorem transact_induction {R : σ → σ → Prop} (p : Prog σ κ ε α) (hrefl : R s s)
    (hok : ∀ a s', p.exec s = (.ok a, s') → R s s') : R s (p.transact s) := by
  rcases hp : p.exec s with ⟨e | a, s1⟩
  · rw [transact_error hp]
    exact hrefl
  · rw [transact_ok hp]
    exact hok a s1 hp

end Exec

/-- Every error that the program can raise satisfies `P`. -/
def Raises (P : ε → Prop) (p : Prog σ κ ε α) : Prop :=
  ∀ s e s', p.exec s = (.error e, s') → P e

section Raises
variable {P : ε → Prop}

theorem raises_pure (a : α) : Raises P (pure a : Prog σ κ ε α) := by
  intro s e s' h
  cases h

theorem raises_raise {e : ε} (he : P e) : Raises P (raise e : Prog σ κ ε α) := by
  intro s e' s' h
  cases h
  exact he

theorem raises_select (q : σ → α) : Raises P (select q : Prog σ κ ε α) := by
  intro s e s' h
  cases h

theorem raises_modify (f : σ → σ) : Raises P (modify f : Prog σ κ ε Unit) := by
  intro s e s' h
  cases h

theorem raises_acquire (r : κ) : Raises P (acquire r : Prog σ κ ε Unit) := by
  intro s e s' h
  cases h

theorem raises_raiseIf {c : Prop} [Decidable c] {e : ε} (he : P e) :
    Raises P (raiseIf c e : Prog σ κ ε Unit) := by
  intro s e' s' h
  obtain ⟨-, rfl, -⟩ := exec_raiseIf_error.mp h
  exact he

theorem raises_ofExcept {x : Except ε α} (h : ∀ e, x = .error e → P e) :
    Raises P (ofExcept x : Prog σ κ ε α) := by
  intro s e s' hexec
  cases x with
  | error e' =>
    cases hexec
    exact h e rfl
  | ok a => cases hexec

theorem raises_runIf {c : Prop} [Decidable c] {p : Prog σ κ ε Unit} (hp : Raises P p) :
    Raises P (runIf c p) := by
  unfold runIf
  split
  · exact hp
  · exact raises_pure _

theorem raises_bind {p : Prog σ κ ε α} {f : α → Prog σ κ ε β} (hp : Raises P p)
    (hf : ∀ a, Raises P (f a)) : Raises P (p >>= f) := by
  intro s e s' h
  rcases exec_bind_error.mp h with hfst | ⟨a, s1, -, hsnd⟩
  · exact hp s e s' hfst
  · exact hf a s1 e s' hsnd

/-- Only the errors of the handler remain. -/
theorem raises_tryCatch {P' : ε → Prop} {p : Prog σ κ ε α} {h : ε → Prog σ κ ε α}
    (hp : Raises P' p) (hh : ∀ e, P' e → Raises P (h e)) : Raises P (p.tryCatch h) := by
  intro s e s' hexec
  rw [exec_tryCatch] at hexec
  split at hexec
  · cases hexec
  · next e₁ s₁ hfst => exact hh e₁ (hp s e₁ s₁ hfst) s₁ e s' hexec

/-- Every error that the program can raise from a state of `I` satisfies `P`. -/
def RaisesFrom (I : σ → Prop) (P : ε → Prop) (p : Prog σ κ ε α) : Prop :=
  ∀ s e s', I s → p.exec s = (.error e, s') → P e

theorem Raises.from {I : σ → Prop} {p : Prog σ κ ε α} (h : Raises P p) : RaisesFrom I P p :=
  fun s e s' _ hexec => h s e s' hexec

theorem RaisesFrom.mono {I J : σ → Prop} {p : Prog σ κ ε α} (h : RaisesFrom I P p)
    (hle : ∀ s, J s → I s) : RaisesFrom J P p :=
  fun s e s' hJ hexec => h s e s' (hle s hJ) hexec

theorem raisesFrom_bind {I : σ → Prop} {J : α → σ → Prop} {p : Prog σ κ ε α}
    {q : α → Prog σ κ ε β} (hp : RaisesFrom I P p)
    (hJ : ∀ s a s', I s → p.exec s = (.ok a, s') → J a s')
    (hq : ∀ a, RaisesFrom (J a) P (q a)) : RaisesFrom I P (p >>= q) := by
  intro s e s' hI h
  rcases exec_bind_error.mp h with hfst | ⟨a, s1, hfst, hsnd⟩
  · exact hp s e s' hI hfst
  · exact hq a s1 e s' (hJ s a s1 hI hfst) hsnd

theorem raisesFrom_tryCatch {I : σ → Prop} (P' : ε → Prop) {p : Prog σ κ ε α}
    {h : ε → Prog σ κ ε α} (hp : RaisesFrom I P' p) (hh : ∀ e, P' e → Raises P (h e)) :
    RaisesFrom I P (p.tryCatch h) := by
  intro s e s' hI hexec
  rw [exec_tryCatch] at hexec
  split at hexec
  · cases hexec
  · next e₁ s₁ hfst => exact hh e₁ (hp s e₁ s₁ hI hfst) s₁ e s' hexec

end Raises

/-- From this state the program raises an error that satisfies `P`. -/
def FailsWith (P : ε → Prop) (p : Prog σ κ ε α) (s : σ) : Prop :=
  ∃ e s', p.exec s = (.error e, s') ∧ P e

section FailsWith
variable {P : ε → Prop} {s s' : σ}

theorem Raises.not_failsWith {p : Prog σ κ ε α} (h : Raises (¬ P ·) p) : ¬ FailsWith P p s :=
  fun ⟨e, s', hexec, he⟩ => h s e s' hexec he

theorem not_failsWith_of_ok {p : Prog σ κ ε α} {a : α} (h : p.exec s = (.ok a, s')) :
    ¬ FailsWith P p s := by
  rintro ⟨e, s₁, hexec, -⟩
  rw [h] at hexec
  cases hexec

/-- A program that raises nothing else fails exactly when it does not return. -/
theorem Raises.failsWith_iff {p : Prog σ κ ε α} (h : Raises P p) :
    FailsWith P p s ↔ ∀ a s', p.exec s ≠ (.ok a, s') := by
  constructor
  · rintro hfails a s' hok
    exact not_failsWith_of_ok hok hfails
  · intro hnot
    rcases hexec : p.exec s with ⟨e | a, s'⟩
    · exact ⟨e, s', hexec, h s e s' hexec⟩
    · exact absurd hexec (hnot a s')

theorem failsWith_bind {p : Prog σ κ ε α} {f : α → Prog σ κ ε β} :
    FailsWith P (p >>= f) s ↔ FailsWith P p s ∨
      ∃ a s1, p.exec s = (.ok a, s1) ∧ FailsWith P (f a) s1 := by
  constructor
  · rintro ⟨e, s', hexec, he⟩
    rcases exec_bind_error.mp hexec with hfst | ⟨a, s1, hfst, hsnd⟩
    · exact .inl ⟨e, s', hfst, he⟩
    · exact .inr ⟨a, s1, hfst, e, s', hsnd, he⟩
  · rintro (⟨e, s', hfst, he⟩ | ⟨a, s1, hfst, e, s', hsnd, he⟩)
    · exact ⟨e, s', exec_bind_error.mpr (.inl hfst), he⟩
    · exact ⟨e, s', exec_bind_error.mpr (.inr ⟨a, s1, hfst, hsnd⟩), he⟩

theorem failsWith_bind_of_ok {p : Prog σ κ ε α} {f : α → Prog σ κ ε β} {a : α}
    (h : p.exec s = (.ok a, s')) : FailsWith P (p >>= f) s ↔ FailsWith P (f a) s' := by
  rw [failsWith_bind, or_iff_right (not_failsWith_of_ok h)]
  constructor
  · rintro ⟨a', s₁, h', hfails⟩
    cases h.symm.trans h'
    exact hfails
  · exact fun hfails => ⟨a, s', h, hfails⟩

theorem exec_ok_of_not_failsWith {p : Prog σ κ ε α} (h : ¬ FailsWith (fun _ => True) p s) :
    ∃ a s', p.exec s = (.ok a, s') := by
  rcases hexec : p.exec s with ⟨e | a, s'⟩
  · exact absurd ⟨e, s', hexec, trivial⟩ h
  · exact ⟨a, s', rfl⟩

theorem failsWith_tryCatch {p : Prog σ κ ε α} {g : ε → Prog σ κ ε α} :
    FailsWith P (p.tryCatch g) s ↔ ∃ e s', p.exec s = (.error e, s') ∧ FailsWith P (g e) s' := by
  unfold FailsWith
  rw [exec_tryCatch]
  rcases hexec : p.exec s with ⟨e | a, s'⟩
  · simp
  · simp

theorem failsWith_congr {p q : Prog σ κ ε α} (h : p.exec s = q.exec s) :
    FailsWith P p s ↔ FailsWith P q s := by
  unfold FailsWith
  rw [h]

theorem failsWith_raiseIf {c : Prop} [Decidable c] {e : ε} :
    FailsWith P (raiseIf c e : Prog σ κ ε Unit) s ↔ c ∧ P e := by
  constructor
  · rintro ⟨e', s', hexec, he⟩
    obtain ⟨hc, rfl, -⟩ := exec_raiseIf_error.mp hexec
    exact ⟨hc, he⟩
  · rintro ⟨hc, he⟩
    exact ⟨e, s, exec_raiseIf_error.mpr ⟨hc, rfl, rfl⟩, he⟩

theorem failsWith_raiseIf_bind {c : Prop} [Decidable c] {e : ε} {f : Unit → Prog σ κ ε α} :
    FailsWith P (raiseIf c e >>= f) s ↔ c ∧ P e ∨ ¬ c ∧ FailsWith P (f ()) s := by
  by_cases hc : c
  · rw [failsWith_bind, failsWith_raiseIf]
    simp [raiseIf, hc]
  · have hok : (raiseIf c e : Prog σ κ ε Unit).exec s = (.ok (), s) :=
      exec_raiseIf_ok.mpr ⟨hc, rfl⟩
    rw [failsWith_bind_of_ok hok]
    simp [hc]

theorem failsWith_runIf {c : Prop} [Decidable c] {p : Prog σ κ ε Unit} :
    FailsWith P (runIf c p) s ↔ c ∧ FailsWith P p s := by
  unfold runIf
  by_cases hc : c
  · simp [hc]
  · simp only [hc, if_false, false_and, iff_false]
    exact not_failsWith_of_ok rfl

end FailsWith

/-- However the program ends, `f` of the state is as before. -/
def Keeps {γ : Type} (f : σ → γ) (p : Prog σ κ ε α) : Prop := ∀ s, f (p.exec s).2 = f s

section Keeps
variable {γ : Type} {f : σ → γ}

theorem keeps_pure (a : α) : Keeps f (pure a : Prog σ κ ε α) := fun _ => rfl

theorem keeps_raise (e : ε) : Keeps f (raise e : Prog σ κ ε α) := fun _ => rfl

theorem keeps_select (q : σ → α) : Keeps f (select q : Prog σ κ ε α) := fun _ => rfl

theorem keeps_acquire (r : κ) : Keeps f (acquire r : Prog σ κ ε Unit) := fun _ => rfl

theorem keeps_modify {g : σ → σ} (hg : ∀ s, f (g s) = f s) :
    Keeps f (modify g : Prog σ κ ε Unit) := hg

theorem keeps_raiseIf {c : Prop} [Decidable c] (e : ε) :
    Keeps f (raiseIf c e : Prog σ κ ε Unit) := by
  intro s
  unfold raiseIf
  split <;> rfl

theorem keeps_bind {p : Prog σ κ ε α} {q : α → Prog σ κ ε β} (hp : Keeps f p)
    (hq : ∀ a, Keeps f (q a)) : Keeps f (p >>= q) := by
  intro s
  have hfst := hp s
  rw [exec_bind]
  rcases hexec : p.exec s with ⟨e | a, s1⟩
  · rw [hexec] at hfst
    exact hfst
  · rw [hexec] at hfst
    exact (hq a s1).trans hfst

theorem keeps_forEach {xs : List α} {p : α → Prog σ κ ε Unit} (hp : ∀ x, Keeps f (p x)) :
    Keeps f (forEach xs p) := by
  induction xs with
  | nil => exact keeps_pure _
  | cons x rest ih => exact keeps_bind (hp x) fun _ => ih

theorem keeps_tryCatch {p : Prog σ κ ε α} {g : ε → Prog σ κ ε α} (hp : Keeps f p)
    (hg : ∀ e, Keeps f (g e)) : Keeps f (p.tryCatch g) := by
  intro s
  have hfst := hp s
  rw [exec_tryCatch]
  rcases hexec : p.exec s with ⟨e | a, s1⟩
  · rw [hexec] at hfst
    exact (hg e s1).trans hfst
  · rw [hexec] at hfst
    exact hfst

theorem keeps_runIf {c : Prop} [Decidable c] {p : Prog σ κ ε Unit} (hp : Keeps f p) :
    Keeps f (runIf c p) := by
  unfold runIf
  split
  · exact hp
  · exact keeps_pure _

theorem keeps_ofExcept (x : Except ε α) : Keeps f (ofExcept x : Prog σ κ ε α) := by
  cases x with
  | error e => exact keeps_raise e
  | ok a => exact keeps_pure a

theorem Keeps.comp {δ : Type} {p : Prog σ κ ε α} (h : Keeps f p) (g : γ → δ) :
    Keeps (fun s => g (f s)) p :=
  fun s => congrArg g (h s)

theorem Keeps.eq {p : Prog σ κ ε α} (h : Keeps f p) {s s' : σ} {r : Except ε α}
    (hexec : p.exec s = (r, s')) : f s' = f s := by
  have hs := h s
  rwa [hexec] at hs

/-- A step that keeps what an assertion speaks of leaves it to the next step. -/
theorem raisesFrom_keeps_bind {P : ε → Prop} {C : γ → Prop} {p : Prog σ κ ε α}
    {q : α → Prog σ κ ε β} (hp : Raises P p) (hkeeps : Keeps f p)
    (hq : ∀ a, RaisesFrom (fun s => C (f s)) P (q a)) :
    RaisesFrom (fun s => C (f s)) P (p >>= q) :=
  raisesFrom_bind hp.from (fun _ _ _ hC hexec => (hkeeps.eq hexec).symm ▸ hC) hq

/-- An error that satisfies `P` is raised before `f` of the state changes. -/
def KeepsOn (f : σ → γ) (P : ε → Prop) (p : Prog σ κ ε α) : Prop :=
  ∀ s e s', p.exec s = (.error e, s') → P e → f s' = f s

theorem Keeps.on {P : ε → Prop} {p : Prog σ κ ε α} (h : Keeps f p) : KeepsOn f P p :=
  fun _ _ _ hexec _ => h.eq hexec

theorem Raises.on {P : ε → Prop} {p : Prog σ κ ε α} (h : Raises (¬ P ·) p) : KeepsOn f P p :=
  fun s e s' hexec he => absurd he (h s e s' hexec)

theorem keepsOn_bind {P : ε → Prop} {p : Prog σ κ ε α} {q : α → Prog σ κ ε β} (hp : Keeps f p)
    (hq : ∀ a, KeepsOn f P (q a)) : KeepsOn f P (p >>= q) := by
  intro s e s' hexec he
  rcases exec_bind_error.mp hexec with hfst | ⟨a, s1, hfst, hsnd⟩
  · exact hp.eq hfst
  · exact (hq a s1 e s' hsnd he).trans (hp.eq hfst)

/-- Every returning run relates `f` of the state before it to `f` of the state after it. -/
def Relates (f : σ → γ) (R : γ → γ → Prop) (p : Prog σ κ ε α) : Prop :=
  ∀ s a s', p.exec s = (.ok a, s') → R (f s) (f s')

variable {R : γ → γ → Prop}

theorem Keeps.relates {p : Prog σ κ ε α} (h : Keeps f p) (hrefl : ∀ c, R c c) : Relates f R p := by
  intro s a s' hexec
  rw [h.eq hexec]
  exact hrefl _

theorem relates_keeps_bind {p : Prog σ κ ε α} {q : α → Prog σ κ ε β} (hp : Keeps f p)
    (hq : ∀ a, Relates f R (q a)) : Relates f R (p >>= q) := by
  intro s b s' hexec
  obtain ⟨a, s1, hfst, hsnd⟩ := exec_bind_ok.mp hexec
  have hstep := hq a s1 b s' hsnd
  rwa [hp.eq hfst] at hstep

theorem relates_bind_keeps {p : Prog σ κ ε α} {q : α → Prog σ κ ε β} (hp : Relates f R p)
    (hq : ∀ a, Keeps f (q a)) : Relates f R (p >>= q) := by
  intro s b s' hexec
  obtain ⟨a, s1, hfst, hsnd⟩ := exec_bind_ok.mp hexec
  rw [(hq a).eq hsnd]
  exact hp s a s1 hfst

/-- The handler answers only errors that were raised before anything changed. -/
theorem relates_tryCatch {P : ε → Prop} {p : Prog σ κ ε α} {h : ε → Prog σ κ ε α}
    (hp : Relates f R p) (hon : KeepsOn f P p) (hrefl : ∀ c, R c c)
    (hh : ∀ e s a s', (h e).exec s = (.ok a, s') → P e ∧ f s' = f s) :
    Relates f R (p.tryCatch h) := by
  intro s a s' hexec
  rw [exec_tryCatch] at hexec
  split at hexec
  · next hfst =>
    cases hexec
    exact hp _ _ _ hfst
  · next e s1 hfst =>
    obtain ⟨he, hkept⟩ := hh e s1 a s' hexec
    rw [hkept, hon s e s1 hfst he]
    exact hrefl _

end Keeps

/-- Every write that the program can make is one of `W`. -/
inductive Writes (W : (σ → σ) → Prop) : Prog σ κ ε α → Prop
  | ret (a : α) : Writes W (ret a)
  | raise (e : ε) : Writes W (raise e)
  | read {k : σ → Prog σ κ ε α} (hk : ∀ s, Writes W (k s)) : Writes W (read k)
  | lock {r : κ} {k : Prog σ κ ε α} (hk : Writes W k) : Writes W (lock r k)
  | write {f : σ → σ} {k : Prog σ κ ε α} (hf : W f) (hk : Writes W k) : Writes W (write f k)

section Writes
variable {W : (σ → σ) → Prop}

theorem Writes.mono {W' : (σ → σ) → Prop} {p : Prog σ κ ε α} (h : Writes W p)
    (hW : ∀ f, W f → W' f) : Writes W' p := by
  induction h with
  | ret a => exact .ret a
  | raise e => exact .raise e
  | read _ ih => exact .read ih
  | lock _ ih => exact .lock ih
  | write hf _ ih => exact .write (hW _ hf) ih

/-- What every write keeps, the program keeps. -/
theorem Writes.keeps {γ : Type} {f : σ → γ} {p : Prog σ κ ε α} (h : Writes W p)
    (hW : ∀ g, W g → ∀ s, f (g s) = f s) : Keeps f p := by
  induction h with
  | ret a => exact fun _ => rfl
  | raise e => exact fun _ => rfl
  | read _ ih => exact fun s => ih s s
  | lock _ ih => exact ih
  | write hg _ ih => exact fun s => (ih _).trans (hW _ hg s)

theorem writes_pure (a : α) : Writes W (pure a : Prog σ κ ε α) := .ret a

theorem writes_raise (e : ε) : Writes W (raise e : Prog σ κ ε α) := .raise e

theorem writes_select (q : σ → α) : Writes W (select q : Prog σ κ ε α) := .read fun _ => .ret _

theorem writes_acquire (r : κ) : Writes W (acquire r : Prog σ κ ε Unit) := .lock (.ret ())

theorem writes_modify {f : σ → σ} (hf : W f) : Writes W (modify f : Prog σ κ ε Unit) :=
  .write hf (.ret ())

theorem writes_raiseIf {c : Prop} [Decidable c] (e : ε) :
    Writes W (raiseIf c e : Prog σ κ ε Unit) := by
  unfold raiseIf
  split
  · exact .raise e
  · exact .ret ()

theorem writes_runIf {c : Prop} [Decidable c] {p : Prog σ κ ε Unit} (hp : Writes W p) :
    Writes W (runIf c p) := by
  unfold runIf
  split
  · exact hp
  · exact .ret ()

theorem writes_ofExcept (x : Except ε α) : Writes W (ofExcept x : Prog σ κ ε α) := by
  cases x with
  | error e => exact .raise e
  | ok a => exact .ret a

theorem writes_bind {p : Prog σ κ ε α} {f : α → Prog σ κ ε β} (hp : Writes W p)
    (hf : ∀ a, Writes W (f a)) : Writes W (p >>= f) := by
  rw [bind_def]
  induction hp with
  | ret a => exact hf a
  | raise e => exact .raise e
  | read _ ih => exact .read ih
  | lock _ ih => exact .lock ih
  | write hg _ ih => exact .write hg ih

theorem writes_tryCatch {p : Prog σ κ ε α} {g : ε → Prog σ κ ε α} (hp : Writes W p)
    (hg : ∀ e, Writes W (g e)) : Writes W (p.tryCatch g) := by
  induction hp with
  | ret a => exact .ret a
  | raise e => exact hg e
  | read _ ih => exact .read ih
  | lock _ ih => exact .lock ih
  | write hf _ ih => exact .write hf ih

theorem writes_forEach {xs : List α} {p : α → Prog σ κ ε Unit} (hp : ∀ x, Writes W (p x)) :
    Writes W (forEach xs p) := by
  induction xs with
  | nil => exact .ret ()
  | cons x rest ih => exact writes_bind (hp x) fun _ => ih

end Writes

end Prog

end Transaction
