import Mathlib.Data.List.Basic

/-!
Runs that carry values from a store to a remote side. A run reads what it has to send at one
moment and sends it message by message later, and nothing orders the sends of several runs.
The remote side keeps the value it has received last. It ends up with the values of the store
as long as no run sends an outdated value that no other run is going to correct.
-/
namespace Courier

variable {σ π μ ω κ α : Type}

/-- `perform` is an operation with the pushes that it schedules, or `none` when it is
refused; `read` are the messages of a run that reads now. -/
structure Service (σ π μ ω : Type) where
  perform : ω → σ → Option (σ × List π)
  read : π → σ → List μ

/-- A scheduled push, with the messages that it has still to send once it has read. -/
structure Run (π μ : Type) where
  push : π
  rest : Option (List μ)

structure State (σ π μ : Type) where
  store : σ
  runs : List (Run π μ)
  received : List μ

inductive Event (ω : Type) where
  | perform (o : ω)
  | read (i : ℕ)
  | send (i : ℕ)

/-- What messages tell of the keys of the store. A push that covers a key tells its value. -/
structure Topic (C : Service σ π μ ω) (κ α : Type) where
  tells : μ → κ → List α
  value : σ → κ → α
  covers : π → κ → Prop
  faithful : ∀ p k s, covers p k → value s k ∈ (C.read p s).flatMap (tells · k)

namespace State

def next (C : Service σ π μ ω) (s : State σ π μ) : Event ω → State σ π μ
  | .perform o =>
    match C.perform o s.store with
    | none => s
    | some (store, pushes) => ⟨store, s.runs ++ pushes.map fun p => ⟨p, none⟩, s.received⟩
  | .read i =>
    match s.runs[i]? with
    | some ⟨p, none⟩ => { s with runs := s.runs.set i ⟨p, some (C.read p s.store)⟩ }
    | _ => s
  | .send i =>
    match s.runs[i]? with
    | some ⟨p, some (m :: rest)⟩ =>
      { s with runs := s.runs.set i ⟨p, some rest⟩, received := s.received ++ [m] }
    | _ => s

def run (C : Service σ π μ ω) (s : State σ π μ) (es : List (Event ω)) : State σ π μ :=
  es.foldl (next C) s

/-- No run is outstanding. -/
def Idle (s : State σ π μ) : Prop := ∀ r ∈ s.runs, r.rest = some []

/-- States of the runs all of whose events are admitted where they happen. -/
inductive Reach (C : Service σ π μ ω) (admits : Event ω → State σ π μ → Prop)
    (s₀ : State σ π μ) : State σ π μ → Prop
  | refl : Reach C admits s₀ s₀
  | tail {s : State σ π μ} (e : Event ω) (hs : Reach C admits s₀ s) (he : admits e s) :
      Reach C admits s₀ (s.next C e)

variable {C : Service σ π μ ω} {s s₀ : State σ π μ}

theorem next_perform {o : ω} {store : σ} {pushes : List π}
    (h : C.perform o s.store = some (store, pushes)) :
    s.next C (.perform o) =
      ⟨store, s.runs ++ pushes.map fun p => ⟨p, none⟩, s.received⟩ := by
  simp only [next, h]

theorem next_refused {o : ω} (h : C.perform o s.store = none) :
    s.next C (.perform o) = s := by
  simp only [next, h]

theorem next_read {i : ℕ} {p : π} (h : s.runs[i]? = some ⟨p, none⟩) :
    s.next C (.read i) = { s with runs := s.runs.set i ⟨p, some (C.read p s.store)⟩ } := by
  simp only [next, h]

theorem next_read_of_ne {i : ℕ} (h : ∀ p, s.runs[i]? ≠ some ⟨p, none⟩) :
    s.next C (.read i) = s := by
  simp only [next]

theorem next_send {i : ℕ} {p : π} {m : μ} {rest : List μ}
    (h : s.runs[i]? = some ⟨p, some (m :: rest)⟩) :
    s.next C (.send i) =
      { s with runs := s.runs.set i ⟨p, some rest⟩, received := s.received ++ [m] } := by
  simp only [next, h]

theorem next_send_of_ne {i : ℕ} (h : ∀ p m rest, s.runs[i]? ≠ some ⟨p, some (m :: rest)⟩) :
    s.next C (.send i) = s := by
  simp only [next]

/-- What every admitted event keeps, holds in every run. -/
theorem invariant_of_reach {admits : Event ω → State σ π μ → Prop} {I : State σ π μ → Prop}
    (hnext : ∀ e s, I s → admits e s → I (s.next C e)) (h0 : I s₀) (h : Reach C admits s₀ s) :
    I s := by
  induction h with
  | refl => exact h0
  | tail e _ he ih => exact hnext e _ ih he

/-- The events of a list are admitted one after the other. -/
def Admitted (C : Service σ π μ ω) (admits : Event ω → State σ π μ → Prop) (s : State σ π μ) :
    List (Event ω) → Prop
  | [] => True
  | e :: rest => admits e s ∧ Admitted C admits (s.next C e) rest

theorem reach_run {admits : Event ω → State σ π μ → Prop} {es : List (Event ω)}
    (hs : Reach C admits s₀ s) (h : Admitted C admits s es) :
    Reach C admits s₀ (s.run C es) := by
  induction es generalizing s with
  | nil => exact hs
  | cons e rest ih => exact ih (.tail e hs h.1) h.2

end State

/-! What is still to come -/

section Topic
variable {C : Service σ π μ ω} (T : Topic C κ α) {s s₀ : State σ π μ}

/-- The value that the remote side has received last. -/
def Topic.held (received : List μ) (k : κ) : Option α :=
  (received.flatMap (T.tells · k)).getLast?

/-- The run is going to send the present value of the key. -/
def Topic.Owes (store : σ) (k : κ) (r : Run π μ) : Prop :=
  match r.rest with
  | none => T.covers r.push k
  | some rest => T.value store k ∈ rest.flatMap (T.tells · k)

def Topic.Pushed (s : State σ π μ) (k : κ) : Prop := ∃ r ∈ s.runs, T.covers r.push k

def Topic.Owed (s : State σ π μ) (k : κ) : Prop := ∃ r ∈ s.runs, T.Owes s.store k r

/-- A run other than the one at `i` is going to send the present value. -/
def Topic.OwedBeside (s : State σ π μ) (i : ℕ) (k : κ) : Prop :=
  ∃ j r, j ≠ i ∧ s.runs[j]? = some r ∧ T.Owes s.store k r

/-- An operation that changes a value schedules a push for it. -/
def Topic.Announces (e : Event ω) (s : State σ π μ) : Prop :=
  ∀ o store pushes, e = .perform o → C.perform o s.store = some (store, pushes) →
    ∀ k, T.value store k ≠ T.value s.store k → ∃ p ∈ pushes, T.covers p k

/-- What is sent is the present value, or another run is going to send that. -/
def Topic.Fresh (e : Event ω) (s : State σ π μ) : Prop :=
  ∀ i p m rest, e = .send i → s.runs[i]? = some ⟨p, some (m :: rest)⟩ →
    ∀ k, ∀ v ∈ T.tells m k, v = T.value s.store k ∨ T.OwedBeside s i k

/-- The remote side has the present value of every pushed key, or is going to get it. -/
def Topic.Converging (s : State σ π μ) : Prop :=
  ∀ k, T.Pushed s k → T.held s.received k = some (T.value s.store k) ∨ T.Owed s k

variable {T}

theorem Topic.Owes.congr {store store' : σ} {k : κ} {r : Run π μ} (h : T.Owes store k r)
    (hvalue : T.value store' k = T.value store k) : T.Owes store' k r := by
  unfold Owes at h ⊢
  rw [hvalue]
  exact h

/-- The last of the values that a message adds is one of them. -/
theorem held_append {received : List μ} {m : μ} {k : κ} {v : α}
    (hne : T.tells m k ≠ []) (hall : ∀ u ∈ T.tells m k, u = v) :
    T.held (received ++ [m]) k = some v := by
  unfold Topic.held
  rw [List.flatMap_append, List.flatMap_singleton, List.getLast?_append_of_ne_nil _ hne,
    List.getLast?_eq_getLast_of_ne_nil hne, hall _ (List.getLast_mem hne)]

theorem held_append_nil {received : List μ} {m : μ} {k : κ} (hnil : T.tells m k = []) :
    T.held (received ++ [m]) k = T.held received k := by
  unfold Topic.held
  rw [List.flatMap_append, List.flatMap_singleton, hnil, List.append_nil]

/-- A run that takes another's place. -/
theorem owed_set {runs : List (Run π μ)} {store : σ} {k : κ} {i : ℕ} {r r' : Run π μ}
    (hi : runs[i]? = some r) (howes : T.Owes store k r → T.Owes store k r')
    (h : ∃ q ∈ runs, T.Owes store k q) : ∃ q ∈ runs.set i r', T.Owes store k q := by
  obtain ⟨q, hq, hk⟩ := h
  obtain ⟨j, hj⟩ := List.mem_iff_getElem?.mp hq
  by_cases hij : j = i
  · subst hij
    rw [hi] at hj
    cases hj
    refine ⟨r', List.mem_of_getElem? (i := j) ?_, howes hk⟩
    rw [List.getElem?_set_self (List.getElem?_eq_some_iff.mp hi).1]
  · refine ⟨q, List.mem_of_getElem? (i := j) ?_, hk⟩
    rw [List.getElem?_set_ne (Ne.symm hij)]
    exact hj

theorem owed_of_beside {i : ℕ} {k : κ} {r' : Run π μ} (h : T.OwedBeside s i k) :
    ∃ q ∈ s.runs.set i r', T.Owes s.store k q := by
  obtain ⟨j, q, hne, hj, hk⟩ := h
  refine ⟨q, List.mem_of_getElem? (i := j) ?_, hk⟩
  rw [List.getElem?_set_ne hne.symm]
  exact hj

/-- A run keeps its push. -/
theorem pushed_of_set {runs : List (Run π μ)} {k : κ} {i : ℕ} {p : π} {rest rest' : Option (List μ)}
    (hi : runs[i]? = some ⟨p, rest⟩) (h : ∃ q ∈ runs.set i ⟨p, rest'⟩, T.covers q.push k) :
    ∃ q ∈ runs, T.covers q.push k := by
  obtain ⟨q, hq, hk⟩ := h
  rcases List.mem_or_eq_of_mem_set hq with hq | rfl
  · exact ⟨q, hq, hk⟩
  · exact ⟨⟨p, rest⟩, List.mem_of_getElem? hi, hk⟩

theorem converging_perform {o : ω} (h : T.Converging s) (ha : T.Announces (.perform o) s) :
    T.Converging (s.next C (.perform o)) := by
  cases hperform : C.perform o s.store with
  | none =>
    rw [State.next_refused hperform]
    exact h
  | some result =>
    obtain ⟨store, pushes⟩ := result
    rw [State.next_perform hperform]
    intro k hk
    have hnew : (∃ p ∈ pushes, T.covers p k) →
        T.Owed ⟨store, s.runs ++ pushes.map fun p => ⟨p, none⟩, s.received⟩ k := by
      rintro ⟨p, hp, hcovers⟩
      exact ⟨⟨p, none⟩, List.mem_append_right _ (List.mem_map_of_mem hp), hcovers⟩
    by_cases hvalue : T.value store k = T.value s.store k
    · obtain ⟨r, hr, hcovers⟩ := hk
      rcases List.mem_append.mp hr with hold | hr
      · rcases h k ⟨r, hold, hcovers⟩ with hheld | ⟨q, hq, howes⟩
        · exact .inl (hheld.trans (congrArg some hvalue.symm))
        · exact .inr ⟨q, List.mem_append_left _ hq, howes.congr hvalue⟩
      · obtain ⟨p, hp, rfl⟩ := List.mem_map.mp hr
        exact .inr (hnew ⟨p, hp, hcovers⟩)
    · exact .inr (hnew (ha o store pushes rfl hperform k hvalue))

theorem converging_read {i : ℕ} (h : T.Converging s) : T.Converging (s.next C (.read i)) := by
  by_cases hread : ∃ p, s.runs[i]? = some ⟨p, none⟩
  · obtain ⟨p, hp⟩ := hread
    rw [State.next_read hp]
    intro k hk
    refine (h k (pushed_of_set hp hk)).imp_right fun howed => ?_
    exact owed_set hp (fun hcovers => T.faithful p k s.store hcovers) howed
  · rw [State.next_read_of_ne fun p hp => hread ⟨p, hp⟩]
    exact h

theorem converging_send {i : ℕ} (h : T.Converging s) (hf : T.Fresh (.send i) s) :
    T.Converging (s.next C (.send i)) := by
  by_cases hsend : ∃ p m rest, s.runs[i]? = some ⟨p, some (m :: rest)⟩
  · obtain ⟨p, m, rest, hp⟩ := hsend
    rw [State.next_send hp]
    intro k hk
    by_cases hnil : T.tells m k = []
    · refine (h k (pushed_of_set hp hk)).imp (fun hheld => ?_) fun howed => ?_
      · exact (held_append_nil hnil).trans hheld
      · refine owed_set hp (fun howes => ?_) howed
        change T.value s.store k ∈ (m :: rest).flatMap (T.tells · k) at howes
        rw [List.flatMap_cons, hnil, List.nil_append] at howes
        exact howes
    · by_cases hbeside : T.OwedBeside s i k
      · exact .inr (owed_of_beside hbeside)
      · refine .inl (held_append hnil fun v hv => ?_)
        exact (hf i p m rest rfl hp k v hv).resolve_right hbeside
  · rw [State.next_send_of_ne fun p m rest hp => hsend ⟨p, m, rest, hp⟩]
    exact h

theorem converging_next (e : Event ω) (h : T.Converging s) (ha : T.Announces e s)
    (hf : T.Fresh e s) : T.Converging (s.next C e) := by
  cases e with
  | perform o => exact converging_perform h ha
  | read i => exact converging_read h
  | send i => exact converging_send h hf

/-- Once no run is outstanding, the remote side has the value of every pushed key. -/
theorem converges (hstart : s₀.runs = [])
    (h : State.Reach C (fun e s => T.Announces e s ∧ T.Fresh e s) s₀ s) (hidle : s.Idle) {k : κ}
    (hk : T.Pushed s k) : T.held s.received k = some (T.value s.store k) := by
  have hconverging : T.Converging s := by
    refine State.invariant_of_reach (fun e s hs hadm => converging_next e hs hadm.1 hadm.2) ?_ h
    rintro k ⟨r, hr, -⟩
    rw [hstart] at hr
    exact absurd hr List.not_mem_nil
  refine (hconverging k hk).resolve_right ?_
  rintro ⟨r, hr, howes⟩
  unfold Topic.Owes at howes
  rw [hidle r hr] at howes
  exact absurd howes List.not_mem_nil

end Topic

end Courier
