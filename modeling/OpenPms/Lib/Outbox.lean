import Mathlib.Data.List.Basic

/-!
A store whose changes go to a remote copy through a queue. A push is made from the store
as it is when the push is delivered. The remote state that the queue leads to is therefore
a function of the present store, and delivering does not change it.
-/
namespace Outbox

variable {σ ρ π ω : Type}

/-- `perform` is an operation with the pushes that it schedules, or `none` when it is
refused; `deliver` is the effect of one push on the remote side. -/
structure Channel (σ ρ π ω : Type) where
  perform : ω → σ → Option (σ × List π)
  deliver : σ → ρ → π → ρ

structure State (σ ρ π : Type) where
  store : σ
  remote : ρ
  queue : List π

inductive Event (ω : Type) where
  | perform (o : ω)
  | deliver

namespace State
variable (C : Channel σ ρ π ω)

def next (s : State σ ρ π) : Event ω → State σ ρ π
  | .perform o =>
    match C.perform o s.store with
    | none => s
    | some (store, pushes) => ⟨store, s.remote, s.queue ++ pushes⟩
  | .deliver =>
    match s.queue with
    | [] => s
    | p :: rest => ⟨s.store, C.deliver s.store s.remote p, rest⟩

def run (s : State σ ρ π) (es : List (Event ω)) : State σ ρ π := es.foldl (next C) s

/-- The remote state after the queue, if nothing else happens. -/
def settled (s : State σ ρ π) : ρ := s.queue.foldl (C.deliver s.store) s.remote

/-- States of the runs all of whose operations are admitted where they happen. -/
inductive Reach (admits : ω → State σ ρ π → Prop) (s₀ : State σ ρ π) : State σ ρ π → Prop
  | refl : Reach admits s₀ s₀
  | perform {s : State σ ρ π} (o : ω) (hs : Reach admits s₀ s) (ho : admits o s) :
      Reach admits s₀ (s.next C (.perform o))
  | deliver {s : State σ ρ π} (hs : Reach admits s₀ s) : Reach admits s₀ (s.next C .deliver)

variable {C} {s s₀ : State σ ρ π}

theorem settled_of_empty (h : s.queue = []) : s.settled C = s.remote := by
  unfold settled
  rw [h]
  rfl

theorem settled_deliver : (s.next C .deliver).settled C = s.settled C := by
  unfold next settled
  cases hq : s.queue with
  | nil => simp only [hq]
  | cons p rest => rfl

theorem next_perform {o : ω} {store : σ} {pushes : List π}
    (h : C.perform o s.store = some (store, pushes)) :
    s.next C (.perform o) = ⟨store, s.remote, s.queue ++ pushes⟩ := by
  simp only [next, h]

theorem next_refused {o : ω} (h : C.perform o s.store = none) :
    s.next C (.perform o) = s := by
  simp only [next, h]

/-- What every admitted operation and every delivery keeps, holds in every run. -/
theorem invariant_of_reach {admits : ω → State σ ρ π → Prop} {I : State σ ρ π → Prop}
    (hperform : ∀ o s, I s → admits o s → I (s.next C (.perform o)))
    (hdeliver : ∀ s, I s → I (s.next C .deliver)) (h0 : I s₀)
    (h : Reach C admits s₀ s) : I s := by
  induction h with
  | refl => exact h0
  | perform o _ ho ih => exact hperform o _ ih ho
  | deliver _ ih => exact hdeliver _ ih

/-- A run of admitted operations, one event at a time. -/
def Admitted (C : Channel σ ρ π ω) (admits : ω → State σ ρ π → Prop) (s : State σ ρ π) :
    List (Event ω) → Prop
  | [] => True
  | .perform o :: rest => admits o s ∧ Admitted C admits (s.next C (.perform o)) rest
  | .deliver :: rest => Admitted C admits (s.next C .deliver) rest

theorem reach_run {admits : ω → State σ ρ π → Prop} {es : List (Event ω)}
    (hs : Reach C admits s₀ s) (h : Admitted C admits s es) :
    Reach C admits s₀ (s.run C es) := by
  induction es generalizing s with
  | nil => exact hs
  | cons e rest ih =>
    cases e with
    | perform o => exact ih (.perform o hs h.1) h.2
    | deliver => exact ih (.deliver hs) h

end State

end Outbox
