import Mathlib.Data.List.Dedup
import Mathlib.Data.List.Perm.Basic

/-!
Creating what a remote store lacks. The names that are wanted are compared with those that
the store has shown at the start; what is not among them is created and remembered. The
store shows a created name in its normal form. A create may take effect more than once, and
it may fail after it took effect, which ends the pass.
-/
namespace Ensure

variable {α : Type}

/-- `known` are the names that the pass remembers, `stored` those that the store has, and
`lost` those of its effects that were not reported; both as the store shows them. -/
structure State (α : Type) where
  known : List α
  stored : List α
  created : List α
  lost : List α

namespace State

/-- The create is reported, after `n` effects that were not. -/
def create (norm : α → α) (a : α) (n : ℕ) (s : State α) : State α where
  known := a :: s.known
  stored := List.replicate (n + 1) (norm a) ++ s.stored
  created := s.created ++ [a]
  lost := List.replicate n (norm a) ++ s.lost

def lose (norm : α → α) (a : α) (n : ℕ) (s : State α) : State α :=
  { s with
    stored := List.replicate n (norm a) ++ s.stored
    lost := List.replicate n (norm a) ++ s.lost }

end State

/-- A pass over the wanted names. It goes through to the end, or is cut off. -/
inductive Pass (norm : α → α) : List α → State α → State α → Bool → Prop
  | done {s : State α} : Pass norm [] s s true
  | skip {a : α} {rest : List α} {s t : State α} {b : Bool} (h : a ∈ s.known)
      (hrest : Pass norm rest s t b) : Pass norm (a :: rest) s t b
  | create {a : α} {rest : List α} {s t : State α} {b : Bool} (h : a ∉ s.known) (n : ℕ)
      (hrest : Pass norm rest (s.create norm a n) t b) : Pass norm (a :: rest) s t b
  | cut {a : α} {rest : List α} {s : State α} (h : a ∉ s.known) (n : ℕ) :
      Pass norm (a :: rest) s (s.lose norm a n) false

variable {norm : α → α} {s t : State α} {a x : α} {wanted known : List α} {b : Bool}

/-! What is stored -/

namespace Pass

theorem stored_subset (h : Pass norm wanted s t b) : s.stored ⊆ t.stored := by
  induction h with
  | done => exact List.Subset.refl _
  | skip _ _ ih => exact ih
  | create _ n _ ih => exact List.Subset.trans (List.subset_append_right _ _) ih
  | cut _ n => exact List.subset_append_right _ _

/-- A pass that went through leaves nothing out. -/
theorem mem_stored (h : Pass norm wanted s t true) (ha : a ∈ wanted) :
    a ∈ s.known ∨ norm a ∈ t.stored := by
  generalize hb : true = b at h
  induction h with
  | done => exact absurd ha List.not_mem_nil
  | skip hmem _ ih =>
    rcases List.mem_cons.mp ha with rfl | hrest
    · exact .inl hmem
    · exact ih hrest hb
  | @create a' _ s _ _ hnew n hpass ih =>
    have hmade : norm a' ∈ (s.create norm a' n).stored :=
      List.mem_append_left _ (List.mem_replicate.mpr ⟨Nat.succ_ne_zero n, rfl⟩)
    rcases List.mem_cons.mp ha with rfl | hrest
    · exact .inr (hpass.stored_subset hmade)
    · rcases ih hrest hb with hknown | hstored
      · rcases List.mem_cons.mp hknown with rfl | hknown
        · exact .inr (hpass.stored_subset hmade)
        · exact .inl hknown
      · exact .inr hstored
  | cut => exact absurd hb (by decide)

end Pass

section Names
variable [DecidableEq α]

/-! The names that are created -/

/-- Each unknown name once, where it is wanted first. -/
def missing (known : List α) : List α → List α
  | [] => []
  | a :: rest => if a ∈ known then missing known rest else a :: missing (a :: known) rest

theorem mem_missing : x ∈ missing known wanted ↔ x ∈ wanted ∧ x ∉ known := by
  induction wanted generalizing known with
  | nil => simp [missing]
  | cons a rest ih =>
    unfold missing
    split
    · next h =>
      rw [ih, List.mem_cons]
      refine ⟨fun hx => ⟨.inr hx.1, hx.2⟩, fun hx => ⟨hx.1.resolve_left ?_, hx.2⟩⟩
      rintro rfl
      exact hx.2 h
    · next h =>
      simp only [List.mem_cons, ih]
      by_cases hxa : x = a
      · simp [hxa, h]
      · simp [hxa]

theorem nodup_missing : (missing known wanted).Nodup := by
  induction wanted generalizing known with
  | nil => exact List.nodup_nil
  | cons a rest ih =>
    unfold missing
    split
    · exact ih
    · refine List.nodup_cons.mpr ⟨fun hmem => ?_, ih⟩
      exact (mem_missing.mp hmem).2 (List.mem_cons_self ..)

theorem missing_perm : (missing known wanted).Perm (wanted.filter (· ∉ known)).dedup := by
  refine (List.perm_ext_iff_of_nodup nodup_missing (List.nodup_dedup _)).mpr fun x => ?_
  rw [mem_missing, List.mem_dedup, List.mem_filter, decide_eq_true_eq]

theorem Pass.created_eq (h : Pass norm wanted s t true) :
    t.created = s.created ++ missing s.known wanted := by
  generalize hb : true = b at h
  induction h with
  | done => simp [missing]
  | skip hmem _ ih =>
    rw [ih hb]
    simp only [missing, if_pos hmem]
  | create hnew n _ ih =>
    rw [ih hb]
    simp only [missing, if_neg hnew, State.create, List.append_assoc, List.singleton_append]
  | cut => exact absurd hb (by decide)

/-! How often a name is stored -/

namespace Pass

/-- A name that is wanted in its normal form only, and known where it is stored, is stored
no more often than it was, or than once beside its lost effects. -/
theorem count_le {c : ℕ} (h : Pass norm wanted s t b) (hplain : ∀ a ∈ wanted, norm a = x → a = x)
    (hshown : x ∈ s.stored → x ∈ s.known)
    (hc : s.stored.count x ≤ max c (1 + s.lost.count x)) :
    t.stored.count x ≤ max c (1 + t.lost.count x) := by
  have hnone : ∀ {s : State α}, (x ∈ s.stored → x ∈ s.known) → x ∉ s.known →
      s.stored.count x = 0 :=
    fun hshown hx => List.count_eq_zero.mpr fun hmem => hx (hshown hmem)
  induction h with
  | done => exact hc
  | skip _ _ ih => exact ih (fun a ha => hplain a (List.mem_cons_of_mem _ ha)) hshown hc
  | @create a _ s _ _ hnew n _ ih =>
    refine ih (fun a ha => hplain a (List.mem_cons_of_mem _ ha)) ?_ ?_
    · intro hmem
      rcases List.mem_append.mp hmem with hmade | hbefore
      · obtain rfl : a = x :=
          hplain a (List.mem_cons_self ..) (List.mem_replicate.mp hmade).2.symm
        exact List.mem_cons_self ..
      · exact List.mem_cons_of_mem _ (hshown hbefore)
    · simp only [State.create, List.count_append, List.count_replicate, beq_iff_eq]
      split
      · next heq =>
        obtain rfl : a = x := hplain a (List.mem_cons_self ..) heq
        have hzero := hnone hshown hnew
        omega
      · omega
  | @cut a _ s hnew n =>
    simp only [State.lose, List.count_append, List.count_replicate, beq_iff_eq]
    split
    · next heq =>
      obtain rfl : a = x := hplain a (List.mem_cons_self ..) heq
      have hzero := hnone hshown hnew
      omega
    · omega

end Pass

/-! Passes one after the other -/

/-- What the store shows of itself at the start of a pass. -/
def Listed (shown : α → Bool) (s : State α) : Prop :=
  ∀ x, x ∈ s.known ↔ x ∈ s.stored ∧ shown x

/-- A later pass over names that are all stored creates those that the store does not show
as they are wanted, and nothing else. -/
theorem Pass.created_again {shown : α → Bool} (h : Pass norm wanted s t true)
    (hlisted : Listed shown s) (hstored : ∀ a ∈ wanted, norm a ∈ s.stored)
    (hother : ∀ a ∈ wanted, norm a ≠ a → a ∉ s.stored) :
    t.created.length = s.created.length +
      (wanted.filter fun a => ¬ (norm a = a ∧ shown a)).dedup.length := by
  have hknown : ∀ a ∈ wanted, (a ∉ s.known) ↔ ¬ (norm a = a ∧ shown a) := by
    intro a ha
    refine not_congr ((hlisted a).trans (and_congr_left fun _ => ⟨fun hmem => ?_, fun heq => ?_⟩))
    · by_contra hne
      exact hother a ha hne hmem
    · rw [← heq]
      exact hstored a ha
  have hfilter : wanted.filter (fun a => a ∉ s.known) =
      wanted.filter fun a => ¬ (norm a = a ∧ shown a) :=
    List.filter_congr fun a ha => decide_eq_decide.mpr (hknown a ha)
  rw [h.created_eq, List.length_append, missing_perm.length_eq, hfilter]

end Names

end Ensure
