import Mathlib.Data.List.Sort

/-!
Lists sorted by a key. When the keys differ the result does not depend on the order of the
list, and the first elements are those that few others precede. Then what is left of a list
when a number of its newest elements have been taken, and the pages of a list.
-/
namespace Sorting

section Key
variable {α β : Type} [LinearOrder β] {key : α → β} {items items' : List α}
variable [DecidableRel fun a b : α => key a ≤ key b]

theorem pairwise_lt (h : (items.map key).Nodup) :
    (items.insertionSort fun a b => key a ≤ key b).Pairwise fun a b => key a < key b := by
  have : Std.Total fun a b : α => key a ≤ key b := ⟨fun a b => le_total (key a) (key b)⟩
  have : IsTrans α fun a b => key a ≤ key b := ⟨fun _ _ _ => le_trans⟩
  have hsorted := List.pairwise_insertionSort (fun a b : α => key a ≤ key b) items
  have hperm := List.perm_insertionSort (fun a b : α => key a ≤ key b) items
  have hne := List.pairwise_map.mp ((hperm.map key).nodup_iff.mpr h)
  exact (hsorted.and hne).imp fun ⟨hle, hne⟩ => lt_of_le_of_ne hle hne

theorem insertionSort_eq (h : (items.map key).Nodup) (hperm : items'.Perm items) :
    items'.insertionSort (fun a b => key a ≤ key b) =
      items.insertionSort fun a b => key a ≤ key b := by
  have h' : (items'.map key).Nodup := (hperm.map key).nodup_iff.mpr h
  have hsorted (l : List α) : (l.insertionSort fun a b => key a ≤ key b).Perm l :=
    List.perm_insertionSort _ l
  have hsame := (hsorted items').trans (hperm.trans (hsorted items).symm)
  exact hsame.eq_of_pairwise (fun a b _ _ hab hba => absurd hab (lt_asymm hba)) (pairwise_lt h')
    (pairwise_lt h)

end Key

/-- In a strictly sorted list an element is among the first as far as few are before it. -/
theorem mem_take_iff_countP {α : Type} {r : α → α → Prop} [DecidableRel r]
    (hasymm : ∀ a b, r a b → ¬ r b a) {items : List α} (hsorted : items.Pairwise r) {a : α}
    (ha : a ∈ items) (n : ℕ) : a ∈ items.take n ↔ items.countP (fun b => r b a) < n := by
  induction items generalizing n with
  | nil => exact absurd ha List.not_mem_nil
  | cons x rest ih =>
    obtain ⟨hfirst, hrest⟩ := List.pairwise_cons.mp hsorted
    cases n with
    | zero => simp
    | succ n =>
      rw [List.take_succ_cons, List.mem_cons, List.countP_cons]
      rcases List.mem_cons.mp ha with rfl | ha
      · have hself : ¬ r a a := fun h => hasymm a a h h
        have hnone : rest.countP (fun b => r b a) = 0 :=
          List.countP_eq_zero.mpr fun y hy => by simpa using hasymm a y (hfirst y hy)
        simp [hself, hnone]
      · have hbefore : r x a := hfirst a ha
        have hne : a ≠ x := fun heq => hasymm a a (heq ▸ hbefore) (heq ▸ hbefore)
        rw [or_iff_right hne, ih hrest ha n]
        simp [hbefore]

end Sorting

/-! The surplus of a list over a number of its newest elements: what is left of it, newest
first, when that many have been taken -/

namespace Surplus

variable {α β : Type} [LinearOrder β] (age : α → β) (n : ℕ)

def newestFirst (l : List α) : List α := l.insertionSort fun a b => age b ≤ age a

def kept (l : List α) : List α := (newestFirst age l).take n

def surplus (l : List α) : List α := (newestFirst age l).drop n

variable {age n} {l : List α} {a b : α}

theorem perm_kept_surplus : (kept age n l ++ surplus age n l).Perm l := by
  unfold kept surplus
  rw [List.take_append_drop]
  exact List.perm_insertionSort _ l

theorem mem_of_mem_surplus (h : a ∈ surplus age n l) : a ∈ l :=
  perm_kept_surplus.subset (List.mem_append_right _ h)

theorem mem_of_mem_kept (h : a ∈ kept age n l) : a ∈ l :=
  perm_kept_surplus.subset (List.mem_append_left _ h)

theorem length_kept_le : (kept age n l).length ≤ n := List.length_take_le _ _

/-- Where there is a surplus at all, the full number has been kept. -/
theorem length_kept (h : a ∈ surplus age n l) : (kept age n l).length = n := by
  unfold kept
  have hdrop : 0 < (surplus age n l).length := List.length_pos_of_mem h
  unfold surplus at hdrop
  rw [List.length_drop] at hdrop
  rw [List.length_take]
  omega

theorem age_le (ha : a ∈ surplus age n l) (hb : b ∈ kept age n l) : age a ≤ age b := by
  have htotal : Std.Total fun a b : α => age b ≤ age a := ⟨fun a b => le_total (age b) (age a)⟩
  have htrans : IsTrans α fun a b => age b ≤ age a := ⟨fun _ _ _ hab hbc => hbc.trans hab⟩
  have hsorted := List.pairwise_insertionSort (fun a b : α => age b ≤ age a) l
  rw [← List.take_append_drop n (l.insertionSort fun a b => age b ≤ age a),
    List.pairwise_append] at hsorted
  exact hsorted.2.2 b hb a ha

theorem nodup_kept (hnodup : l.Nodup) : (kept age n l).Nodup :=
  (List.nodup_append.mp (perm_kept_surplus.nodup_iff.mpr hnodup)).1

theorem notMem_surplus_of_mem_kept (hnodup : l.Nodup) (h : a ∈ kept age n l) :
    a ∉ surplus age n l := fun hs =>
  (List.nodup_append.mp (perm_kept_surplus.nodup_iff.mpr hnodup)).2.2 a h a hs rfl

/-- Without the surplus, at most the number to keep is left. -/
theorem length_filter_notMem_surplus [DecidableEq α] :
    (l.filter fun a => a ∉ surplus age n l).length ≤ n := by
  have hperm : ((kept age n l ++ surplus age n l).filter fun a => a ∉ surplus age n l).Perm
      (l.filter fun a => a ∉ surplus age n l) :=
    perm_kept_surplus.filter _
  rw [← hperm.length_eq, List.filter_append]
  have hnone : (surplus age n l).filter (fun a => a ∉ surplus age n l) = [] := by
    simp
  rw [hnone, List.append_nil]
  exact (List.length_filter_le _ _).trans length_kept_le

/-- An element that is newer than all others is kept. -/
theorem notMem_surplus_of_newest (hn : 0 < n) (hnew : ∀ b ∈ l, age a ≤ age b → b = a)
    (hnodup : l.Nodup) : a ∉ surplus age n l := by
  intro ha
  obtain ⟨b, hb⟩ := List.exists_mem_of_length_pos (l := kept age n l) (by
    rw [length_kept ha]
    exact hn)
  have hba : b = a := hnew b (mem_of_mem_kept hb) (age_le ha hb)
  subst hba
  exact notMem_surplus_of_mem_kept hnodup hb ha

end Surplus

/-! Pages of one size at consecutive offsets, put together, are the list as far as they go -/

namespace Paging

variable {α : Type}

/-- LIMIT and OFFSET. -/
def page (rows : List α) (limit offset : ℕ) : List α := (rows.drop offset).take limit

theorem flatten_pages (rows : List α) (limit n : ℕ) :
    ((List.range n).map fun k => page rows limit (k * limit)).flatten = rows.take (n * limit) := by
  induction n with
  | zero => simp
  | succ n ih =>
    rw [List.range_succ, List.map_append, List.flatten_append, ih, Nat.succ_mul, List.take_add]
    simp [page]

/-- Enough pages show everything. -/
theorem flatten_pages_of_le {rows : List α} {limit n : ℕ} (h : rows.length ≤ n * limit) :
    ((List.range n).map fun k => page rows limit (k * limit)).flatten = rows := by
  rw [flatten_pages, List.take_of_length_le h]

end Paging
