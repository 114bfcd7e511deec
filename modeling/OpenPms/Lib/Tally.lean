import Mathlib.Algebra.GroupWithZero.Nat
import Mathlib.Algebra.Order.BigOperators.Group.List
import Mathlib.Algebra.Order.Group.Nat
import Mathlib.Data.List.Dedup
import Mathlib.Data.List.Sort

/-!
Sums by key. A grouped query answers one sum for each key of its rows, and a tally adds
amounts to the entries of their keys. Neither loses an amount or takes one twice: the
sums of the groups, or of the entries, with a property of the key are those of the rows.
-/
namespace Tally

section Sums
variable {α κ M : Type} [AddCommMonoid M]

def sumWhere (p : κ → Prop) [DecidablePred p] (l : List (κ × M)) : M :=
  ((l.filter fun e => p e.1).map (·.2)).sum

theorem sumWhere_perm {p : κ → Prop} [DecidablePred p] {l l' : List (κ × M)} (h : l.Perm l') :
    sumWhere p l = sumWhere p l' := ((h.filter _).map _).sum_eq

theorem sumWhere_append {p : κ → Prop} [DecidablePred p] (l l' : List (κ × M)) :
    sumWhere p (l ++ l') = sumWhere p l + sumWhere p l' := by
  simp [sumWhere]

theorem sumWhere_flatMap {β : Type} {p : κ → Prop} [DecidablePred p] (f : β → List (κ × M))
    (l : List β) : sumWhere p (l.flatMap f) = (l.map fun b => sumWhere p (f b)).sum := by
  induction l with
  | nil => rfl
  | cons b rest ih => rw [List.flatMap_cons, sumWhere_append, ih, List.map_cons, List.sum_cons]

/-- Rows of disjoint properties add up. -/
theorem sum_filter_or (val : α → M) {p q : α → Prop} [DecidablePred p] [DecidablePred q]
    {rows : List α} (h : ∀ a ∈ rows, p a → ¬ q a) :
    ((rows.filter fun a => p a ∨ q a).map val).sum =
      ((rows.filter fun a => p a).map val).sum + ((rows.filter fun a => q a).map val).sum := by
  induction rows with
  | nil => simp
  | cons a rest ih =>
    have hrest := ih fun a ha => h a (List.mem_cons_of_mem _ ha)
    have ha := h a (List.mem_cons_self ..)
    simp only [Bool.decide_or] at hrest
    by_cases hp : p a
    · simp [hp, ha hp, hrest, add_assoc]
    · by_cases hq : q a
      · simp [hp, hq, hrest, add_left_comm]
      · simp [hp, hq, hrest]

variable [DecidableEq κ]

/-- One entry for each key, in the order of the first rows. -/
def groupSums (key : α → κ) (val : α → M) (rows : List α) : List (κ × M) :=
  (rows.map key).dedup.map fun k => (k, ((rows.filter fun a => key a = k).map val).sum)

/-- The rows of some keys, key by key. -/
theorem sum_keys (key : α → κ) (val : α → M) (rows : List α) {ks : List κ} (hks : ks.Nodup) :
    (ks.map fun k => ((rows.filter fun a => key a = k).map val).sum).sum =
      ((rows.filter fun a => key a ∈ ks).map val).sum := by
  induction ks with
  | nil => simp
  | cons k rest ih =>
    obtain ⟨hfresh, hrest⟩ := List.nodup_cons.mp hks
    rw [List.map_cons, List.sum_cons, ih hrest]
    have hdisjoint : ∀ a ∈ rows, key a = k → key a ∉ rest := fun a _ hk hmem =>
      hfresh (hk ▸ hmem)
    have hsplit := sum_filter_or val hdisjoint
    rw [← hsplit]
    simp only [List.mem_cons]

/-- Summing groups is summing rows. -/
theorem sumWhere_groupSums (p : κ → Prop) [DecidablePred p] (key : α → κ) (val : α → M)
    (rows : List α) :
    sumWhere p (groupSums key val rows) = ((rows.filter fun a => p (key a)).map val).sum := by
  have hfilter : ((groupSums key val rows).filter fun e => p e.1).map (·.2) =
      ((rows.map key).dedup.filter fun k => p k).map fun k =>
        ((rows.filter fun a => key a = k).map val).sum := by
    rw [groupSums, List.filter_map, List.map_map]
    rfl
  rw [sumWhere, hfilter, sum_keys key val rows ((List.nodup_dedup _).filter _)]
  congr 2
  refine List.filter_congr fun a ha => ?_
  have hmem : key a ∈ (rows.map key).dedup := List.mem_dedup.mpr (List.mem_map_of_mem ha)
  simp [hmem]

theorem mem_keys_groupSums {key : α → κ} {val : α → M} {rows : List α} {k : κ} :
    k ∈ (groupSums key val rows).map Prod.fst ↔ ∃ a ∈ rows, key a = k := by
  simp [groupSums, List.mem_dedup]

theorem nodup_keys_groupSums (key : α → κ) (val : α → M) (rows : List α) :
    ((groupSums key val rows).map Prod.fst).Nodup := by
  rw [groupSums, List.map_map]
  simpa [Function.comp_def] using List.nodup_dedup (rows.map key)

/-! Entries -/

/-- The amount of the first entry of the key, or nothing. -/
def valueAt (l : List (κ × M)) (k : κ) : M := ((l.find? fun e => e.1 = k).map (·.2)).getD 0

theorem valueAt_cons (e : κ × M) (l : List (κ × M)) (k : κ) :
    valueAt (e :: l) k = if e.1 = k then e.2 else valueAt l k := by
  by_cases hk : e.1 = k <;> simp [valueAt, hk]

/-- With one entry for each key the first one is all that there is. -/
theorem valueAt_eq_sumWhere {l : List (κ × M)} (h : (l.map Prod.fst).Nodup) (k : κ) :
    valueAt l k = sumWhere (· = k) l := by
  induction l with
  | nil => rfl
  | cons e rest ih =>
    obtain ⟨hfresh, hrest⟩ := List.nodup_cons.mp h
    rw [valueAt_cons, ih hrest]
    by_cases hk : e.1 = k
    · have hnone : rest.filter (fun e => e.1 = k) = [] := by
        refine List.filter_eq_nil_iff.mpr fun e' he' hk' => hfresh ?_
        rw [hk, ← of_decide_eq_true hk']
        exact List.mem_map_of_mem he'
      simp [sumWhere, hk, hnone]
    · simp [sumWhere, hk]

/-- The groups in any order hold the sum of the rows of their key. -/
theorem valueAt_of_perm {key : α → κ} {val : α → M} {rows : List α} {l : List (κ × M)}
    (h : l.Perm (groupSums key val rows)) (k : κ) :
    valueAt l k = ((rows.filter fun a => key a = k).map val).sum := by
  have hnodup : (l.map Prod.fst).Nodup :=
    (h.map _).nodup_iff.mpr (nodup_keys_groupSums key val rows)
  rw [valueAt_eq_sumWhere hnodup, sumWhere_perm h, sumWhere_groupSums]

/-- The amount is added to the entry of the key, or makes a new one. -/
def tally (k : κ) (m : M) : List (κ × M) → List (κ × M)
  | [] => [(k, 0 + m)]
  | (k', v) :: rest => if k' = k then (k', v + m) :: rest else (k', v) :: tally k m rest

def tallyAll (rows : List (κ × M)) (entries : List (κ × M)) : List (κ × M) :=
  rows.foldl (fun entries row => tally row.1 row.2 entries) entries

theorem valueAt_tally (k k' : κ) (m : M) (l : List (κ × M)) :
    valueAt (tally k m l) k' = if k' = k then valueAt l k + m else valueAt l k' := by
  induction l with
  | nil =>
    by_cases hk : k' = k
    · subst hk
      simp [tally, valueAt]
    · simp [tally, valueAt, hk, Ne.symm hk]
  | cons e rest ih =>
    obtain ⟨x, v⟩ := e
    unfold tally
    by_cases hx : x = k
    · rw [if_pos hx, valueAt_cons, valueAt_cons, valueAt_cons]
      by_cases hk : k' = k
      · simp [hx, hk]
      · have hne : ¬ x = k' := fun h => hk (h.symm.trans hx)
        simp [hk, hne]
    · rw [if_neg hx, valueAt_cons, ih, valueAt_cons, valueAt_cons]
      by_cases hk : k' = k
      · subst hk
        simp [hx]
      · simp [hk]

theorem mem_keys_tally {k x : κ} {m : M} {l : List (κ × M)} :
    x ∈ (tally k m l).map Prod.fst ↔ x = k ∨ x ∈ l.map Prod.fst := by
  induction l with
  | nil => simp [tally]
  | cons e rest ih =>
    obtain ⟨k', v⟩ := e
    unfold tally
    split
    · next h => simp [h]
    · rw [List.map_cons, List.mem_cons, ih, List.map_cons, List.mem_cons]
      exact or_left_comm

theorem nodup_keys_tally (k : κ) (m : M) {l : List (κ × M)} (h : (l.map Prod.fst).Nodup) :
    ((tally k m l).map Prod.fst).Nodup := by
  induction l with
  | nil => simp [tally]
  | cons e rest ih =>
    obtain ⟨k', v⟩ := e
    obtain ⟨hfresh, hrest⟩ := List.nodup_cons.mp h
    unfold tally
    split
    · exact h
    · next hne =>
      refine List.nodup_cons.mpr ⟨fun hmem => ?_, ih hrest⟩
      rcases mem_keys_tally.mp hmem with heq | hmem
      · exact hne heq
      · exact hfresh hmem

theorem valueAt_tallyAll (rows entries : List (κ × M)) (k : κ) :
    valueAt (tallyAll rows entries) k = valueAt entries k + sumWhere (· = k) rows := by
  induction rows generalizing entries with
  | nil => simp [tallyAll, sumWhere]
  | cons row rest ih =>
    change valueAt (tallyAll rest (tally row.1 row.2 entries)) k = _
    rw [ih, valueAt_tally]
    by_cases hk : row.1 = k
    · simp [sumWhere, hk, add_assoc]
    · simp [sumWhere, hk, Ne.symm hk]

theorem mem_keys_tallyAll {rows entries : List (κ × M)} {k : κ} :
    k ∈ (tallyAll rows entries).map Prod.fst ↔
      k ∈ rows.map Prod.fst ∨ k ∈ entries.map Prod.fst := by
  induction rows generalizing entries with
  | nil => simp [tallyAll]
  | cons row rest ih =>
    change k ∈ (tallyAll rest (tally row.1 row.2 entries)).map Prod.fst ↔ _
    rw [ih, mem_keys_tally, List.map_cons, List.mem_cons, or_left_comm, or_assoc]

theorem nodup_keys_tallyAll (rows : List (κ × M)) {entries : List (κ × M)}
    (h : (entries.map Prod.fst).Nodup) : ((tallyAll rows entries).map Prod.fst).Nodup := by
  induction rows generalizing entries with
  | nil => exact h
  | cons row rest ih => exact ih (nodup_keys_tally row.1 row.2 h)

theorem tallyAll_append (rows rows' entries : List (κ × M)) :
    tallyAll (rows ++ rows') entries = tallyAll rows' (tallyAll rows entries) :=
  List.foldl_append ..

end Sums

/-! Entries of other keys -/

section Picks
variable {κ κ' M : Type}

/-- The entries of some keys, under new ones. -/
def pick (p : κ → Prop) [DecidablePred p] (f : κ → κ') (l : List (κ × M)) : List (κ' × M) :=
  (l.filter fun e => p e.1).map fun e => (f e.1, e.2)

variable (p : κ → Prop) [DecidablePred p] (f : κ → κ')

theorem pick_append (l l' : List (κ × M)) : pick p f (l ++ l') = pick p f l ++ pick p f l' := by
  simp [pick]

theorem mem_keys_pick {l : List (κ × M)} {k : κ'} :
    k ∈ (pick p f l).map Prod.fst ↔ ∃ x ∈ l.map Prod.fst, p x ∧ f x = k := by
  simp only [pick, List.map_map, List.mem_map, List.mem_filter, Function.comp_apply,
    decide_eq_true_iff]
  constructor
  · rintro ⟨e, ⟨he, hp⟩, hf⟩
    exact ⟨e.1, ⟨e, he, rfl⟩, hp, hf⟩
  · rintro ⟨x, ⟨e, he, rfl⟩, hp, hf⟩
    exact ⟨e, ⟨he, hp⟩, hf⟩

theorem sumWhere_pick [AddCommMonoid M] [DecidableEq κ'] (l : List (κ × M)) (k : κ') :
    sumWhere (· = k) (pick p f l) = sumWhere (fun x => p x ∧ f x = k) l := by
  unfold sumWhere pick
  rw [List.filter_map, List.map_map, List.filter_filter]
  simp only [Function.comp_def, Bool.decide_and]
  simp only [Bool.and_comm]

/-- New keys that differ where the old ones do. -/
theorem nodup_keys_pick {l : List (κ × M)} (h : (l.map Prod.fst).Nodup)
    (hf : ∀ x y, p x → p y → f x = f y → x = y) : ((pick p f l).map Prod.fst).Nodup := by
  have hfilter : ((l.filter fun e => p e.1).map Prod.fst).Nodup := h.sublist
    (List.filter_sublist.map _)
  have hmap : (pick p f l).map Prod.fst = ((l.filter fun e => p e.1).map Prod.fst).map f := by
    simp [pick]
  rw [hmap]
  refine hfilter.map_on fun x hx y hy hxy => ?_
  obtain ⟨e, he, rfl⟩ := List.mem_map.mp hx
  obtain ⟨e', he', rfl⟩ := List.mem_map.mp hy
  exact hf _ _ (of_decide_eq_true (List.mem_filter.mp he).2)
    (of_decide_eq_true (List.mem_filter.mp he').2) hxy

end Picks

/-! Measures -/

section Measures
variable {α κ M : Type} {size : M → ℕ}

def sizes (size : M → ℕ) (l : List (κ × M)) : ℕ := (l.map fun e => size e.2).sum

theorem sizes_cons (e : κ × M) (l : List (κ × M)) :
    sizes size (e :: l) = size e.2 + sizes size l := rfl

theorem sizes_perm {l l' : List (κ × M)} (h : l.Perm l') : sizes size l = sizes size l' :=
  (h.map _).sum_eq

theorem sizes_flatMap {β : Type} (f : β → List (κ × M)) (l : List β) :
    sizes size (l.flatMap f) = (l.map fun b => sizes size (f b)).sum := by
  induction l with
  | nil => rfl
  | cons b rest ih =>
    rw [List.flatMap_cons, List.map_cons, List.sum_cons, ← ih]
    simp [sizes]

theorem sizes_pick_le {κ' : Type} (p : κ → Prop) [DecidablePred p] (f : κ → κ')
    (l : List (κ × M)) : sizes size (pick p f l) ≤ sizes size l := by
  unfold sizes pick
  rw [List.map_map]
  exact (List.filter_sublist.map _).sum_le_sum fun _ _ => Nat.zero_le _

variable [AddCommMonoid M]

/-- A measure of the amounts that a sum does not exceed. -/
structure Measure (size : M → ℕ) : Prop where
  zero : size 0 = 0
  add_le : ∀ a b, size (a + b) ≤ size a + size b

theorem Measure.sum_le (h : Measure size) (l : List M) : size l.sum ≤ (l.map size).sum := by
  induction l with
  | nil => exact h.zero.le
  | cons m rest ih =>
    have hadd := h.add_le m rest.sum
    simp only [List.sum_cons, List.map_cons]
    omega

variable [DecidableEq κ]

/-- The sums of the groups are no larger than the rows. -/
theorem Measure.groupSums_le (h : Measure size) (key : α → κ) (val : α → M) (rows : List α) :
    sizes size (groupSums key val rows) ≤ (rows.map fun a => size (val a)).sum := by
  have hgroup : ∀ k, size ((rows.filter fun a => key a = k).map val).sum ≤
      ((rows.filter fun a => key a = k).map fun a => size (val a)).sum := by
    intro k
    have hsum := h.sum_le ((rows.filter fun a => key a = k).map val)
    rwa [List.map_map] at hsum
  have hkeys := sum_keys key (fun a => size (val a)) rows (List.nodup_dedup (rows.map key))
  have hall : (rows.filter fun a => key a ∈ (rows.map key).dedup) = rows :=
    List.filter_eq_self.mpr fun a ha =>
      decide_eq_true (List.mem_dedup.mpr (List.mem_map_of_mem ha))
  rw [hall] at hkeys
  rw [← hkeys, sizes, groupSums, List.map_map]
  exact List.sum_le_sum fun k _ => hgroup k

theorem Measure.tally_le (h : Measure size) (k : κ) (m : M) (l : List (κ × M)) :
    sizes size (tally k m l) ≤ size m + sizes size l := by
  induction l with
  | nil => simp [tally, sizes]
  | cons e rest ih =>
    obtain ⟨k', v⟩ := e
    unfold tally
    split
    · have hadd := h.add_le v m
      simp only [sizes_cons]
      omega
    · simp only [sizes_cons]
      omega

theorem Measure.tallyAll_le (h : Measure size) (rows entries : List (κ × M)) :
    sizes size (tallyAll rows entries) ≤ sizes size rows + sizes size entries := by
  induction rows generalizing entries with
  | nil => simp [tallyAll, sizes]
  | cons row rest ih =>
    have hrest := ih (tally row.1 row.2 entries)
    have hstep := h.tally_le row.1 row.2 entries
    change sizes size (tallyAll rest (tally row.1 row.2 entries)) ≤ _
    rw [sizes_cons]
    omega

theorem Measure.valueAt_le (h : Measure size) (l : List (κ × M)) (k : κ) :
    size (valueAt l k) ≤ sizes size (l.filter fun e => e.1 = k) := by
  induction l with
  | nil => exact h.zero.le
  | cons e rest ih =>
    rw [valueAt_cons]
    by_cases hk : e.1 = k
    · simp [hk, sizes_cons]
    · simpa [hk] using ih

/-- Over different keys the entries are read once. -/
theorem Measure.sum_valueAt_le (h : Measure size) (l : List (κ × M)) {ks : List κ}
    (hks : ks.Nodup) : (ks.map fun k => size (valueAt l k)).sum ≤ sizes size l := by
  have hkeys := sum_keys Prod.fst (fun e => size e.2) l hks
  have hsub : ((l.filter fun e => e.1 ∈ ks).map fun e => size e.2).sum ≤ sizes size l :=
    (List.filter_sublist.map _).sum_le_sum fun _ _ => Nat.zero_le _
  refine le_trans (List.sum_le_sum fun k _ => h.valueAt_le l k) ?_
  exact hkeys.trans_le hsub

end Measures

/-! Entries in the order of their keys -/

section Sorted
variable {κ M : Type} (r : κ → κ → Prop) [DecidableRel r]

def sortKeys (l : List (κ × M)) : List (κ × M) := l.insertionSort fun a b => r a.1 b.1

variable {r}

/-- Sorting looks at the keys only. -/
theorem sortKeys_map {N : Type} (f : M → N) (l : List (κ × M)) :
    sortKeys r (l.map fun e => (e.1, f e.2)) = (sortKeys r l).map fun e => (e.1, f e.2) :=
  (List.map_insertionSort (fun a b : κ × M => r a.1 b.1) (fun a b : κ × N => r a.1 b.1)
    (fun e => (e.1, f e.2)) l fun _ _ _ _ => Iff.rfl).symm

theorem perm_sortKeys (l : List (κ × M)) : (sortKeys r l).Perm l := List.perm_insertionSort _ _

theorem pairwise_sortKeys [Std.Total r] [IsTrans κ r] (l : List (κ × M)) :
    (sortKeys r l).Pairwise fun a b => r a.1 b.1 := by
  have : Std.Total fun a b : κ × M => r a.1 b.1 := ⟨fun a b => total_of r a.1 b.1⟩
  have : IsTrans (κ × M) fun a b => r a.1 b.1 := ⟨fun _ _ _ => trans_of r⟩
  exact List.pairwise_insertionSort _ l

/-- Sorting is the same for the same entries in another order. -/
theorem sortKeys_perm [Std.Total r] [IsTrans κ r] [Std.Antisymm r] {l l' : List (κ × M)}
    (hnodup : (l.map Prod.fst).Nodup) (h : l.Perm l') : sortKeys r l = sortKeys r l' := by
  have hperm := (perm_sortKeys (r := r) l).trans (h.trans (perm_sortKeys (r := r) l').symm)
  refine List.Perm.eq_of_pairwise (fun a b ha hb hab hba => ?_) (pairwise_sortKeys l)
    (pairwise_sortKeys l') hperm
  have hmem : a ∈ l := (perm_sortKeys l).mem_iff.mp ha
  have hmem' : b ∈ l := h.mem_iff.mpr ((perm_sortKeys l').mem_iff.mp hb)
  exact List.inj_on_of_nodup_map hnodup hmem hmem' (antisymm hab hba)

variable [DecidableEq κ] [AddCommMonoid M]

theorem mem_iff_valueAt {l : List (κ × M)} (h : (l.map Prod.fst).Nodup) {e : κ × M} :
    e ∈ l ↔ e.1 ∈ l.map Prod.fst ∧ valueAt l e.1 = e.2 := by
  have hself : ∀ e ∈ l, valueAt l e.1 = e.2 := by
    induction l with
    | nil => exact fun e he => absurd he List.not_mem_nil
    | cons x rest ih =>
      obtain ⟨hfresh, hrest⟩ := List.nodup_cons.mp h
      intro e he
      rw [valueAt_cons]
      rcases List.mem_cons.mp he with rfl | he
      · rw [if_pos rfl]
      · rw [if_neg, ih hrest e he]
        exact fun hx => hfresh (hx ▸ List.mem_map_of_mem he)
  constructor
  · exact fun he => ⟨List.mem_map_of_mem he, hself e he⟩
  · rintro ⟨hkey, hvalue⟩
    obtain ⟨e', he', hsame⟩ := List.mem_map.mp hkey
    have hvalue' := hself e' he'
    rw [hsame, hvalue] at hvalue'
    have heq : e = e' := Prod.ext hsame.symm hvalue'
    exact heq ▸ he'

/-- Keys and amounts determine the sorted entries. -/
theorem sortKeys_eq [Std.Total r] [IsTrans κ r] [Std.Antisymm r] {l l' : List (κ × M)}
    (h : (l.map Prod.fst).Nodup) (h' : (l'.map Prod.fst).Nodup)
    (hkeys : ∀ k, k ∈ l.map Prod.fst ↔ k ∈ l'.map Prod.fst)
    (hvalues : ∀ k, valueAt l k = valueAt l' k) : sortKeys r l = sortKeys r l' := by
  refine sortKeys_perm h ((List.perm_ext_iff_of_nodup h.of_map h'.of_map).mpr fun e => ?_)
  rw [mem_iff_valueAt h, mem_iff_valueAt h', hkeys, hvalues]

theorem valueAt_sortKeys {l : List (κ × M)} (h : (l.map Prod.fst).Nodup) (k : κ) :
    valueAt (sortKeys r l) k = valueAt l k := by
  have hperm := perm_sortKeys (r := r) l
  have hsorted : ((sortKeys r l).map Prod.fst).Nodup := (hperm.map _).nodup_iff.mpr h
  rw [valueAt_eq_sumWhere hsorted, valueAt_eq_sumWhere h, sumWhere_perm hperm]

end Sorted

end Tally
