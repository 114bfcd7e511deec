import Mathlib.Algebra.BigOperators.Group.List.Basic
import Mathlib.Data.List.Nodup
import Mathlib.Tactic.Abel

/-!
Tables whose rows have pairwise distinct keys. The uniqueness constraint is a field
of the table, so every operation keeps it. Sums over a table change by the row that
an update, an insertion or a deletion touches, and by nothing else.
-/
namespace KeyedTable

structure Table {κ ν : Type} (key : ν → κ) where
  rows : List ν
  nodup : (rows.map key).Nodup

variable {κ ν : Type} {key : ν → κ}

namespace Table

def empty : Table key := ⟨[], List.nodup_nil⟩

theorem ext_rows {t t' : Table key} (h : t.rows = t'.rows) : t = t' := by
  obtain ⟨rows, _⟩ := t
  obtain ⟨rows', _⟩ := t'
  cases h
  rfl

variable [DecidableEq κ]

def find (t : Table key) (k : κ) : Option ν := t.rows.find? fun v => key v = k

private theorem map_key_update (rows : List ν) (k : κ) (f : ν → ν)
    (hf : ∀ v, key (f v) = key v) :
    (rows.map fun v => if key v = k then f v else v).map key = rows.map key := by
  rw [List.map_map]
  apply List.map_congr_left
  intro v _
  by_cases hk : key v = k
  · simp [hk, hf]
  · simp [hk]

/-- Replace the row under `k`; the replacement keeps the key. -/
def update (t : Table key) (k : κ) (f : ν → ν) (hf : ∀ v, key (f v) = key v) : Table key :=
  ⟨t.rows.map fun v => if key v = k then f v else v, by
    rw [map_key_update t.rows k f hf]
    exact t.nodup⟩

/-- Append a row; a table that already has the key is left as it is. -/
def insert (t : Table key) (v : ν) : Table key :=
  if h : key v ∈ t.rows.map key then t
  else ⟨t.rows ++ [v], by
    rw [List.map_append, List.map_singleton]
    exact List.nodup_append.mpr ⟨t.nodup, List.nodup_singleton _, by
      intro a ha b hb hab
      rw [List.mem_singleton] at hb
      exact h (hb ▸ hab ▸ ha)⟩⟩

def erase (t : Table key) (k : κ) : Table key :=
  ⟨t.rows.filter fun v => key v ≠ k, (List.filter_sublist.map key).nodup t.nodup⟩

/-- Replace every row; the replacement keeps the keys. -/
def updateAll (t : Table key) (f : ν → ν) (hf : ∀ v, key (f v) = key v) : Table key :=
  ⟨t.rows.map f, by
    rw [List.map_map, show key ∘ f = key from funext hf]
    exact t.nodup⟩

theorem find_eq_some {t : Table key} {k : κ} {v : ν} :
    t.find k = some v ↔ v ∈ t.rows ∧ key v = k := by
  constructor
  · intro h
    exact ⟨List.mem_of_find?_eq_some h, by simpa using List.find?_some h⟩
  · rintro ⟨hv, rfl⟩
    cases hf : t.find (key v) with
    | none =>
      have hall := List.find?_eq_none.mp hf v hv
      simp at hall
    | some u =>
      have hu : u ∈ t.rows := List.mem_of_find?_eq_some hf
      have hk : key u = key v := by simpa using List.find?_some hf
      rw [List.inj_on_of_nodup_map t.nodup hu hv hk]

theorem find_eq_none {t : Table key} {k : κ} : t.find k = none ↔ ∀ v ∈ t.rows, key v ≠ k := by
  simp [find, List.find?_eq_none]

theorem find_of_mem {t : Table key} {v : ν} (h : v ∈ t.rows) : t.find (key v) = some v :=
  find_eq_some.mpr ⟨h, rfl⟩

/-- A further condition on the row only filters what the key finds. -/
theorem find?_and {t : Table key} {k : κ} {p : ν → Bool} :
    t.rows.find? (fun v => key v = k && p v) = (t.find k).filter p := by
  have hsound : ∀ v, t.rows.find? (fun v => key v = k && p v) = some v →
      t.find k = some v ∧ p v = true := by
    intro v h
    have hv := List.find?_some h
    rw [Bool.and_eq_true, decide_eq_true_eq] at hv
    exact ⟨find_eq_some.mpr ⟨List.mem_of_find?_eq_some h, hv.1⟩, hv.2⟩
  ext v
  rw [Option.filter_eq_some_iff]
  refine ⟨hsound v, fun h => ?_⟩
  obtain ⟨hfind, hp⟩ := h
  obtain ⟨hmem, hk⟩ := find_eq_some.mp hfind
  have hsome : (t.rows.find? fun v => key v = k && p v).isSome :=
    List.find?_isSome.mpr ⟨v, hmem, by simp [hk, hp]⟩
  obtain ⟨u, hu⟩ := Option.isSome_iff_exists.mp hsome
  rw [hu, ← hfind, (hsound u hu).1]

/-- The row under a key splits the table; no other row has that key. -/
theorem exists_split {t : Table key} {k : κ} {v : ν} (h : t.find k = some v) :
    ∃ l₁ l₂, t.rows = l₁ ++ v :: l₂ ∧ key v = k ∧
      (∀ u ∈ l₁, key u ≠ k) ∧ ∀ u ∈ l₂, key u ≠ k := by
  obtain ⟨hv, hk⟩ := find_eq_some.mp h
  obtain ⟨l₁, l₂, hrows⟩ := List.append_of_mem hv
  have hnd := t.nodup
  rw [hrows, List.map_append, List.map_cons, List.nodup_append, List.nodup_cons] at hnd
  obtain ⟨-, ⟨hnot, -⟩, hdisj⟩ := hnd
  refine ⟨l₁, l₂, hrows, hk, ?_, ?_⟩
  · intro u hu huk
    exact hdisj (key u) (List.mem_map_of_mem hu) (key v) (List.mem_cons_self ..)
      (huk.trans hk.symm)
  · intro u hu huk
    apply hnot
    rw [hk, ← huk]
    exact List.mem_map_of_mem hu

section Update
variable {t : Table key} {k : κ} {f : ν → ν} {hf : ∀ v, key (f v) = key v}

theorem mem_update {v : ν} : v ∈ (t.update k f hf).rows ↔
    (v ∈ t.rows ∧ key v ≠ k) ∨ ∃ u, t.find k = some u ∧ v = f u := by
  simp only [update, List.mem_map]
  constructor
  · rintro ⟨u, hu, rfl⟩
    by_cases hk : key u = k
    · right
      exact ⟨u, find_eq_some.mpr ⟨hu, hk⟩, by simp [hk]⟩
    · left
      simpa [hk] using hu
  · rintro (⟨hv, hk⟩ | ⟨u, hu, rfl⟩)
    · exact ⟨v, hv, by simp [hk]⟩
    · obtain ⟨hu, hk⟩ := find_eq_some.mp hu
      exact ⟨u, hu, by simp [hk]⟩

theorem find_update_self : (t.update k f hf).find k = (t.find k).map f := by
  cases h : t.find k with
  | none =>
    simp only [Option.map_none, find_eq_none, mem_update]
    rintro v (⟨-, hk⟩ | ⟨u, hu, -⟩)
    · exact hk
    · simp [h] at hu
  | some u =>
    obtain ⟨-, hk⟩ := find_eq_some.mp h
    exact find_eq_some.mpr ⟨mem_update.mpr (.inr ⟨u, h, rfl⟩), (hf u).trans hk⟩

theorem find_update_of_ne {k' : κ} (hne : k' ≠ k) : (t.update k f hf).find k' = t.find k' := by
  cases h : t.find k' with
  | none =>
    rw [find_eq_none] at h ⊢
    intro v hv
    rcases mem_update.mp hv with ⟨hv, -⟩ | ⟨u, hu, rfl⟩
    · exact h v hv
    · obtain ⟨-, huk⟩ := find_eq_some.mp hu
      rw [hf, huk]
      exact hne.symm
  | some u =>
    obtain ⟨hu, hk⟩ := find_eq_some.mp h
    exact find_eq_some.mpr ⟨mem_update.mpr (.inl ⟨hu, hk ▸ hne⟩), hk⟩

theorem update_rows_split {v : ν} {l₁ l₂ : List ν} (hrows : t.rows = l₁ ++ v :: l₂)
    (hk : key v = k) (h₁ : ∀ u ∈ l₁, key u ≠ k) (h₂ : ∀ u ∈ l₂, key u ≠ k) :
    (t.update k f hf).rows = l₁ ++ f v :: l₂ := by
  have hside : ∀ l : List ν, (∀ u ∈ l, key u ≠ k) →
      l.map (fun u => if key u = k then f u else u) = l := by
    intro l hl
    conv_rhs => rw [← List.map_id l]
    apply List.map_congr_left
    intro u hu
    simp [hl u hu]
  simp [update, hrows, hside l₁ h₁, hside l₂ h₂, hk]

/-- Only what the replacement does to the row under the key matters. -/
theorem update_congr {g : ν → ν} {hg : ∀ v, key (g v) = key v}
    (h : ∀ v, t.find k = some v → f v = g v) : t.update k f hf = t.update k g hg := by
  apply ext_rows
  apply List.map_congr_left
  intro v hv
  by_cases hk : key v = k
  · simp [hk, h v (find_eq_some.mpr ⟨hv, hk⟩)]
  · simp [hk]

theorem update_id {hid : ∀ v, key (id v : ν) = key v} : t.update k id hid = t := by
  apply ext_rows
  simp [update]

theorem update_update {g : ν → ν} {hg : ∀ v, key (g v) = key v} :
    (t.update k f hf).update k g hg =
      t.update k (g ∘ f) (fun v => (hg (f v)).trans (hf v)) := by
  apply ext_rows
  simp only [update, List.map_map]
  apply List.map_congr_left
  intro v _
  by_cases hk : key v = k
  · simp [hk, hf]
  · simp [hk]

theorem erase_update : (t.update k f hf).erase k = t.erase k := by
  apply ext_rows
  have hkey : ∀ v, key (if key v = k then f v else v) = key v := by
    intro v
    by_cases hk : key v = k
    · rw [ite_cond_eq_true _ _ (eq_true hk), hf]
    · rw [ite_cond_eq_false _ _ (eq_false hk)]
  simp only [update, erase, List.filter_map, Function.comp_def, hkey]
  conv_rhs => rw [← List.map_id (t.rows.filter fun v => key v ≠ k)]
  apply List.map_congr_left
  intro v hv
  have hne : key v ≠ k := by simpa using (List.mem_filter.mp hv).2
  rw [ite_cond_eq_false _ _ (eq_false hne), id]

end Update

theorem find_updateAll {t : Table key} {k : κ} {f : ν → ν} {hf : ∀ v, key (f v) = key v} :
    (t.updateAll f hf).find k = (t.find k).map f := by
  unfold find updateAll
  simp only [List.find?_map, Function.comp_def, hf]

theorem insert_rows {t : Table key} {v : ν} (hv : t.find (key v) = none) :
    (t.insert v).rows = t.rows ++ [v] := by
  have hnot : key v ∉ t.rows.map key := by
    rw [List.mem_map]
    rintro ⟨w, hw, hk⟩
    exact find_eq_none.mp hv w hw hk
  simp [insert, hnot]

theorem insert_of_find {t : Table key} {v u : ν} (hu : t.find (key v) = some u) :
    t.insert v = t := by
  obtain ⟨hmem, hk⟩ := find_eq_some.mp hu
  have hin : key v ∈ t.rows.map key := by
    rw [← hk]
    exact List.mem_map_of_mem hmem
  simp [insert, hin]

theorem mem_insert {t : Table key} {v u : ν} (hv : t.find (key v) = none) :
    u ∈ (t.insert v).rows ↔ u ∈ t.rows ∨ u = v := by
  simp [insert_rows hv]

theorem find_insert_self {t : Table key} {v : ν} (hv : t.find (key v) = none) :
    (t.insert v).find (key v) = some v :=
  find_eq_some.mpr ⟨(mem_insert hv).mpr (.inr rfl), rfl⟩

theorem find_insert_of_some {t : Table key} {k : κ} {u v : ν} (hv : t.find (key v) = none)
    (hu : t.find k = some u) : (t.insert v).find k = some u := by
  obtain ⟨hmem, hk⟩ := find_eq_some.mp hu
  exact find_eq_some.mpr ⟨(mem_insert hv).mpr (.inl hmem), hk⟩

theorem mem_insert_iff {t : Table key} {v u : ν} :
    u ∈ (t.insert v).rows ↔ u ∈ t.rows ∨ t.find (key v) = none ∧ u = v := by
  cases hv : t.find (key v) with
  | none => simp [mem_insert hv]
  | some w => simp [insert_of_find hv]

theorem find_insert_of_ne {t : Table key} {v : ν} {k : κ} (hne : k ≠ key v) :
    (t.insert v).find k = t.find k := by
  cases hk : t.find k with
  | some u =>
    obtain ⟨hmem, hkey⟩ := find_eq_some.mp hk
    exact find_eq_some.mpr ⟨mem_insert_iff.mpr (.inl hmem), hkey⟩
  | none =>
    rw [find_eq_none] at hk ⊢
    intro u hu
    rcases mem_insert_iff.mp hu with hold | ⟨-, rfl⟩
    · exact hk u hold
    · exact hne.symm

/-- The row under a key after an insertion depends on the rows under the two keys. -/
theorem find_insert_congr {t t' : Table key} {v : ν} {k : κ}
    (hv : t'.find (key v) = t.find (key v)) (hk : t'.find k = t.find k) :
    (t'.insert v).find k = (t.insert v).find k := by
  by_cases hkv : k = key v
  · subst hkv
    cases hfind : t.find (key v) with
    | none => rw [find_insert_self hfind, find_insert_self (hv.trans hfind)]
    | some u => rw [insert_of_find hfind, insert_of_find (hv.trans hfind), hk]
  · rw [find_insert_of_ne hkv, find_insert_of_ne hkv, hk]

theorem update_insert {t : Table key} {v : ν} {f : ν → ν} {hf : ∀ v, key (f v) = key v}
    (hv : t.find (key v) = none) : (t.insert v).update (key v) f hf = t.insert (f v) := by
  have hfv : t.find (key (f v)) = none := by rw [hf, hv]
  have hsame : t.rows.map (fun u => if key u = key v then f u else u) = t.rows := by
    conv_rhs => rw [← List.map_id t.rows]
    apply List.map_congr_left
    intro u hu
    simp [find_eq_none.mp hv u hu]
  apply ext_rows
  simp [update, insert_rows hv, insert_rows hfv, hsame]

theorem mem_erase {t : Table key} {k : κ} {v : ν} :
    v ∈ (t.erase k).rows ↔ v ∈ t.rows ∧ key v ≠ k := by
  simp [erase]

theorem find_erase_self {t : Table key} {k : κ} : (t.erase k).find k = none :=
  find_eq_none.mpr fun _ hv => (mem_erase.mp hv).2

theorem find_erase_of_ne {t : Table key} {k k' : κ} (hne : k' ≠ k) :
    (t.erase k).find k' = t.find k' := by
  cases h : t.find k' with
  | none =>
    rw [find_eq_none] at h ⊢
    exact fun v hv => h v (mem_erase.mp hv).1
  | some v =>
    obtain ⟨hmem, hk⟩ := find_eq_some.mp h
    exact find_eq_some.mpr ⟨mem_erase.mpr ⟨hmem, by rw [hk]; exact hne⟩, hk⟩

theorem erase_rows_split {t : Table key} {k : κ} {v : ν} {l₁ l₂ : List ν}
    (hrows : t.rows = l₁ ++ v :: l₂) (hk : key v = k)
    (h₁ : ∀ u ∈ l₁, key u ≠ k) (h₂ : ∀ u ∈ l₂, key u ≠ k) :
    (t.erase k).rows = l₁ ++ l₂ := by
  have h₁' : l₁.filter (fun u => key u ≠ k) = l₁ := List.filter_eq_self.mpr (by simpa using h₁)
  have h₂' : l₂.filter (fun u => key u ≠ k) = l₂ := List.filter_eq_self.mpr (by simpa using h₂)
  simp only [erase, hrows, List.filter_append, List.filter_cons, h₁', h₂']
  simp [hk]

section Sum
variable {M : Type} [AddCommMonoid M]

def sum (t : Table key) (g : ν → M) : M := (t.rows.map g).sum

theorem sum_update {t : Table key} {k : κ} {v : ν} {f : ν → ν}
    (hf : ∀ v, key (f v) = key v) (g : ν → M) (h : t.find k = some v) :
    (t.update k f hf).sum g + g v = t.sum g + g (f v) := by
  obtain ⟨l₁, l₂, hrows, hk, h₁, h₂⟩ := exists_split h
  simp only [sum, update_rows_split hrows hk h₁ h₂, hrows, List.map_append, List.map_cons,
    List.sum_append, List.sum_cons]
  abel

theorem sum_insert {t : Table key} {v : ν} (g : ν → M) (hv : t.find (key v) = none) :
    (t.insert v).sum g = t.sum g + g v := by
  simp [sum, insert_rows hv]

theorem sum_erase {t : Table key} {k : κ} {v : ν} (g : ν → M) (h : t.find k = some v) :
    (t.erase k).sum g + g v = t.sum g := by
  obtain ⟨l₁, l₂, hrows, hk, h₁, h₂⟩ := exists_split h
  simp only [sum, erase_rows_split hrows hk h₁ h₂, hrows, List.map_append, List.map_cons,
    List.sum_append, List.sum_cons]
  abel

end Sum

end Table

end KeyedTable
