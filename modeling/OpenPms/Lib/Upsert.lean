import Mathlib.Data.List.Dedup
import Mathlib.Data.List.Induction

/-!
Dictionaries that keep the order of insertion, and statements that insert one row for
each key or change the row that is there. When a write undoes an earlier one of its key
and writes of different keys commute, one statement for the dictionary of a list of rows
is the same as a statement for each row in turn.
-/
namespace Upsert

variable {κ ν σ ρ : Type} [DecidableEq κ]

/-! Dictionaries -/

structure Dict (κ ν : Type) where
  entries : List (κ × ν)
  nodup : (entries.map Prod.fst).Nodup

def setEntry (k : κ) (v : ν) : List (κ × ν) → List (κ × ν)
  | [] => [(k, v)]
  | (k', u) :: rest => if k' = k then (k, v) :: rest else (k', u) :: setEntry k v rest

theorem mem_keys_setEntry {k x : κ} {v : ν} {entries : List (κ × ν)} :
    x ∈ (setEntry k v entries).map Prod.fst ↔ x = k ∨ x ∈ entries.map Prod.fst := by
  induction entries with
  | nil => simp [setEntry]
  | cons entry rest ih =>
    obtain ⟨k', u⟩ := entry
    unfold setEntry
    split
    · next h => simp [h]
    · rw [List.map_cons, List.mem_cons, ih, List.map_cons, List.mem_cons]
      exact or_left_comm

theorem keys_setEntry (k : κ) (v : ν) (entries : List (κ × ν)) :
    (setEntry k v entries).map Prod.fst = if k ∈ entries.map Prod.fst then entries.map Prod.fst
      else entries.map Prod.fst ++ [k] := by
  induction entries with
  | nil => simp [setEntry]
  | cons entry rest ih =>
    obtain ⟨k', u⟩ := entry
    unfold setEntry
    split
    · next h => simp [h]
    · next hne =>
      rw [List.map_cons, ih, List.map_cons]
      by_cases hk : k ∈ rest.map Prod.fst
      · rw [if_pos hk, if_pos (List.mem_cons_of_mem _ hk)]
      · have hout : k ∉ k' :: rest.map Prod.fst := by
          rw [List.mem_cons]
          exact fun h => h.elim (fun heq => hne heq.symm) hk
        rw [if_neg hk, if_neg hout]
        rfl

theorem nodup_setEntry (k : κ) (v : ν) {entries : List (κ × ν)}
    (h : (entries.map Prod.fst).Nodup) : ((setEntry k v entries).map Prod.fst).Nodup := by
  induction entries with
  | nil => simp [setEntry]
  | cons entry rest ih =>
    obtain ⟨k', u⟩ := entry
    obtain ⟨hfresh, hrest⟩ := List.nodup_cons.mp h
    unfold setEntry
    split
    · next heq => exact List.nodup_cons.mpr ⟨heq ▸ hfresh, hrest⟩
    · next hne =>
      refine List.nodup_cons.mpr ⟨fun hmem => ?_, ih hrest⟩
      rcases mem_keys_setEntry.mp hmem with heq | hmem
      · exact hne heq
      · exact hfresh hmem

theorem mem_setEntry {k x : κ} {u v : ν} {entries : List (κ × ν)}
    (h : (entries.map Prod.fst).Nodup) :
    (x, u) ∈ setEntry k v entries ↔ x = k ∧ u = v ∨ x ≠ k ∧ (x, u) ∈ entries := by
  induction entries with
  | nil => simp [setEntry]
  | cons entry rest ih =>
    obtain ⟨k', w⟩ := entry
    obtain ⟨hfresh, hrest⟩ := List.nodup_cons.mp h
    unfold setEntry
    split
    · next heq =>
      subst heq
      have hne : (x, u) ∈ rest → x ≠ k' := by
        rintro hmem rfl
        exact hfresh (List.mem_map.mpr ⟨_, hmem, rfl⟩)
      rw [List.mem_cons, List.mem_cons, Prod.mk.injEq, Prod.mk.injEq]
      refine or_congr_right ⟨fun hmem => ⟨hne hmem, .inr hmem⟩, fun hmem => ?_⟩
      exact hmem.2.resolve_left fun hsame => hmem.1 hsame.1
    · next hne =>
      rw [List.mem_cons, List.mem_cons, ih hrest, Prod.mk.injEq]
      constructor
      · rintro (hsame | hset | hmem)
        · exact .inr ⟨hsame.1 ▸ hne, .inl hsame⟩
        · exact .inl hset
        · exact .inr ⟨hmem.1, .inr hmem.2⟩
      · rintro (hset | ⟨hother, hsame | hmem⟩)
        · exact .inr (.inl hset)
        · exact .inl hsame
        · exact .inr (.inr ⟨hother, hmem⟩)

namespace Dict

def empty : Dict κ ν := ⟨[], List.nodup_nil⟩

/-- A key that is there keeps its place and gets the new value. -/
def set (d : Dict κ ν) (k : κ) (v : ν) : Dict κ ν :=
  ⟨setEntry k v d.entries, nodup_setEntry k v d.nodup⟩

def keys (d : Dict κ ν) : List κ := d.entries.map Prod.fst

def update (d : Dict κ ν) (rows : List (κ × ν)) : Dict κ ν :=
  rows.foldl (fun d row => d.set row.1 row.2) d

theorem update_append (d : Dict κ ν) (rows more : List (κ × ν)) :
    d.update (rows ++ more) = (d.update rows).update more := List.foldl_append

theorem mem_keys_update {d : Dict κ ν} {rows : List (κ × ν)} {k : κ} :
    k ∈ (d.update rows).keys ↔ k ∈ rows.map Prod.fst ∨ k ∈ d.keys := by
  induction rows generalizing d with
  | nil => simp [update]
  | cons row rest ih =>
    change k ∈ ((d.set row.1 row.2).update rest).keys ↔ _
    rw [ih, List.map_cons, List.mem_cons]
    have hset : k ∈ (d.set row.1 row.2).keys ↔ k = row.1 ∨ k ∈ d.keys := mem_keys_setEntry
    rw [hset, or_left_comm, or_assoc]

/-- The keys come in the order of their first rows. -/
theorem keys_update [BEq κ] [LawfulBEq κ] (rows : List (κ × ν)) :
    (empty.update rows).keys = (rows.map Prod.fst).eraseDups := by
  induction rows using List.reverseRecOn with
  | nil => rfl
  | append_singleton rows row ih =>
    rw [update_append, List.map_append, List.map_singleton, List.eraseDups_append, ← ih]
    have hmem : row.1 ∈ (empty.update rows).entries.map Prod.fst ↔ row.1 ∈ rows.map Prod.fst := by
      refine mem_keys_update.trans (or_iff_left ?_)
      simp [keys, empty]
    refine (keys_setEntry row.1 row.2 _).trans ?_
    by_cases hk : row.1 ∈ rows.map Prod.fst
    · rw [if_pos (hmem.mpr hk)]
      simp [List.removeAll, hk, keys]
    · rw [if_neg fun h => hk (hmem.mp h)]
      simp [List.removeAll, hk, keys, List.eraseDups_cons]

/-- A dictionary of a list of rows has as many entries as the list has keys. -/
theorem length_entries_update (rows : List (κ × ν)) :
    (empty.update rows).entries.length = (rows.map Prod.fst).dedup.length := by
  have hmem : ∀ k, k ∈ (empty.update rows).keys ↔ k ∈ (rows.map Prod.fst).dedup := by
    intro k
    rw [mem_keys_update, List.mem_dedup]
    simp [keys, empty]
  have hperm := (List.perm_ext_iff_of_nodup (empty.update rows).nodup
    (List.nodup_dedup _)).mpr hmem
  rw [← hperm.length_eq, List.length_map]

end Dict

/-! Statements -/

section Statements
variable (put : κ → ν → σ → σ)

/-- One write after the other. -/
def writes (rows : List (κ × ν)) (s : σ) : σ := rows.foldl (fun s row => put row.1 row.2 s) s

/-- A statement may not touch a row twice. -/
def statement (rows : List (κ × ν)) (s : σ) : Option σ :=
  if (rows.map Prod.fst).Nodup then some (writes put rows s) else none

/-- The last write of a key counts, and keys do not interfere. -/
structure LastWins : Prop where
  again : ∀ k u v s, put k v (put k u s) = put k v s
  comm : ∀ k k' v v' s, k ≠ k' → put k v (put k' v' s) = put k' v' (put k v s)

variable {put}

omit [DecidableEq κ] in
theorem writes_append (rows more : List (κ × ν)) (s : σ) :
    writes put (rows ++ more) s = writes put more (writes put rows s) := List.foldl_append

omit [DecidableEq κ] in
/-- A write passes those of other keys. -/
theorem LastWins.writes_put (h : LastWins put) {k : κ} {v : ν} {rows : List (κ × ν)}
    (hk : k ∉ rows.map Prod.fst) (s : σ) :
    writes put rows (put k v s) = put k v (writes put rows s) := by
  induction rows generalizing s with
  | nil => rfl
  | cons row rest ih =>
    rw [List.map_cons, List.mem_cons, not_or] at hk
    change writes put rest (put row.1 row.2 (put k v s)) = put k v (writes put rest _)
    rw [h.comm row.1 k row.2 v s (Ne.symm hk.1), ih hk.2]

theorem LastWins.writes_setEntry (h : LastWins put) {k : κ} {v : ν} {entries : List (κ × ν)}
    (hnodup : (entries.map Prod.fst).Nodup) (s : σ) :
    writes put (setEntry k v entries) s = put k v (writes put entries s) := by
  induction entries generalizing s with
  | nil => rfl
  | cons entry rest ih =>
    obtain ⟨k', u⟩ := entry
    obtain ⟨hfresh, hrest⟩ := List.nodup_cons.mp hnodup
    unfold setEntry
    split
    · next heq =>
      subst heq
      change writes put rest (put k' v s) = put k' v (writes put rest (put k' u s))
      rw [← h.writes_put hfresh, h.again]
    · exact ih hrest (put k' u s)

/-- The entries of a dictionary do what the rows do one after the other. -/
theorem LastWins.writes_update (h : LastWins put) (d : Dict κ ν) (rows : List (κ × ν)) (s : σ) :
    writes put (d.update rows).entries s = writes put rows (writes put d.entries s) := by
  induction rows generalizing d with
  | nil => rfl
  | cons row rest ih =>
    change writes put ((d.set row.1 row.2).update rest).entries s = _
    rw [ih (d.set row.1 row.2)]
    exact congrArg (writes put rest) (h.writes_setEntry d.nodup s)

/-- A dictionary is accepted as one statement. -/
theorem LastWins.statement_update (h : LastWins put) (rows : List (κ × ν)) (s : σ) :
    statement put (Dict.empty.update rows).entries s = some (writes put rows s) := by
  rw [statement, if_pos (Dict.empty.update rows).nodup, h.writes_update]
  rfl

/-! What the rows are afterwards -/

/-- The value that the last row of a key has. -/
def lastFor (rows : List (κ × ν)) (k : κ) : Option ν :=
  rows.foldl (fun v row => if row.1 = k then some row.2 else v) none

theorem lastFor_append_singleton (rows : List (κ × ν)) (row : κ × ν) (k : κ) :
    lastFor (rows ++ [row]) k = if row.1 = k then some row.2 else lastFor rows k := by
  rw [lastFor, List.foldl_append]
  rfl

/-- A write puts its row in the place of its key and leaves the others. -/
structure Reads (put : κ → ν → σ → σ) (read : σ → κ → Option ρ) (place : ν → Option ρ → ρ) :
    Prop where
  self : ∀ k v s, read (put k v s) k = some (place v (read s k))
  other : ∀ k k' v s, k' ≠ k → read (put k v s) k' = read s k'
  again : ∀ u v r, place v (some (place u r)) = place v r

/-- The last row of a key is placed over the row that was there before the first. -/
theorem Reads.read_writes {read : σ → κ → Option ρ} {place : ν → Option ρ → ρ}
    (h : Reads put read place) (rows : List (κ × ν)) (s : σ) (k : κ) :
    read (writes put rows s) k = match lastFor rows k with
      | some v => some (place v (read s k))
      | none => read s k := by
  induction rows using List.reverseRecOn with
  | nil => rfl
  | append_singleton rows row ih =>
    rw [writes_append, lastFor_append_singleton]
    change read (put row.1 row.2 (writes put rows s)) k = _
    by_cases hk : row.1 = k
    · subst hk
      rw [if_pos rfl, h.self, ih]
      cases lastFor rows row.1 with
      | none => rfl
      | some u => exact congrArg some (h.again u row.2 _)
    · rw [if_neg hk, h.other _ _ _ _ (Ne.symm hk), ih]

/-- An entry of the dictionary is the last row of its key. -/
theorem mem_entries_update {rows : List (κ × ν)} {k : κ} {v : ν} :
    (k, v) ∈ (Dict.empty.update rows).entries ↔ lastFor rows k = some v := by
  induction rows using List.reverseRecOn generalizing v with
  | nil => simp [Dict.update, Dict.empty, lastFor]
  | append_singleton rows row ih =>
    rw [Dict.update_append, lastFor_append_singleton]
    change (k, v) ∈ setEntry row.1 row.2 (Dict.empty.update rows).entries ↔ _
    rw [mem_setEntry (Dict.empty.update rows).nodup, ih]
    by_cases hk : row.1 = k
    · simp [hk, eq_comm]
    · simp [hk, Ne.symm hk]

/-! Ranges of keys -/

variable {ι : Type} (keysOf : ι → List κ) (value : ι → ν)

/-- Every range writes its value at each of its keys. -/
def rowsOf (ranges : List ι) : List (κ × ν) :=
  ranges.flatMap fun i => (keysOf i).map fun k => (k, value i)

def lastOf (ranges : List ι) (k : κ) : Option ι := ranges.reverse.find? fun i => k ∈ keysOf i

variable {keysOf value}

theorem lastOf_append_singleton (ranges : List ι) (i : ι) (k : κ) :
    lastOf keysOf (ranges ++ [i]) k = if k ∈ keysOf i then some i else lastOf keysOf ranges k := by
  unfold lastOf
  rw [List.reverse_append, List.reverse_singleton, List.singleton_append, List.find?_cons]
  by_cases hk : k ∈ keysOf i <;> simp [hk]

theorem lastOf_isSome {ranges : List ι} {k : κ} :
    (lastOf keysOf ranges k).isSome ↔ ∃ i ∈ ranges, k ∈ keysOf i := by
  simp [lastOf, List.find?_isSome]

theorem lastOf_some {ranges : List ι} {k : κ} {i : ι} (h : lastOf keysOf ranges k = some i) :
    i ∈ ranges ∧ k ∈ keysOf i := by
  have hk := List.find?_some h
  exact ⟨List.mem_reverse.mp (List.mem_of_find?_eq_some h), of_decide_eq_true hk⟩

theorem lastFor_append_range (rows : List (κ × ν)) (keys : List κ) (v : ν) (k : κ) :
    lastFor (rows ++ keys.map fun k => (k, v)) k = if k ∈ keys then some v else lastFor rows k := by
  induction keys using List.reverseRecOn with
  | nil => simp
  | append_singleton keys k' ih =>
    rw [List.map_append, List.map_singleton, ← List.append_assoc, lastFor_append_singleton, ih]
    by_cases hk : k' = k
    · simp [hk]
    · have hmem : k ∈ keys ++ [k'] ↔ k ∈ keys := by simp [Ne.symm hk]
      rw [if_neg hk]
      simp only [hmem]

/-- The last range that contains the key decides. -/
theorem lastFor_rowsOf (ranges : List ι) (k : κ) :
    lastFor (rowsOf keysOf value ranges) k = (lastOf keysOf ranges k).map value := by
  induction ranges using List.reverseRecOn with
  | nil => rfl
  | append_singleton ranges i ih =>
    unfold rowsOf at ih ⊢
    rw [List.flatMap_append, List.flatMap_singleton, lastFor_append_range, ih,
      lastOf_append_singleton]
    split <;> rfl

omit [DecidableEq κ] in
theorem mem_keys_rowsOf {ranges : List ι} {k : κ} :
    k ∈ (rowsOf keysOf value ranges).map Prod.fst ↔ ∃ i ∈ ranges, k ∈ keysOf i := by
  simp [rowsOf]

end Statements

end Upsert
