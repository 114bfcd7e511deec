import OpenPms.Lib.KeyedTable

/-!
Clients that share a state. A client is isolated when its requests are answered from its own
part of the state, and the requests of the others leave that part alone. Over a run it is
then answered as if its requests were the only ones.
-/
namespace Isolation

variable {κ ι ο σ : Type}

/-- Each answer of a run, with its client, and the state that the run ends in. -/
def run (serve : κ → ι → σ → ο × σ) : List (κ × ι) → σ → List (κ × ο) × σ
  | [], s => ([], s)
  | (c, i) :: rest, s =>
    let answered := serve c i s
    let others := run serve rest answered.2
    ((c, answered.1) :: others.1, others.2)

theorem run_induction {serve : κ → ι → σ → ο × σ} {P : σ → Prop} {requests : List (κ × ι)} {s : σ}
    (hs : P s) (hstep : ∀ r ∈ requests, ∀ s, P s → P (serve r.1 r.2 s).2) :
    P (run serve requests s).2 := by
  induction requests generalizing s with
  | nil => exact hs
  | cons r rest ih =>
    obtain ⟨hfirst, hrest⟩ := List.forall_mem_cons.mp hstep
    exact ih (hfirst s hs) hrest

/-- `part` is what the client sees of a state, as a state of its own. The requests of a run are
`allowed`, and `inv` holds throughout. -/
structure Isolated (serve : κ → ι → σ → ο × σ) (client : κ) (part : σ → σ) (inv : σ → Prop)
    (allowed : κ → ι → Prop) : Prop where
  own : ∀ i s, inv s → allowed client i →
    serve client i (part s) = ((serve client i s).1, part (serve client i s).2)
  other : ∀ c i s, c ≠ client → inv s → allowed c i → part (serve c i s).2 = part s
  preserved : ∀ c i s, inv s → allowed c i → inv (serve c i s).2

/-- The client's requests alone are answered alike, and leave what it sees in the end. -/
theorem Isolated.alone [DecidableEq κ] {serve : κ → ι → σ → ο × σ} {client : κ} {part : σ → σ}
    {inv : σ → Prop} {allowed : κ → ι → Prop} (h : Isolated serve client part inv allowed)
    {requests : List (κ × ι)} {s : σ} (hinv : inv s) (hall : ∀ r ∈ requests, allowed r.1 r.2) :
    run serve (requests.filter fun r => r.1 = client) (part s) =
      ((run serve requests s).1.filter fun a => a.1 = client,
        part (run serve requests s).2) := by
  induction requests generalizing s with
  | nil => rfl
  | cons r rest ih =>
    obtain ⟨c, i⟩ := r
    obtain ⟨hfirst, hall⟩ := List.forall_mem_cons.mp hall
    have hrest := ih (h.preserved c i s hinv hfirst) hall
    by_cases hc : c = client
    · subst hc
      rw [List.filter_cons_of_pos (by simp)]
      simp only [run, h.own i s hinv hfirst, hrest]
      rw [List.filter_cons_of_pos (by simp)]
    · rw [List.filter_cons_of_neg (by simpa using hc)]
      rw [h.other c i s hc hinv hfirst] at hrest
      simp only [run, hrest]
      rw [List.filter_cons_of_neg (by simpa using hc)]

end Isolation

/-! Tables with rows of several clients -/

namespace KeyedTable.Table

variable {κ ν : Type} {key : ν → κ}

def restrict (p : ν → Bool) (t : Table key) : Table key :=
  ⟨t.rows.filter p, (List.filter_sublist.map key).nodup t.nodup⟩

variable {t : Table key} {p : ν → Bool} {f : ν → ν} {hf : ∀ v, key (f v) = key v} {v : ν} {k : κ}

theorem mem_restrict : v ∈ (t.restrict p).rows ↔ v ∈ t.rows ∧ p v = true := List.mem_filter

theorem restrict_comm {q : ν → Bool} : (t.restrict p).restrict q = (t.restrict q).restrict p := by
  refine ext_rows ?_
  change (t.rows.filter p).filter q = (t.rows.filter q).filter p
  rw [List.filter_filter, List.filter_filter]
  exact List.filter_congr fun v _ => Bool.and_comm _ _

theorem restrict_of_forall (h : ∀ v ∈ t.rows, p v = true) : t.restrict p = t :=
  ext_rows (List.filter_eq_self.mpr h)

theorem restrict_restrict : (t.restrict p).restrict p = t.restrict p :=
  restrict_of_forall fun _ hv => (mem_restrict.mp hv).2

/-- Replacing rows within the restriction. -/
theorem restrict_updateAll (hp : ∀ v, p (f v) = p v) :
    (t.updateAll f hf).restrict p = (t.restrict p).updateAll f hf := by
  refine ext_rows ?_
  change (t.rows.map f).filter p = (t.rows.filter p).map f
  rw [List.filter_map]
  exact congrArg (List.map f) (List.filter_congr fun v _ => hp v)

/-- Replacing rows outside of the restriction. -/
theorem restrict_updateAll_of_neg (hp : ∀ v, p (f v) = p v) (h : ∀ v, p v = true → f v = v) :
    (t.updateAll f hf).restrict p = t.restrict p := by
  rw [restrict_updateAll hp]
  refine ext_rows ((List.map_congr_left fun v hv => ?_).trans (List.map_id _))
  exact h v (mem_restrict.mp hv).2

variable [DecidableEq κ]

theorem find_restrict : (t.restrict p).find k = (t.find k).filter p := by
  change (t.rows.filter p).find? (fun v => key v = k) = _
  rw [List.find?_filter, ← find?_and]
  refine congrArg (t.rows.find? ·) (funext fun v => ?_)
  rw [Bool.decide_and, Bool.decide_eq_true, Bool.decide_eq_true, Bool.and_comm]

/-- A row is inserted within the restriction, where its key is free or of a row within. -/
theorem restrict_insert_of_pos (h : ∀ u ∈ t.rows, key u = key v → p u = true) (hp : p v = true) :
    (t.insert v).restrict p = (t.restrict p).insert v := by
  cases hv : t.find (key v) with
  | some u =>
    obtain ⟨hu, hkey⟩ := find_eq_some.mp hv
    have hfind : (t.restrict p).find (key v) = some u := by
      rw [find_restrict, hv, Option.filter_some, if_pos (h u hu hkey)]
    rw [insert_of_find hv, insert_of_find hfind]
  | none =>
    have hrestrict : (t.restrict p).find (key v) = none := by rw [find_restrict, hv]; rfl
    refine ext_rows ?_
    rw [insert_rows hrestrict]
    change (t.insert v).rows.filter p = t.rows.filter p ++ [v]
    rw [insert_rows hv, List.filter_append, List.filter_cons_of_pos hp, List.filter_nil]

theorem restrict_insert_of_neg (hp : p v = false) : (t.insert v).restrict p = t.restrict p := by
  cases hv : t.find (key v) with
  | some u => rw [insert_of_find hv]
  | none =>
    refine ext_rows ?_
    change (t.insert v).rows.filter p = t.rows.filter p
    rw [insert_rows hv, List.filter_append, List.filter_cons_of_neg (by simp [hp]), List.filter_nil,
      List.append_nil]

end KeyedTable.Table
