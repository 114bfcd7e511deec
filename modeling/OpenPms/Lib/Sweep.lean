import Mathlib.Algebra.Order.Ring.Int
import Mathlib.Data.List.Sort
import Mathlib.Order.ConditionallyCompleteLattice.Basic
import Mathlib.Order.Lattice.Nat
import Mathlib.Algebra.Order.BigOperators.Group.List

/-!
The largest number of half-open intervals that share a point, by one pass over the sorted
starts and ends. Ends come before starts at the same point, so that intervals that only
touch are never counted together.
-/
namespace Sweep

variable {τ : Type}

def total (es : List (τ × ℤ)) : ℤ := (es.map (·.2)).sum

theorem total_cons (e : τ × ℤ) (es : List (τ × ℤ)) : total (e :: es) = e.2 + total es := by
  simp [total]

theorem total_append (es es' : List (τ × ℤ)) : total (es ++ es') = total es + total es' := by
  simp [total]

/-- The running sum and the largest so far. -/
def step (acc : ℤ × ℤ) (e : τ × ℤ) : ℤ × ℤ := (acc.1 + e.2, max acc.2 (acc.1 + e.2))

theorem peak_le_of_prefixes {es : List (τ × ℤ)} {c m k : ℤ} (hm : m ≤ k)
    (hpre : ∀ p, p <+: es → c + total p ≤ k) : (es.foldl step (c, m)).2 ≤ k := by
  induction es generalizing c m with
  | nil => exact hm
  | cons e rest ih =>
    have hone : c + e.2 ≤ k := by
      have hfirst := hpre [e] ⟨rest, rfl⟩
      simpa [total] using hfirst
    refine ih (max_le hm hone) fun p hp => ?_
    have hlonger := hpre (e :: p) (List.cons_prefix_cons.mpr ⟨rfl, hp⟩)
    rw [total_cons] at hlonger
    show c + e.2 + total p ≤ k
    omega

variable [LinearOrder τ]

/-- How many of the intervals contain the point. -/
def covering (l : List (τ × τ)) (d : τ) : ℕ := l.countP fun i => i.1 ≤ d ∧ d < i.2

def events (l : List (τ × τ)) : List (τ × ℤ) := l.flatMap fun i => [(i.1, 1), (i.2, -1)]

def Before (a b : τ × ℤ) : Prop := a.1 < b.1 ∨ a.1 = b.1 ∧ a.2 ≤ b.2

instance (a b : τ × ℤ) : Decidable (Before a b) := inferInstanceAs (Decidable (_ ∨ _))

instance : Std.Total (Before (τ := τ)) where
  total a b := by
    rcases lt_trichotomy a.1 b.1 with hlt | heq | hgt
    · exact .inl (.inl hlt)
    · rcases le_total a.2 b.2 with hle | hle
      · exact .inl (.inr ⟨heq, hle⟩)
      · exact .inr (.inr ⟨heq.symm, hle⟩)
    · exact .inr (.inl hgt)

instance : IsTrans (τ × ℤ) Before where
  trans a b c := by
    rintro (hab | ⟨hab, hab'⟩) (hbc | ⟨hbc, hbc'⟩)
    · exact .inl (hab.trans hbc)
    · exact .inl (hbc ▸ hab)
    · exact .inl (hab ▸ hbc)
    · exact .inr ⟨hab.trans hbc, hab'.trans hbc'⟩

/-- The sum of the events up to a point. -/
def balance (es : List (τ × ℤ)) (d : τ) : ℤ := total (es.filter fun e => e.1 ≤ d)

section Balance
variable {es es' : List (τ × ℤ)} {l : List (τ × τ)} {d : τ}

theorem balance_perm (h : es.Perm es') : balance es d = balance es' d :=
  ((h.filter _).map _).sum_eq

theorem balance_append : balance (es ++ es') d = balance es d + balance es' d := by
  rw [balance, List.filter_append, total_append]
  rfl

/-- Of the events up to a point, one that has started and not ended counts one. -/
theorem balance_events (hl : ∀ i ∈ l, i.1 < i.2) : balance (events l) d = covering l d := by
  induction l with
  | nil => rfl
  | cons i rest ih =>
    have hlt : i.1 < i.2 := hl i List.mem_cons_self
    have hrest := ih fun j hj => hl j (List.mem_cons_of_mem _ hj)
    have hone : balance [(i.1, 1), (i.2, -1)] d = if i.1 ≤ d ∧ d < i.2 then 1 else 0 := by
      by_cases hstart : i.1 ≤ d
      · by_cases hend : i.2 ≤ d
        · simp [balance, total, hstart, hend]
        · simp [balance, total, hstart, hend, not_le.mp hend]
      · have hend : ¬ i.2 ≤ d := fun hle => hstart (hlt.le.trans hle)
        simp [balance, total, hstart, hend]
    have happend : events (i :: rest) = [(i.1, 1), (i.2, -1)] ++ events rest := rfl
    rw [happend, balance_append, hrest, hone, covering, covering, List.countP_cons]
    simp only [decide_eq_true_eq]
    split
    · omega
    · omega

end Balance

section Peak
variable {es : List (τ × ℤ)} {c m k : ℤ}

/-- The largest running sum is at least the sum up to each point. -/
theorem le_peak (hsorted : es.Pairwise Before) (hcm : c ≤ m) (d : τ) :
    c + balance es d ≤ (es.foldl step (c, m)).2 ∧ m ≤ (es.foldl step (c, m)).2 := by
  induction es generalizing c m with
  | nil => simp [balance, total, hcm]
  | cons e rest ih =>
    obtain ⟨hfirst, hrest⟩ := List.pairwise_cons.mp hsorted
    obtain ⟨hsum, hbest⟩ := ih hrest (le_max_right m (c + e.2))
    have hm : m ≤ (rest.foldl step (step (c, m) e)).2 := (le_max_left _ _).trans hbest
    refine ⟨?_, hm⟩
    by_cases hd : e.1 ≤ d
    · have hcons : balance (e :: rest) d = e.2 + balance rest d := by
        rw [balance, List.filter_cons_of_pos (by simpa using hd), total_cons]
        rfl
      rw [hcons, ← add_assoc]
      exact hsum
    · have hlater : ∀ x ∈ rest, ¬ x.1 ≤ d := by
        intro x hx hxd
        rcases hfirst x hx with hlt | ⟨heq, -⟩
        · exact hd (hlt.le.trans hxd)
        · exact hd (heq ▸ hxd)
      have hnil : (e :: rest).filter (fun x => x.1 ≤ d) = [] := by
        refine List.filter_eq_nil_iff.mpr fun x hx => ?_
        rcases List.mem_cons.mp hx with rfl | hx
        · simpa using hd
        · simpa using hlater x hx
      rw [balance, hnil]
      have hzero : total ([] : List (τ × ℤ)) = 0 := rfl
      rw [hzero, add_zero]
      exact hcm.trans hm

/-- A sum that ends with a start is at most the one up to its point: the ends there have
been counted. -/
theorem total_prefix_le (hsorted : es.Pairwise Before) (hdelta : ∀ e ∈ es, e.2 = 1 ∨ e.2 = -1)
    (hk : 0 ≤ k) (hbalance : ∀ d, balance es d ≤ k) (p : List (τ × ℤ)) (hp : p <+: es) :
    total p ≤ k := by
  induction p using List.reverseRecOn with
  | nil => exact hk
  | append_singleton p e ih =>
    obtain ⟨later, hes⟩ := hp
    have hmem : e ∈ es := by
      rw [← hes]
      simp
    have hshorter : total p ≤ k := ih ⟨e :: later, by rw [← hes]; simp⟩
    rw [total_append]
    rcases hdelta e hmem with hstart | hend
    · have hparts : (p ++ [e]).Pairwise Before ∧ later.Pairwise Before ∧
          ∀ x ∈ p ++ [e], ∀ y ∈ later, Before x y := by
        rw [← hes] at hsorted
        exact List.pairwise_append.mp hsorted
      have hearlier : ∀ x ∈ p ++ [e], x.1 ≤ e.1 := by
        intro x hx
        rcases List.mem_append.mp hx with hx | hx
        · have hbefore := (List.pairwise_append.mp hparts.1).2.2 x hx e (by simp)
          exact hbefore.elim le_of_lt fun h => h.1.le
        · rw [List.mem_singleton.mp hx]
      have hall : (p ++ [e]).filter (fun x => x.1 ≤ e.1) = p ++ [e] :=
        List.filter_eq_self.mpr fun x hx => by simpa using hearlier x hx
      have hrest : 0 ≤ balance later e.1 := by
        refine List.sum_nonneg fun z hz => ?_
        obtain ⟨x, hx, rfl⟩ := List.mem_map.mp hz
        obtain ⟨hx, hle⟩ := List.mem_filter.mp hx
        have hle' : x.1 ≤ e.1 := by simpa using hle
        rcases hparts.2.2 e (by simp) x hx with hlt | ⟨-, hone⟩
        · exact absurd hle' (not_le.mpr hlt)
        · omega
      have hupTo : balance es e.1 = total p + total [e] + balance later e.1 := by
        rw [← hes, balance_append, balance, hall, total_append]
      have hbound := hbalance e.1
      omega
    · have hone : total [e] = -1 := by
        simp [total, hend]
      omega

/-- One pass over the sorted events finds the largest number of intervals that share a
point. -/
theorem peak_isGreatest {l : List (τ × τ)} (hl : ∀ i ∈ l, i.1 < i.2) (hne : l ≠ [])
    (hsorted : es.Pairwise Before) (hperm : es.Perm (events l)) :
    IsGreatest (Set.range fun d => (covering l d : ℤ)) (es.foldl step (0, 0)).2 := by
  have hbalance : ∀ d, balance es d = covering l d := fun d =>
    (balance_perm hperm).trans (balance_events hl)
  have hlower : ∀ d, (covering l d : ℤ) ≤ (es.foldl step (0, 0)).2 := by
    intro d
    have hle := (le_peak hsorted (le_refl 0) d).1
    rwa [zero_add, hbalance] at hle
  obtain ⟨i, rest, hcons⟩ := List.exists_cons_of_ne_nil hne
  have hbounded : BddAbove (Set.range (covering l)) := by
    refine ⟨l.length, ?_⟩
    rintro n ⟨d, rfl⟩
    exact List.countP_le_length
  have hsome : (Set.range (covering l)).Nonempty := ⟨covering l i.1, i.1, rfl⟩
  obtain ⟨d₀, hd₀⟩ := Nat.sSup_mem hsome hbounded
  have hmost : ∀ d, covering l d ≤ covering l d₀ := by
    intro d
    rw [hd₀]
    exact le_csSup hbounded ⟨d, rfl⟩
  have hdelta : ∀ e ∈ es, e.2 = 1 ∨ e.2 = -1 := by
    intro e he
    obtain ⟨j, -, hj⟩ := List.mem_flatMap.mp (hperm.mem_iff.mp he)
    simp only [List.mem_cons, List.not_mem_nil, or_false] at hj
    rcases hj with rfl | rfl
    · exact .inl rfl
    · exact .inr rfl
  have hupper : (es.foldl step (0, 0)).2 ≤ covering l d₀ := by
    refine peak_le_of_prefixes (by omega) fun p hp => ?_
    rw [zero_add]
    refine total_prefix_le hsorted hdelta (by omega) (fun d => ?_) p hp
    rw [hbalance]
    exact_mod_cast hmost d
  refine ⟨⟨d₀, le_antisymm (hlower d₀) hupper⟩, ?_⟩
  rintro n ⟨d, rfl⟩
  exact hlower d

end Peak

end Sweep
