import OpenPms.ChannexRefinement
import OpenPms.TaxLines

/-!
The split of the total of an OTA booking, in decimals as the service computes it. The quotient
has 28 digits and is then rounded down. A total below 10^12 has no more than 14 digits, so
that a quotient below a whole cent is further from it than the digits can take it. The
ingest counts the same prices in cents.
-/
namespace OpenPms.Split

open Decimals OpenPms.Tax

/-- `_nightly_prices_from_total` -/
def nightlyPricesFromTotal (total : ℚ) (nights : List ℤ) : Except Signal (List (ℤ × ℚ)) :=
  match nights.getLast? with
  | none => return []
  | some lastDay => do
    let quotient ← result (total / nights.length)
    let unit ← quantizeBy truncate quotient
    let firstSum ← result (unit * (nights.length - 1))
    let rest ← minus total firstSum
    let lastNight ← quantizeBy halfEven rest
    return nights.dropLast.map (fun night => (night, unit)) ++ [(lastDay, lastNight)]

/-! The rounded quotient -/

section Quotient
variable {t : ℤ} {n : ℕ}

/-- No number of nights brings a quotient closer to the next cent than the digits tell apart. -/
theorem floor_round28 (h0 : 0 ≤ t) (ht : t < 10 ^ 14) (hn : 0 < n) :
    ⌊round28 (t / 100 / n) * 100⌋ = t / n := by
  have hpos : (0 : ℚ) < n := by exact_mod_cast hn
  have hnz : (0 : ℤ) < n := by exact_mod_cast hn
  obtain ⟨k, hk⟩ : ∃ k, k = t / (n : ℤ) := ⟨_, rfl⟩
  have hk0 : 0 ≤ k := hk ▸ Int.ediv_nonneg h0 hnz.le
  have hlow : k * n ≤ t := hk ▸ Int.ediv_mul_le t hnz.ne'
  have hhigh : t < (k + 1) * n := hk ▸ Int.lt_ediv_add_one_mul_self t hnz
  have hkt : k ≤ t := hk ▸ Int.ediv_le_self _ h0
  have hdown : Short ((k : ℚ) / 100) := by
    refine ⟨k, -2, ?_, by norm_num [div_eq_mul_inv]⟩
    rw [abs_of_nonneg hk0]
    omega
  have hup : Short ((((k + 1) * 10 ^ 14 - 1 : ℤ) : ℚ) / 10 ^ 16) := by
    refine ⟨(k + 1) * 10 ^ 14 - 1, -16, ?_, by norm_num [div_eq_mul_inv]⟩
    rw [abs_of_nonneg (by omega)]
    omega
  have hround0 : (k : ℚ) / 100 ≤ round28 (t / 100 / n) := by
    refine le_round28 hdown ?_
    rw [div_div, div_le_div_iff₀ (by norm_num) (by positivity)]
    have hcast : (k : ℚ) * n ≤ t := by exact_mod_cast hlow
    linarith
  have hround : round28 (t / 100 / n) ≤ (((k + 1) * 10 ^ 14 - 1 : ℤ) : ℚ) / 10 ^ 16 := by
    refine round28_le hup ?_
    have hint : t * 10 ^ 14 ≤ ((k + 1) * 10 ^ 14 - 1) * n := by
      by_cases hlarge : 10 ^ 14 < (n : ℤ)
      · -- the total is less than a cent for each night
        have hone : 10 ^ 14 * (n : ℤ) ≤ (k + 1) * 10 ^ 14 * n := by nlinarith
        nlinarith
      · nlinarith
    have hcast : (t : ℚ) * 10 ^ 14 ≤ ((k + 1) * 10 ^ 14 - 1) * n := by exact_mod_cast hint
    rw [div_div, div_le_div_iff₀ (by positivity) (by norm_num)]
    push_cast
    linarith
  rw [← hk]
  refine Int.floor_eq_iff.mpr ⟨by linarith, ?_⟩
  push_cast at hround
  linarith

theorem truncate_round28 (ht : |t| < 10 ^ 14) (hn : 0 < n) :
    truncate (round28 (t / 100 / n) * 100) = t.tdiv n := by
  obtain ⟨hlow, hhigh⟩ := abs_lt.mp ht
  have hnonneg {s : ℤ} (h0 : 0 ≤ s) (hs : s < 10 ^ 14) :
      truncate (round28 (s / 100 / n) * 100) = s.tdiv n := by
    have hround : 0 ≤ round28 ((s : ℚ) / 100 / n) := by
      refine le_round28 short_zero ?_
      have hcast : (0 : ℚ) ≤ s := by exact_mod_cast h0
      positivity
    rw [Int.tdiv_eq_ediv_of_nonneg h0, ← floor_round28 h0 hs hn, truncate, if_pos (by positivity)]
  rcases le_total 0 t with h0 | h0
  · exact hnonneg h0 hhigh
  · have hback := hnonneg (show 0 ≤ -t by omega) (by omega)
    have hneg : ((-t : ℤ) : ℚ) / 100 / n = -(t / 100 / n) := by
      push_cast
      ring
    rw [hneg, round28_neg, neg_mul, truncate_neg, Int.neg_tdiv] at hback
    omega

/-- The first nights together do not take more than the total. -/
theorem tdiv_mul_le (hn : 0 < n) : |t.tdiv n * (n - 1)| ≤ |t| ∧ |t.tdiv n| ≤ |t| := by
  have hnz : (1 : ℤ) ≤ n := by exact_mod_cast hn
  have habs : |t.tdiv n| = |t| / n := by
    rw [Int.abs_eq_natAbs, Int.natAbs_tdiv, Int.abs_eq_natAbs, Int.natAbs_natCast]
    rfl
  have hq0 : 0 ≤ |t| / (n : ℤ) := Int.ediv_nonneg (abs_nonneg t) (by omega)
  have hle : |t| / (n : ℤ) * n ≤ |t| := Int.ediv_mul_le _ (by omega)
  rw [abs_mul, habs, abs_of_nonneg (show (0 : ℤ) ≤ n - 1 by omega)]
  exact ⟨by nlinarith, by nlinarith⟩

end Quotient

/-! The prices -/

section Prices
variable {t : ℤ} {nights : List ℤ}

/-- Every step is exact but the quotient, which is that of whole cents. -/
theorem nightlyPrices_ok (ht : |t| < 10 ^ 14) {lastDay : ℤ} (hlast : nights.getLast? = some lastDay) :
    nightlyPricesFromTotal (t / 100) nights =
      .ok (nights.dropLast.map (fun night => (night, (t.tdiv nights.length / 100 : ℚ))) ++
        [(lastDay, ((t - t.tdiv nights.length * (nights.length - 1) : ℤ) / 100 : ℚ))]) := by
  have hn : 0 < nights.length := by
    cases nights with
    | nil => cases hlast
    | cons d rest => exact Nat.succ_pos _
  obtain ⟨hproduct, hunit⟩ := @tdiv_mul_le t nights.length hn
  obtain ⟨u, hu⟩ : ∃ u, u = t.tdiv nights.length := ⟨_, rfl⟩
  rw [← hu] at hproduct hunit
  have hn1 : (1 : ℚ) ≤ nights.length := by exact_mod_cast hn
  have hsize : |(t : ℚ) / 100 / nights.length| ≤ 10 ^ 40 := by
    have hcast : |(t : ℚ)| ≤ 10 ^ 14 := by exact_mod_cast ht.le
    rw [abs_div, abs_div, abs_of_pos (show (0 : ℚ) < 100 by norm_num),
      abs_of_pos (show (0 : ℚ) < nights.length by linarith)]
    refine (div_le_self (by positivity) hn1).trans ?_
    linarith
  have hquotient : result ((t : ℚ) / 100 / nights.length) =
      .ok (round28 (t / 100 / nights.length)) := result_of_lt hsize
  have hquantized : quantizeBy truncate (round28 (t / 100 / nights.length)) = .ok (u / 100) := by
    unfold quantizeBy
    rw [truncate_round28 ht hn, ← hu, if_neg (by omega)]
  have hwhole (m : ℤ) (hm : |m| ≤ 10 ^ 15) : result ((m : ℚ) / 100) = .ok (m / 100) := by
    refine result_whole ⟨m, rfl⟩ ?_
    have hcast : |(m : ℚ)| ≤ 10 ^ 15 := by exact_mod_cast hm
    rw [abs_div, abs_of_pos (show (0 : ℚ) < 100 by norm_num)]
    linarith
  have hfirst : result ((u : ℚ) / 100 * (nights.length - 1)) =
      .ok ((u * (nights.length - 1) : ℤ) / 100) := by
    rw [← hwhole _ (by omega)]
    congr 1
    push_cast
    ring
  have hrest : minus ((t : ℚ) / 100) ((u * (nights.length - 1) : ℤ) / 100) =
      .ok ((t - u * (nights.length - 1) : ℤ) / 100) := by
    have hle : |t - u * (nights.length - 1)| ≤ 10 ^ 15 := by
      have htriangle := abs_sub t (u * (nights.length - 1))
      omega
    rw [← hwhole _ hle, minus]
    congr 1
    push_cast
    ring
  have hlastNight : quantizeBy halfEven ((t - u * (nights.length - 1) : ℤ) / 100) =
      .ok ((t - u * (nights.length - 1) : ℤ) / 100) := by
    have hle : |t - u * (nights.length - 1)| < 10 ^ 28 := by
      have htriangle := abs_sub t (u * (nights.length - 1))
      omega
    unfold quantizeBy
    rw [div_mul_cancel₀ _ (by norm_num), halfEven_intCast, if_neg (not_le.mpr hle)]
  unfold nightlyPricesFromTotal
  rw [hlast, ← hu]
  exact Except.bind_eq_ok.mpr ⟨_, hquotient,
    Except.bind_eq_ok.mpr ⟨_, hquantized, Except.bind_eq_ok.mpr
    ⟨_, hfirst, Except.bind_eq_ok.mpr ⟨_, hrest, Except.bind_eq_ok.mpr ⟨_, hlastNight, rfl⟩⟩⟩⟩⟩

theorem sum_prices (unit : ℚ) (days : List ℤ) :
    ((days.map fun night => (night, unit)).map (·.2)).sum = unit * days.length := by
  rw [List.map_map, Function.comp_def, List.map_const', List.sum_replicate, nsmul_eq_mul, mul_comm]

/-- No cent of the total is lost. All nights but the last cost the same, and the last one
takes what is left, less than a cent for each night. -/
theorem nightlyPrices_split {total : ℚ} (hcents : Whole total) (htotal : |total| < 10 ^ 12)
    (hnights : nights ≠ []) :
    ∃ prices, nightlyPricesFromTotal total nights = .ok prices ∧
      prices.map (·.1) = nights ∧ (∀ p ∈ prices, Whole p.2) ∧ (prices.map (·.2)).sum = total ∧
      ∃ unit, (∀ p ∈ prices.dropLast, p.2 = unit) ∧
        (0 ≤ total → (∀ p ∈ prices, 0 ≤ p.2) ∧
          ∀ p ∈ prices.getLast?, unit ≤ p.2 ∧ p.2 ≤ unit + (nights.length - 1) / 100) := by
  obtain ⟨t, rfl⟩ := hcents
  have ht : |t| < 10 ^ 14 := by
    rw [abs_div, abs_of_pos (show (0 : ℚ) < 100 by norm_num), div_lt_iff₀ (by norm_num)] at htotal
    have hcast : |(t : ℚ)| < 10 ^ 14 := by linarith
    exact_mod_cast hcast
  obtain ⟨lastDay, hlast⟩ : ∃ d, nights.getLast? = some d :=
    ⟨_, List.getLast?_eq_some_getLast hnights⟩
  have hn : 0 < nights.length := List.length_pos_of_ne_nil hnights
  obtain ⟨u, hu⟩ : ∃ u, u = t.tdiv nights.length := ⟨_, rfl⟩
  have hok := nightlyPrices_ok ht hlast
  rw [← hu] at hok
  refine ⟨_, hok, ?_, ?_, ?_, u / 100, ?_, ?_⟩
  · have hdecomp : nights.dropLast ++ [lastDay] = nights :=
      List.dropLast_append_getLast? lastDay hlast
    rw [List.map_append, List.map_map, Function.comp_def, List.map_id']
    exact hdecomp
  · intro p hp
    rcases List.mem_append.mp hp with hfirst | hrest
    · obtain ⟨night, -, rfl⟩ := List.mem_map.mp hfirst
      exact ⟨u, rfl⟩
    · rw [List.mem_singleton.mp hrest]
      exact ⟨_, rfl⟩
  · have hlen : ((nights.dropLast.length : ℕ) : ℚ) = nights.length - 1 := by
      rw [List.length_dropLast, Nat.cast_sub hn, Nat.cast_one]
    rw [List.map_append, List.sum_append, sum_prices, hlen, List.map_singleton,
      List.sum_singleton]
    push_cast
    ring
  · intro p hp
    rw [List.dropLast_concat] at hp
    obtain ⟨night, -, rfl⟩ := List.mem_map.mp hp
    rfl
  · intro h0
    have ht0 : 0 ≤ t := by
      have hcast : (0 : ℚ) ≤ t := by linarith
      exact_mod_cast hcast
    have hnz : (0 : ℤ) < nights.length := by exact_mod_cast hn
    have hquot : u = t / nights.length := hu.trans (Int.tdiv_eq_ediv_of_nonneg ht0)
    have hu0 : 0 ≤ u := hquot ▸ Int.ediv_nonneg ht0 hnz.le
    have hlow : u * nights.length ≤ t := hquot ▸ Int.ediv_mul_le t hnz.ne'
    have hhigh : t < (u + 1) * nights.length := hquot ▸ Int.lt_ediv_add_one_mul_self t hnz
    have hrest : u ≤ t - u * (nights.length - 1) ∧
        t - u * (nights.length - 1) ≤ u + (nights.length - 1) :=
      ⟨by linarith, by linarith⟩
    have hu0' : (0 : ℚ) ≤ u := by exact_mod_cast hu0
    have hrestLow : (u : ℚ) ≤ ((t - u * (nights.length - 1) : ℤ) : ℚ) := by
      exact_mod_cast hrest.1
    have hrestHigh : ((t - u * (nights.length - 1) : ℤ) : ℚ) ≤ u + (nights.length - 1) := by
      exact_mod_cast hrest.2
    refine ⟨?_, ?_⟩
    · intro p hp
      rcases List.mem_append.mp hp with hfirst | hlastNight
      · obtain ⟨night, -, rfl⟩ := List.mem_map.mp hfirst
        exact div_nonneg hu0' (by norm_num)
      · rw [List.mem_singleton.mp hlastNight]
        exact div_nonneg (hu0'.trans hrestLow) (by norm_num)
    · intro p hp
      rw [List.getLast?_concat] at hp
      obtain rfl := Option.some.inj hp
      refine ⟨div_le_div_of_nonneg_right hrestLow (by norm_num), ?_⟩
      rw [← add_div]
      exact div_le_div_of_nonneg_right hrestHigh (by norm_num)

set_option maxRecDepth 100000 in
/-- 100.00 over three nights. -/
theorem nightlyPrices_split_three : ∃ prices, nightlyPricesFromTotal 100 [1, 2, 3] = .ok prices ∧
      prices.map (·.1) = [1, 2, 3] ∧ (∀ p ∈ prices, Whole p.2) ∧ (prices.map (·.2)).sum = 100 ∧
      ∃ unit, (∀ p ∈ prices.dropLast, p.2 = unit) ∧
        ((0 : ℚ) ≤ 100 → (∀ p ∈ prices, 0 ≤ p.2) ∧
          ∀ p ∈ prices.getLast?, unit ≤ p.2 ∧
            p.2 ≤ unit + (([1, 2, 3] : List ℤ).length - 1) / 100) :=
  nightlyPrices_split ⟨10000, by norm_num⟩ (by norm_num) (by simp)

set_option maxRecDepth 100000 in
example : nightlyPricesFromTotal 100 [1, 2, 3] =
    .ok [(1, 3333 / 100), (2, 3333 / 100), (3, 3334 / 100)] := by decide +kernel

end Prices

end OpenPms.Split
