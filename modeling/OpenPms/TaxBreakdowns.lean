import OpenPms.TaxReceipts

/-!
The net, the tax and the gross of a property's own rate. Each is rounded to cents by itself,
and the tax is computed with 28 digits before. Adding and taking away cents is exact, so
that only the error of the tax counts: with it the net grows with the gross, and adding the
tax again gives the gross but for a cent, as long as the digits are fine enough.
-/
namespace OpenPms.Tax

open Decimals

/-- The tax that a gross amount includes. -/
def taxIncluded (gross rate : ℚ) : ℚ :=
  cents (round28 (round28 (gross * rate) / round28 (1 + rate))) / 100

/-- The breakdown of so many cents. -/
def breakdown (config : TaxConfig) (n : ℤ) : TaxBreakdown :=
  let base : ℚ := n / 100
  if config.taxMode = .off ∨ config.taxRate = 0 then ⟨0, base, base⟩
  else if config.taxMode = .inclusive then
    let tax := taxIncluded base config.taxRate
    ⟨tax, base, base - tax⟩
  else
    let tax := taxAdded base config.taxRate
    ⟨tax, base + tax, base⟩

section Amounts
variable {gross rate : ℚ} {b : TaxBreakdown}

theorem divisor_near (h0 : 0 ≤ rate) (h1 : rate ≤ 1) :
    |round28 (1 + rate) - (1 + rate)| ≤ 1 / (2 * 10 ^ 27) := by
  have hlt : |1 + rate| ≤ 10 ^ (1 : ℤ) := by
    rw [abs_of_nonneg (by linarith)]
    norm_num
    linarith
  have herror := round28_near hlt
  norm_num at herror ⊢
  linarith

/-- The product and the quotient lie between zero and the gross amount. -/
theorem included_bounds (hr : 0 ≤ rate ∧ rate ≤ 1) (hg : Whole gross) (h0 : 0 ≤ gross)
    (hlt : gross < 10 ^ 26) :
    (0 ≤ round28 (gross * rate) ∧ round28 (gross * rate) ≤ gross) ∧
      0 ≤ round28 (gross * rate) / round28 (1 + rate) ∧
      round28 (gross * rate) / round28 (1 + rate) ≤ gross := by
  have hshort : Short gross := hg.short (by rw [abs_of_nonneg h0]; exact hlt.le)
  have hproduct0 : 0 ≤ round28 (gross * rate) := le_round28 short_zero (mul_nonneg h0 hr.1)
  have hproduct : round28 (gross * rate) ≤ gross :=
    round28_le hshort (mul_le_of_le_one_right h0 hr.2)
  obtain ⟨hone, -⟩ := divisor_bounds hr
  exact ⟨⟨hproduct0, hproduct⟩, div_nonneg hproduct0 (by linarith),
    (div_le_self hproduct0 hone).trans hproduct⟩

theorem taxIncluded_bounds (hr : 0 ≤ rate ∧ rate ≤ 1) (hg : Whole gross) (h0 : 0 ≤ gross)
    (hlt : gross < 10 ^ 26) : 0 ≤ taxIncluded gross rate ∧ taxIncluded gross rate ≤ gross := by
  have hshort : Short gross := hg.short (by rw [abs_of_nonneg h0]; exact hlt.le)
  obtain ⟨-, hlow, hhigh⟩ := included_bounds hr hg h0 hlt
  exact ⟨le_cents whole_zero (le_round28 short_zero hlow), cents_le hg (round28_le hshort hhigh)⟩

end Amounts

/-! When a breakdown is returned -/

section Returned
variable {amount rate : ℚ} {mode : TaxMode} {b : TaxBreakdown}

theorem cents_nonneg (h : 0 ≤ amount) : 0 ≤ cents amount :=
  le_halfUp (by push_cast; linarith)

theorem quantize_iff (h : 0 ≤ amount) {y : ℚ} : (Decimal.finite amount).quantize = .ok y ↔
    (cents amount / 100 : ℚ) < 10 ^ 26 ∧ y = cents amount / 100 := by
  rw [Decimal.quantize_ok, abs_of_nonneg (cents_nonneg h)]
  refine and_congr_left fun _ => ?_
  rw [div_lt_iff₀ (by norm_num)]
  norm_num
  exact_mod_cast Iff.rfl

theorem included_returns (hrate : rate ≠ 0) (hr : 0 ≤ rate ∧ rate ≤ 1) (ha : 0 ≤ amount)
    (hlt : (cents amount / 100 : ℚ) < 10 ^ 26) :
    calculatePropertyTax amount ⟨.inclusive, rate⟩ =
      .ok (breakdown ⟨.inclusive, rate⟩ (cents amount)) := by
  obtain ⟨gross, hgross⟩ : ∃ g : ℚ, g = cents amount / 100 := ⟨_, rfl⟩
  have hwhole : Whole gross := hgross ▸ whole_cents _
  have h0 : 0 ≤ gross := by
    have hcents : (0 : ℚ) ≤ cents amount := by exact_mod_cast cents_nonneg ha
    rw [hgross]
    positivity
  rw [← hgross] at hlt
  obtain ⟨⟨hproduct0, hproduct⟩, hquot0, hquot⟩ := included_bounds hr hwhole h0 hlt
  obtain ⟨htax0, htax⟩ := taxIncluded_bounds hr hwhole h0 hlt
  obtain ⟨hone, htwo⟩ := divisor_bounds hr
  have hshort : Short gross := hwhole.short (by rw [abs_of_nonneg h0]; exact hlt.le)
  have hmul : result (gross * rate) = .ok (round28 (gross * rate)) :=
    result_of_lt (abs_le.mpr ⟨by nlinarith [mul_nonneg h0 hr.1],
      (mul_le_of_le_one_right h0 hr.2).trans (by linarith)⟩)
  have hadd : plus 1 rate = .ok (round28 (1 + rate)) :=
    result_of_lt (abs_le.mpr ⟨by linarith [hr.1], by linarith [hr.2]⟩)
  have hdiv : Decimal.div (.finite (round28 (gross * rate))) (.finite (round28 (1 + rate))) =
      .ok (.finite (round28 (round28 (gross * rate) / round28 (1 + rate)))) := by
    rw [Decimal.div_finite, if_neg (by linarith),
      result_of_lt (abs_le.mpr ⟨by linarith, by linarith⟩)]
    rfl
  have hquantized := quantize_between hwhole hlt (le_round28 short_zero hquot0)
    (round28_le hshort hquot)
  have hwholeTax : Whole (taxIncluded gross rate) := whole_cents _
  obtain ⟨hminus, hnet⟩ := minus_whole hwhole hwholeTax
    (abs_lt.mpr ⟨by linarith, by linarith⟩)
  unfold calculatePropertyTax breakdown
  rw [if_neg (by simpa using hrate), if_pos rfl, if_neg (by simpa using hrate), if_pos rfl,
    ← hgross]
  exact Except.bind_eq_ok.mpr ⟨_, (quantize_iff ha).mpr ⟨by rwa [← hgross], hgross⟩,
    Except.bind_eq_ok.mpr ⟨_, hmul, Except.bind_eq_ok.mpr ⟨_, hadd, Except.bind_eq_ok.mpr ⟨_, hdiv,
      Except.bind_eq_ok.mpr ⟨_, hquantized, Except.bind_eq_ok.mpr ⟨_, hminus, Except.bind_eq_ok.mpr
        ⟨_, hnet, rfl⟩⟩⟩⟩⟩⟩⟩

theorem exclusive_returns (hrate : rate ≠ 0) (hr : 0 ≤ rate ∧ rate ≤ 1) (ha : 0 ≤ amount)
    (hlt : (cents amount / 100 : ℚ) + taxAdded (cents amount / 100) rate < 10 ^ 26) :
    calculatePropertyTax amount ⟨.exclusive, rate⟩ =
      .ok (breakdown ⟨.exclusive, rate⟩ (cents amount)) := by
  obtain ⟨net, hnet⟩ : ∃ x : ℚ, x = cents amount / 100 := ⟨_, rfl⟩
  have hwhole : Whole net := hnet ▸ whole_cents _
  have h0 : 0 ≤ net := by
    have hcents : (0 : ℚ) ≤ cents amount := by exact_mod_cast cents_nonneg ha
    rw [hnet]
    positivity
  have htax0 := taxAdded_nonneg hr.1 h0
  rw [← hnet] at hlt
  have hsmall : net < 10 ^ 26 := by linarith
  have hshort : Short net := hwhole.short (by rw [abs_of_nonneg h0]; exact hsmall.le)
  have hmul0 : 0 ≤ net * rate := mul_nonneg h0 hr.1
  have hmul : net * rate ≤ net := mul_le_of_le_one_right h0 hr.2
  have hproduct : result (net * rate) = .ok (round28 (net * rate)) :=
    result_of_lt (abs_le.mpr ⟨by linarith, by linarith⟩)
  have hquantized := quantize_between hwhole hsmall (le_round28 short_zero hmul0)
    (round28_le hshort hmul)
  have hwholeTax : Whole (taxAdded net rate) := whole_cents _
  have habs : |net + taxAdded net rate| < 10 ^ 26 := by
    rw [abs_of_nonneg (by linarith)]
    exact hlt
  have hplus : plus net (taxAdded net rate) = .ok (net + taxAdded net rate) :=
    result_whole (hwhole.add hwholeTax) habs.le
  have hgross := Decimal.quantize_whole (hwhole.add hwholeTax) habs
  unfold calculatePropertyTax breakdown
  rw [if_neg (by simpa using hrate), if_neg (by simp), if_neg (by simpa using hrate),
    if_neg (by simp), ← hnet]
  exact Except.bind_eq_ok.mpr ⟨_, (quantize_iff ha).mpr ⟨by rwa [← hnet], hnet⟩,
    Except.bind_eq_ok.mpr ⟨_, hproduct, Except.bind_eq_ok.mpr ⟨_, hquantized, Except.bind_eq_ok.mpr
      ⟨_, hplus, Except.bind_eq_ok.mpr ⟨_, hgross, rfl⟩⟩⟩⟩⟩

/-- A breakdown is returned when its gross amount has no more than 26 digits before the point,
and the digits are then enough for all of it. -/
theorem calculatePropertyTax_ok (hr : 0 ≤ rate ∧ rate ≤ 1) (ha : 0 ≤ amount) :
    calculatePropertyTax amount ⟨mode, rate⟩ = .ok b ↔
      (breakdown ⟨mode, rate⟩ (cents amount)).grossTotal < 10 ^ 26 ∧
        b = breakdown ⟨mode, rate⟩ (cents amount) := by
  by_cases hoff : mode = .off ∨ rate = 0
  · unfold calculatePropertyTax breakdown
    rw [if_pos hoff, if_pos hoff]
    constructor
    · intro h
      obtain ⟨base, hbase, h⟩ := Except.bind_eq_ok.mp h
      obtain rfl := Except.ok.inj h
      obtain ⟨hlt, rfl⟩ := (quantize_iff ha).mp hbase
      exact ⟨hlt, rfl⟩
    · rintro ⟨hlt, rfl⟩
      exact Except.bind_eq_ok.mpr ⟨_, (quantize_iff ha).mpr ⟨hlt, rfl⟩, rfl⟩
  obtain ⟨hmode, hrate⟩ := not_or.mp hoff
  have hcents : (0 : ℚ) ≤ cents amount := by exact_mod_cast cents_nonneg ha
  cases mode with
  | off => exact absurd rfl hmode
  | inclusive =>
    constructor
    · intro h
      have hlt : (cents amount / 100 : ℚ) < 10 ^ 26 := by
        unfold calculatePropertyTax at h
        rw [if_neg hoff, if_pos rfl] at h
        obtain ⟨gross, hgross, -⟩ := Except.bind_eq_ok.mp h
        exact ((quantize_iff ha).mp hgross).1
      refine ⟨?_, Except.ok.inj (h.symm.trans (included_returns hrate hr ha hlt))⟩
      unfold breakdown
      rw [if_neg hoff, if_pos rfl]
      exact hlt
    · rintro ⟨hlt, rfl⟩
      refine included_returns hrate hr ha ?_
      unfold breakdown at hlt
      rwa [if_neg hoff, if_pos rfl] at hlt
  | exclusive =>
    have hgross : (breakdown ⟨.exclusive, rate⟩ (cents amount)).grossTotal =
        cents amount / 100 + taxAdded (cents amount / 100) rate := by
      unfold breakdown
      rw [if_neg hoff, if_neg (by simp)]
    rw [hgross]
    constructor
    · intro h
      refine (and_iff_left_of_imp fun hlt =>
        Except.ok.inj (h.symm.trans (exclusive_returns hrate hr ha hlt))).mpr ?_
      by_contra hlarge
      -- a gross amount of more digits is refused by the last quantize
      unfold calculatePropertyTax at h
      rw [if_neg hoff, if_neg (by simp)] at h
      obtain ⟨net, hnet, h⟩ := Except.bind_eq_ok.mp h
      obtain ⟨product, hproduct, h⟩ := Except.bind_eq_ok.mp h
      obtain ⟨tax, htax, h⟩ := Except.bind_eq_ok.mp h
      obtain ⟨gross, hplus, h⟩ := Except.bind_eq_ok.mp h
      obtain ⟨gross', hquant, h⟩ := Except.bind_eq_ok.mp h
      obtain ⟨-, rfl⟩ := (quantize_iff ha).mp hnet
      obtain rfl := result_eq hproduct
      obtain ⟨-, rfl⟩ := Decimal.quantize_ok.mp htax
      have hround := large_of_result hplus (not_lt.mp hlarge)
      obtain ⟨hsmall, -⟩ := Decimal.quantize_ok.mp hquant
      have hcap : (10 ^ 28 : ℤ) ≤ cents gross := le_halfUp (by push_cast; linarith)
      rw [abs_of_nonneg (by omega)] at hsmall
      omega
    · rintro ⟨hlt, rfl⟩
      exact exclusive_returns hrate hr ha hlt

end Returned

/-! The error of the tax -/

section Errors
variable {x y rate : ℚ}

/-- The cents of a quotient, by the product of the quotient and the divisor. -/
theorem taxIncluded_near (hr : 0 ≤ rate ∧ rate ≤ 1) (hx : Whole x) (h0 : 0 ≤ x)
    (hlt : x < 10 ^ 26) :
    100 * (round28 (x * rate) / round28 (1 + rate)) - 1 / 2 ≤ 100 * taxIncluded x rate ∧
      100 * taxIncluded x rate ≤ 100 * (round28 (x * rate) / round28 (1 + rate)) + 11 / 20 := by
  obtain ⟨-, hquot0, hquot⟩ := included_bounds hr hx h0 hlt
  obtain ⟨hlow, hhigh⟩ := cents_round28 hquot0 (hquot.trans_lt hlt)
  unfold taxIncluded
  rw [mul_div_cancel₀ _ (by norm_num)]
  exact ⟨hlow, hhigh⟩

/-- How far two products are apart: with places after the cents little more than the tax
of the difference, and without them in whole cents no more than the difference. -/
theorem product_step (hr : 0 ≤ rate ∧ rate ≤ 1) (hx : Whole x) (hy : Whole y) (h0 : 0 ≤ x)
    (h : x ≤ y) (hlt : y < 10 ^ 26) :
    100 * (round28 (y * rate) - round28 (x * rate)) ≤ 100 * (y - x) * rate + 11 / 20 ∨
      10 ^ 25 ≤ x * rate ∧ 100 * (round28 (y * rate) - round28 (x * rate)) ≤ 100 * (y - x) := by
  have hx0 : 0 ≤ x * rate := mul_nonneg h0 hr.1
  have hxy : x * rate ≤ y * rate := mul_le_mul_of_nonneg_right h hr.1
  have hylt : y * rate ≤ 10 ^ 26 := (mul_le_of_le_one_right (h0.trans h) hr.2).trans hlt.le
  have herrorY := abs_le.mp (round28_near (x := y * rate) (k := 26) (by
    rw [abs_of_nonneg (hx0.trans hxy)]
    exact_mod_cast hylt))
  norm_num at herrorY
  by_cases hlarge : 10 ^ 25 ≤ x * rate
  · have herrorX := abs_le.mp (round28_near (x := x * rate) (k := 26) (by
      rw [abs_of_nonneg hx0]
      exact_mod_cast hxy.trans hylt))
    norm_num at herrorX
    refine .inr ⟨hlarge, ?_⟩
    rcases hr.2.eq_or_lt with rfl | hrate
    · have hshortX : Short x := hx.short (by rw [abs_of_nonneg h0]; linarith)
      have hshortY : Short y := hy.short (by rw [abs_of_nonneg (h0.trans h)]; exact hlt.le)
      rw [mul_one, mul_one, round28_eq hshortX, round28_eq hshortY]
    -- both are whole cents and less than one cent more apart
    obtain ⟨a, ha⟩ := whole_round28 hlarge
    obtain ⟨b, hb⟩ := whole_round28 (hlarge.trans hxy)
    rcases h.eq_or_lt with rfl | hne
    · rw [sub_self, sub_self]
    obtain ⟨m, rfl⟩ := hx
    obtain ⟨n, rfl⟩ := hy
    rw [ha] at herrorX
    rw [hb] at herrorY
    rw [ha, hb]
    have hstrict : ((n : ℚ) / 100 - m / 100) * rate < (n / 100 - m / 100) * 1 :=
      mul_lt_mul_of_pos_left hrate (by linarith)
    have hcast : ((b - a : ℤ) : ℚ) < ((n - m + 1 : ℤ) : ℚ) := by
      push_cast
      linarith
    have hint : b - a ≤ n - m := by
      have hlt' : b - a < n - m + 1 := by exact_mod_cast hcast
      omega
    have hle : ((b - a : ℤ) : ℚ) ≤ ((n - m : ℤ) : ℚ) := by exact_mod_cast hint
    push_cast at hle
    linarith
  · have herrorX := abs_le.mp (round28_near (x := x * rate) (k := 25) (by
      rw [abs_of_nonneg hx0]
      exact_mod_cast (not_le.mp hlarge).le))
    norm_num at herrorX
    exact .inl (by linarith)

/-- The tax grows by no more than the gross amount. -/
theorem taxIncluded_step (hr : 0 ≤ rate ∧ rate ≤ 1) (hx : Whole x) (hy : Whole y) (h0 : 0 ≤ x)
    (h : x ≤ y) (hlt : y < 10 ^ 26) : taxIncluded y rate - taxIncluded x rate ≤ y - x := by
  rcases h.eq_or_lt with rfl | hne
  · rw [sub_self, sub_self]
  obtain ⟨hone, htwo⟩ := divisor_bounds hr
  have hdivisor := abs_le.mp (divisor_near hr.1 hr.2)
  have hlow := (taxIncluded_near hr hx h0 (h.trans_lt hlt)).1
  have hhigh := (taxIncluded_near hr hy (h0.trans h) hlt).2
  have hproduct := product_step hr hx hy h0 h hlt
  have hsmall : x < 10 ^ 26 := h.trans_lt hlt
  obtain ⟨m, rfl⟩ := hx
  obtain ⟨n, rfl⟩ := hy
  obtain ⟨k, hk⟩ : ∃ k : ℚ, k = n - m := ⟨_, rfl⟩
  have hk1 : 1 ≤ k := by
    have hcast : (m : ℚ) < n := by linarith
    have hint : m + 1 ≤ n := by exact_mod_cast hcast
    have hstep : (m + 1 : ℚ) ≤ n := by exact_mod_cast hint
    linarith
  have hdiff : 100 * ((n : ℚ) / 100 - m / 100) = k := by
    rw [hk]
    ring
  rw [hdiff] at hproduct
  -- it is enough to be less than one cent more apart
  suffices hstrict : 100 * (taxIncluded (n / 100) rate - taxIncluded (m / 100) rate) < k + 1 by
    unfold taxIncluded at hstrict ⊢
    generalize cents (round28 (round28 (n / 100 * rate) / round28 (1 + rate))) = b at hstrict ⊢
    generalize cents (round28 (round28 (m / 100 * rate) / round28 (1 + rate))) = a at hstrict ⊢
    have hcast : ((b - a : ℤ) : ℚ) < ((n - m + 1 : ℤ) : ℚ) := by
      push_cast
      linarith
    have hint : b - a ≤ n - m := by
      have hlt' : b - a < n - m + 1 := by exact_mod_cast hcast
      omega
    have hle : ((b - a : ℤ) : ℚ) ≤ ((n - m : ℤ) : ℚ) := by exact_mod_cast hint
    push_cast at hle
    linarith
  have hquot : 100 * (round28 (n / 100 * rate) / round28 (1 + rate) -
      round28 (m / 100 * rate) / round28 (1 + rate)) < k - 1 / 20 := by
    rw [← sub_div, ← mul_div_assoc, div_lt_iff₀ (by linarith)]
    rcases hproduct with hfine | ⟨hlarge, hcoarse⟩
    · have hbelow : (k - 1 / 20) * (1 + rate - 1 / (2 * 10 ^ 27)) ≤
          (k - 1 / 20) * round28 (1 + rate) :=
        mul_le_mul_of_nonneg_left (by linarith) (by linarith)
      refine lt_of_le_of_lt hfine (lt_of_lt_of_le ?_ hbelow)
      nlinarith [hr.1, hr.2]
    · have hrate : 1 / 10 ≤ rate := by
        by_contra hlow
        have hsize : (m : ℚ) / 100 * rate ≤ 10 ^ 26 * (1 / 10) :=
          mul_le_mul hsmall.le (not_le.mp hlow).le hr.1 (by norm_num)
        have hstrict : (m : ℚ) / 100 * rate < 10 ^ 26 * (1 / 10) :=
          mul_lt_mul'' hsmall (not_le.mp hlow) h0 hr.1
        linarith
      have hbelow : (k - 1 / 20) * (109 / 100) ≤ (k - 1 / 20) * round28 (1 + rate) :=
        mul_le_mul_of_nonneg_left (by linarith) (by linarith)
      linarith
  linarith

/-- The net amount with its tax is the gross amount, but for a cent. -/
theorem gross_again (hr : 0 ≤ rate ∧ rate ≤ 1) (hx : Whole x) (h0 : 0 ≤ x) (hle : x ≤ 10 ^ 25) :
    |taxAdded (x - taxIncluded x rate) rate - taxIncluded x rate| ≤ 1 / 100 := by
  have hlt : x < 10 ^ 26 := hle.trans_lt (by norm_num)
  obtain ⟨hone, htwo⟩ := divisor_bounds hr
  have hdivisor := abs_le.mp (divisor_near hr.1 hr.2)
  obtain ⟨hlow, hhigh⟩ := taxIncluded_near hr hx h0 hlt
  obtain ⟨htax0, htax⟩ := taxIncluded_bounds hr hx h0 hlt
  have hproduct0 : 0 ≤ x * rate := mul_nonneg h0 hr.1
  have hproduct : x * rate ≤ x := mul_le_of_le_one_right h0 hr.2
  have herror := abs_le.mp (round28_near (x := x * rate) (k := 25) (by
    rw [abs_of_nonneg hproduct0]
    exact_mod_cast hproduct.trans hle))
  norm_num at herror
  obtain ⟨t, ht⟩ : ∃ t, t = taxIncluded x rate := ⟨_, rfl⟩
  have hwhole : Whole t := ht ▸ whole_cents _
  rw [← ht] at hlow hhigh htax0 htax ⊢
  -- the product of the tax and the divisor, to the exact tax of the gross amount
  have hscaled : 100 * (x * rate) - 21 / 20 ≤ 100 * t * round28 (1 + rate) ∧
      100 * t * round28 (1 + rate) ≤ 100 * (x * rate) + 23 / 20 := by
    have hcancel : 100 * (round28 (x * rate) / round28 (1 + rate)) * round28 (1 + rate) =
        100 * round28 (x * rate) := by
      rw [mul_assoc, div_mul_cancel₀ _ (by linarith)]
    have hleft := mul_le_mul_of_nonneg_right hlow (show 0 ≤ round28 (1 + rate) by linarith)
    have hright := mul_le_mul_of_nonneg_right hhigh (show 0 ≤ round28 (1 + rate) by linarith)
    rw [sub_mul, hcancel] at hleft
    rw [add_mul, hcancel] at hright
    exact ⟨by linarith, by linarith⟩
  have hhalf : t ≤ 10 ^ 25 / 2 + 1 := by
    have hlarge : t * (1 + rate) ≤ (10 ^ 25 / 2 + 1) * (1 + rate) := by
      have hsmall : t * (1 + rate - 1 / (2 * 10 ^ 27)) ≤ t * round28 (1 + rate) :=
        mul_le_mul_of_nonneg_left (by linarith) htax0
      have hrate : x * rate ≤ 10 ^ 25 * rate := mul_le_mul_of_nonneg_right hle hr.1
      nlinarith [hr.1, hr.2]
    exact le_of_mul_le_mul_right hlarge (by linarith)
  have hdeviation : |100 * t * round28 (1 + rate) - 100 * t * (1 + rate)| ≤ 3 / 10 := by
    rw [← mul_sub, abs_mul, abs_of_nonneg (by linarith)]
    refine (mul_le_mul_of_nonneg_left (divisor_near hr.1 hr.2) (by linarith)).trans ?_
    linarith
  obtain ⟨hdown, hup⟩ := abs_le.mp hdeviation
  have hnet0 : 0 ≤ (x - t) * rate := mul_nonneg (by linarith) hr.1
  have hnet : (x - t) * rate < 10 ^ 26 :=
    lt_of_le_of_lt (mul_le_of_le_one_right (by linarith) hr.2) (by linarith)
  obtain ⟨haddLow, haddHigh⟩ := cents_round28 hnet0 hnet
  have hexpand : (x - t) * rate = x * rate - t * rate := sub_mul x t rate
  have hexpand' : 100 * t * (1 + rate) = 100 * t + 100 * (t * rate) := by ring
  unfold taxAdded
  generalize cents (round28 ((x - t) * rate)) = a at *
  obtain ⟨n, rfl⟩ := hwhole
  have hnear : -2 < a - n ∧ a - n < 2 := by
    have hcast : ((-2 : ℤ) : ℚ) < ((a - n : ℤ) : ℚ) ∧ ((a - n : ℤ) : ℚ) < ((2 : ℤ) : ℚ) := by
      push_cast
      exact ⟨by linarith, by linarith⟩
    exact ⟨by exact_mod_cast hcast.1, by exact_mod_cast hcast.2⟩
  have hone' : |a - n| ≤ 1 := abs_le.mpr ⟨by omega, by omega⟩
  have hcast : |((a - n : ℤ) : ℚ)| ≤ 1 := by exact_mod_cast hone'
  rw [← sub_div, abs_div, abs_of_pos (show (0 : ℚ) < 100 by norm_num)]
  push_cast at hcast
  linarith

end Errors

/-! The breakdown of an amount -/

/-- The parts make up the gross amount. -/
structure TaxBreakdown.Balanced (b : TaxBreakdown) : Prop where
  sum : b.netTotal + b.taxAmount = b.grossTotal
  net : 0 ≤ b.netTotal
  tax : 0 ≤ b.taxAmount
  gross : 0 ≤ b.grossTotal

/-- No part is larger than the other's. -/
structure TaxBreakdown.Below (b b' : TaxBreakdown) : Prop where
  net : b.netTotal ≤ b'.netTotal
  tax : b.taxAmount ≤ b'.taxAmount
  gross : b.grossTotal ≤ b'.grossTotal

section Breakdowns
variable {x y rate amount : ℚ} {mode : TaxMode} {m n : ℤ}

theorem taxIncluded_mono (hr : 0 ≤ rate ∧ rate ≤ 1) (h0 : 0 ≤ x) (h : x ≤ y) :
    taxIncluded x rate ≤ taxIncluded y rate := by
  obtain ⟨hone, -⟩ := divisor_bounds hr
  have hproduct : round28 (x * rate) ≤ round28 (y * rate) :=
    round28_mono (mul_nonneg h0 hr.1) (mul_le_mul_of_nonneg_right h hr.1)
  have hproduct0 : 0 ≤ round28 (x * rate) := le_round28 short_zero (mul_nonneg h0 hr.1)
  have hquot := round28_mono (div_nonneg hproduct0 (by linarith))
    (div_le_div_of_nonneg_right hproduct (show 0 ≤ round28 (1 + rate) by linarith))
  have hcents : (cents (round28 (round28 (x * rate) / round28 (1 + rate))) : ℚ) ≤
      cents (round28 (round28 (y * rate) / round28 (1 + rate))) := by
    exact_mod_cast cents_mono hquot
  exact div_le_div_of_nonneg_right hcents (by norm_num)

theorem taxAdded_mono (hr : 0 ≤ rate) (h0 : 0 ≤ x) (h : x ≤ y) :
    taxAdded x rate ≤ taxAdded y rate := by
  have hcents : (cents (round28 (x * rate)) : ℚ) ≤ cents (round28 (y * rate)) := by
    exact_mod_cast cents_mono
      (round28_mono (mul_nonneg h0 hr) (mul_le_mul_of_nonneg_right h hr))
  exact div_le_div_of_nonneg_right hcents (by norm_num)

theorem breakdown_balanced (hr : 0 ≤ rate ∧ rate ≤ 1) (h0 : 0 ≤ n)
    (hlt : (breakdown ⟨mode, rate⟩ n).grossTotal < 10 ^ 26) :
    (breakdown ⟨mode, rate⟩ n).Balanced := by
  have hbase : (0 : ℚ) ≤ n / 100 := div_nonneg (by exact_mod_cast h0) (by norm_num)
  unfold breakdown at hlt ⊢
  split
  · exact ⟨add_zero _, hbase, le_rfl, hbase⟩
  · next hoff =>
    rw [if_neg hoff] at hlt
    split
    · next hinc =>
      rw [if_pos hinc] at hlt
      obtain ⟨htax0, htax⟩ := taxIncluded_bounds hr (whole_cents n) hbase hlt
      exact ⟨sub_add_cancel _ _, sub_nonneg.mpr htax, htax0, hbase⟩
    · have htax0 := taxAdded_nonneg hr.1 hbase
      exact ⟨rfl, hbase, htax0, add_nonneg hbase htax0⟩

theorem breakdown_below (hr : 0 ≤ rate ∧ rate ≤ 1) (h0 : 0 ≤ m) (h : m ≤ n)
    (hlt : (breakdown ⟨mode, rate⟩ n).grossTotal < 10 ^ 26) :
    (breakdown ⟨mode, rate⟩ m).Below (breakdown ⟨mode, rate⟩ n) := by
  have hbase : (0 : ℚ) ≤ m / 100 := div_nonneg (by exact_mod_cast h0) (by norm_num)
  have hle : (m / 100 : ℚ) ≤ n / 100 :=
    div_le_div_of_nonneg_right (by exact_mod_cast h) (by norm_num)
  unfold breakdown at hlt ⊢
  split
  · exact ⟨hle, le_rfl, hle⟩
  · next hoff =>
    rw [if_neg hoff] at hlt
    split
    · next hinc =>
      rw [if_pos hinc] at hlt
      have hstep := taxIncluded_step hr (whole_cents m) (whole_cents n) hbase hle hlt
      refine ⟨?_, taxIncluded_mono hr hbase hle, hle⟩
      change (m / 100 : ℚ) - taxIncluded (m / 100) rate ≤ n / 100 - taxIncluded (n / 100) rate
      linarith
    · have htax := taxAdded_mono hr.1 hbase hle
      exact ⟨hle, htax, add_le_add hle htax⟩

/-- The exclusive tax on the net amount of an inclusive one. -/
theorem gross_returns (hr : 0 ≤ rate ∧ rate ≤ 1) (ha : 0 ≤ amount) (hle : amount ≤ 10 ^ 25) :
    ∃ b c, calculatePropertyTax amount ⟨.inclusive, rate⟩ = .ok b ∧
      calculatePropertyTax b.netTotal ⟨.exclusive, rate⟩ = .ok c ∧
      |c.grossTotal - b.grossTotal| ≤ 1 / 100 := by
  have hn0 := cents_nonneg ha
  have hgross0 : (0 : ℚ) ≤ cents amount / 100 := div_nonneg (by exact_mod_cast hn0) (by norm_num)
  have hgross : (cents amount / 100 : ℚ) ≤ 10 ^ 25 := cents_le ⟨10 ^ 27, by norm_num⟩ hle
  by_cases hzero : rate = 0
  · have hoff (mode : TaxMode) (k : ℤ) : breakdown ⟨mode, rate⟩ k = ⟨0, k / 100, k / 100⟩ :=
      if_pos (.inr hzero)
    have hlt : (cents amount / 100 : ℚ) < 10 ^ 26 := hgross.trans_lt (by norm_num)
    have hnet : (breakdown ⟨.inclusive, rate⟩ (cents amount)).netTotal = cents amount / 100 := by
      rw [hoff]
    have hb : calculatePropertyTax amount ⟨.inclusive, rate⟩ =
        .ok (breakdown ⟨.inclusive, rate⟩ (cents amount)) :=
      (calculatePropertyTax_ok hr ha).mpr ⟨by rw [hoff]; exact hlt, rfl⟩
    have hc : calculatePropertyTax (cents amount / 100) ⟨.exclusive, rate⟩ =
        .ok (breakdown ⟨.exclusive, rate⟩ (cents amount)) :=
      (calculatePropertyTax_ok hr hgross0).mpr
        ⟨by rw [hoff, cents_whole]; exact hlt, by rw [cents_whole]⟩
    refine ⟨_, _, hb, hnet ▸ hc, ?_⟩
    rw [hoff, hoff, sub_self, abs_zero]
    norm_num
  have hinc : breakdown ⟨.inclusive, rate⟩ (cents amount) =
      ⟨taxIncluded (cents amount / 100) rate, cents amount / 100,
        cents amount / 100 - taxIncluded (cents amount / 100) rate⟩ := by
    unfold breakdown
    rw [if_neg (by simpa using hzero), if_pos rfl]
  have hexc (k : ℤ) : breakdown ⟨.exclusive, rate⟩ k =
      ⟨taxAdded (k / 100) rate, k / 100 + taxAdded (k / 100) rate, k / 100⟩ := by
    unfold breakdown
    rw [if_neg (by simpa using hzero), if_neg (by simp)]
  have hlt : (cents amount / 100 : ℚ) < 10 ^ 26 := hgross.trans_lt (by norm_num)
  obtain ⟨htax0, htax⟩ := taxIncluded_bounds hr (whole_cents _) hgross0 hlt
  have hagain := gross_again hr (whole_cents _) hgross0 hgross
  obtain ⟨k, hk⟩ : Whole (cents amount / 100 - taxIncluded (cents amount / 100) rate) :=
    (whole_cents _).sub (whole_cents _)
  have hnet0 : (0 : ℚ) ≤ k / 100 := by
    rw [← hk]
    linarith
  have hbounds := abs_le.mp hagain
  have hnet : (breakdown ⟨.inclusive, rate⟩ (cents amount)).netTotal = k / 100 := by rw [hinc, ← hk]
  have hb : calculatePropertyTax amount ⟨.inclusive, rate⟩ =
      .ok (breakdown ⟨.inclusive, rate⟩ (cents amount)) :=
    (calculatePropertyTax_ok hr ha).mpr ⟨by rw [hinc]; exact hlt, rfl⟩
  have hc : calculatePropertyTax (k / 100) ⟨.exclusive, rate⟩ =
      .ok (breakdown ⟨.exclusive, rate⟩ k) := by
    refine (calculatePropertyTax_ok hr hnet0).mpr ⟨?_, by rw [cents_whole]⟩
    rw [hexc, cents_whole, ← hk]
    linarith
  refine ⟨_, _, hb, hnet ▸ hc, ?_⟩
  have hdiff : (k / 100 : ℚ) + taxAdded (k / 100) rate - cents amount / 100 =
      taxAdded (k / 100) rate - taxIncluded (cents amount / 100) rate := by linarith
  rw [hexc, hinc, hdiff, ← hk]
  exact hagain

end Breakdowns

/-- A breakdown is returned for a gross amount of no more than 26 digits before the point. It
adds up, has no negative part, and grows with the amount; up to 10^25 the exclusive tax on
the net amount gives the gross amount again, but for a cent. -/
theorem property_tax_consistent {rate : ℚ} (h0 : 0 ≤ rate) (h1 : rate ≤ 1) (mode : TaxMode)
    {amount : ℚ} (ha : 0 ≤ amount) :
    ((∃ b, calculatePropertyTax amount ⟨mode, rate⟩ = .ok b) ↔
      (breakdown ⟨mode, rate⟩ (cents amount)).grossTotal < 10 ^ 26) ∧
    (∀ b, calculatePropertyTax amount ⟨mode, rate⟩ = .ok b →
      b.Balanced ∧ ∀ amount' b', amount ≤ amount' →
        calculatePropertyTax amount' ⟨mode, rate⟩ = .ok b' → b.Below b') ∧
    (amount ≤ 10 ^ 25 → ∃ b c, calculatePropertyTax amount ⟨.inclusive, rate⟩ = .ok b ∧
      calculatePropertyTax b.netTotal ⟨.exclusive, rate⟩ = .ok c ∧
      |c.grossTotal - b.grossTotal| ≤ 1 / 100) := by
  have hr : 0 ≤ rate ∧ rate ≤ 1 := ⟨h0, h1⟩
  refine ⟨?_, ?_, gross_returns hr ha⟩
  · constructor
    · rintro ⟨b, hb⟩
      exact ((calculatePropertyTax_ok hr ha).mp hb).1
    · intro hlt
      exact ⟨_, (calculatePropertyTax_ok hr ha).mpr ⟨hlt, rfl⟩⟩
  · intro b hb
    obtain ⟨hlt, rfl⟩ := (calculatePropertyTax_ok hr ha).mp hb
    refine ⟨breakdown_balanced hr (cents_nonneg ha) hlt, ?_⟩
    intro amount' b' hle hb'
    obtain ⟨hlt', rfl⟩ := (calculatePropertyTax_ok hr (ha.trans hle)).mp hb'
    exact breakdown_below hr (cents_nonneg ha) (cents_mono hle) hlt'

/-- Ten per cent of 110.00. -/
theorem property_tax_consistent_tenth :
    ((∃ b, calculatePropertyTax 110 ⟨.inclusive, 1 / 10⟩ = .ok b) ↔
      (breakdown ⟨.inclusive, 1 / 10⟩ (cents 110)).grossTotal < 10 ^ 26) ∧
    (∀ b, calculatePropertyTax 110 ⟨.inclusive, 1 / 10⟩ = .ok b →
      b.Balanced ∧ ∀ amount' b', (110 : ℚ) ≤ amount' →
        calculatePropertyTax amount' ⟨.inclusive, 1 / 10⟩ = .ok b' → b.Below b') ∧
    ((110 : ℚ) ≤ 10 ^ 25 → ∃ b c, calculatePropertyTax 110 ⟨.inclusive, 1 / 10⟩ = .ok b ∧
      calculatePropertyTax b.netTotal ⟨.exclusive, 1 / 10⟩ = .ok c ∧
      |c.grossTotal - b.grossTotal| ≤ 1 / 100) :=
  property_tax_consistent (show (0 : ℚ) ≤ 1 / 10 by norm_num) (by norm_num) .inclusive
    (show (0 : ℚ) ≤ 110 by norm_num)

set_option maxRecDepth 100000 in
/-- 10^26 is refused in every mode. An amount above 10^25 comes back two cents smaller. -/
theorem property_tax_digits :
    (∀ mode, calculatePropertyTax (10 ^ 26) ⟨mode, 1 / 10⟩ = .error .invalidOperation) ∧
    calculatePropertyTax (1445315011675332855522729250 / 100) ⟨.inclusive, 99 / 100⟩ =
      .ok ⟨719026061084713330134423095 / 100, 1445315011675332855522729250 / 100,
        726288950590619525388306155 / 100⟩ ∧
    calculatePropertyTax (726288950590619525388306155 / 100) ⟨.exclusive, 99 / 100⟩ =
      .ok ⟨719026061084713330134423093 / 100, 1445315011675332855522729248 / 100,
        726288950590619525388306155 / 100⟩ :=
  ⟨fun mode => by cases mode <;> decide +kernel, by decide +kernel, by decide +kernel⟩

end OpenPms.Tax
