import OpenPms.TaxPostings

/-!
The tax of a receipt, by the property's own rate. With the tax in the price it is computed
from the gross amount, while the engine rounds what is left without the tax. The two are
the same except where that is half-way between two cents, which both round away from zero.
-/
namespace OpenPms.Tax

open Decimals

structure TaxConfig where
  taxMode : TaxMode
  taxRate : ℚ

structure TaxBreakdown where
  taxAmount : ℚ
  grossTotal : ℚ
  netTotal : ℚ
  deriving DecidableEq

def calculatePropertyTax (amount : ℚ) (config : TaxConfig) : Except Signal TaxBreakdown :=
  if config.taxMode = .off ∨ config.taxRate = 0 then do
    let base ← (Decimal.finite amount).quantize
    return ⟨0, base, base⟩
  else if config.taxMode = .inclusive then do
    let gross ← (Decimal.finite amount).quantize
    let product ← result (gross * config.taxRate)
    let divisor ← plus 1 config.taxRate
    let tax ← Decimal.div (.finite product) (.finite divisor)
    let tax ← tax.quantize
    let net ← minus gross tax
    let net ← (Decimal.finite net).quantize
    return ⟨tax, gross, net⟩
  else do
    let net ← (Decimal.finite amount).quantize
    let product ← result (net * config.taxRate)
    let tax ← (Decimal.finite product).quantize
    let gross ← plus net tax
    let gross ← (Decimal.finite gross).quantize
    return ⟨tax, gross, net⟩

/-! Rounding a quotient -/

/-- A rate of so many places with a gross amount of `n` cents that leave room for the
digits of their quotient. -/
structure Roomy (n : ℤ) (places R : ℕ) : Prop where
  le : R ≤ 10 ^ places
  digits : (|n| + 1) * 10 ^ places ≤ 10 ^ 26

section Rounding
variable {n : ℤ} {places R : ℕ}

theorem Roomy.bounds (h : Roomy n places R) :
    (0 : ℚ) < 10 ^ places ∧ (R : ℚ) ≤ 10 ^ places ∧ (|(n : ℚ)| + 1) * 10 ^ places ≤ 10 ^ 26 :=
  ⟨by positivity, by exact_mod_cast h.le, by exact_mod_cast h.digits⟩

theorem short_places {m : ℤ} (h : |(m : ℚ)| ≤ 10 ^ 28) (e : ℕ) : Short ((m : ℚ) / 10 ^ e) :=
  ⟨m, -e, by exact_mod_cast h, by rw [zpow_neg, zpow_natCast, div_eq_mul_inv]⟩

/-- The 28 digits do not take a quotient to the next half cent. -/
theorem cents_quotient {a : ℤ} (h : Roomy n places R) (h0 : 0 ≤ a)
    (hle : a ≤ n * (10 ^ places + R)) :
    cents (round28 ((a : ℚ) / (10 ^ places + R) / 100)) =
      halfUp ((a : ℚ) / (10 ^ places + R)) := by
  obtain ⟨hM, hR, hdigits⟩ := h.bounds
  have hP : (0 : ℚ) < 10 ^ places + R := by positivity
  have ha0 : (0 : ℚ) ≤ a := by exact_mod_cast h0
  have hx0 : 0 ≤ (a : ℚ) / (10 ^ places + R) := div_nonneg ha0 hP.le
  have hxn : (a : ℚ) / (10 ^ places + R) ≤ n := by
    rw [div_le_iff₀ hP]
    exact_mod_cast hle
  have hn0 : (0 : ℚ) ≤ n := hx0.trans hxn
  rw [abs_of_nonneg hn0] at hdigits
  -- the half cents on either side
  obtain ⟨k, hk⟩ : ∃ k, k = halfUp ((a : ℚ) / (10 ^ places + R)) := ⟨_, rfl⟩
  have hfloor : k = ⌊(a : ℚ) / (10 ^ places + R) + 1 / 2⌋ := by
    rw [hk, halfUp, if_pos hx0]
  have hlow : (k : ℚ) ≤ (a : ℚ) / (10 ^ places + R) + 1 / 2 := hfloor ▸ Int.floor_le _
  have hhigh : (a : ℚ) / (10 ^ places + R) + 1 / 2 < k + 1 := hfloor ▸ Int.lt_floor_add_one _
  have hk0 : (0 : ℚ) ≤ k := by
    have hint : 0 ≤ k := by
      rw [hk]
      exact le_halfUp (by exact_mod_cast hx0)
    exact_mod_cast hint
  have hkn : (k : ℚ) ≤ n := by
    have hint : k ≤ n := hk ▸ halfUp_le hxn
    exact_mod_cast hint
  have hone : (1 : ℚ) ≤ 10 ^ places := one_le_pow₀ (by norm_num)
  have hnbound : (n : ℚ) + 1 ≤ 10 ^ 26 := by nlinarith
  have hshortLow : Short (((5 * (2 * k - 1) : ℤ) : ℚ) / 10 ^ 3) := by
    refine short_places ?_ 3
    push_cast
    exact abs_le.mpr ⟨by linarith, by linarith⟩
  have hshortHigh :
      Short (((25 * ((2 * k + 1) * (2 * 10 ^ places) - 1) : ℤ) : ℚ) / 10 ^ (places + 4)) := by
    refine short_places ?_ _
    push_cast
    have hprod : (k : ℚ) * 10 ^ places ≤ n * 10 ^ places :=
      mul_le_mul_of_nonneg_right hkn hM.le
    have hprod0 : 0 ≤ (k : ℚ) * 10 ^ places := mul_nonneg hk0 hM.le
    exact abs_le.mpr ⟨by nlinarith, by nlinarith⟩
  have hbelow : (a : ℚ) / (10 ^ places + R) / 100 ≤
      ((25 * ((2 * k + 1) * (2 * 10 ^ places) - 1) : ℤ) : ℚ) / 10 ^ (places + 4) := by
    have hlt : (2 * a : ℚ) < (2 * k + 1) * (10 ^ places + R) := by
      have hquot : (a : ℚ) / (10 ^ places + R) < k + 1 / 2 := by linarith
      rw [div_lt_iff₀ hP] at hquot
      linarith
    have hint : 2 * a + 1 ≤ (2 * k + 1) * (10 ^ places + R) := by
      have hcast : 2 * a < (2 * k + 1) * (10 ^ places + R) := by exact_mod_cast hlt
      omega
    have hle' : (2 * a + 1 : ℚ) ≤ (2 * k + 1) * (10 ^ places + R) := by exact_mod_cast hint
    rw [div_div, div_le_div_iff₀ (by positivity) (by positivity), pow_add]
    push_cast
    nlinarith
  have habove : ((5 * (2 * k - 1) : ℤ) : ℚ) / 10 ^ 3 ≤ (a : ℚ) / (10 ^ places + R) / 100 := by
    push_cast
    linarith
  have hroundLow := le_round28 hshortLow habove
  have hroundHigh := round28_le hshortHigh hbelow
  have hround0 : 0 ≤ round28 ((a : ℚ) / (10 ^ places + R) / 100) :=
    le_round28 short_zero (by positivity)
  have hstrict : ((25 * ((2 * k + 1) * (2 * 10 ^ places) - 1) : ℤ) : ℚ) / 10 ^ (places + 4) <
      (2 * k + 1) / 200 := by
    rw [div_lt_div_iff₀ (by positivity) (by norm_num), pow_add]
    push_cast
    linarith
  rw [← hk]
  unfold cents halfUp
  rw [if_pos (by positivity)]
  refine Int.floor_eq_iff.mpr ⟨?_, ?_⟩
  · push_cast at hroundLow
    linarith
  · linarith

/-- Rounding what is left and what is taken away, away from zero both. -/
theorem halfUp_sub {x : ℚ} (h0 : 0 ≤ x) (hx : x ≤ n) :
    halfUp (n - x) = n - halfUp x + if Int.fract x = 1 / 2 then 1 else 0 := by
  have hsum := Int.floor_add_fract x
  have hfract0 := Int.fract_nonneg x
  have hfract1 := Int.fract_lt_one x
  unfold halfUp
  rw [if_pos (sub_nonneg.mpr hx), if_pos h0]
  rcases lt_trichotomy (Int.fract x) (1 / 2) with hlt | heq | hgt
  · have hleft : ⌊(n : ℚ) - x + 1 / 2⌋ = n - ⌊x⌋ :=
      Int.floor_eq_iff.mpr ⟨by push_cast; linarith, by push_cast; linarith⟩
    have hright : ⌊x + 1 / 2⌋ = ⌊x⌋ := Int.floor_eq_iff.mpr ⟨by linarith, by linarith⟩
    rw [hleft, hright, if_neg hlt.ne, add_zero]
  · have hleft : ⌊(n : ℚ) - x + 1 / 2⌋ = n - ⌊x⌋ :=
      Int.floor_eq_iff.mpr ⟨by push_cast; linarith, by push_cast; linarith⟩
    have hright : ⌊x + 1 / 2⌋ = ⌊x⌋ + 1 :=
      Int.floor_eq_iff.mpr ⟨by push_cast; linarith, by push_cast; linarith⟩
    rw [hleft, hright, if_pos heq]
    ring
  · have hleft : ⌊(n : ℚ) - x + 1 / 2⌋ = n - ⌊x⌋ - 1 :=
      Int.floor_eq_iff.mpr ⟨by push_cast; linarith, by push_cast; linarith⟩
    have hright : ⌊x + 1 / 2⌋ = ⌊x⌋ + 1 :=
      Int.floor_eq_iff.mpr ⟨by push_cast; linarith, by push_cast; linarith⟩
    rw [hleft, hright, if_neg hgt.ne']
    ring

end Rounding

/-! Both taxes -/

/-- One plain rule is the only one in use. -/
theorem usedRules_single {category : String} {r : Rule} (happlies : r.eligible category = true)
    (hplain : r.compound = false) : usedRules (selected category [r]) = [r] := by
  have hselected : selected category [r] = [r] := by
    unfold selected
    rw [List.filter_cons_of_pos happlies, List.filter_nil]
  have hnone : compoundRules [r] = [] := by
    refine List.eq_nil_iff_forall_not_mem.mpr fun s hs => ?_
    obtain ⟨hmem, hc⟩ := of_mem_compoundRules hs
    rw [List.mem_singleton.mp hmem, hplain] at hc
    cases hc
  rw [hselected, usedRules, hnone, List.append_nil, List.filter_cons_of_pos (by simp [hplain]),
    List.filter_nil]

section Taxes
variable {n : ℤ} {places R : ℕ}

theorem Roomy.fitting (h : Roomy n places R) (h0 : 0 ≤ n) : Fitting ((n : ℚ) / 100) := by
  obtain ⟨hM, -, hdigits⟩ := h.bounds
  have hone : (1 : ℚ) ≤ 10 ^ places := one_le_pow₀ (by norm_num)
  have hn : (0 : ℚ) ≤ n := by exact_mod_cast h0
  rw [abs_of_nonneg hn] at hdigits
  exact ⟨whole_cents n, by positivity, by nlinarith⟩

theorem Roomy.divisor (h : Roomy n places R) :
    round28 (1 + (R : ℚ) / 10 ^ places) = (10 ^ places + R) / 10 ^ places := by
  obtain ⟨hM, hR, hdigits⟩ := h.bounds
  have habs : |((10 ^ places + R : ℤ) : ℚ)| ≤ 10 ^ 28 := by
    push_cast
    rw [abs_of_nonneg (by positivity)]
    nlinarith [abs_nonneg (n : ℚ)]
  have hshort := short_places habs places
  push_cast at hshort
  have heq : 1 + (R : ℚ) / 10 ^ places = (10 ^ places + R) / 10 ^ places := by
    rw [add_div, div_self hM.ne']
  rw [heq]
  exact round28_eq hshort

/-- What is left without the tax, in cents. -/
theorem Roomy.taxNet_eq (h : Roomy n places R) (h0 : 0 ≤ n) :
    taxNet (n / 100) (R / 10 ^ places) = halfUp (n / (1 + R / 10 ^ places)) / 100 := by
  obtain ⟨hM, hR, -⟩ := h.bounds
  have hP : (0 : ℚ) < 10 ^ places + R := by positivity
  have hcents := @cents_quotient _ _ _ (n * 10 ^ places) h (by positivity)
    (mul_le_mul_of_nonneg_left (le_add_of_nonneg_right (by positivity)) h0)
  push_cast at hcents
  have hquot : (n : ℚ) / 100 / ((10 ^ places + R) / 10 ^ places) =
      n * 10 ^ places / (10 ^ places + R) / 100 := by
    field_simp
  have hleft : (n : ℚ) / (1 + R / 10 ^ places) = n * 10 ^ places / (10 ^ places + R) := by
    field_simp
  unfold taxNet
  rw [h.divisor, hquot, hcents, hleft]

/-- The tax of the receipt, in cents. -/
theorem Roomy.receipt_eq (h : Roomy n places R) (h0 : 0 ≤ n) :
    ∃ b, calculatePropertyTax (n / 100) ⟨.inclusive, R / 10 ^ places⟩ = .ok b ∧
      b.taxAmount = halfUp (n - n / (1 + R / 10 ^ places)) / 100 := by
  obtain ⟨hM, hR, hdigits⟩ := h.bounds
  have hP : (0 : ℚ) < 10 ^ places + R := by positivity
  have hg := h.fitting h0
  have hn : (0 : ℚ) ≤ n := by exact_mod_cast h0
  unfold calculatePropertyTax
  by_cases hzero : (R : ℚ) / 10 ^ places = 0
  · rw [if_pos (.inr hzero)]
    refine ⟨_, Except.bind_eq_ok.mpr ⟨_, quantize_fitting hg, rfl⟩, ?_⟩
    rw [hzero, add_zero, div_one, sub_self]
    norm_num [halfUp]
  · rw [if_neg (by simp [hzero]), if_pos rfl]
    have hproduct : result ((n : ℚ) / 100 * (R / 10 ^ places)) =
        .ok (n * R / 10 ^ (places + 2)) := by
      have heq : (n : ℚ) / 100 * (R / 10 ^ places) = ((n * R : ℤ) : ℚ) / 10 ^ (places + 2) := by
        rw [pow_add]
        push_cast
        field_simp
        ring
      have hbound : |((n * R : ℤ) : ℚ)| ≤ 10 ^ 26 := by
        push_cast
        rw [abs_of_nonneg (by positivity)]
        rw [abs_of_nonneg hn] at hdigits
        nlinarith
      have hshort := short_places (hbound.trans (by norm_num)) (places + 2)
      have hsmall : |((n * R : ℤ) : ℚ) / 10 ^ (places + 2)| ≤ 10 ^ 40 := by
        rw [abs_div, abs_of_pos (by positivity : (0 : ℚ) < 10 ^ (places + 2))]
        refine (div_le_self (abs_nonneg _) (one_le_pow₀ (by norm_num))).trans ?_
        exact hbound.trans (by norm_num)
      rw [heq, result_short hshort hsmall]
      push_cast
      rfl
    have hdivisor : plus 1 ((R : ℚ) / 10 ^ places) =
        .ok ((10 ^ places + R) / 10 ^ places) := by
      have hle : (R : ℚ) / 10 ^ places ≤ 1 := (div_le_one hM).mpr hR
      have hpos : 0 ≤ (R : ℚ) / 10 ^ places := by positivity
      unfold plus
      rw [result_of_lt (abs_le.mpr ⟨by linarith, by linarith⟩), h.divisor]
    have hquot : (n : ℚ) * R / 10 ^ (places + 2) / ((10 ^ places + R) / 10 ^ places) =
        n * R / (10 ^ places + R) / 100 := by
      rw [pow_add]
      field_simp
      norm_num
    have hright : (n : ℚ) - n / (1 + R / 10 ^ places) = n * R / (10 ^ places + R) := by
      field_simp
      ring
    have hle : (n : ℚ) * R / (10 ^ places + R) / 100 ≤ n / 100 := by
      refine div_le_div_of_nonneg_right ?_ (by norm_num)
      rw [div_le_iff₀ hP]
      nlinarith
    have hpos : 0 ≤ (n : ℚ) * R / (10 ^ places + R) / 100 := by positivity
    have hdiv : Decimal.div (.finite ((n : ℚ) * R / 10 ^ (places + 2)))
        (.finite ((10 ^ places + R) / 10 ^ places)) =
        .ok (.finite (round28 (n * R / (10 ^ places + R) / 100))) := by
      have hne : ((10 : ℚ) ^ places + R) / 10 ^ places ≠ 0 := by positivity
      have hlt := hg.lt
      change (if _ = 0 then _ else (result _).map _) = _
      rw [if_neg hne, hquot, result_of_lt (abs_le.mpr ⟨by linarith, by linarith⟩)]
      rfl
    have hshort := hg.whole.short (by rw [abs_of_nonneg hg.nonneg]; exact hg.lt.le)
    have hround0 := le_round28 short_zero hpos
    have hround := round28_le hshort hle
    have hcents := @cents_quotient _ _ _ (n * R) h (by positivity)
      (mul_le_mul_of_nonneg_left (le_add_of_nonneg_left (by positivity)) h0)
    push_cast at hcents
    have htax := quantize_between hg.whole hg.lt hround0 hround
    have hlow : 0 ≤ (cents (round28 ((n : ℚ) * R / (10 ^ places + R) / 100)) : ℚ) / 100 :=
      le_cents whole_zero hround0
    have hhigh := cents_le hg.whole hround
    obtain ⟨hminus, hnet⟩ := minus_whole hg.whole
      (whole_cents (cents (round28 ((n : ℚ) * R / (10 ^ places + R) / 100))))
      (abs_lt.mpr ⟨by linarith [hg.nonneg], by linarith [hg.lt]⟩)
    refine ⟨_, Except.bind_eq_ok.mpr ⟨_, quantize_fitting hg, Except.bind_eq_ok.mpr ⟨_, hproduct,
      Except.bind_eq_ok.mpr ⟨_, hdivisor, Except.bind_eq_ok.mpr ⟨_, hdiv,
      Except.bind_eq_ok.mpr ⟨_, htax,
        Except.bind_eq_ok.mpr ⟨_, hminus, Except.bind_eq_ok.mpr ⟨_, hnet, rfl⟩⟩⟩⟩⟩⟩⟩, ?_⟩
    rw [hright, hcents]

/-- The line of a single plain rule. -/
theorem Roomy.line_eq (h : Roomy n places R) (h0 : 0 ≤ n) {t : TaxRuleSchema} {category : String}
    (hrate : t.rate.value = R / 10 ^ places) (happlies : t.rule.eligible category = true)
    (hplain : t.rule.compound = false) :
    ∃ p line, countryPackTaxPosting (n / 100) (storedTaxes [t]) category (some .inclusive) = .ok p ∧
      p.lines = [line] ∧ line.amount = n / 100 - halfUp (n / (1 + R / 10 ^ places)) / 100 := by
  have hg := h.fitting h0
  have hunit := unitRate_of_schema [t]
  obtain ⟨c, hcalc⟩ := @exists_calculateTaxes_inclusive _ hunit _ category hg
  obtain ⟨hamounts, -⟩ := included_lines hunit hg hcalc
  have hused : usedRules (selected category (([t].map TaxRuleSchema.rule).map setInclusive)) =
      [setInclusive t.rule] := usedRules_single happlies hplain
  rw [hused, List.map_singleton] at hamounts
  obtain ⟨line, hline, hamount⟩ := List.map_eq_singleton_iff.mp hamounts
  have hr : UnitRate (setInclusive t.rule) t.rate.value := ⟨rfl, t.rate.nonneg, t.rate.le_one⟩
  have hshare := shareOf_inclusive hg hr rfl
  have hle := shareOf_le hg hr
  have hnet : line.amount = n / 100 - halfUp (n / (1 + R / 10 ^ places)) / 100 := by
    rw [hamount, hshare, includedTax, ← h.taxNet_eq h0, ← hrate]
    rfl
  refine ⟨_, line, (posting_inclusive_iff hg.nonneg).mpr ⟨_, c, quantize_fitting hg, hcalc, ?_, rfl⟩,
    hline, hnet⟩
  rw [hline, List.map_singleton, List.sum_singleton, hamount]
  exact hle.trans_lt hg.lt

end Taxes

def TaxBreakdown.negated (b : TaxBreakdown) : TaxBreakdown :=
  ⟨-b.taxAmount, -b.grossTotal, -b.netTotal⟩

theorem calculatePropertyTax_neg {amount : ℚ} {config : TaxConfig} {b : TaxBreakdown}
    (h : calculatePropertyTax amount config = .ok b) :
    calculatePropertyTax (-amount) config = .ok b.negated := by
  unfold calculatePropertyTax at h ⊢
  by_cases hoff : config.taxMode = .off ∨ config.taxRate = 0
  · rw [if_pos hoff] at h ⊢
    obtain ⟨base, hbase, h⟩ := Except.bind_eq_ok.mp h
    obtain rfl := Except.ok.inj h
    refine Except.bind_eq_ok.mpr ⟨_, Decimal.quantize_neg hbase, ?_⟩
    rw [TaxBreakdown.negated, neg_zero]
    rfl
  · rw [if_neg hoff] at h ⊢
    by_cases hinc : config.taxMode = .inclusive
    · rw [if_pos hinc] at h ⊢
      obtain ⟨gross, hgross, h⟩ := Except.bind_eq_ok.mp h
      obtain ⟨product, hproduct, h⟩ := Except.bind_eq_ok.mp h
      obtain ⟨divisor, hdivisor, h⟩ := Except.bind_eq_ok.mp h
      obtain ⟨quotient, hdiv, h⟩ := Except.bind_eq_ok.mp h
      obtain ⟨tax, htax, h⟩ := Except.bind_eq_ok.mp h
      obtain ⟨net, hminus, h⟩ := Except.bind_eq_ok.mp h
      obtain ⟨net', hnet, h⟩ := Except.bind_eq_ok.mp h
      obtain rfl := Except.ok.inj h
      have hproduct' := result_neg hproduct
      rw [← neg_mul] at hproduct'
      change (if divisor = 0 then _ else (result (product / divisor)).map _) = _ at hdiv
      by_cases hzero : divisor = 0
      · rw [if_pos hzero] at hdiv
        cases hdiv
      · rw [if_neg hzero] at hdiv
        obtain ⟨y, hres, rfl⟩ := map_finite_ok.mp hdiv
        have hdiv' : Decimal.div (.finite (-product)) (.finite divisor) = .ok (.finite (-y)) := by
          change (if divisor = 0 then _ else (result (-product / divisor)).map _) = _
          rw [if_neg hzero, neg_div, result_neg hres]
          rfl
        exact Except.bind_eq_ok.mpr ⟨_, Decimal.quantize_neg hgross,
          Except.bind_eq_ok.mpr ⟨_, hproduct',
          Except.bind_eq_ok.mpr ⟨_, hdivisor, Except.bind_eq_ok.mpr ⟨_, hdiv', Except.bind_eq_ok.mpr
            ⟨_, Decimal.quantize_neg htax, Except.bind_eq_ok.mpr ⟨_, minus_neg hminus,
              Except.bind_eq_ok.mpr ⟨_, Decimal.quantize_neg hnet, rfl⟩⟩⟩⟩⟩⟩⟩
    · rw [if_neg hinc] at h ⊢
      obtain ⟨net, hnet, h⟩ := Except.bind_eq_ok.mp h
      obtain ⟨product, hproduct, h⟩ := Except.bind_eq_ok.mp h
      obtain ⟨tax, htax, h⟩ := Except.bind_eq_ok.mp h
      obtain ⟨gross, hplus, h⟩ := Except.bind_eq_ok.mp h
      obtain ⟨gross', hgross, h⟩ := Except.bind_eq_ok.mp h
      obtain rfl := Except.ok.inj h
      have hproduct' := result_neg hproduct
      rw [← neg_mul] at hproduct'
      exact Except.bind_eq_ok.mpr ⟨_, Decimal.quantize_neg hnet,
        Except.bind_eq_ok.mpr ⟨_, hproduct',
        Except.bind_eq_ok.mpr ⟨_, Decimal.quantize_neg htax,
        Except.bind_eq_ok.mpr ⟨_, plus_neg hplus,
          Except.bind_eq_ok.mpr ⟨_, Decimal.quantize_neg hgross, rfl⟩⟩⟩⟩⟩

theorem receipt_tax_of_nonneg {n : ℤ} {places R : ℕ} (h : Roomy n places R) (h0 : 0 ≤ n)
    {t : TaxRuleSchema} {category : String} (hrate : t.rate.value = R / 10 ^ places)
    (happlies : t.rule.eligible category = true) (hplain : t.rule.compound = false) :
    ∃ p line b,
      countryPackTaxPosting (n / 100) (storedTaxes [t]) category (some .inclusive) = .ok p ∧
      p.lines = [line] ∧ calculatePropertyTax (n / 100) ⟨.inclusive, R / 10 ^ places⟩ = .ok b ∧
      b.taxAmount = line.amount +
        if Int.fract ((n : ℚ) / (1 + R / 10 ^ places)) = 1 / 2 then 1 / 100 else 0 := by
  obtain ⟨p, line, hp, hline, hamount⟩ := h.line_eq h0 hrate happlies hplain
  obtain ⟨b, hb, htax⟩ := h.receipt_eq h0
  refine ⟨p, line, b, hp, hline, hb, ?_⟩
  have hn : (0 : ℚ) ≤ n := by exact_mod_cast h0
  have hdivisor : (1 : ℚ) ≤ 1 + R / 10 ^ places := le_add_of_nonneg_right (by positivity)
  rw [htax, hamount, halfUp_sub (div_nonneg hn (by linarith)) (div_le_self hn hdivisor)]
  split
  · push_cast
    ring
  · push_cast
    ring

theorem fract_neg_half {x : ℚ} : Int.fract (-x) = 1 / 2 ↔ Int.fract x = 1 / 2 := by
  by_cases hx : Int.fract x = 0
  · have hneg : Int.fract (-x) = 0 := Int.fract_neg_eq_zero.mpr hx
    rw [hx, hneg]
  · rw [Int.fract_neg hx]
    constructor
    · intro h
      linarith
    · intro h
      linarith

/-- The tax of the receipt is the line of a single plain rule, unless what is left without
the tax is half-way between two cents; then it is one cent more. -/
theorem receipt_tax_eq {n : ℤ} {places R : ℕ} (h : Roomy n places R) {t : TaxRuleSchema}
    {category : String} (hrate : t.rate.value = R / 10 ^ places)
    (happlies : t.rule.eligible category = true) (hplain : t.rule.compound = false) :
    ∃ p line b,
      countryPackTaxPosting (n / 100) (storedTaxes [t]) category (some .inclusive) = .ok p ∧
      p.lines = [line] ∧ calculatePropertyTax (n / 100) ⟨.inclusive, R / 10 ^ places⟩ = .ok b ∧
      b.taxAmount = line.amount +
        if Int.fract ((n : ℚ) / (1 + R / 10 ^ places)) = 1 / 2 then (n.sign : ℚ) / 100 else 0 := by
  rcases lt_trichotomy n 0 with hneg | rfl | hpos
  · have hroomy : Roomy (-n) places R := ⟨h.le, by rw [abs_neg]; exact h.digits⟩
    obtain ⟨p, line, b, hp, hline, hb, htax⟩ :=
      receipt_tax_of_nonneg hroomy (by omega) hrate happlies hplain
    have hp' := posting_neg hp
    have hb' := calculatePropertyTax_neg hb
    have hback : -(((-n : ℤ) : ℚ) / 100) = n / 100 := by
      push_cast
      ring
    rw [hback] at hp' hb'
    refine ⟨_, { line with amount := -line.amount }, _, hp', ?_, hb', ?_⟩
    · rw [CountryPackTaxPosting.negated, hline, List.map_singleton]
    · have hquot : ((-n : ℤ) : ℚ) / (1 + R / 10 ^ places) = -(n / (1 + R / 10 ^ places)) := by
        push_cast
        ring
      rw [hquot] at htax
      simp only [fract_neg_half] at htax
      rw [TaxBreakdown.negated, Int.sign_eq_neg_one_of_neg hneg, htax]
      split
      · push_cast
        ring
      · ring
  · obtain ⟨p, line, b, hp, hline, hb, htax⟩ :=
      receipt_tax_of_nonneg h le_rfl hrate happlies hplain
    refine ⟨p, line, b, hp, hline, hb, ?_⟩
    have hnone : Int.fract (((0 : ℤ) : ℚ) / (1 + R / 10 ^ places)) ≠ 1 / 2 := by
      rw [Int.cast_zero, zero_div, Int.fract_zero]
      norm_num
    rw [if_neg hnone] at htax ⊢
    exact htax
  · obtain ⟨p, line, b, hp, hline, hb, htax⟩ :=
      receipt_tax_of_nonneg h hpos.le hrate happlies hplain
    refine ⟨p, line, b, hp, hline, hb, ?_⟩
    rw [htax, Int.sign_eq_one_of_pos hpos]
    norm_num

set_option maxRecDepth 100000 in
/-- Ten per cent of 1.00, where the price without the tax is no half cent. -/
theorem receipt_tax_eq_tenth : ∃ p line b,
    countryPackTaxPosting ((100 : ℤ) / 100) (storedTaxes [Demo.tax 'v' Demo.tenth false none])
      "room_charge" (some .inclusive) = .ok p ∧ p.lines = [line] ∧
    calculatePropertyTax ((100 : ℤ) / 100) ⟨.inclusive, (1 : ℕ) / 10 ^ 1⟩ = .ok b ∧
    b.taxAmount = line.amount +
      if Int.fract (((100 : ℤ) : ℚ) / (1 + (1 : ℕ) / 10 ^ 1)) = 1 / 2
        then ((100 : ℤ).sign : ℚ) / 100 else 0 :=
  receipt_tax_eq ⟨by norm_num, by norm_num⟩
    (show (1 / 10 : ℚ) = (1 : ℕ) / 10 ^ 1 by norm_num) (by decide) (by decide)

set_option maxRecDepth 100000 in
/-- A price of 0.01 with a tax of 100 per cent: half a cent is left, and half is the tax. -/
theorem receipt_tax_half_cent :
    countryPackTaxPosting (1 / 100) (storedTaxes [Demo.tax 'v' Demo.whole false none])
        "room_charge" (some .inclusive) = .ok ⟨[⟨"v", "Tax", 0⟩], 1 / 100, 1 / 100⟩ ∧
      calculatePropertyTax (1 / 100) ⟨.inclusive, 1⟩ = .ok ⟨1 / 100, 1 / 100, 0⟩ :=
  ⟨by decide +kernel, by decide +kernel⟩

end OpenPms.Tax
