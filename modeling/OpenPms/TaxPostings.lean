import OpenPms.TaxAmounts
import OpenPms.TaxOrder
import OpenPms.AutomaticPostings
import Mathlib.Algebra.Order.BigOperators.Group.List

/-!
What the tax posting of a stay adds up to. With the taxes extracted from the price the room
charge and the lines are the gross amount again; with the taxes on top of it they are the
total as far as no rule is marked inclusive, for the line of such a rule is posted but is
not in the total. The extracted taxes are each taken from the whole price.
-/
namespace OpenPms.Tax

open Decimals Transaction Prog

/-- The room charge and the lines are the total. -/
def AddsUp (p : CountryPackTaxPosting) : Prop :=
  p.roomChargeAmount + (p.lines.map TaxLine.amount).sum = p.totalAmount

/-! The gross amount -/

theorem gross_fitting {basePrice gross : ℚ} (h0 : 0 ≤ basePrice)
    (h : (Decimal.finite basePrice).quantize = .ok gross) : Fitting gross := by
  obtain ⟨hwhole, hlt⟩ := Decimal.whole_of_quantize h
  obtain ⟨-, rfl⟩ := Decimal.quantize_ok.mp h
  exact ⟨hwhole, le_cents whole_zero h0, (abs_lt.mp hlt).2⟩

theorem lt_of_quantize {x y : ℚ} (h : (Decimal.finite x).quantize = .ok y) : x < 10 ^ 26 := by
  obtain ⟨-, hlt⟩ := Decimal.whole_of_quantize h
  obtain ⟨-, rfl⟩ := Decimal.quantize_ok.mp h
  by_contra hge
  have hlarge : (10 : ℚ) ^ 26 ≤ cents x / 100 := le_cents ⟨10 ^ 28, by norm_num⟩ (not_lt.mp hge)
  linarith [(abs_lt.mp hlt).2]

theorem quantize_fitting {x : ℚ} (h : Fitting x) : (Decimal.finite x).quantize = .ok x :=
  Decimal.quantize_whole h.whole (by rw [abs_of_nonneg h.nonneg]; exact h.lt)

/-! The calculation -/

section Rules
variable {rules : List Rule} (hrates : ∀ r ∈ rules, ∃ q, UnitRate r q)
include hrates

theorem unitRate_of_used {category : String} {r : Rule}
    (hr : r ∈ usedRules (selected category rules)) : ∃ q, UnitRate r q :=
  hrates r (List.mem_of_mem_filter (of_mem_usedRules hr))

theorem rate_ne_nan_of_unit {category : String} {r : Rule} (hr : r ∈ selected category rules) :
    r.rate ≠ some .nan := by
  obtain ⟨q, hq, -⟩ := hrates r (List.mem_of_mem_filter hr)
  rw [hq]
  simp

/-- The total that a calculation returns is the price and the exclusive amounts. -/
theorem calculateTaxes_fitting {gross : ℚ} {category : String} {c : TaxCalculation}
    (hg : Fitting gross) (h : calculateTaxes gross rules category = .ok c) :
    ∃ entries, Accounts gross rules category c entries ∧ Fitting c.totalWithTaxes ∧
      c.totalWithTaxes = gross + (exclusiveAmounts entries).sum ∧
      (∀ e ∈ entries, Fitting e.2) ∧
      (NothingIncluded gross gross (usedRules (selected category rules)) ↔
        ∀ a ∈ inclusiveAmounts entries, a = 0) := by
  obtain ⟨entries, hentries⟩ := exists_accounts h
  obtain ⟨final, hwalk, htotal⟩ := hentries.walk
  have hused : ∀ r ∈ entries.map Prod.fst, ∃ q, UnitRate r q := by
    intro r hr
    rw [hentries.rules] at hr
    exact unitRate_of_used hrates hr
  have hlt := lt_of_quantize htotal
  obtain ⟨hfinal, hsum, hall⟩ := hwalk.exact hg hused hg hlt
  have hnothing := hwalk.nothingIncluded_iff hg hused hg hlt
  rw [hentries.rules] at hnothing
  rw [quantize_fitting hfinal] at htotal
  obtain rfl := Except.ok.inj htotal
  exact ⟨entries, hentries, hfinal, hsum, hall, hnothing⟩

/-- A price with room for all the taxes is calculated. -/
theorem exists_calculateTaxes {gross : ℚ} (category : String) (hg : Fitting gross)
    (hbound : gross * 2 ^ rules.length < 10 ^ 26) :
    ∃ c, calculateTaxes gross rules category = .ok c := by
  have hlen : (usedRules (selected category rules)).length ≤ rules.length :=
    (length_usedRules_le _).trans (List.length_filter_le _ _)
  have hpow : (2 : ℚ) ^ (usedRules (selected category rules)).length ≤ 2 ^ rules.length :=
    pow_le_pow_right₀ (by norm_num) hlen
  have hless := mul_le_mul_of_nonneg_left hpow hg.nonneg
  obtain ⟨entries, y, hentries, hwalk, hy⟩ := exists_walk hg
    (fun r hr => unitRate_of_used hrates hr) hg le_rfl (hless.trans_lt hbound)
  have hused : ∀ r ∈ entries.map Prod.fst, ∃ q, UnitRate r q := by
    intro r hr
    rw [hentries] at hr
    exact unitRate_of_used hrates hr
  obtain ⟨hfinal, -, -⟩ := hwalk.exact hg hused hg hy
  exact ⟨⟨_, gross, y⟩, calculateTaxes_ok.mpr ⟨fun r hr => rate_ne_nan_of_unit hrates hr,
    entries, y, hentries, hwalk, quantize_fitting hfinal, rfl, rfl⟩⟩

end Rules

theorem amounts_of_lines {rules : List Rule} {gross : ℚ} {category : String} {c : TaxCalculation}
    {entries : List (Rule × ℚ)} (h : Accounts gross rules category c entries) :
    c.lines.map TaxLine.amount = entries.map Prod.snd := by
  rw [h.lines, List.map_map]
  rfl

/-! Taxes on top -/

theorem eq_zero_of_sum {l : List ℚ} (h0 : ∀ a ∈ l, 0 ≤ a) : l.sum = 0 ↔ ∀ a ∈ l, a = 0 := by
  refine ⟨fun hsum a ha => ?_, fun hall => List.sum_eq_zero hall⟩
  exact le_antisymm (hsum ▸ List.single_le_sum h0 a ha) (h0 a ha)

theorem nonneg_of_inclusiveAmounts {entries : List (Rule × ℚ)} (h : ∀ e ∈ entries, Fitting e.2) :
    ∀ a ∈ inclusiveAmounts entries, 0 ≤ a := by
  intro a ha
  obtain ⟨e, he, rfl⟩ := List.mem_map.mp ha
  exact (h e (List.mem_of_mem_filter he)).nonneg

theorem addsUp_on_top {rules : List Rule} (hrates : ∀ r ∈ rules, ∃ q, UnitRate r q) {gross t : ℚ}
    {category : String} {c : TaxCalculation} (hg : Fitting gross)
    (h : calculateTaxes gross rules category = .ok c)
    (ht : (Decimal.finite c.totalWithTaxes).quantize = .ok t) :
    AddsUp ⟨c.lines, gross, t⟩ ↔
      NothingIncluded gross gross (usedRules (selected category rules)) := by
  obtain ⟨entries, hentries, htotal, hsum, hall, hnothing⟩ := calculateTaxes_fitting hrates hg h
  rw [quantize_fitting htotal] at ht
  obtain rfl := Except.ok.inj ht
  rw [hnothing, ← eq_zero_of_sum (nonneg_of_inclusiveAmounts hall)]
  change gross + (c.lines.map TaxLine.amount).sum = c.totalWithTaxes ↔ _
  rw [amounts_of_lines hentries, sum_amounts, hsum]
  constructor
  · intro heq
    linarith
  · intro hzero
    rw [hzero, add_zero]

/-! Taxes in the price -/

theorem sumAmounts_large {lines : List TaxLine} {t s : ℚ} (hall : ∀ l ∈ lines, Fitting l.amount)
    (ht : 10 ^ 26 ≤ t) (h : sumAmounts lines t = .ok s) : 10 ^ 26 ≤ s := by
  induction lines generalizing t with
  | nil => exact Except.ok.inj h ▸ ht
  | cons l rest ih =>
    obtain ⟨hl, hall⟩ := List.forall_mem_cons.mp hall
    obtain ⟨t', hplus, h⟩ := Except.bind_eq_ok.mp h
    exact ih hall (large_of_result hplus (by linarith [hl.nonneg])) h

theorem sumAmounts_fitting {lines : List TaxLine} {t s : ℚ}
    (hall : ∀ l ∈ lines, Fitting l.amount) (ht : Whole t) (h0 : 0 ≤ t)
    (h : sumAmounts lines t = .ok s) (hs : s < 10 ^ 26) :
    s = t + (lines.map TaxLine.amount).sum := by
  induction lines generalizing t with
  | nil =>
    obtain rfl := Except.ok.inj h
    exact (add_zero _).symm
  | cons l rest ih =>
    obtain ⟨hl, hall⟩ := List.forall_mem_cons.mp hall
    obtain ⟨t', hplus, h⟩ := Except.bind_eq_ok.mp h
    have hpos := add_nonneg h0 hl.nonneg
    have ht' : t' = t + l.amount := by
      by_cases hle : t + l.amount ≤ 10 ^ 26
      · have hexact := result_whole (ht.add hl.whole) (by rwa [abs_of_nonneg hpos])
        exact (Except.ok.inj (hexact.symm.trans hplus)).symm
      · -- the sum would be too large for its last quantization
        have hlarge : 10 ^ 26 ≤ t' := large_of_result hplus (not_le.mp hle).le
        exact absurd (sumAmounts_large hall hlarge h) (not_le.mpr hs)
    subst ht'
    rw [ih hall (ht.add hl.whole) hpos h, List.map_cons, List.sum_cons, add_assoc]

theorem sumAmounts_eq {lines : List TaxLine} {t : ℚ} (hall : ∀ l ∈ lines, Fitting l.amount)
    (ht : Whole t) (h0 : 0 ≤ t) (h : t + (lines.map TaxLine.amount).sum ≤ 10 ^ 26) :
    sumAmounts lines t = .ok (t + (lines.map TaxLine.amount).sum) := by
  induction lines generalizing t with
  | nil => exact congrArg Except.ok (add_zero t).symm
  | cons l rest ih =>
    obtain ⟨hl, hall⟩ := List.forall_mem_cons.mp hall
    have hpos := add_nonneg h0 hl.nonneg
    have hrest : 0 ≤ (rest.map TaxLine.amount).sum := by
      refine List.sum_nonneg fun a ha => ?_
      obtain ⟨l', hl', rfl⟩ := List.mem_map.mp ha
      exact (hall l' hl').nonneg
    rw [List.map_cons, List.sum_cons, ← add_assoc] at h ⊢
    have hplus : plus t l.amount = .ok (t + l.amount) :=
      result_whole (ht.add hl.whole) (by rw [abs_of_nonneg hpos]; linarith)
    exact Except.bind_eq_ok.mpr ⟨_, hplus, ih hall (ht.add hl.whole) hpos h⟩

theorem whole_sum {lines : List TaxLine} (hall : ∀ l ∈ lines, Fitting l.amount) :
    Whole (lines.map TaxLine.amount).sum ∧ 0 ≤ (lines.map TaxLine.amount).sum := by
  induction lines with
  | nil => exact ⟨whole_zero, le_rfl⟩
  | cons l rest ih =>
    obtain ⟨hl, hall⟩ := List.forall_mem_cons.mp hall
    obtain ⟨hwhole, hnonneg⟩ := ih hall
    rw [List.map_cons, List.sum_cons]
    exact ⟨hl.whole.add hwhole, add_nonneg hl.nonneg hnonneg⟩

theorem unitRate_setInclusive {rules : List Rule} (hrates : ∀ r ∈ rules, ∃ q, UnitRate r q) :
    ∀ r ∈ rules.map setInclusive, ∃ q, UnitRate r q := by
  intro r hr
  obtain ⟨r', hr', rfl⟩ := List.mem_map.mp hr
  exact hrates r' hr'

theorem inclusive_of_used {rules : List Rule} {category : String} {r : Rule}
    (hr : r ∈ usedRules (selected category (rules.map setInclusive))) : r.inclusive = true := by
  obtain ⟨r', -, rfl⟩ := List.mem_map.mp (List.mem_of_mem_filter (of_mem_usedRules hr))
  rfl

/-- Where every rule is inclusive, each takes its amount from the gross one. -/
theorem Walk.all_inclusive {gross x y : ℚ} {entries : List (Rule × ℚ)}
    (h : Walk (usedAmount gross) x entries y)
    (hinc : ∀ r ∈ entries.map Prod.fst, r.inclusive = true) :
    y = x ∧ ∀ e ∈ entries, usedAmount gross x e.1 = .ok e.2 := by
  induction h with
  | nil => exact ⟨rfl, fun e he => by cases he⟩
  | step ha hx _ ih =>
    obtain ⟨hr, hinc⟩ := List.forall_mem_cons.mp hinc
    unfold runningAfter at hx
    rw [if_pos hr] at hx
    obtain rfl := Except.ok.inj hx
    obtain ⟨rfl, hall⟩ := ih hinc
    exact ⟨rfl, List.forall_mem_cons.mpr ⟨ha, hall⟩⟩

theorem exists_walk_inclusive {gross : ℚ} {rules : List Rule} (hg : Fitting gross)
    (hrates : ∀ r ∈ rules, ∃ q, UnitRate r q) (hinc : ∀ r ∈ rules, r.inclusive = true) :
    ∃ entries, entries.map Prod.fst = rules ∧ Walk (usedAmount gross) gross entries gross := by
  induction rules with
  | nil => exact ⟨[], rfl, .nil gross⟩
  | cons r rest ih =>
    obtain ⟨⟨q, hr⟩, hrates⟩ := List.forall_mem_cons.mp hrates
    obtain ⟨hir, hinc⟩ := List.forall_mem_cons.mp hinc
    obtain ⟨entries, rfl, hwalk⟩ := ih hrates hinc
    have ha : usedAmount gross gross r = .ok _ := compoundAmount_fitting hr (hg.priceOf hg r)
    refine ⟨_ :: entries, rfl, .step ha ?_ hwalk⟩
    unfold runningAfter
    rw [if_pos hir]

section Included
variable {rules : List Rule} (hrates : ∀ r ∈ rules, ∃ q, UnitRate r q) {gross : ℚ}
  {category : String} (hg : Fitting gross)
include hrates hg

theorem exists_calculateTaxes_inclusive :
    ∃ c, calculateTaxes gross (rules.map setInclusive) category = .ok c := by
  have hunit := unitRate_setInclusive hrates
  obtain ⟨entries, hentries, hwalk⟩ := exists_walk_inclusive hg
    (fun r hr => unitRate_of_used hunit hr) fun r hr => @inclusive_of_used _ category _ hr
  exact ⟨⟨_, gross, gross⟩, calculateTaxes_ok.mpr ⟨fun r hr => rate_ne_nan_of_unit hunit hr,
    entries, gross, hentries, hwalk, quantize_fitting hg, rfl, rfl⟩⟩

/-- The lines are those that each rule in use takes from the gross amount. -/
theorem included_lines {c : TaxCalculation}
    (h : calculateTaxes gross (rules.map setInclusive) category = .ok c) :
    c.lines.map TaxLine.amount =
        (usedRules (selected category (rules.map setInclusive))).map (shareOf gross) ∧
      ∀ l ∈ c.lines, Fitting l.amount := by
  obtain ⟨entries, hentries, -, -, hall, -⟩ :=
    calculateTaxes_fitting (unitRate_setInclusive hrates) hg h
  obtain ⟨final, hwalk, -⟩ := hentries.walk
  have hinc : ∀ r ∈ entries.map Prod.fst, r.inclusive = true := by
    intro r hr
    rw [hentries.rules] at hr
    exact inclusive_of_used hr
  obtain ⟨-, hamounts⟩ := hwalk.all_inclusive hinc
  constructor
  · rw [amounts_of_lines hentries, ← hentries.rules, List.map_map]
    refine List.map_congr_left fun e he => ?_
    have hprice : priceOf gross gross e.1 = gross := by
      unfold priceOf
      split <;> rfl
    have he' := hamounts e he
    unfold usedAmount at he'
    rw [hprice] at he'
    exact (shareOf_eq he').symm
  · intro l hl
    rw [hentries.lines] at hl
    obtain ⟨e, he, rfl⟩ := List.mem_map.mp hl
    exact hall e he

omit hrates in
theorem shareOf_le {r : Rule} {q : ℚ} (hr : UnitRate r q) : shareOf gross r ≤ gross := by
  rw [shareOf_eq (compoundAmount_fitting hr hg)]
  exact (taxAmount_bounds hr.2 hg.whole hg.nonneg hg.lt).2

theorem sum_included_le {c : TaxCalculation}
    (h : calculateTaxes gross (rules.map setInclusive) category = .ok c) :
    (c.lines.map TaxLine.amount).sum ≤ gross * 2 ^ rules.length := by
  have hunit := unitRate_setInclusive hrates
  rw [(included_lines hrates hg h).1]
  have hle : ∀ a ∈ (usedRules (selected category (rules.map setInclusive))).map (shareOf gross),
      a ≤ gross := by
    intro a ha
    obtain ⟨r, hr, rfl⟩ := List.mem_map.mp ha
    obtain ⟨q, hq⟩ := unitRate_of_used hunit hr
    exact shareOf_le hg hq
  have hsum := List.sum_le_card_nsmul _ _ hle
  have hlen : (usedRules (selected category (rules.map setInclusive))).length ≤ rules.length := by
    have hfilter := List.length_filter_le (Rule.eligible category) (rules.map setInclusive)
    rw [List.length_map] at hfilter
    exact (length_usedRules_le _).trans hfilter
  have hpow : ((usedRules (selected category (rules.map setInclusive))).length : ℚ) ≤
      2 ^ rules.length := by
    exact_mod_cast hlen.trans Nat.lt_two_pow_self.le
  rw [List.length_map, nsmul_eq_mul] at hsum
  calc _ ≤ _ := hsum
    _ ≤ 2 ^ rules.length * gross := mul_le_mul_of_nonneg_right hpow hg.nonneg
    _ = gross * 2 ^ rules.length := mul_comm _ _

end Included

theorem unitRate_of_schema (taxes : List TaxRuleSchema) :
    ∀ r ∈ taxes.map TaxRuleSchema.rule, ∃ q, UnitRate r q := by
  intro r hr
  obtain ⟨t, -, rfl⟩ := List.mem_map.mp hr
  exact ⟨t.rate.value, rfl, t.rate.nonneg, t.rate.le_one⟩

/-- The room charge is what is left of the gross amount. -/
theorem posting_inclusive_iff {basePrice : ℚ} {taxes : List TaxRuleSchema} {category : String}
    {p : CountryPackTaxPosting} (h0 : 0 ≤ basePrice) :
    countryPackTaxPosting basePrice (storedTaxes taxes) category (some .inclusive) = .ok p ↔
      ∃ gross c, (Decimal.finite basePrice).quantize = .ok gross ∧
        calculateTaxes gross ((taxes.map TaxRuleSchema.rule).map setInclusive) category = .ok c ∧
        (c.lines.map TaxLine.amount).sum < 10 ^ 26 ∧
        p = ⟨c.lines, gross - (c.lines.map TaxLine.amount).sum, gross⟩ := by
  have hrates := unitRate_of_schema taxes
  have hposting : countryPackTaxPosting basePrice (storedTaxes taxes) category (some .inclusive) =
      (Decimal.finite basePrice).quantize.bind fun gross =>
        (calculateTaxes gross ((taxes.map TaxRuleSchema.rule).map setInclusive) category).bind
          fun c => (sumAmounts c.lines 0).bind fun sum => (Decimal.finite sum).quantize.bind
            fun taxTotal => (minus gross taxTotal).bind fun room =>
              (Decimal.finite room).quantize.bind fun charge => .ok ⟨c.lines, charge, gross⟩ := by
    unfold countryPackTaxPosting
    rw [parseRules_storedTaxes]
    rfl
  have hroom {gross : ℚ} {c : TaxCalculation} (hg : Fitting gross)
      (hlines : ∀ l ∈ c.lines, Fitting l.amount) (hlt : (c.lines.map TaxLine.amount).sum < 10 ^ 26) :
      minus gross (c.lines.map TaxLine.amount).sum =
          .ok (gross - (c.lines.map TaxLine.amount).sum) ∧
        (Decimal.finite (gross - (c.lines.map TaxLine.amount).sum)).quantize =
          .ok (gross - (c.lines.map TaxLine.amount).sum) := by
    obtain ⟨hwhole, hnonneg⟩ := whole_sum hlines
    exact minus_whole hg.whole hwhole
      (abs_lt.mpr ⟨by linarith [hg.nonneg], by linarith [hg.lt]⟩)
  rw [hposting]
  constructor
  · intro h
    obtain ⟨gross, hgross, h⟩ := Except.bind_eq_ok.mp h
    obtain ⟨c, hcalc, h⟩ := Except.bind_eq_ok.mp h
    obtain ⟨sum, hsum, h⟩ := Except.bind_eq_ok.mp h
    obtain ⟨taxTotal, htax, h⟩ := Except.bind_eq_ok.mp h
    obtain ⟨room, hminus, h⟩ := Except.bind_eq_ok.mp h
    obtain ⟨charge, hcharge, h⟩ := Except.bind_eq_ok.mp h
    have hg := gross_fitting h0 hgross
    obtain ⟨-, hlines⟩ := included_lines hrates hg hcalc
    have hlt := lt_of_quantize htax
    obtain rfl : sum = _ := sumAmounts_fitting hlines whole_zero le_rfl hsum hlt
    rw [zero_add] at htax hlt
    obtain ⟨hwhole, hnonneg⟩ := whole_sum hlines
    obtain rfl := Except.ok.inj (htax.symm.trans (quantize_fitting ⟨hwhole, hnonneg, hlt⟩))
    obtain ⟨hminus', hcharge'⟩ := hroom hg hlines hlt
    obtain rfl := Except.ok.inj (hminus.symm.trans hminus')
    obtain rfl := Except.ok.inj (hcharge.symm.trans hcharge')
    exact ⟨gross, c, hgross, hcalc, hlt, (Except.ok.inj h).symm⟩
  · rintro ⟨gross, c, hgross, hcalc, hlt, rfl⟩
    have hg := gross_fitting h0 hgross
    obtain ⟨-, hlines⟩ := included_lines hrates hg hcalc
    obtain ⟨hwhole, hnonneg⟩ := whole_sum hlines
    obtain ⟨hminus, hcharge⟩ := hroom hg hlines hlt
    have hsum := sumAmounts_eq hlines whole_zero le_rfl (by rw [zero_add]; exact hlt.le)
    rw [zero_add] at hsum
    have hquantized := quantize_fitting ⟨hwhole, hnonneg, hlt⟩
    exact Except.bind_eq_ok.mpr ⟨_, hgross, Except.bind_eq_ok.mpr ⟨_, hcalc,
      Except.bind_eq_ok.mpr ⟨_, hsum, Except.bind_eq_ok.mpr ⟨_, hquantized,
        Except.bind_eq_ok.mpr ⟨_, hminus, Except.bind_eq_ok.mpr ⟨_, hcharge, rfl⟩⟩⟩⟩⟩⟩

/-! Both kinds -/

theorem posting_exclusive_eq (basePrice : ℚ) (taxes : List TaxRuleSchema) (category : String)
    {mode : Option TaxMode} (hoff : mode ≠ some .off) (hinc : mode ≠ some .inclusive) :
    countryPackTaxPosting basePrice (storedTaxes taxes) category mode =
      (Decimal.finite basePrice).quantize.bind fun gross =>
        (calculateTaxes gross (taxes.map TaxRuleSchema.rule) category).bind fun c =>
          (Decimal.finite c.totalWithTaxes).quantize.bind fun total =>
            .ok ⟨c.lines, gross, total⟩ := by
  unfold countryPackTaxPosting
  rw [parseRules_storedTaxes]
  match mode, hoff, hinc with
  | none, _, _ => rfl
  | some .exclusive, _, _ => rfl
  | some .off, hoff, _ => exact absurd rfl hoff
  | some .inclusive, _, hinc => exact absurd rfl hinc

/-- Where the amounts of no rule are included in the price. -/
def OnTop (gross : ℚ) (taxes : List TaxRuleSchema) (category : String) : Prop :=
  NothingIncluded gross gross (usedRules (selected category (taxes.map TaxRuleSchema.rule)))

theorem addsUp_iff_of_nonneg {basePrice : ℚ} {taxes : List TaxRuleSchema} {category : String}
    {mode : Option TaxMode} {p : CountryPackTaxPosting} (h0 : 0 ≤ basePrice)
    (h : countryPackTaxPosting basePrice (storedTaxes taxes) category mode = .ok p) :
    AddsUp p ↔ mode = some .off ∨ mode = some .inclusive ∨
      OnTop (cents basePrice / 100) taxes category := by
  by_cases hoff : mode = some .off
  · subst hoff
    obtain ⟨gross, -, h⟩ := Except.bind_eq_ok.mp h
    obtain rfl := Except.ok.inj h
    exact ⟨fun _ => .inl rfl, fun _ => add_zero gross⟩
  · by_cases hinc : mode = some .inclusive
    · subst hinc
      obtain ⟨gross, c, -, -, -, rfl⟩ := (posting_inclusive_iff h0).mp h
      exact ⟨fun _ => .inr (.inl rfl), fun _ => sub_add_cancel gross _⟩
    · rw [posting_exclusive_eq basePrice taxes category hoff hinc] at h
      obtain ⟨gross, hgross, h⟩ := Except.bind_eq_ok.mp h
      obtain ⟨c, hcalc, h⟩ := Except.bind_eq_ok.mp h
      obtain ⟨total, htotal, h⟩ := Except.bind_eq_ok.mp h
      obtain rfl := Except.ok.inj h
      rw [addsUp_on_top (unitRate_of_schema taxes) (gross_fitting h0 hgross) hcalc htotal]
      obtain ⟨-, rfl⟩ := Decimal.quantize_ok.mp hgross
      exact ⟨fun hnone => .inr (.inr hnone), fun hcond => (hcond.resolve_left hoff).resolve_left hinc⟩

/-- A price with room for all the taxes is posted. -/
theorem exists_posting_of_nonneg {basePrice : ℚ} (taxes : List TaxRuleSchema) (category : String)
    (mode : Option TaxMode) (h0 : 0 ≤ basePrice)
    (hbound : basePrice * 2 ^ taxes.length ≤ 10 ^ 25) :
    ∃ p, countryPackTaxPosting basePrice (storedTaxes taxes) category mode = .ok p := by
  have hpow : (1 : ℚ) ≤ 2 ^ taxes.length := one_le_pow₀ (by norm_num)
  have hbase : basePrice ≤ 10 ^ 25 := by nlinarith
  have hwhole : Whole ((10 : ℚ) ^ 25) := ⟨10 ^ 27, by norm_num⟩
  have hquant : (Decimal.finite basePrice).quantize = .ok ((cents basePrice : ℚ) / 100) :=
    quantize_between hwhole (by norm_num) h0 hbase
  have hg := gross_fitting h0 hquant
  have htwice : (cents basePrice : ℚ) / 100 ≤ 2 * basePrice := by
    unfold cents halfUp
    rw [if_pos (by linarith)]
    by_cases hsmall : basePrice * 100 < 1 / 2
    · have hzero : ⌊basePrice * 100 + 1 / 2⌋ = 0 :=
        Int.floor_eq_zero_iff.mpr ⟨by linarith, by linarith⟩
      rw [hzero]
      push_cast
      linarith
    · have hfloor := Int.floor_le (basePrice * 100 + 1 / 2)
      linarith
  have hroom : (cents basePrice : ℚ) / 100 * 2 ^ taxes.length < 10 ^ 26 := by nlinarith
  have hunit := unitRate_of_schema taxes
  by_cases hoff : mode = some .off
  · subst hoff
    exact ⟨_, Except.bind_eq_ok.mpr ⟨_, hquant, rfl⟩⟩
  · by_cases hinc : mode = some .inclusive
    · subst hinc
      obtain ⟨c, hcalc⟩ := @exists_calculateTaxes_inclusive _ hunit _ category hg
      refine ⟨_, (posting_inclusive_iff h0).mpr ⟨_, c, hquant, hcalc, ?_, rfl⟩⟩
      exact (sum_included_le hunit hg hcalc).trans_lt (by rwa [List.length_map])
    · obtain ⟨c, hcalc⟩ := exists_calculateTaxes hunit category hg (by rwa [List.length_map])
      obtain ⟨-, -, htotal, -⟩ := calculateTaxes_fitting hunit hg hcalc
      rw [posting_exclusive_eq basePrice taxes category hoff hinc]
      exact ⟨_, Except.bind_eq_ok.mpr ⟨_, hquant, Except.bind_eq_ok.mpr ⟨c, hcalc,
        Except.bind_eq_ok.mpr ⟨_, quantize_fitting htotal, rfl⟩⟩⟩⟩

/-! Prices of any sign -/

def CountryPackTaxPosting.negated (p : CountryPackTaxPosting) : CountryPackTaxPosting where
  lines := p.lines.map fun l => { l with amount := -l.amount }
  roomChargeAmount := -p.roomChargeAmount
  totalAmount := -p.totalAmount

theorem sum_negated {α : Type} (f : α → ℚ) (l : List α) :
    (l.map fun x => -f x).sum = -(l.map f).sum := by
  induction l with
  | nil => exact neg_zero.symm
  | cons x l ih => rw [List.map_cons, List.map_cons, List.sum_cons, List.sum_cons, ih, neg_add]

theorem negated_lines (lines : List TaxLine) :
    ((lines.map fun l => { l with amount := -l.amount }).map TaxLine.amount).sum =
      -(lines.map TaxLine.amount).sum := by
  rw [List.map_map]
  exact sum_negated TaxLine.amount lines

theorem addsUp_negated {p : CountryPackTaxPosting} : AddsUp p.negated ↔ AddsUp p := by
  unfold AddsUp CountryPackTaxPosting.negated
  rw [negated_lines]
  constructor
  · intro h
    linarith
  · intro h
    linarith

theorem calculateTaxes_neg {rules : List Rule} (hrates : ∀ r ∈ rules, ∃ q, UnitRate r q)
    {gross : ℚ} {category : String} {c : TaxCalculation}
    (h : calculateTaxes gross rules category = .ok c) :
    calculateTaxes (-gross) rules category =
      .ok ⟨c.lines.map fun l => { l with amount := -l.amount }, -gross, -c.totalWithTaxes⟩ := by
  obtain ⟨hnan, entries, final, hrules, hwalk, htotal, hlines, -⟩ := calculateTaxes_ok.mp h
  have hused : ∀ r ∈ entries.map Prod.fst, ∃ q, UnitRate r q := by
    intro r hr
    rw [hrules] at hr
    exact unitRate_of_used hrates hr
  refine calculateTaxes_ok.mpr ⟨hnan, negated entries, -final, ?_, hwalk.neg hused,
    Decimal.quantize_neg htotal, ?_, rfl⟩
  · rw [negated_rules, hrules]
  · rw [hlines, negated, List.map_map, List.map_map]
    rfl

theorem sumAmounts_neg {lines : List TaxLine} {t s : ℚ} (h : sumAmounts lines t = .ok s) :
    sumAmounts (lines.map fun l => { l with amount := -l.amount }) (-t) = .ok (-s) := by
  induction lines generalizing t with
  | nil =>
    obtain rfl := Except.ok.inj h
    rfl
  | cons l rest ih =>
    obtain ⟨t', hplus, h⟩ := Except.bind_eq_ok.mp h
    exact Except.bind_eq_ok.mpr ⟨_, plus_neg hplus, ih h⟩

/-- A negated price has the negated posting. -/
theorem posting_neg {basePrice : ℚ} {taxes : List TaxRuleSchema} {category : String}
    {mode : Option TaxMode} {p : CountryPackTaxPosting}
    (h : countryPackTaxPosting basePrice (storedTaxes taxes) category mode = .ok p) :
    countryPackTaxPosting (-basePrice) (storedTaxes taxes) category mode = .ok p.negated := by
  have hunit := unitRate_of_schema taxes
  by_cases hoff : mode = some .off
  · subst hoff
    obtain ⟨gross, hgross, h⟩ := Except.bind_eq_ok.mp h
    obtain rfl := Except.ok.inj h
    exact Except.bind_eq_ok.mpr ⟨_, Decimal.quantize_neg hgross, rfl⟩
  · by_cases hinc : mode = some .inclusive
    · subst hinc
      unfold countryPackTaxPosting at h ⊢
      rw [parseRules_storedTaxes] at h ⊢
      obtain ⟨gross, hgross, h⟩ := Except.bind_eq_ok.mp h
      obtain ⟨c, hcalc, h⟩ := Except.bind_eq_ok.mp h
      obtain ⟨sum, hsum, h⟩ := Except.bind_eq_ok.mp h
      obtain ⟨taxTotal, htax, h⟩ := Except.bind_eq_ok.mp h
      obtain ⟨room, hroom, h⟩ := Except.bind_eq_ok.mp h
      obtain ⟨charge, hcharge, h⟩ := Except.bind_eq_ok.mp h
      obtain rfl := Except.ok.inj h
      have hsum' := sumAmounts_neg hsum
      rw [neg_zero] at hsum'
      exact Except.bind_eq_ok.mpr ⟨_, Decimal.quantize_neg hgross, Except.bind_eq_ok.mpr
        ⟨_, calculateTaxes_neg (unitRate_setInclusive hunit) hcalc, Except.bind_eq_ok.mpr ⟨_, hsum',
          Except.bind_eq_ok.mpr ⟨_, Decimal.quantize_neg htax,
          Except.bind_eq_ok.mpr ⟨_, minus_neg hroom,
            Except.bind_eq_ok.mpr ⟨_, Decimal.quantize_neg hcharge, rfl⟩⟩⟩⟩⟩⟩
    · rw [posting_exclusive_eq basePrice taxes category hoff hinc] at h
      rw [posting_exclusive_eq (-basePrice) taxes category hoff hinc]
      obtain ⟨gross, hgross, h⟩ := Except.bind_eq_ok.mp h
      obtain ⟨c, hcalc, h⟩ := Except.bind_eq_ok.mp h
      obtain ⟨total, htotal, h⟩ := Except.bind_eq_ok.mp h
      obtain rfl := Except.ok.inj h
      exact Except.bind_eq_ok.mpr ⟨_, Decimal.quantize_neg hgross, Except.bind_eq_ok.mpr
        ⟨_, calculateTaxes_neg hunit hcalc,
          Except.bind_eq_ok.mpr ⟨_, Decimal.quantize_neg htotal, rfl⟩⟩⟩

/-- No rule in use that is marked inclusive takes anything from a price of this size. -/
def NoneIncluded (basePrice : ℚ) (taxes : List TaxRuleSchema) (category : String) : Prop :=
  OnTop (cents |basePrice| / 100) taxes category

theorem addsUp_iff {basePrice : ℚ} {taxes : List TaxRuleSchema} {category : String}
    {mode : Option TaxMode} {p : CountryPackTaxPosting}
    (h : countryPackTaxPosting basePrice (storedTaxes taxes) category mode = .ok p) :
    AddsUp p ↔ mode = some .off ∨ mode = some .inclusive ∨
      NoneIncluded basePrice taxes category := by
  unfold NoneIncluded
  rcases le_total 0 basePrice with h0 | h0
  · rw [abs_of_nonneg h0]
    exact addsUp_iff_of_nonneg h0 h
  · rw [abs_of_nonpos h0, ← addsUp_negated]
    exact addsUp_iff_of_nonneg (neg_nonneg.mpr h0) (posting_neg h)

theorem exists_posting {basePrice : ℚ} (taxes : List TaxRuleSchema) (category : String)
    (mode : Option TaxMode) (hbound : |basePrice| * 2 ^ taxes.length ≤ 10 ^ 25) :
    ∃ p, countryPackTaxPosting basePrice (storedTaxes taxes) category mode = .ok p := by
  rcases le_total 0 basePrice with h0 | h0
  · rw [abs_of_nonneg h0] at hbound
    exact exists_posting_of_nonneg taxes category mode h0 hbound
  · rw [abs_of_nonpos h0] at hbound
    obtain ⟨p, hp⟩ := exists_posting_of_nonneg taxes category mode (neg_nonneg.mpr h0) hbound
    have hneg := posting_neg hp
    rw [neg_neg] at hneg
    exact ⟨_, hneg⟩

/-! The folio -/

/-- The charges that replace the taxes of a booking, with the amount left for its room. -/
def chargesWritten (amount : Money) (bid : UUID) (folio : List FolioTransaction) : Money :=
  amount + ((folio.filter (isCountryPackTax bid)).map FolioTransaction.amount).sum

theorem whole_posting {basePrice : ℚ} {taxes : List TaxRuleSchema} {category : String}
    {mode : Option TaxMode} {p : CountryPackTaxPosting}
    (h : countryPackTaxPosting basePrice (storedTaxes taxes) category mode = .ok p) :
    Whole p.roomChargeAmount ∧ Whole p.totalAmount ∧ ∀ l ∈ p.lines, Whole l.amount := by
  have hlines {gross : ℚ} {rules : List Rule} {c : TaxCalculation}
      (hcalc : calculateTaxes gross rules category = .ok c) : ∀ l ∈ c.lines, Whole l.amount := by
    obtain ⟨entries, hentries⟩ := exists_accounts hcalc
    obtain ⟨final, hwalk, -⟩ := hentries.walk
    intro l hl
    rw [hentries.lines] at hl
    obtain ⟨e, he, rfl⟩ := List.mem_map.mp hl
    exact hwalk.whole e he
  by_cases hoff : mode = some .off
  · subst hoff
    obtain ⟨gross, hgross, h⟩ := Except.bind_eq_ok.mp h
    obtain rfl := Except.ok.inj h
    have hwhole := (Decimal.whole_of_quantize hgross).1
    exact ⟨hwhole, hwhole, fun l hl => by cases hl⟩
  · by_cases hinc : mode = some .inclusive
    · subst hinc
      obtain ⟨gross, hgross, h⟩ := Except.bind_eq_ok.mp h
      obtain ⟨c, hcalc, h⟩ := Except.bind_eq_ok.mp h
      obtain ⟨_, -, h⟩ := Except.bind_eq_ok.mp h
      obtain ⟨_, -, h⟩ := Except.bind_eq_ok.mp h
      obtain ⟨_, -, h⟩ := Except.bind_eq_ok.mp h
      obtain ⟨charge, hcharge, h⟩ := Except.bind_eq_ok.mp h
      obtain rfl := Except.ok.inj h
      exact ⟨(Decimal.whole_of_quantize hcharge).1, (Decimal.whole_of_quantize hgross).1,
        hlines hcalc⟩
    · rw [posting_exclusive_eq basePrice taxes category hoff hinc] at h
      obtain ⟨gross, hgross, h⟩ := Except.bind_eq_ok.mp h
      obtain ⟨c, hcalc, h⟩ := Except.bind_eq_ok.mp h
      obtain ⟨total, htotal, h⟩ := Except.bind_eq_ok.mp h
      obtain rfl := Except.ok.inj h
      exact ⟨(Decimal.whole_of_quantize hgross).1, (Decimal.whole_of_quantize htotal).1,
        hlines hcalc⟩

theorem cents_of_whole {x : ℚ} (h : Whole x) : (cents x : ℚ) = x * 100 := by
  obtain ⟨n, rfl⟩ := h
  rw [cents_whole]
  ring

theorem sum_cents {lines : List TaxLine} (h : ∀ l ∈ lines, Whole l.amount) :
    ((lines.map fun l => cents l.amount).sum : ℚ) = (lines.map TaxLine.amount).sum * 100 := by
  induction lines with
  | nil => simp
  | cons l rest ih =>
    obtain ⟨hl, hrest⟩ := List.forall_mem_cons.mp h
    rw [List.map_cons, List.map_cons, List.sum_cons, List.sum_cons, Int.cast_add, ih hrest,
      cents_of_whole hl, add_mul]

theorem sum_coe {α : Type} (f : α → ℤ) (l : List α) :
    (l.map fun x => (f x : Money)).sum = ((l.map f).sum : ℤ) := by
  induction l with
  | nil => rfl
  | cons x l ih =>
    rw [List.map_cons, List.map_cons, List.sum_cons, List.sum_cons, ih, WithTop.coe_add]

theorem sum_taxRows (env : Env) (bid : UUID) (taxes : List (Money × String)) :
    (taxRows env bid taxes).map FolioTransaction.amount = taxes.map Prod.fst := by
  refine List.ext_getElem (by simp [taxRows]) fun i hi hi' => ?_
  simp [taxRows]

/-- What the engine returns for the price of a stay is what is posted to its folio. -/
theorem posting_of_pack {env : Env} {propertyId : UUID} {rawRules : Json} {mode : TaxMode} {n : ℤ}
    {p : CountryPackTaxPosting} (hpack : env.countryPack propertyId = some (rawRules, mode))
    (hp : countryPackTaxPosting (n / 100) rawRules "room_charge" (some mode) = .ok p) :
    posting env propertyId (n : ℤ) = inCents p := by
  unfold posting Env.taxPosting
  rw [hpack]
  by_cases hoff : mode = .off
  · subst hoff
    obtain ⟨gross, hgross, h⟩ := Except.bind_eq_ok.mp hp
    obtain rfl := Except.ok.inj h
    obtain ⟨-, rfl⟩ := Decimal.quantize_ok.mp hgross
    simp [inCents, cents_whole]
  · simp only [hoff, if_false, hp]
    rfl

/-- The charges are the total of the posting exactly if it adds up. -/
theorem chargesWritten_iff {p : CountryPackTaxPosting} (hroom : Whole p.roomChargeAmount)
    (htotal : Whole p.totalAmount) (hlines : ∀ l ∈ p.lines, Whole l.amount) {env : Env}
    {bid propertyId : UUID} {base amount : Money} {db db' : Db}
    (hposting : posting env propertyId base = inCents p)
    (h : (replaceCountryPackTaxCharges env bid propertyId base).exec db = (.ok amount, db')) :
    chargesWritten amount bid db'.folio = (cents p.totalAmount : ℤ) ↔ AddsUp p := by
  obtain ⟨-, -, rfl, rfl⟩ := exec_replaceTaxes.mp h
  rw [hposting]
  have hfilter : (withoutTaxes bid db.folio ++ taxRows env bid (inCents p).2).filter
      (isCountryPackTax bid) = taxRows env bid (inCents p).2 := by
    rw [List.filter_append, List.filter_eq_self.mpr fun ft hft => tax_of_mem_taxRows hft]
    unfold withoutTaxes
    rw [List.filter_filter, List.filter_eq_nil_iff.mpr, List.nil_append]
    simp
  unfold chargesWritten
  rw [hfilter, sum_taxRows]
  unfold inCents AddsUp
  rw [List.map_map]
  change ((cents p.roomChargeAmount : ℤ) : Money) +
    (p.lines.map fun l => ((cents l.amount : ℤ) : Money)).sum = _ ↔ _
  rw [sum_coe, ← WithTop.coe_add, WithTop.coe_inj, ← @Int.cast_inj ℚ, Int.cast_add, sum_cents hlines,
    cents_of_whole hroom, cents_of_whole htotal]
  constructor
  · intro heq
    linarith
  · intro heq
    linarith

/-- A posting whose taxes are on top of the price adds up exactly if no rule in use that is
marked inclusive takes anything; the charges that a property with this pack puts on a folio
for this price are its total exactly if it adds up. A price with room for all the taxes is
posted. -/
theorem posting_adds_up_iff (basePrice : ℚ) (taxes : List TaxRuleSchema) (category : String)
    (mode : Option TaxMode) :
    (|basePrice| * 2 ^ taxes.length ≤ 10 ^ 25 →
      ∃ p, countryPackTaxPosting basePrice (storedTaxes taxes) category mode = .ok p) ∧
    ∀ p, countryPackTaxPosting basePrice (storedTaxes taxes) category mode = .ok p →
      (AddsUp p ↔ mode = some .off ∨ mode = some .inclusive ∨
        NoneIncluded basePrice taxes category) ∧
      ∀ (env : Env) (bid propertyId : UUID) (m : TaxMode) (n : ℤ) (amount : Money) (db db' : Db),
        basePrice = n / 100 → category = "room_charge" → mode = some m →
        env.countryPack propertyId = some (storedTaxes taxes, m) →
        (replaceCountryPackTaxCharges env bid propertyId (n : ℤ)).exec db = (.ok amount, db') →
        (chargesWritten amount bid db'.folio = (cents p.totalAmount : ℤ) ↔ AddsUp p) := by
  refine ⟨exists_posting taxes category mode, fun p hp => ⟨addsUp_iff hp, ?_⟩⟩
  rintro env bid propertyId m n amount db db' rfl rfl rfl hpack hexec
  obtain ⟨hroom, htotal, hlines⟩ := whole_posting hp
  exact chargesWritten_iff hroom htotal hlines (posting_of_pack hpack hp) hexec

set_option maxRecDepth 100000 in
theorem posting_adds_up_iff_included :
    (∃ p, countryPackTaxPosting 110 (storedTaxes [Demo.tax 'v' Demo.tenth false none])
      "room_charge" (some .exclusive) = .ok p) ∧ AddsUp ⟨[⟨"v", "Tax", 10⟩], 100, 110⟩ :=
  ⟨(posting_adds_up_iff 110 [Demo.tax 'v' Demo.tenth false none] "room_charge"
      (some .exclusive)).1 (by norm_num),
    ((posting_adds_up_iff 110 [Demo.tax 'v' Demo.tenth false none] "room_charge"
      (some .inclusive)).2 ⟨[⟨"v", "Tax", 10⟩], 100, 110⟩ (by decide +kernel)).1.mpr
        (.inr (.inl rfl))⟩

set_option maxRecDepth 100000 in
/-- A rule that is marked inclusive, on top of the price: its line is posted, but the total
is the room charge alone. -/
theorem included_line_on_top :
    countryPackTaxPosting 110 (storedTaxes [Demo.tax 'v' Demo.tenth true none]) "room_charge"
        (some .exclusive) = .ok ⟨[⟨"v", "Tax", 10⟩], 110, 110⟩ ∧
      ¬ AddsUp ⟨[⟨"v", "Tax", 10⟩], 110, 110⟩ :=
  ⟨by decide +kernel, fun h => absurd (show (110 : ℚ) + (10 + 0) = 110 from h) (by norm_num)⟩

/-! What is left of the price -/

def rateValue (r : Rule) : ℚ :=
  match r.rate with
  | some (.finite q) => q
  | _ => 0

/-- The tax that a rule extracts from a price: what is left of that after the price without
the tax, rounded to cents. -/
def includedTax (gross : ℚ) (r : Rule) : ℚ := gross - taxNet gross (rateValue r)

theorem shareOf_inclusive {gross q : ℚ} {r : Rule} (hg : Fitting gross) (hr : UnitRate r q)
    (hinc : r.inclusive = true) : shareOf gross r = includedTax gross r := by
  have hvalue : rateValue r = q := by
    unfold rateValue
    rw [hr.1]
  rw [shareOf_eq (compoundAmount_fitting hr hg), taxAmount, if_pos hinc, includedTax, hvalue]

/-- With the taxes in the price, the room charge stays between zero and the gross amount
exactly if that fits the digits and the taxes that the rules extract, each from the whole
of it, are no more than the gross amount. -/
theorem inclusive_within_gross_iff {basePrice : ℚ} (h0 : 0 ≤ basePrice)
    (taxes : List TaxRuleSchema) (category : String) :
    (∃ p, countryPackTaxPosting basePrice (storedTaxes taxes) category (some .inclusive) = .ok p ∧
        0 ≤ p.roomChargeAmount ∧ p.roomChargeAmount ≤ cents basePrice / 100 ∧
        ∀ l ∈ p.lines, 0 ≤ l.amount) ↔
      |cents basePrice| < 10 ^ 28 ∧
        ((usedRules (selected category ((taxes.map TaxRuleSchema.rule).map setInclusive))).map
          (includedTax (cents basePrice / 100))).sum ≤ cents basePrice / 100 := by
  have hunit := unitRate_of_schema taxes
  have hlines {gross : ℚ} {c : TaxCalculation} (hg : Fitting gross)
      (hcalc : calculateTaxes gross ((taxes.map TaxRuleSchema.rule).map setInclusive) category =
        .ok c) : (c.lines.map TaxLine.amount).sum = ((usedRules (selected category
          ((taxes.map TaxRuleSchema.rule).map setInclusive))).map (includedTax gross)).sum := by
    rw [(included_lines hunit hg hcalc).1]
    congr 1
    refine List.map_congr_left fun r hr => ?_
    obtain ⟨q, hq⟩ := unitRate_of_used (unitRate_setInclusive hunit) hr
    exact shareOf_inclusive hg hq (inclusive_of_used hr)
  constructor
  · rintro ⟨p, hp, hroom, -, -⟩
    obtain ⟨gross, c, hgross, hcalc, -, rfl⟩ := (posting_inclusive_iff h0).mp hp
    have hg := gross_fitting h0 hgross
    obtain ⟨hlt, rfl⟩ := Decimal.quantize_ok.mp hgross
    refine ⟨hlt, ?_⟩
    rw [← hlines hg hcalc]
    exact sub_nonneg.mp hroom
  · rintro ⟨hlt, hsum⟩
    have hgross : (Decimal.finite basePrice).quantize = .ok ((cents basePrice : ℚ) / 100) :=
      Decimal.quantize_ok.mpr ⟨hlt, rfl⟩
    have hg := gross_fitting h0 hgross
    obtain ⟨c, hcalc⟩ := @exists_calculateTaxes_inclusive _ hunit _ category hg
    obtain ⟨-, hfit⟩ := included_lines hunit hg hcalc
    rw [← hlines hg hcalc] at hsum
    refine ⟨_, (posting_inclusive_iff h0).mpr ⟨_, c, hgross, hcalc, hsum.trans_lt hg.lt, rfl⟩,
      sub_nonneg.mpr hsum, sub_le_self _ (whole_sum hfit).2, fun l hl => (hfit l hl).nonneg⟩

namespace Demo

def whole : Rate := rate 100 "1" 1 (by decide +kernel) (by norm_num) (by norm_num)

end Demo

set_option maxRecDepth 100000 in
theorem inclusive_within_gross_iff_two : ∃ p,
    countryPackTaxPosting 100 (storedTaxes [Demo.tax 'a' Demo.whole true none,
        Demo.tax 'b' Demo.whole true none]) "room_charge" (some .inclusive) = .ok p ∧
      0 ≤ p.roomChargeAmount ∧ p.roomChargeAmount ≤ cents 100 / 100 ∧
      ∀ l ∈ p.lines, 0 ≤ l.amount :=
  (inclusive_within_gross_iff (by norm_num) [Demo.tax 'a' Demo.whole true none,
    Demo.tax 'b' Demo.whole true none] "room_charge").mpr ⟨by decide +kernel, by decide +kernel⟩

set_option maxRecDepth 100000 in
/-- Three taxes of half the price each. -/
theorem negative_room_charge :
    countryPackTaxPosting 100 (storedTaxes [Demo.tax 'a' Demo.whole true none,
        Demo.tax 'b' Demo.whole true none, Demo.tax 'c' Demo.whole true none]) "room_charge"
      (some .inclusive) =
    .ok ⟨[⟨"a", "Tax", 50⟩, ⟨"b", "Tax", 50⟩, ⟨"c", "Tax", 50⟩], -50, 100⟩ := by decide +kernel

end OpenPms.Tax
