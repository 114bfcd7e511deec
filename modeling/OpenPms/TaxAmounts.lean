import OpenPms.TaxLines

/-!
Amounts at rates between zero and one, which are those of the schema. A tax lies between
zero and the price that it is taken from, in whole cents. While the running total fits the
digits it is the price and the exclusive taxes, exactly; once it does not, it never does
again, and no result is returned. A negative price has the negative amounts.
-/
namespace OpenPms.Tax

open Decimals

/-- The rate of the rule, between zero and one. -/
def UnitRate (r : Rule) (q : ℚ) : Prop := r.rate = some (.finite q) ∧ 0 ≤ q ∧ q ≤ 1

/-- What remains of a price without the tax that it includes. -/
def taxNet (price q : ℚ) : ℚ := cents (round28 (price / round28 (1 + q))) / 100

/-- The tax that is added to a price. -/
def taxAdded (price q : ℚ) : ℚ := cents (round28 (price * q)) / 100

theorem map_finite_ok {m : Except Signal ℚ} {d : Decimal} :
    m.map Decimal.finite = .ok d ↔ ∃ y, m = .ok y ∧ Decimal.finite y = d := by
  cases m with
  | error e => exact ⟨(fun h => by cases h), fun ⟨_, h, _⟩ => by cases h⟩
  | ok y => exact ⟨fun h => ⟨y, rfl, Except.ok.inj h⟩, fun ⟨_, h, hd⟩ => by cases h; exact congrArg _ hd⟩

section Amounts
variable {x q a : ℚ} {r : Rule}

theorem parsedRate_ok {rate : Decimal} (h : r.rate = some rate) : r.parsedRate = .ok rate := by
  unfold Rule.parsedRate
  rw [h]

theorem divisor_bounds (h : 0 ≤ q ∧ q ≤ 1) : 1 ≤ round28 (1 + q) ∧ round28 (1 + q) ≤ 2 := by
  have htwo : Short 2 := ⟨2, 0, by norm_num, by norm_num⟩
  exact ⟨le_round28 short_one (by linarith), round28_le htwo (by linarith)⟩

theorem taxNet_bounds (hq : 0 ≤ q ∧ q ≤ 1) (hx : Whole x) (h0 : 0 ≤ x) (hlt : x < 10 ^ 26) :
    0 ≤ taxNet x q ∧ taxNet x q ≤ x := by
  obtain ⟨hone, -⟩ := divisor_bounds hq
  have hshort : Short x := hx.short (by rw [abs_of_nonneg h0]; exact hlt.le)
  have hdiv : x / round28 (1 + q) ≤ x := div_le_self h0 hone
  have hdiv0 : 0 ≤ x / round28 (1 + q) := div_nonneg h0 (by linarith)
  exact ⟨le_cents whole_zero (le_round28 short_zero hdiv0), cents_le hx (round28_le hshort hdiv)⟩

theorem taxAdded_nonneg (hq : 0 ≤ q) (h0 : 0 ≤ x) : 0 ≤ taxAdded x q :=
  le_cents whole_zero (le_round28 short_zero (mul_nonneg h0 hq))

theorem taxAdded_le (hq : 0 ≤ q ∧ q ≤ 1) (hx : Whole x) (h0 : 0 ≤ x) (hlt : x < 10 ^ 26) :
    taxAdded x q ≤ x := by
  have hshort : Short x := hx.short (by rw [abs_of_nonneg h0]; exact hlt.le)
  exact cents_le hx (round28_le hshort (mul_le_of_le_one_right h0 hq.2))

/-- A quotient or product that lies between zero and whole cents is quantized. -/
theorem quantize_between {y : ℚ} (hx : Whole x) (hlt : x < 10 ^ 26) (h0 : 0 ≤ y) (hle : y ≤ x) :
    (Decimal.finite y).quantize = .ok (cents y / 100) := by
  have hlow : 0 ≤ (cents y : ℚ) / 100 := le_cents whole_zero h0
  have hhigh : (cents y : ℚ) / 100 ≤ x := cents_le hx hle
  refine Decimal.quantize_ok.mpr ⟨?_, rfl⟩
  have habs : |(cents y : ℚ)| < 10 ^ 28 := by
    rw [abs_of_nonneg (by linarith)]
    linarith
  exact_mod_cast habs

theorem netOf_ok (hq : 0 ≤ q ∧ q ≤ 1) (hx : Whole x) (h0 : 0 ≤ x) (hlt : x < 10 ^ 26) :
    netOf x (.finite q) = .ok (taxNet x q) := by
  obtain ⟨hone, htwo⟩ := divisor_bounds hq
  have hshort : Short x := hx.short (by rw [abs_of_nonneg h0]; exact hlt.le)
  have hadd : Decimal.add (.finite 1) (.finite q) = .ok (.finite (round28 (1 + q))) := by
    change (plus 1 q).map Decimal.finite = _
    unfold plus
    rw [result_of_lt (abs_le.mpr ⟨by linarith, by linarith⟩)]
    rfl
  have hdiv0 : 0 ≤ x / round28 (1 + q) := div_nonneg h0 (by linarith)
  have hdiv : x / round28 (1 + q) ≤ x := div_le_self h0 hone
  have hquot : Decimal.div (.finite x) (.finite (round28 (1 + q))) =
      .ok (.finite (round28 (x / round28 (1 + q)))) := by
    have hne : round28 (1 + q) ≠ 0 := by linarith
    change (if round28 (1 + q) = 0 then _ else (result (x / round28 (1 + q))).map _) = _
    rw [if_neg hne, result_of_lt (abs_le.mpr ⟨by linarith, by linarith⟩)]
    rfl
  refine Except.bind_eq_ok.mpr ⟨_, hadd, Except.bind_eq_ok.mpr ⟨_, hquot, ?_⟩⟩
  exact quantize_between hx hlt (le_round28 short_zero hdiv0) (round28_le hshort hdiv)

/-- The tax that a rule takes from a price. -/
def taxAmount (price : ℚ) (r : Rule) (q : ℚ) : ℚ :=
  if r.inclusive then price - taxNet price q else taxAdded price q

theorem taxAmount_bounds (hq : 0 ≤ q ∧ q ≤ 1) (hx : Whole x) (h0 : 0 ≤ x) (hlt : x < 10 ^ 26) :
    0 ≤ taxAmount x r q ∧ taxAmount x r q ≤ x := by
  unfold taxAmount
  obtain ⟨hnet0, hnet⟩ := taxNet_bounds hq hx h0 hlt
  split
  · exact ⟨by linarith, by linarith⟩
  · exact ⟨taxAdded_nonneg hq.1 h0, taxAdded_le hq hx h0 hlt⟩

theorem whole_cents (n : ℤ) : Whole ((n : ℚ) / 100) := ⟨n, rfl⟩

theorem whole_taxAmount (hx : Whole x) : Whole (taxAmount x r q) := by
  unfold taxAmount
  split
  · exact hx.sub (whole_cents _)
  · exact whole_cents _

theorem minus_whole {y : ℚ} (hx : Whole x) (hy : Whole y) (h : |x - y| < 10 ^ 26) :
    minus x y = .ok (x - y) ∧ (Decimal.finite (x - y)).quantize = .ok (x - y) :=
  ⟨result_whole (hx.sub hy) h.le, Decimal.quantize_whole (hx.sub hy) h⟩

theorem compoundAmount_ok (hr : UnitRate r q) (hx : Whole x) (h0 : 0 ≤ x) (hlt : x < 10 ^ 26) :
    compoundAmount x r = .ok (taxAmount x r q) := by
  obtain ⟨hrate, hq⟩ := hr
  have hshort : Short x := hx.short (by rw [abs_of_nonneg h0]; exact hlt.le)
  unfold compoundAmount taxAmount
  refine Except.bind_eq_ok.mpr ⟨_, parsedRate_ok hrate, ?_⟩
  split
  · obtain ⟨hnet0, hnet⟩ := taxNet_bounds hq hx h0 hlt
    obtain ⟨hminus, hquant⟩ := minus_whole hx (whole_cents (cents (round28 (x / round28 (1 + q)))))
      (abs_lt.mpr ⟨by unfold taxNet at hnet; linarith, by unfold taxNet at hnet0; linarith⟩)
    by_cases hzero : q = 0
    · have hsame : taxNet x 0 = x := by
        obtain ⟨n, rfl⟩ := hx
        unfold taxNet
        rw [add_zero, round28_eq short_one, div_one, round28_eq hshort, cents_whole]
      subst hzero
      rw [if_pos rfl]
      change (minus x x).bind _ = _
      rw [hsame, sub_self, minus_self]
      exact quantize_zero
    · rw [if_neg (by simpa using hzero)]
      exact Except.bind_eq_ok.mpr ⟨_, netOf_ok hq hx h0 hlt,
        Except.bind_eq_ok.mpr ⟨_, hminus, hquant⟩⟩
  · have hmul0 : 0 ≤ x * q := mul_nonneg h0 hq.1
    have hmul : x * q ≤ x := mul_le_of_le_one_right h0 hq.2
    have hprod : Decimal.mul (.finite x) (.finite q) = .ok (.finite (round28 (x * q))) := by
      change (result (x * q)).map Decimal.finite = _
      rw [result_of_lt (abs_le.mpr ⟨by linarith, by linarith⟩)]
      rfl
    refine Except.bind_eq_ok.mpr ⟨_, hprod, ?_⟩
    exact quantize_between hx hlt (le_round28 short_zero hmul0) (round28_le hshort hmul)

/-- A tax added to a price of any size is not negative. -/
theorem nonneg_of_exclusive (hr : UnitRate r q) (hinc : r.inclusive = false) (h0 : 0 ≤ x)
    (h : compoundAmount x r = .ok a) : 0 ≤ a := by
  unfold compoundAmount at h
  obtain ⟨rate, hrate, h⟩ := Except.bind_eq_ok.mp h
  rw [parsedRate_ok hr.1] at hrate
  obtain rfl := Except.ok.inj hrate
  rw [if_neg (by simp [hinc])] at h
  obtain ⟨amt, hmul, h⟩ := Except.bind_eq_ok.mp h
  obtain ⟨y, hres, rfl⟩ := map_finite_ok.mp hmul
  obtain ⟨-, rfl⟩ := Decimal.quantize_ok.mp h
  rw [result_eq hres]
  exact le_cents whole_zero (le_round28 short_zero (mul_nonneg h0 hr.2.1))

end Amounts

/-! Walks -/

/-- A price in whole cents that fits the digits. -/
structure Fitting (x : ℚ) : Prop where
  whole : Whole x
  nonneg : 0 ≤ x
  lt : x < 10 ^ 26

theorem Fitting.priceOf {gross running : ℚ} (hg : Fitting gross) (hx : Fitting running) (r : Rule) :
    Fitting (priceOf gross running r) := by
  unfold Tax.priceOf
  split
  · exact hx
  · exact hg

theorem compoundAmount_fitting {x q : ℚ} {r : Rule} (hr : UnitRate r q) (hx : Fitting x) :
    compoundAmount x r = .ok (taxAmount x r q) :=
  compoundAmount_ok hr hx.whole hx.nonneg hx.lt

/-- The amounts of the exclusive rules among the entries. -/
def exclusiveAmounts (entries : List (Rule × ℚ)) : List ℚ :=
  (entries.filter fun e => !e.1.inclusive).map Prod.snd

def inclusiveAmounts (entries : List (Rule × ℚ)) : List ℚ :=
  (entries.filter fun e => e.1.inclusive).map Prod.snd

theorem sum_amounts (entries : List (Rule × ℚ)) :
    (entries.map Prod.snd).sum =
      (exclusiveAmounts entries).sum + (inclusiveAmounts entries).sum := by
  have hperm := (List.filter_append_perm (fun e : Rule × ℚ => e.1.inclusive) entries).map Prod.snd
  rw [← hperm.sum_eq, List.map_append, List.sum_append, add_comm]
  rfl

section Walks
variable {gross : ℚ} {entries : List (Rule × ℚ)}

theorem exclusiveAmounts_cons_of_pos {r : Rule} {a : ℚ} (h : r.inclusive = true) :
    exclusiveAmounts ((r, a) :: entries) = exclusiveAmounts entries := by
  unfold exclusiveAmounts
  rw [List.filter_cons_of_neg (by simp [h])]

theorem exclusiveAmounts_cons_of_neg {r : Rule} {a : ℚ} (h : r.inclusive = false) :
    exclusiveAmounts ((r, a) :: entries) = a :: exclusiveAmounts entries := by
  unfold exclusiveAmounts
  rw [List.filter_cons_of_pos (by simp [h]), List.map_cons]

/-- A running total that has outgrown the digits stays so large. -/
theorem Walk.large {x y : ℚ} (h : Walk (usedAmount gross) x entries y) (hg : 0 ≤ gross)
    (hrates : ∀ r ∈ entries.map Prod.fst, ∃ q, UnitRate r q) (hx : 10 ^ 26 ≤ x) :
    10 ^ 26 ≤ y := by
  induction h with
  | nil => exact hx
  | @step x x' y a r entries ha hx' _ ih =>
    obtain ⟨⟨q, hr⟩, hrates⟩ := List.forall_mem_cons.mp hrates
    refine ih hrates ?_
    unfold runningAfter at hx'
    cases hinc : r.inclusive with
    | true =>
      rw [if_pos hinc] at hx'
      exact Except.ok.inj hx' ▸ hx
    | false =>
      rw [if_neg (by simp [hinc])] at hx'
      have hprice : 0 ≤ priceOf gross x r := by
        unfold priceOf
        split
        · linarith
        · exact hg
      have ha0 := nonneg_of_exclusive hr hinc hprice ha
      exact large_of_result hx' (by linarith)

/-- A step on the way to a total that fits is exact. -/
theorem step_exact {x x' y a q : ℚ} {r : Rule} (hg : Fitting gross) (hr : UnitRate r q)
    (hrates : ∀ r ∈ entries.map Prod.fst, ∃ q, UnitRate r q) (hx : Fitting x)
    (ha : usedAmount gross x r = .ok a) (hx' : runningAfter x r a = .ok x')
    (rest : Walk (usedAmount gross) x' entries y) (hy : y < 10 ^ 26) :
    Fitting a ∧ Fitting x' ∧ x' = if r.inclusive then x else x + a := by
  have hprice := hg.priceOf hx r
  obtain rfl : a = taxAmount (Tax.priceOf gross x r) r q :=
    Except.ok.inj (ha.symm.trans (compoundAmount_fitting hr hprice))
  obtain ⟨ha0, hale⟩ := taxAmount_bounds hr.2 hprice.whole hprice.nonneg hprice.lt
  have hamount : Fitting (taxAmount (Tax.priceOf gross x r) r q) :=
    ⟨whole_taxAmount hprice.whole, ha0, hale.trans_lt hprice.lt⟩
  refine ⟨hamount, ?_⟩
  unfold runningAfter at hx'
  split at hx'
  · next hinc =>
    obtain rfl := Except.ok.inj hx'
    exact ⟨hx, (if_pos hinc).symm⟩
  · next hinc =>
    have hlt : x + taxAmount (Tax.priceOf gross x r) r q < 10 ^ 26 := by
      by_contra hge
      have hlarge := rest.large hg.nonneg hrates (large_of_result hx' (not_lt.mp hge))
      linarith
    have hwhole := hx.whole.add hamount.whole
    have hpos := add_nonneg hx.nonneg ha0
    have hplus : plus x (taxAmount (Tax.priceOf gross x r) r q) = .ok _ :=
      result_whole hwhole (by rw [abs_of_nonneg hpos]; exact hlt.le)
    obtain rfl := Except.ok.inj (hx'.symm.trans hplus)
    exact ⟨⟨hwhole, hpos, hlt⟩, (if_neg hinc).symm⟩

/-- Where the last total fits, it is the first one and the exclusive amounts. -/
theorem Walk.exact {x y : ℚ} (h : Walk (usedAmount gross) x entries y) (hg : Fitting gross)
    (hrates : ∀ r ∈ entries.map Prod.fst, ∃ q, UnitRate r q) (hx : Fitting x)
    (hy : y < 10 ^ 26) :
    Fitting y ∧ y = x + (exclusiveAmounts entries).sum ∧ ∀ e ∈ entries, Fitting e.2 := by
  induction h with
  | nil => exact ⟨hx, (add_zero _).symm, fun e he => by cases he⟩
  | @step x x' y a r entries ha hx' rest ih =>
    obtain ⟨⟨q, hr⟩, hrest⟩ := List.forall_mem_cons.mp hrates
    obtain ⟨hamount, hnext, heq⟩ := step_exact hg hr hrest hx ha hx' rest hy
    obtain ⟨hyfit, hsum, hall⟩ := ih hrest hnext hy
    refine ⟨hyfit, ?_, List.forall_mem_cons.mpr ⟨hamount, hall⟩⟩
    cases hinc : r.inclusive with
    | true => rw [exclusiveAmounts_cons_of_pos hinc, hsum, heq, if_pos hinc]
    | false =>
      rw [exclusiveAmounts_cons_of_neg hinc, hsum, heq, if_neg (by simp [hinc]), List.sum_cons,
        add_assoc]

/-- No rule marked inclusive takes anything from its price, which is the gross amount or,
for a compound rule, that and the exclusive taxes before. -/
def NothingIncluded (gross : ℚ) : ℚ → List Rule → Prop
  | _, [] => True
  | x, r :: rest =>
    let share := shareOf (priceOf gross x r) r
    (r.inclusive = true → share = 0) ∧
      NothingIncluded gross (if r.inclusive then x else x + share) rest

theorem inclusiveAmounts_cons_of_pos {r : Rule} {a : ℚ} (h : r.inclusive = true) :
    inclusiveAmounts ((r, a) :: entries) = a :: inclusiveAmounts entries := by
  unfold inclusiveAmounts
  rw [List.filter_cons_of_pos (by simp [h]), List.map_cons]

theorem inclusiveAmounts_cons_of_neg {r : Rule} {a : ℚ} (h : r.inclusive = false) :
    inclusiveAmounts ((r, a) :: entries) = inclusiveAmounts entries := by
  unfold inclusiveAmounts
  rw [List.filter_cons_of_neg (by simp [h])]

theorem Walk.nothingIncluded_iff {x y : ℚ} (h : Walk (usedAmount gross) x entries y)
    (hg : Fitting gross) (hrates : ∀ r ∈ entries.map Prod.fst, ∃ q, UnitRate r q)
    (hx : Fitting x) (hy : y < 10 ^ 26) :
    NothingIncluded gross x (entries.map Prod.fst) ↔ ∀ a ∈ inclusiveAmounts entries, a = 0 := by
  induction h with
  | nil => exact ⟨(fun _ a ha => by cases ha), fun _ => trivial⟩
  | @step x x' y a r entries ha hx' rest ih =>
    obtain ⟨⟨q, hr⟩, hrest⟩ := List.forall_mem_cons.mp hrates
    obtain ⟨hamount, hnext, heq⟩ := step_exact hg hr hrest hx ha hx' rest hy
    have hshare : shareOf (Tax.priceOf gross x r) r = a := shareOf_eq ha
    rw [List.map_cons]
    change (r.inclusive = true → shareOf (Tax.priceOf gross x r) r = 0) ∧ NothingIncluded gross
      (if r.inclusive then x else x + shareOf (Tax.priceOf gross x r) r) (entries.map Prod.fst) ↔ _
    rw [hshare, ← heq, ih hrest hnext hy]
    cases hinc : r.inclusive with
    | true =>
      rw [inclusiveAmounts_cons_of_pos hinc, List.forall_mem_cons]
      exact and_congr_left' ⟨fun h => h rfl, fun h _ => h⟩
    | false =>
      rw [inclusiveAmounts_cons_of_neg hinc]
      exact ⟨fun h => h.2, fun h => ⟨fun hfalse => absurd hfalse Bool.false_ne_true, h⟩⟩

/-- Each rule at most doubles the running total. -/
theorem exists_walk {x : ℚ} {rules : List Rule} (hg : Fitting gross)
    (hrates : ∀ r ∈ rules, ∃ q, UnitRate r q) (hx : Fitting x) (hgx : gross ≤ x)
    (hbound : x * 2 ^ rules.length < 10 ^ 26) :
    ∃ entries y, entries.map Prod.fst = rules ∧ Walk (usedAmount gross) x entries y ∧
      y < 10 ^ 26 := by
  induction rules generalizing x with
  | nil => exact ⟨[], x, rfl, .nil x, hx.lt⟩
  | cons r rest ih =>
    obtain ⟨⟨q, hr⟩, hrates⟩ := List.forall_mem_cons.mp hrates
    have hprice := hg.priceOf hx r
    have hpriceLe : priceOf gross x r ≤ x := by
      unfold priceOf
      split
      · exact le_rfl
      · exact hgx
    obtain ⟨ha0, hale⟩ := taxAmount_bounds hr.2 hprice.whole hprice.nonneg hprice.lt
    have ha : usedAmount gross x r = .ok _ := compoundAmount_fitting hr hprice
    have hpow : (1 : ℚ) ≤ 2 ^ rest.length := one_le_pow₀ (by norm_num)
    rw [List.length_cons, pow_succ] at hbound
    cases hinc : r.inclusive with
    | true =>
      have hnext : x * 2 ^ rest.length < 10 ^ 26 := by nlinarith [hx.nonneg]
      obtain ⟨entries, y, rfl, hwalk, hy⟩ := ih hrates hx hgx hnext
      refine ⟨_ :: entries, y, rfl, .step ha ?_ hwalk, hy⟩
      unfold runningAfter
      rw [if_pos hinc]
    | false =>
      have hwhole : Whole (x + taxAmount (priceOf gross x r) r q) :=
        hx.whole.add (whole_taxAmount hprice.whole)
      have hpos := add_nonneg hx.nonneg ha0
      have htwice : x + taxAmount (priceOf gross x r) r q ≤ x * 2 := by linarith
      have hnext : (x + taxAmount (priceOf gross x r) r q) * 2 ^ rest.length < 10 ^ 26 := by
        nlinarith
      have hlt : x + taxAmount (priceOf gross x r) r q < 10 ^ 26 := by nlinarith
      obtain ⟨entries, y, rfl, hwalk, hy⟩ := ih hrates ⟨hwhole, hpos, hlt⟩ (by linarith) hnext
      refine ⟨_ :: entries, y, rfl, .step ha ?_ hwalk, hy⟩
      unfold runningAfter
      rw [if_neg (by simp [hinc])]
      exact result_whole hwhole (by rw [abs_of_nonneg hpos]; exact hlt.le)

end Walks

/-- Every amount has been rounded to cents. -/
theorem whole_of_compoundAmount {x a : ℚ} {r : Rule} (h : compoundAmount x r = .ok a) :
    Whole a := by
  unfold compoundAmount at h
  obtain ⟨rate, -, h⟩ := Except.bind_eq_ok.mp h
  by_cases hinc : r.inclusive = true
  · rw [if_pos hinc] at h
    by_cases hzero : rate = .finite 0
    · rw [if_pos hzero] at h
      obtain ⟨_, -, h⟩ := Except.bind_eq_ok.mp h
      obtain ⟨_, -, h⟩ := Except.bind_eq_ok.mp h
      exact (Decimal.whole_of_quantize h).1
    · rw [if_neg hzero] at h
      obtain ⟨_, -, h⟩ := Except.bind_eq_ok.mp h
      obtain ⟨_, -, h⟩ := Except.bind_eq_ok.mp h
      exact (Decimal.whole_of_quantize h).1
  · rw [if_neg hinc] at h
    obtain ⟨amt, -, h⟩ := Except.bind_eq_ok.mp h
    cases amt with
    | finite y => exact (Decimal.whole_of_quantize h).1
    | infinite s => cases h
    | nan => cases h

theorem Walk.whole {gross x y : ℚ} {entries : List (Rule × ℚ)}
    (h : Walk (usedAmount gross) x entries y) : ∀ e ∈ entries, Whole e.2 := by
  induction h with
  | nil => exact fun e he => by cases he
  | step ha _ _ ih => exact List.forall_mem_cons.mpr ⟨whole_of_compoundAmount ha, ih⟩

/-! Negative prices -/

section Negative
variable {x y a q : ℚ} {r : Rule}

theorem netOf_neg (h : netOf x (.finite q) = .ok y) : netOf (-x) (.finite q) = .ok (-y) := by
  unfold netOf at h ⊢
  obtain ⟨divisor, hadd, h⟩ := Except.bind_eq_ok.mp h
  obtain ⟨net, hdiv, hquant⟩ := Except.bind_eq_ok.mp h
  obtain ⟨d, -, rfl⟩ := map_finite_ok.mp hadd
  change (if d = 0 then _ else (result (x / d)).map _) = _ at hdiv
  by_cases hd : d = 0
  · rw [if_pos hd] at hdiv
    cases hdiv
  · rw [if_neg hd] at hdiv
    obtain ⟨n, hres, rfl⟩ := map_finite_ok.mp hdiv
    have hquot : Decimal.div (.finite (-x)) (.finite d) = .ok (.finite (-n)) := by
      change (if d = 0 then _ else (result (-x / d)).map _) = _
      rw [if_neg hd, neg_div, result_neg hres]
      rfl
    exact Except.bind_eq_ok.mpr ⟨_, hadd,
      Except.bind_eq_ok.mpr ⟨_, hquot, Decimal.quantize_neg hquant⟩⟩

theorem minus_neg {z : ℚ} (h : minus x y = .ok z) : minus (-x) (-y) = .ok (-z) := by
  unfold minus at h ⊢
  rw [show -x - -y = -(x - y) by ring]
  exact result_neg h

theorem plus_neg {z : ℚ} (h : plus x y = .ok z) : plus (-x) (-y) = .ok (-z) := by
  unfold plus at h ⊢
  rw [← neg_add]
  exact result_neg h

theorem compoundAmount_neg (hr : r.rate = some (.finite q)) (h : compoundAmount x r = .ok a) :
    compoundAmount (-x) r = .ok (-a) := by
  unfold compoundAmount at h ⊢
  obtain ⟨rate, hrate, h⟩ := Except.bind_eq_ok.mp h
  refine Except.bind_eq_ok.mpr ⟨rate, hrate, ?_⟩
  rw [parsedRate_ok hr] at hrate
  obtain rfl := Except.ok.inj hrate
  by_cases hinc : r.inclusive = true
  · rw [if_pos hinc] at h ⊢
    by_cases hzero : Decimal.finite q = .finite 0
    · rw [if_pos hzero] at h ⊢
      obtain ⟨_, hnet, h⟩ := Except.bind_eq_ok.mp h
      obtain rfl := Except.ok.inj hnet
      obtain ⟨amt, hminus, hquant⟩ := Except.bind_eq_ok.mp h
      exact Except.bind_eq_ok.mpr ⟨_, rfl,
        Except.bind_eq_ok.mpr ⟨_, minus_neg hminus, Decimal.quantize_neg hquant⟩⟩
    · rw [if_neg hzero] at h ⊢
      obtain ⟨net, hnet, h⟩ := Except.bind_eq_ok.mp h
      obtain ⟨amt, hminus, hquant⟩ := Except.bind_eq_ok.mp h
      exact Except.bind_eq_ok.mpr ⟨_, netOf_neg hnet,
        Except.bind_eq_ok.mpr ⟨_, minus_neg hminus, Decimal.quantize_neg hquant⟩⟩
  · rw [if_neg hinc] at h ⊢
    obtain ⟨amt, hmul, hquant⟩ := Except.bind_eq_ok.mp h
    obtain ⟨n, hres, rfl⟩ := map_finite_ok.mp hmul
    have hprod : Decimal.mul (.finite (-x)) (.finite q) = .ok (.finite (-n)) := by
      change (result (-x * q)).map Decimal.finite = _
      rw [neg_mul, result_neg hres]
      rfl
    exact Except.bind_eq_ok.mpr ⟨_, hprod, Decimal.quantize_neg hquant⟩

/-- The entries with the amounts negated. -/
def negated (entries : List (Rule × ℚ)) : List (Rule × ℚ) := entries.map fun e => (e.1, -e.2)

theorem negated_rules (entries : List (Rule × ℚ)) :
    (negated entries).map Prod.fst = entries.map Prod.fst := by
  unfold negated
  rw [List.map_map]
  rfl

theorem Walk.neg {gross : ℚ} {entries : List (Rule × ℚ)}
    (h : Walk (usedAmount gross) x entries y)
    (hrates : ∀ r ∈ entries.map Prod.fst, ∃ q, UnitRate r q) :
    Walk (usedAmount (-gross)) (-x) (negated entries) (-y) := by
  induction h with
  | nil => exact .nil _
  | @step x x' y a r entries ha hx _ ih =>
    obtain ⟨⟨q, hr⟩, hrates⟩ := List.forall_mem_cons.mp hrates
    have hprice : priceOf (-gross) (-x) r = -priceOf gross x r := by
      unfold priceOf
      split <;> rfl
    refine .step ?_ ?_ (ih hrates)
    · unfold usedAmount at ha ⊢
      rw [hprice]
      exact compoundAmount_neg hr.1 ha
    · unfold runningAfter at hx ⊢
      split at hx
      · next hinc => rw [if_pos hinc, Except.ok.inj hx]
      · next hinc =>
        rw [if_neg hinc]
        exact plus_neg hx

end Negative

end OpenPms.Tax
