import OpenPms.TaxAmounts

/-!
Rules of any JSON. The first loop compares the rate, with zero in the place of one that does
not parse, but both other loops read it again from the rule. So the calculation returns, and
with nothing for the malformed rules, exactly if no rule in use has a rate that does not
parse, none that is selected is NaN, and the arithmetic goes through with the rates as they
are.
-/
namespace OpenPms.Tax

open Decimals

/-- The exponent of the result is not too large. -/
def Representable (x : ℚ) : Prop := ¬ (round28 x ≠ 0 ∧ 999999 < Int.log 10 |round28 x|)

/-- The number of cents fits the digits. -/
def FitsCents (x : ℚ) : Prop := |cents x| < 10 ^ 28

theorem result_ok_iff {x y : ℚ} : result x = .ok y ↔ Representable x ∧ y = round28 x := by
  unfold result Representable
  split
  · next h => exact ⟨(fun h' => by cases h'), fun h' => absurd h h'.1⟩
  · next h => exact ⟨fun h' => ⟨h, (Except.ok.inj h').symm⟩, fun h' => congrArg Except.ok h'.2.symm⟩

theorem representable_of_lt {x : ℚ} (h : |round28 x| < 10 ^ 27) : Representable x := by
  rintro ⟨hne, hlog⟩
  have hpow : (10 : ℚ) ^ Int.log 10 |round28 x| ≤ |round28 x| :=
    Int.zpow_log_le_self (by norm_num) (abs_pos.mpr hne)
  have hbig : (10 : ℚ) ^ (27 : ℤ) ≤ 10 ^ Int.log 10 |round28 x| :=
    zpow_le_zpow_right₀ (by norm_num) (by omega)
  have h27 : (10 : ℚ) ^ (27 : ℤ) = 10 ^ 27 := by norm_num
  rw [h27] at hbig
  linarith

/-- What can be quantized has no large exponent. -/
theorem FitsCents.representable {x : ℚ} (h : FitsCents (round28 x)) : Representable x := by
  refine representable_of_lt ?_
  have hwhole : Whole ((10 : ℚ) ^ 27) := ⟨10 ^ 29, by norm_num⟩
  have hcents : |(cents (round28 x) : ℚ)| < 10 ^ 28 := by exact_mod_cast h
  rw [abs_lt] at hcents ⊢
  constructor
  · by_contra hlow
    have hle := cents_le hwhole.neg (not_lt.mp hlow)
    linarith
  · by_contra hhigh
    have hle := le_cents hwhole (not_lt.mp hhigh)
    linarith

/-- The arithmetic goes through for the rule at this price. An infinite rate leaves nothing
of a price that includes the tax. -/
def Computes (price : ℚ) (r : Rule) : Prop :=
  match r.rate with
  | none | some .nan => False
  | some (.infinite _) => r.inclusive = true ∧ FitsCents (round28 price)
  | some (.finite q) =>
    if r.inclusive then
      q = 0 ∨ q ≠ -1 ∧ Representable (1 + q) ∧ FitsCents (round28 (price / round28 (1 + q))) ∧
        FitsCents (round28 (price - taxNet price q))
    else FitsCents (round28 (price * q))

theorem quantize_ok_iff {x : ℚ} : (∃ y, (Decimal.finite x).quantize = .ok y) ↔ FitsCents x :=
  ⟨fun ⟨_, h⟩ => (Decimal.quantize_ok.mp h).1, fun h => ⟨_, Decimal.quantize_ok.mpr ⟨h, rfl⟩⟩⟩

/-- A finite result that is quantized. -/
theorem result_quantize_iff {x : ℚ} :
    (∃ y, (result x >>= fun z => (Decimal.finite z).quantize) = .ok y) ↔ FitsCents (round28 x) := by
  constructor
  · rintro ⟨y, h⟩
    obtain ⟨z, hz, h⟩ := Except.bind_eq_ok.mp h
    obtain ⟨-, rfl⟩ := result_ok_iff.mp hz
    exact quantize_ok_iff.mp ⟨y, h⟩
  · intro h
    obtain ⟨y, hy⟩ := quantize_ok_iff.mpr h
    exact ⟨y, Except.bind_eq_ok.mpr ⟨_, result_ok_iff.mpr ⟨h.representable, rfl⟩, hy⟩⟩

theorem netOf_ok_iff {price q net : ℚ} (hq : q ≠ -1) :
    netOf price (.finite q) = .ok net ↔
      Representable (1 + q) ∧ FitsCents (round28 (price / round28 (1 + q))) ∧
        net = taxNet price q := by
  have hne : round28 (1 + q) ≠ 0 := round28_ne_zero fun hzero => hq (by linarith)
  have hdiv (d : ℚ) (hd : d ≠ 0) : Decimal.div (.finite price) (.finite d) =
      (result (price / d)).map Decimal.finite := by
    rw [Decimal.div_finite, if_neg hd]
  unfold netOf
  constructor
  · intro h
    obtain ⟨divisor, hadd, h⟩ := Except.bind_eq_ok.mp h
    obtain ⟨d, hplus, rfl⟩ := map_finite_ok.mp hadd
    obtain ⟨hrep, rfl⟩ := result_ok_iff.mp hplus
    obtain ⟨quotient, hquot, hquant⟩ := Except.bind_eq_ok.mp h
    rw [hdiv _ hne] at hquot
    obtain ⟨y, hres, rfl⟩ := map_finite_ok.mp hquot
    obtain ⟨-, rfl⟩ := result_ok_iff.mp hres
    obtain ⟨hlt, rfl⟩ := Decimal.quantize_ok.mp hquant
    exact ⟨hrep, hlt, rfl⟩
  · rintro ⟨hrep, hfits, rfl⟩
    refine Except.bind_eq_ok.mpr ⟨_, map_finite_ok.mpr ⟨_, result_ok_iff.mpr ⟨hrep, rfl⟩, rfl⟩,
      Except.bind_eq_ok.mpr ⟨.finite (round28 (price / round28 (1 + q))), ?_,
        Decimal.quantize_ok.mpr ⟨hfits, rfl⟩⟩⟩
    rw [hdiv _ hne]
    exact map_finite_ok.mpr ⟨_, result_ok_iff.mpr ⟨hfits.representable, rfl⟩, rfl⟩

/-- Without a divisor there is no net price. -/
theorem netOf_neg_one (price : ℚ) : ∀ net, netOf price (.finite (-1)) ≠ .ok net := by
  intro net h
  unfold netOf at h
  obtain ⟨divisor, hadd, h⟩ := Except.bind_eq_ok.mp h
  obtain ⟨d, hplus, rfl⟩ := map_finite_ok.mp hadd
  obtain ⟨-, rfl⟩ := result_ok_iff.mp hplus
  obtain ⟨quotient, hquot, -⟩ := Except.bind_eq_ok.mp h
  have hzero : round28 (1 + -1) = 0 := by
    rw [add_neg_cancel]
    exact round28_eq short_zero
  have hraises : Decimal.div (.finite price) (.finite 0) =
      .error (if price = 0 then .invalidOperation else .divisionByZero) := by
    rw [Decimal.div_finite, if_pos rfl]
  rw [hzero, hraises] at hquot
  cases hquot

theorem netOf_infinite (price : ℚ) (s : Bool) : netOf price (.infinite s) = .ok 0 := by
  refine Except.bind_eq_ok.mpr ⟨.infinite s, rfl,
    Except.bind_eq_ok.mpr ⟨.finite 0, rfl, quantize_zero⟩⟩

theorem computes_iff {price : ℚ} {r : Rule} :
    (∃ a, compoundAmount price r = .ok a) ↔ Computes price r := by
  unfold compoundAmount Computes Rule.parsedRate
  cases hrate : r.rate with
  | none => exact ⟨(fun ⟨_, h⟩ => by cases h), False.elim⟩
  | some rate =>
    change (∃ a, (if r.inclusive = true then _ else _) = Except.ok a) ↔ _
    cases rate with
    | nan =>
      refine ⟨?_, False.elim⟩
      rintro ⟨a, h⟩
      split at h
      · rw [if_neg (by simp)] at h
        cases h
      · cases h
    | infinite s =>
      by_cases hinc : r.inclusive = true
      · rw [if_pos hinc, if_neg (by simp)]
        change (∃ a, (netOf price (.infinite s) >>= fun net => minus price net >>= fun amt =>
          (Decimal.finite amt).quantize) = .ok a) ↔ r.inclusive = true ∧ _
        rw [netOf_infinite]
        change (∃ a, (minus price 0 >>= fun amt => (Decimal.finite amt).quantize) = .ok a) ↔ _
        unfold minus
        rw [sub_zero, result_quantize_iff]
        exact ⟨fun h => ⟨hinc, h⟩, fun h => h.2⟩
      · rw [if_neg hinc]
        refine ⟨?_, fun h => absurd h.1 hinc⟩
        rintro ⟨a, h⟩
        obtain ⟨amt, hmul, hquant⟩ := Except.bind_eq_ok.mp h
        change (if price = 0 then _ else _) = _ at hmul
        split at hmul
        · cases hmul
        · obtain rfl := Except.ok.inj hmul
          cases hquant
    | finite q =>
      by_cases hinc : r.inclusive = true
      · rw [if_pos hinc]
        change _ ↔ if r.inclusive = true then _ else _
        rw [if_pos hinc]
        by_cases hzero : q = 0
        · subst hzero
          rw [if_pos rfl]
          refine ⟨fun _ => .inl rfl, fun _ => ⟨0, Except.bind_eq_ok.mpr ⟨price, rfl, ?_⟩⟩⟩
          exact Except.bind_eq_ok.mpr ⟨0, minus_self price, quantize_zero⟩
        · rw [if_neg (by simpa using hzero), or_iff_right hzero]
          by_cases hone : q = -1
          · subst hone
            refine ⟨?_, fun h => absurd rfl h.1⟩
            rintro ⟨a, h⟩
            obtain ⟨net, hnet, -⟩ := Except.bind_eq_ok.mp h
            exact absurd hnet (netOf_neg_one price net)
          · constructor
            · rintro ⟨a, h⟩
              obtain ⟨net, hnet, h⟩ := Except.bind_eq_ok.mp h
              obtain ⟨hrep, hfits, rfl⟩ := (netOf_ok_iff hone).mp hnet
              exact ⟨hone, hrep, hfits, result_quantize_iff.mp ⟨a, h⟩⟩
            · rintro ⟨-, hrep, hfits, hrest⟩
              obtain ⟨a, ha⟩ := result_quantize_iff.mpr hrest
              exact ⟨a, Except.bind_eq_ok.mpr ⟨_, (netOf_ok_iff hone).mpr ⟨hrep, hfits, rfl⟩, ha⟩⟩
      · rw [if_neg hinc]
        change _ ↔ if r.inclusive = true then _ else _
        rw [if_neg hinc, ← result_quantize_iff]
        constructor
        · rintro ⟨a, h⟩
          obtain ⟨amt, hmul, hquant⟩ := Except.bind_eq_ok.mp h
          obtain ⟨y, hres, rfl⟩ := map_finite_ok.mp hmul
          exact ⟨a, Except.bind_eq_ok.mpr ⟨y, hres, hquant⟩⟩
        · rintro ⟨a, h⟩
          obtain ⟨y, hres, hquant⟩ := Except.bind_eq_ok.mp h
          exact ⟨a, Except.bind_eq_ok.mpr ⟨_, map_finite_ok.mpr ⟨y, hres, rfl⟩, hquant⟩⟩

/-! Whole lists -/

/-- The rate does not parse, or it is negative. -/
def Malformed (r : Rule) : Prop :=
  match r.rate with
  | none => True
  | some (.finite q) => q < 0
  | some (.infinite negative) => negative = true
  | some .nan => False

/-- The arithmetic goes through for these rules and for the total, and the malformed ones
take nothing. -/
def Settles (basePrice : ℚ) : ℚ → List Rule → Prop
  | running, [] => FitsCents running
  | running, r :: rest =>
    let price := priceOf basePrice running r
    Computes price r ∧ (Malformed r → shareOf price r = 0) ∧
      if r.inclusive then Settles basePrice running rest
      else Representable (running + shareOf price r) ∧
        Settles basePrice (round28 (running + shareOf price r)) rest

theorem settles_iff {basePrice x : ℚ} {rules : List Rule} :
    Settles basePrice x rules ↔ ∃ entries y, entries.map Prod.fst = rules ∧
      Walk (usedAmount basePrice) x entries y ∧ FitsCents y ∧
      ∀ e ∈ entries, Malformed e.1 → e.2 = 0 := by
  induction rules generalizing x with
  | nil =>
    constructor
    · exact fun h => ⟨[], x, rfl, .nil x, h, fun e he => by cases he⟩
    · rintro ⟨entries, y, hrules, hwalk, hfits, -⟩
      obtain rfl := List.map_eq_nil_iff.mp hrules
      cases hwalk
      exact hfits
  | cons r rest ih =>
    change (Computes (priceOf basePrice x r) r ∧ (Malformed r →
      shareOf (priceOf basePrice x r) r = 0) ∧ if r.inclusive = true then _ else _) ↔ _
    constructor
    · rintro ⟨hcomp, hzero, hnext⟩
      obtain ⟨a, ha⟩ := computes_iff.mpr hcomp
      rw [shareOf_eq ha] at hzero hnext
      by_cases hinc : r.inclusive = true
      · rw [if_pos hinc] at hnext
        obtain ⟨entries, y, rfl, hwalk, hfits, hall⟩ := ih.mp hnext
        refine ⟨(r, a) :: entries, y, rfl, .step ha ?_ hwalk, hfits,
          List.forall_mem_cons.mpr ⟨hzero, hall⟩⟩
        unfold runningAfter
        rw [if_pos hinc]
      · rw [if_neg hinc] at hnext
        obtain ⟨entries, y, rfl, hwalk, hfits, hall⟩ := ih.mp hnext.2
        refine ⟨(r, a) :: entries, y, rfl, .step ha ?_ hwalk, hfits,
          List.forall_mem_cons.mpr ⟨hzero, hall⟩⟩
        unfold runningAfter plus
        rw [if_neg hinc]
        exact result_ok_iff.mpr ⟨hnext.1, rfl⟩
    · rintro ⟨entries, y, hrules, hwalk, hfits, hall⟩
      cases hwalk with
      | nil => cases hrules
      | step ha hx hwalk =>
        obtain ⟨rfl, rfl⟩ := List.cons.inj hrules
        obtain ⟨hzero, hall⟩ := List.forall_mem_cons.mp hall
        rw [shareOf_eq ha]
        refine ⟨computes_iff.mp ⟨_, ha⟩, hzero, ?_⟩
        unfold runningAfter plus at hx
        split at hx
        · next hinc =>
          obtain rfl := Except.ok.inj hx
          rw [if_pos hinc]
          exact ih.mpr ⟨_, y, rfl, hwalk, hfits, hall⟩
        · next hinc =>
          obtain ⟨hrep, rfl⟩ := result_ok_iff.mp hx
          rw [if_neg hinc]
          exact ⟨hrep, ih.mpr ⟨_, y, rfl, hwalk, hfits, hall⟩⟩

namespace Demo

/-- A tax on everything at a rate of this text. -/
def ratedAs (rate : String) (inclusive : Bool) : Json :=
  .obj [("code", .str "T"), ("rate", .str rate), ("inclusive", .bool inclusive),
    ("applies_to", .arr [.str "all"])]

end Demo

end OpenPms.Tax
