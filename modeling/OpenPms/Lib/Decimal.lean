import Mathlib.Algebra.Order.Round
import Mathlib.Data.Int.Log
import Mathlib.Data.Rat.Floor
import Mathlib.Tactic.Linarith

/-!
Decimal arithmetic with 28 digits. A result is rounded half-even to as many digits, which
never takes it past a number that has no more of them. Quantizing to two places rounds
half-up and refuses a result with more digits. Exponents have an upper limit; a result
below the lower one is not distinguished from its exact value. A text is read without
rounding, and refused where its exponent is out of range.
-/
namespace Decimals

/-! Rounding -/

/-- The nearest integer, the even one of two. -/
def halfEven (x : ℚ) : ℤ :=
  if Int.fract x < 1 / 2 then ⌊x⌋
  else if 1 / 2 < Int.fract x then ⌊x⌋ + 1
  else if ⌊x⌋ % 2 = 0 then ⌊x⌋ else ⌊x⌋ + 1

theorem le_halfEven {n : ℤ} {x : ℚ} (h : n ≤ x) : n ≤ halfEven x := by
  have hfloor : n ≤ ⌊x⌋ := Int.le_floor.mpr h
  unfold halfEven
  split
  · exact hfloor
  · split
    · omega
    · split <;> omega

theorem halfEven_le {n : ℤ} {x : ℚ} (h : x ≤ n) : halfEven x ≤ n := by
  have hfloor : ⌊x⌋ ≤ n := Int.floor_le_iff.mpr (by linarith)
  by_cases heq : ⌊x⌋ = n
  · have hx : x = n := le_antisymm h (heq ▸ Int.floor_le x)
    have hfract : Int.fract x = 0 := by rw [hx, Int.fract_intCast]
    unfold halfEven
    rw [if_pos (by rw [hfract]; norm_num)]
    exact hfloor
  · have hlt : ⌊x⌋ + 1 ≤ n := by omega
    unfold halfEven
    split
    · exact hfloor
    · split
      · exact hlt
      · split <;> omega

theorem halfEven_intCast (n : ℤ) : halfEven n = n :=
  le_antisymm (halfEven_le le_rfl) (le_halfEven le_rfl)

theorem halfEven_neg (x : ℚ) : halfEven (-x) = -halfEven x := by
  by_cases hx : Int.fract x = 0
  · have hint : x = (⌊x⌋ : ℤ) := by
      have hsum := Int.floor_add_fract x
      rw [hx, add_zero] at hsum
      exact hsum.symm
    rw [hint, ← Int.cast_neg, halfEven_intCast, halfEven_intCast]
  · have hfract : Int.fract (-x) = 1 - Int.fract x := Int.fract_neg hx
    have hfloor : ⌊-x⌋ = -⌊x⌋ - 1 := by
      have hleft := Int.self_sub_floor (-x)
      have hright := Int.self_sub_floor x
      have hcast : ((⌊-x⌋ : ℤ) : ℚ) = ((-⌊x⌋ - 1 : ℤ) : ℚ) := by
        push_cast
        linarith
      exact_mod_cast hcast
    unfold halfEven
    rw [hfract, hfloor]
    rcases lt_trichotomy (Int.fract x) (1 / 2) with hlt | heq | hgt
    · rw [if_neg (by linarith), if_pos (by linarith), if_pos hlt]
      omega
    · rw [if_neg (by linarith), if_neg (by linarith)]
      conv_rhs => rw [if_neg (by linarith), if_neg (by linarith)]
      split <;> split <;> omega
    · rw [if_pos (by linarith), if_neg (by linarith), if_pos hgt]
      omega

/-- The power of ten that the last of the 28 digits counts. -/
def lastPlace (x : ℚ) : ℤ := Int.log 10 |x| - 27

def round28 (x : ℚ) : ℚ :=
  if x = 0 then 0 else halfEven (x / 10 ^ lastPlace x) * 10 ^ lastPlace x

/-- A number of at most 28 digits. -/
def Short (x : ℚ) : Prop := ∃ m e : ℤ, |m| ≤ 10 ^ 28 ∧ x = m * 10 ^ e

theorem pos_lastPlace (x : ℚ) : (0 : ℚ) < 10 ^ lastPlace x := zpow_pos (by norm_num) _

/-- The first digit is not zero. -/
theorem leading_le {x : ℚ} (hx : x ≠ 0) : 10 ^ 27 * 10 ^ lastPlace x ≤ |x| := by
  have hlog : (10 : ℚ) ^ Int.log 10 |x| ≤ |x| :=
    Int.zpow_log_le_self (by norm_num) (abs_pos.mpr hx)
  have hsplit : (10 : ℚ) ^ Int.log 10 |x| = 10 ^ 27 * 10 ^ lastPlace x := by
    unfold lastPlace
    rw [← zpow_natCast, ← zpow_add₀ (by norm_num)]
    congr 1
    push_cast
    ring
  rwa [← hsplit]

theorem round28_le_multiple {x : ℚ} (hx : x ≠ 0) {n : ℤ} (h : x ≤ n * 10 ^ lastPlace x) :
    round28 x ≤ n * 10 ^ lastPlace x := by
  unfold round28
  rw [if_neg hx]
  have hdiv : x / 10 ^ lastPlace x ≤ n := (div_le_iff₀ (pos_lastPlace x)).mpr h
  have hround : (halfEven (x / 10 ^ lastPlace x) : ℚ) ≤ n := by
    exact_mod_cast halfEven_le hdiv
  exact mul_le_mul_of_nonneg_right hround (pos_lastPlace x).le

theorem multiple_le_round28 {x : ℚ} (hx : x ≠ 0) {n : ℤ} (h : n * 10 ^ lastPlace x ≤ x) :
    n * 10 ^ lastPlace x ≤ round28 x := by
  unfold round28
  rw [if_neg hx]
  have hdiv : (n : ℚ) ≤ x / 10 ^ lastPlace x := (le_div_iff₀ (pos_lastPlace x)).mpr h
  have hround : (n : ℚ) ≤ halfEven (x / 10 ^ lastPlace x) := by
    exact_mod_cast le_halfEven hdiv
  exact mul_le_mul_of_nonneg_right hround (pos_lastPlace x).le

/-- A short number counts the last place, or has a smaller magnitude. -/
theorem Short.multiple_or_small {y : ℚ} (h : Short y) (x : ℚ) :
    (∃ n : ℤ, y = n * 10 ^ lastPlace x) ∨ |y| ≤ 10 ^ 27 * 10 ^ lastPlace x := by
  obtain ⟨m, e, hm, rfl⟩ := h
  by_cases he : lastPlace x ≤ e
  · obtain ⟨k, hk⟩ := Int.eq_ofNat_of_zero_le (sub_nonneg.mpr he)
    refine .inl ⟨m * 10 ^ k, ?_⟩
    have hexp : e = k + lastPlace x := by omega
    rw [hexp, zpow_add₀ (by norm_num), zpow_natCast]
    push_cast
    ring
  · refine .inr ?_
    have hpos : (0 : ℚ) < 10 ^ e := zpow_pos (by norm_num) _
    have hm' : |(m : ℚ)| ≤ 10 ^ 28 := by exact_mod_cast hm
    have hstep : (10 : ℚ) * 10 ^ e ≤ 10 ^ lastPlace x := by
      rw [← zpow_one_add₀ (by norm_num)]
      exact zpow_le_zpow_right₀ (by norm_num) (by omega)
    calc |(m : ℚ) * 10 ^ e| = |(m : ℚ)| * 10 ^ e := by rw [abs_mul, abs_of_pos hpos]
      _ ≤ 10 ^ 28 * 10 ^ e := mul_le_mul_of_nonneg_right hm' hpos.le
      _ = 10 ^ 27 * (10 * 10 ^ e) := by ring
      _ ≤ 10 ^ 27 * 10 ^ lastPlace x := mul_le_mul_of_nonneg_left hstep (by norm_num)

/-- Rounding does not take a number past a short one above it. -/
theorem round28_le {x y : ℚ} (hy : Short y) (h : x ≤ y) : round28 x ≤ y := by
  by_cases hx : x = 0
  · unfold round28
    rwa [if_pos hx, ← hx]
  · rcases hy.multiple_or_small x with ⟨n, rfl⟩ | hsmall
    · exact round28_le_multiple hx h
    · have hlead := leading_le hx
      rcases lt_or_gt_of_ne hx with hneg | hpos
      · rw [abs_of_neg hneg] at hlead
        have hround := round28_le_multiple hx (n := -10 ^ 27) (by push_cast; linarith)
        push_cast at hround
        have hlow := (abs_le.mp hsmall).1
        linarith
      · rw [abs_of_pos hpos] at hlead
        have hhigh := (abs_le.mp hsmall).2
        have hround := round28_le_multiple hx (n := 10 ^ 27) (by push_cast; linarith)
        push_cast at hround
        linarith

/-- Nor past one below it. -/
theorem le_round28 {x y : ℚ} (hy : Short y) (h : y ≤ x) : y ≤ round28 x := by
  by_cases hx : x = 0
  · unfold round28
    rwa [if_pos hx, ← hx]
  · rcases hy.multiple_or_small x with ⟨n, rfl⟩ | hsmall
    · exact multiple_le_round28 hx h
    · have hlead := leading_le hx
      rcases lt_or_gt_of_ne hx with hneg | hpos
      · rw [abs_of_neg hneg] at hlead
        have hlow := (abs_le.mp hsmall).1
        have hround := multiple_le_round28 hx (n := -10 ^ 27) (by push_cast; linarith)
        push_cast at hround
        linarith
      · rw [abs_of_pos hpos] at hlead
        have hround := multiple_le_round28 hx (n := 10 ^ 27) (by push_cast; linarith)
        push_cast at hround
        have hhigh := (abs_le.mp hsmall).2
        linarith

/-- A short number is its own rounding. -/
theorem round28_eq {x : ℚ} (h : Short x) : round28 x = x :=
  le_antisymm (round28_le h le_rfl) (le_round28 h le_rfl)

theorem round28_ne_zero {x : ℚ} (hx : x ≠ 0) : round28 x ≠ 0 := by
  have hlead := leading_le hx
  have hplace := pos_lastPlace x
  rcases lt_or_gt_of_ne hx with hneg | hpos
  · rw [abs_of_neg hneg] at hlead
    have hround := round28_le_multiple hx (n := -10 ^ 27) (by push_cast; linarith)
    push_cast at hround
    exact (hround.trans_lt (by linarith)).ne
  · rw [abs_of_pos hpos] at hlead
    have hround := multiple_le_round28 hx (n := 10 ^ 27) (by push_cast; linarith)
    push_cast at hround
    exact (lt_of_lt_of_le (by linarith) hround).ne'

theorem round28_neg (x : ℚ) : round28 (-x) = -round28 x := by
  have hplace : lastPlace (-x) = lastPlace x := by
    unfold lastPlace
    rw [abs_neg]
  unfold round28
  by_cases hx : x = 0
  · rw [if_pos hx, if_pos (by rw [hx, neg_zero]), neg_zero]
  · rw [if_neg hx, if_neg (neg_ne_zero.mpr hx), hplace, neg_div, halfEven_neg]
    push_cast
    ring

theorem Short.neg {x : ℚ} (h : Short x) : Short (-x) := by
  obtain ⟨m, e, hm, rfl⟩ := h
  exact ⟨-m, e, by rwa [abs_neg], by push_cast; ring⟩

theorem short_zero : Short 0 := ⟨0, 0, by norm_num, by norm_num⟩

theorem short_one : Short 1 := ⟨1, 0, by norm_num, by norm_num⟩

/-- The nearest integer, the one away from zero of two. -/
def halfUp (x : ℚ) : ℤ := if 0 ≤ x then ⌊x + 1 / 2⌋ else ⌈x - 1 / 2⌉

/-- The number of cents. -/
def cents (x : ℚ) : ℤ := halfUp (x * 100)

theorem halfUp_intCast (n : ℤ) : halfUp n = n := by
  unfold halfUp
  split
  · exact Int.floor_eq_iff.mpr ⟨by linarith, by linarith⟩
  · exact Int.ceil_eq_iff.mpr ⟨by linarith, by linarith⟩

theorem le_halfUp {n : ℤ} {x : ℚ} (h : n ≤ x) : n ≤ halfUp x := by
  unfold halfUp
  split
  · exact Int.le_floor.mpr (by linarith)
  · exact Int.le_ceil_iff.mpr (by linarith)

theorem halfUp_le {n : ℤ} {x : ℚ} (h : x ≤ n) : halfUp x ≤ n := by
  unfold halfUp
  split
  · exact Int.floor_le_iff.mpr (by linarith)
  · exact Int.ceil_le.mpr (by linarith)

theorem halfUp_neg (x : ℚ) : halfUp (-x) = -halfUp x := by
  unfold halfUp
  rcases lt_trichotomy x 0 with hneg | hzero | hpos
  · rw [if_pos (by linarith), if_neg (by linarith), ← Int.floor_neg]
    congr 1
    ring
  · rw [hzero]
    norm_num
  · rw [if_neg (by linarith), if_pos hpos.le, ← Int.ceil_neg]
    congr 1
    ring

theorem cents_neg (x : ℚ) : cents (-x) = -cents x := by
  unfold cents
  rw [neg_mul, halfUp_neg]

/-- The next integer towards zero. -/
def truncate (x : ℚ) : ℤ := if 0 ≤ x then ⌊x⌋ else ⌈x⌉

theorem truncate_neg (x : ℚ) : truncate (-x) = -truncate x := by
  unfold truncate
  rcases lt_trichotomy x 0 with hneg | hzero | hpos
  · rw [if_pos (by linarith), if_neg (by linarith), Int.floor_neg]
  · rw [hzero, neg_zero]
    norm_num
  · rw [if_neg (by linarith), if_pos hpos.le, Int.ceil_neg]

/-! Numbers -/

inductive Decimal where
  | finite (q : ℚ)
  | infinite (negative : Bool)
  | nan
  deriving DecidableEq

/-- The conditions that raise an exception. -/
inductive Signal where
  | invalidOperation
  | divisionByZero
  | overflow
  deriving DecidableEq

/-- A finite result, unless its exponent is too large. -/
def result (x : ℚ) : Except Signal ℚ :=
  if round28 x ≠ 0 ∧ 999999 < Int.log 10 |round28 x| then .error .overflow
  else .ok (round28 x)

def plus (a b : ℚ) : Except Signal ℚ := result (a + b)

def minus (a b : ℚ) : Except Signal ℚ := result (a - b)

namespace Decimal

def add : Decimal → Decimal → Except Signal Decimal
  | finite a, finite b => (plus a b).map finite
  | nan, _ | _, nan => .ok nan
  | infinite s, infinite t => if s = t then .ok (infinite s) else .error .invalidOperation
  | infinite s, finite _ | finite _, infinite s => .ok (infinite s)

def mul : Decimal → Decimal → Except Signal Decimal
  | finite a, finite b => (result (a * b)).map finite
  | nan, _ | _, nan => .ok nan
  | infinite s, infinite t => .ok (infinite (s != t))
  | infinite s, finite a | finite a, infinite s =>
    if a = 0 then .error .invalidOperation else .ok (infinite (s != decide (a < 0)))

def div : Decimal → Decimal → Except Signal Decimal
  | finite a, finite b =>
    if b = 0 then .error (if a = 0 then .invalidOperation else .divisionByZero)
    else (result (a / b)).map finite
  | nan, _ | _, nan => .ok nan
  | infinite _, infinite _ => .error .invalidOperation
  | infinite s, finite b => .ok (infinite (s != decide (b < 0)))
  | finite _, infinite _ => .ok (finite 0)

theorem div_finite (a b : ℚ) : div (finite a) (finite b) =
    if b = 0 then .error (if a = 0 then .invalidOperation else .divisionByZero)
    else (result (a / b)).map finite := rfl

/-- A comparison by size with NaN raises. -/
def isNegative : Decimal → Except Signal Bool
  | finite a => .ok (decide (a < 0))
  | infinite s => .ok s
  | nan => .error .invalidOperation

/-- `quantize(Decimal("0.01"), rounding=ROUND_HALF_UP)`. It would pass on a NaN, which its
callers have excluded by a comparison. -/
def quantize : Decimal → Except Signal ℚ
  | finite x => if 10 ^ 28 ≤ |cents x| then .error .invalidOperation else .ok (cents x / 100)
  | _ => .error .invalidOperation

end Decimal

/-- Quantizing a finite number to two places by another rounding than half-up. -/
def quantizeBy (rounding : ℚ → ℤ) (x : ℚ) : Except Signal ℚ :=
  if 10 ^ 28 ≤ |rounding (x * 100)| then .error .invalidOperation
  else .ok (rounding (x * 100) / 100)

/-! Results without a signal -/

theorem result_of_lt {x : ℚ} (h : |x| ≤ 10 ^ 40) : result x = .ok (round28 x) := by
  have hshort : Short (10 ^ 40 : ℚ) := ⟨1, 40, by norm_num, by norm_num⟩
  have hbound : |round28 x| ≤ 10 ^ 40 :=
    abs_le.mpr ⟨le_round28 hshort.neg (abs_le.mp h).1, round28_le hshort (abs_le.mp h).2⟩
  unfold result
  rw [if_neg]
  rintro ⟨hne, hlog⟩
  have hpow : (10 : ℚ) ^ Int.log 10 |round28 x| ≤ |round28 x| :=
    Int.zpow_log_le_self (by norm_num) (abs_pos.mpr hne)
  have hbig : (10 : ℚ) ^ (41 : ℤ) ≤ 10 ^ Int.log 10 |round28 x| :=
    zpow_le_zpow_right₀ (by norm_num) (by omega)
  have h41 : (10 : ℚ) ^ (41 : ℤ) = 10 * 10 ^ 40 := by norm_num
  rw [h41] at hbig
  have hpos : (0 : ℚ) < 10 ^ 40 := by norm_num
  linarith

theorem result_eq {x y : ℚ} (h : result x = .ok y) : y = round28 x := by
  unfold result at h
  split at h
  · cases h
  · exact (Except.ok.inj h).symm

theorem result_short {x : ℚ} (hx : Short x) (h : |x| ≤ 10 ^ 40) : result x = .ok x := by
  rw [result_of_lt h, round28_eq hx]

theorem result_neg {x y : ℚ} (h : result x = .ok y) : result (-x) = .ok (-y) := by
  obtain rfl := result_eq h
  unfold result at h ⊢
  split at h
  · cases h
  · next hfits => rw [round28_neg, if_neg (by simpa [abs_neg] using hfits)]

/-! Cents -/

/-- A number with two decimal places. -/
def Whole (x : ℚ) : Prop := ∃ n : ℤ, x = n / 100

theorem whole_zero : Whole 0 := ⟨0, by norm_num⟩

theorem Whole.add {x y : ℚ} (hx : Whole x) (hy : Whole y) : Whole (x + y) := by
  obtain ⟨m, rfl⟩ := hx
  obtain ⟨n, rfl⟩ := hy
  exact ⟨m + n, by push_cast; ring⟩

theorem Whole.neg {x : ℚ} (hx : Whole x) : Whole (-x) := by
  obtain ⟨m, rfl⟩ := hx
  exact ⟨-m, by push_cast; ring⟩

theorem Whole.sub {x y : ℚ} (hx : Whole x) (hy : Whole y) : Whole (x - y) := by
  rw [sub_eq_add_neg]
  exact hx.add hy.neg

theorem Whole.short {x : ℚ} (hx : Whole x) (h : |x| ≤ 10 ^ 26) : Short x := by
  obtain ⟨n, rfl⟩ := hx
  refine ⟨n, -2, ?_, by norm_num [div_eq_mul_inv]⟩
  have habs : |(n : ℚ)| ≤ 10 ^ 28 := by
    rw [abs_div, abs_of_pos (by norm_num : (0 : ℚ) < 100), div_le_iff₀ (by norm_num)] at h
    linarith
  exact_mod_cast habs

theorem cents_whole (n : ℤ) : cents (n / 100) = n := by
  unfold cents
  rw [div_mul_cancel₀ _ (by norm_num)]
  exact halfUp_intCast n

/-- Rounding to cents does not take a number past whole cents. -/
theorem le_cents {x y : ℚ} (hy : Whole y) (h : y ≤ x) : y ≤ cents x / 100 := by
  obtain ⟨n, rfl⟩ := hy
  have hle : (n : ℚ) ≤ x * 100 := by
    rw [div_le_iff₀ (by norm_num)] at h
    exact h
  have hround : (n : ℚ) ≤ cents x := by exact_mod_cast le_halfUp hle
  linarith

theorem cents_le {x y : ℚ} (hy : Whole y) (h : x ≤ y) : cents x / 100 ≤ y := by
  obtain ⟨n, rfl⟩ := hy
  have hle : x * 100 ≤ n := by
    rw [le_div_iff₀ (by norm_num)] at h
    exact h
  have hround : (cents x : ℚ) ≤ n := by exact_mod_cast halfUp_le hle
  linarith

namespace Decimal

theorem quantize_ok {x y : ℚ} :
    quantize (finite x) = .ok y ↔ |cents x| < 10 ^ 28 ∧ y = cents x / 100 := by
  change (if 10 ^ 28 ≤ |cents x| then Except.error Signal.invalidOperation
    else .ok ((cents x : ℚ) / 100)) = .ok y ↔ _
  split
  · next h => exact ⟨(fun h' => by cases h'), fun h' => absurd h'.1 h.not_gt⟩
  · next h => exact ⟨fun h' => ⟨not_le.mp h, (Except.ok.inj h').symm⟩, fun h' => h'.2 ▸ rfl⟩

theorem quantize_whole {x : ℚ} (hx : Whole x) (h : |x| < 10 ^ 26) : quantize (finite x) = .ok x := by
  obtain ⟨n, rfl⟩ := hx
  refine quantize_ok.mpr ⟨?_, by rw [cents_whole]⟩
  rw [cents_whole]
  rw [abs_div, abs_of_pos (by norm_num : (0 : ℚ) < 100), div_lt_iff₀ (by norm_num)] at h
  have habs : |(n : ℚ)| < 10 ^ 28 := by linarith
  exact_mod_cast habs

theorem quantize_neg {x y : ℚ} (h : quantize (finite x) = .ok y) :
    quantize (finite (-x)) = .ok (-y) := by
  obtain ⟨hlt, rfl⟩ := quantize_ok.mp h
  refine quantize_ok.mpr ⟨by rwa [cents_neg, abs_neg], ?_⟩
  rw [cents_neg]
  push_cast
  ring

theorem whole_of_quantize {x y : ℚ} (h : quantize (finite x) = .ok y) :
    Whole y ∧ |y| < 10 ^ 26 := by
  obtain ⟨hlt, rfl⟩ := quantize_ok.mp h
  refine ⟨⟨cents x, rfl⟩, ?_⟩
  have habs : |(cents x : ℚ)| < 10 ^ 28 := by exact_mod_cast hlt
  rw [abs_div, abs_of_pos (by norm_num : (0 : ℚ) < 100), div_lt_iff₀ (by norm_num)]
  linarith

end Decimal

/-! Order and errors -/

theorem sub_halfEven_le (x : ℚ) : |(halfEven x : ℚ) - x| ≤ 1 / 2 := by
  have hsum := Int.floor_add_fract x
  have hfract0 := Int.fract_nonneg x
  have hfract1 := Int.fract_lt_one x
  unfold halfEven
  split
  · exact abs_le.mpr ⟨by linarith, by linarith⟩
  · split
    · push_cast
      exact abs_le.mpr ⟨by linarith, by linarith⟩
    · split
      · exact abs_le.mpr ⟨by linarith, by linarith⟩
      · push_cast
        exact abs_le.mpr ⟨by linarith, by linarith⟩

theorem halfEven_mono {x y : ℚ} (h : x ≤ y) : halfEven x ≤ halfEven y := by
  by_cases hfloor : ⌊x⌋ = ⌊y⌋
  · have hx := Int.floor_add_fract x
    have hy := Int.floor_add_fract y
    have hfract : Int.fract x ≤ Int.fract y := by
      rw [hfloor] at hx
      linarith
    unfold halfEven
    rw [hfloor]
    split
    · split
      · exact le_rfl
      · split
        · omega
        · split <;> omega
    · next hhalf =>
      rw [if_neg (show ¬ Int.fract y < 1 / 2 by linarith)]
      split
      · next hover => rw [if_pos (show 1 / 2 < Int.fract y by linarith)]
      · split
        · split
          · omega
          · exact le_rfl
        · split
          · omega
          · exact le_rfl
  · have hlt : ⌊x⌋ < ⌊y⌋ := lt_of_le_of_ne (Int.floor_le_floor h) hfloor
    have hxy : x ≤ ⌊y⌋ := by
      have hstep : ((⌊x⌋ + 1 : ℤ) : ℚ) ≤ ⌊y⌋ := by exact_mod_cast hlt
      push_cast at hstep
      linarith [Int.lt_floor_add_one x]
    exact (halfEven_le hxy).trans (le_halfEven (Int.floor_le y))

/-- The error is at most half of the last place. -/
theorem round28_sub_le (x : ℚ) : |round28 x - x| ≤ 10 ^ lastPlace x / 2 := by
  have hplace := pos_lastPlace x
  unfold round28
  split
  · next hx =>
    rw [hx, sub_zero, abs_zero]
    exact (div_pos (pos_lastPlace 0) two_pos).le
  · have hdiff : halfEven (x / 10 ^ lastPlace x) * 10 ^ lastPlace x - x =
        (halfEven (x / 10 ^ lastPlace x) - x / 10 ^ lastPlace x) * 10 ^ lastPlace x := by
      rw [sub_mul, div_mul_cancel₀ _ hplace.ne']
    rw [hdiff, abs_mul, abs_of_pos hplace]
    have herror := mul_le_mul_of_nonneg_right (sub_halfEven_le (x / 10 ^ lastPlace x)) hplace.le
    linarith

theorem lastPlace_mono {x y : ℚ} (hx : x ≠ 0) (h : |x| ≤ |y|) : lastPlace x ≤ lastPlace y := by
  have hlog : Int.log 10 |x| ≤ Int.log 10 |y| := Int.log_mono_right (abs_pos.mpr hx) h
  unfold lastPlace
  omega

/-- Up to a power of ten the last place is known. -/
theorem round28_near {x : ℚ} {k : ℤ} (h : |x| ≤ 10 ^ k) :
    |round28 x - x| ≤ 10 ^ (k - 28) / 2 := by
  have hpos : (0 : ℚ) < 10 ^ (k - 28) := zpow_pos (by norm_num) _
  have hexact (hx : Short x) : |round28 x - x| ≤ 10 ^ (k - 28) / 2 := by
    rw [round28_eq hx, sub_self, abs_zero]
    linarith
  by_cases hx : x = 0
  · exact hexact (hx ▸ short_zero)
  rcases h.eq_or_lt with heq | hlt
  · refine hexact ?_
    rcases abs_choice x with hsign | hsign
    · exact ⟨1, k, by norm_num, by rw [← heq, hsign]; norm_num⟩
    · exact ⟨-1, k, by norm_num, by rw [← heq, hsign]; norm_num⟩
  · have hlog : Int.log 10 |x| < k :=
      (Int.lt_zpow_iff_log_lt (by norm_num) (abs_pos.mpr hx)).mp hlt
    have hplace : (10 : ℚ) ^ lastPlace x ≤ 10 ^ (k - 28) := by
      refine zpow_le_zpow_right₀ (by norm_num) ?_
      unfold lastPlace
      omega
    have herror := round28_sub_le x
    linarith

theorem round28_mono {x y : ℚ} (h0 : 0 ≤ x) (h : x ≤ y) : round28 x ≤ round28 y := by
  rcases h0.eq_or_lt with hzero | hpos
  · unfold round28
    rw [if_pos hzero.symm]
    exact le_round28 short_zero (h0.trans h)
  have hy : 0 < y := hpos.trans_le h
  have hplace : lastPlace x ≤ lastPlace y :=
    lastPlace_mono hpos.ne' (by rwa [abs_of_pos hpos, abs_of_pos hy])
  rcases hplace.eq_or_lt with heq | hlt
  · unfold round28
    rw [if_neg hpos.ne', if_neg hy.ne', heq]
    have hround : (halfEven (x / 10 ^ lastPlace y) : ℚ) ≤ halfEven (y / 10 ^ lastPlace y) := by
      exact_mod_cast halfEven_mono (div_le_div_of_nonneg_right h (pos_lastPlace y).le)
    exact mul_le_mul_of_nonneg_right hround (pos_lastPlace y).le
  · -- a power of ten is between them
    have hshort : Short ((10 : ℚ) ^ Int.log 10 |y|) := ⟨1, Int.log 10 |y|, by norm_num, by simp⟩
    have hbelow : x ≤ 10 ^ Int.log 10 |y| := by
      have hlog : Int.log 10 |x| < Int.log 10 |y| := by
        unfold lastPlace at hlt
        omega
      have hsize : |x| < (10 : ℚ) ^ Int.log 10 |y| :=
        (Int.lt_zpow_iff_log_lt (by norm_num) (abs_pos.mpr hpos.ne')).mpr hlog
      rw [abs_of_pos hpos] at hsize
      exact hsize.le
    have habove : (10 : ℚ) ^ Int.log 10 |y| ≤ y := by
      have hsize : (10 : ℚ) ^ Int.log 10 |y| ≤ |y| :=
        Int.zpow_log_le_self (by norm_num) (abs_pos.mpr hy.ne')
      exact hsize.trans_eq (abs_of_pos hy)
    exact (round28_le hshort hbelow).trans (le_round28 hshort habove)

theorem halfUp_mono {x y : ℚ} (h : x ≤ y) : halfUp x ≤ halfUp y := by
  unfold halfUp
  split
  · next hx =>
    rw [if_pos (hx.trans h)]
    exact Int.floor_le_floor (by linarith)
  · next hx =>
    split
    · next hy =>
      have hleft : ⌈x - 1 / 2⌉ ≤ 0 := Int.ceil_le.mpr (by push_cast; linarith)
      have hright : 0 ≤ ⌊y + 1 / 2⌋ := Int.le_floor.mpr (by push_cast; linarith)
      omega
    · exact Int.ceil_le_ceil (by linarith)

theorem cents_mono {x y : ℚ} (h : x ≤ y) : cents x ≤ cents y :=
  halfUp_mono (mul_le_mul_of_nonneg_right h (by norm_num))

theorem sub_halfUp_le (x : ℚ) : |(halfUp x : ℚ) - x| ≤ 1 / 2 := by
  unfold halfUp
  split
  · have hlow := Int.floor_le (x + 1 / 2)
    have hhigh := Int.lt_floor_add_one (x + 1 / 2)
    exact abs_le.mpr ⟨by linarith, by linarith⟩
  · have hlow := Int.le_ceil (x - 1 / 2)
    have hhigh := Int.ceil_lt_add_one (x - 1 / 2)
    exact abs_le.mpr ⟨by linarith, by linarith⟩


/-- From 10^25 on a result has no more than two places. -/
theorem whole_round28 {x : ℚ} (h : 10 ^ 25 ≤ x) : Whole (round28 x) := by
  have hpos : 0 < x := lt_of_lt_of_le (by norm_num) h
  have hplace : -2 ≤ lastPlace x := by
    have hlog : (25 : ℤ) ≤ Int.log 10 |x| := by
      refine (Int.zpow_le_iff_le_log (by norm_num) (abs_pos.mpr hpos.ne')).mp ?_
      rw [abs_of_pos hpos]
      exact_mod_cast h
    unfold lastPlace
    omega
  obtain ⟨e, he⟩ := Int.eq_ofNat_of_zero_le (show 0 ≤ lastPlace x + 2 by omega)
  refine ⟨halfEven (x / 10 ^ lastPlace x) * 10 ^ e, ?_⟩
  have hpow : (10 : ℚ) ^ lastPlace x = 10 ^ e / 100 := by
    have hexp : lastPlace x = (e : ℤ) + (-2) := by
      rw [← he]
      ring
    rw [hexp, zpow_add₀ (by norm_num), zpow_natCast]
    norm_num [div_eq_mul_inv]
  have hround : round28 x = halfEven (x / 10 ^ lastPlace x) * 10 ^ lastPlace x := by
    unfold round28
    rw [if_neg hpos.ne']
  rw [hround]
  generalize halfEven (x / 10 ^ lastPlace x) = m
  rw [hpow]
  push_cast
  ring

/-- Rounding to the digits and then to cents: at most half a cent down, and little more up. -/
theorem cents_round28 {x : ℚ} (h0 : 0 ≤ x) (h : x < 10 ^ 26) :
    100 * x - 1 / 2 ≤ cents (round28 x) ∧ (cents (round28 x) : ℚ) ≤ 100 * x + 11 / 20 := by
  by_cases hlarge : 10 ^ 25 ≤ x
  · have herror := abs_le.mp (round28_near (x := x) (k := 26) (by
      rw [abs_of_nonneg h0]
      exact_mod_cast h.le))
    norm_num at herror
    obtain ⟨n, hn⟩ := whole_round28 hlarge
    rw [hn, cents_whole]
    rw [hn] at herror
    exact ⟨by linarith, by linarith⟩
  · have hsmall : x < 10 ^ 25 := not_le.mp hlarge
    have herror := abs_le.mp (round28_near (x := x) (k := 25) (by
      rw [abs_of_nonneg h0]
      exact_mod_cast hsmall.le))
    norm_num at herror
    have hcents := abs_le.mp (sub_halfUp_le (round28 x * 100))
    refine ⟨?_, by unfold cents; linarith⟩
    by_contra hlow
    -- the half cent above has few digits, so that it is not passed
    obtain ⟨n, hn⟩ : ∃ n, n = cents (round28 x) := ⟨_, rfl⟩
    rw [← hn] at hlow
    have hn0 : (0 : ℚ) ≤ n := by
      have hround := le_cents whole_zero (le_round28 short_zero h0)
      rw [← hn] at hround
      linarith
    have hshort : Short ((2 * n + 1) / 200) := by
      refine ⟨5 * (2 * n + 1), -3, ?_, ?_⟩
      · have hbound : |((5 * (2 * n + 1) : ℤ) : ℚ)| ≤ 10 ^ 28 := by
          push_cast
          exact abs_le.mpr ⟨by linarith, by linarith⟩
        exact_mod_cast hbound
      · push_cast
        norm_num
        ring
    have hround := le_round28 hshort (show (2 * n + 1 : ℚ) / 200 ≤ x by linarith)
    have hnext : n + 1 ≤ cents (round28 x) := by
      unfold cents halfUp
      rw [if_pos (by linarith)]
      exact Int.le_floor.mpr (by push_cast; linarith)
    omega

/-! Results of whole cents -/

/-- Sums and differences of cents are exact. -/
theorem result_whole {x : ℚ} (hx : Whole x) (h : |x| ≤ 10 ^ 26) : result x = .ok x :=
  result_short (hx.short h) (h.trans (by norm_num))

/-- A result that has outgrown the digits stays so large. -/
theorem large_of_result {x y : ℚ} (h : result x = .ok y) (hx : 10 ^ 26 ≤ x) : 10 ^ 26 ≤ y := by
  rw [result_eq h]
  exact le_round28 ⟨1, 26, by norm_num, by norm_num⟩ hx

/-! Texts -/

/-- The zeros of the decimal digits of Unicode 15, each with the other nine after it. -/
def digitZeros : List ℕ :=
  [48, 1632, 1776, 1984, 2406, 2534, 2662, 2790, 2918, 3046, 3174, 3302, 3430, 3558, 3664, 3792,
    3872, 4160, 4240, 6112, 6160, 6470, 6608, 6784, 6800, 6992, 7088, 7232, 7248, 42528, 43216,
    43264, 43472, 43504, 43600, 44016, 65296, 66720, 68912, 69734, 69872, 69942, 70096, 70384,
    70736, 70864, 71248, 71360, 71472, 71904, 72016, 72528, 72784, 73040, 73120, 92768, 92864,
    93008, 120782, 120792, 120802, 120812, 120822, 123200, 123632, 124144, 125264, 130032]

/-- A decimal digit of any script is read as the ASCII one. -/
def asciiDigit (c : Char) : Char :=
  match digitZeros.find? fun first => first ≤ c.toNat ∧ c.toNat < first + 10 with
  | some first => Char.ofNat (48 + (c.toNat - first))
  | none => c

/-- The value of ASCII digits. -/
def number (digits : List Char) : ℕ := digits.foldl (fun n c => 10 * n + (c.toNat - 48)) 0

/-- Whether the number is negative, and what follows the sign. -/
def takeSign : List Char → Bool × List Char
  | '-' :: cs => (true, cs)
  | '+' :: cs => (false, cs)
  | cs => (false, cs)

/-- What follows the digits of a number: nothing, or an exponent. -/
def exponentOf : List Char → Option ℤ
  | [] => some 0
  | 'e' :: r =>
    let (negative, digits) := takeSign r
    if digits = [] ∨ digits.any (fun c => !c.isDigit) then none
    else some (if negative then -(number digits : ℤ) else number digits)
  | _ => none

/-- The least exponent of a number, on a machine of 64 bits. -/
def minEtiny : ℤ := -1999999999999999997

/-- The largest exponent of the first digit. -/
def maxEmax : ℤ := 999999999999999999

/-- The number of digits without the leading zeros, of which a zero keeps one. -/
def precision (digits : List Char) : ℕ := max 1 (digits.dropWhile (· = '0')).length

/-- The number that the digits make with the exponent of the last one. What would have to be
rounded for its exponent is refused. -/
def exactly (digits : List Char) (exponent : ℤ) : Option ℚ :=
  if exponent < minEtiny ∨ maxEmax < exponent + precision digits - 1 then none
  else some (if exponent < 0 then number digits / 10 ^ exponent.natAbs
    else number digits * 10 ^ exponent.natAbs)

/-- Digits with a point somewhere, then perhaps an exponent. -/
def unsigned (cs : List Char) : Option ℚ :=
  let whole := cs.takeWhile Char.isDigit
  let rest := cs.dropWhile Char.isDigit
  let (places, rest) := match rest with
    | '.' :: r => (r.takeWhile Char.isDigit, r.dropWhile Char.isDigit)
    | r => ([], r)
  if whole = [] ∧ places = [] then none
  else (exponentOf rest).bind fun exponent => exactly (whole ++ places) (exponent - places.length)

/-- `Decimal(text)` without the spaces around it, `none` when it raises. -/
def Decimal.ofText (text : String) : Option Decimal :=
  let (negative, body) := takeSign ((text.toList.filter (· ≠ '_')).map fun c =>
    (asciiDigit c).toLower)
  if body = "inf".toList ∨ body = "infinity".toList then some (.infinite negative)
  else if (body.filter fun c => !c.isDigit) = "nan".toList ∧ body.take 3 = "nan".toList ∨
      (body.filter fun c => !c.isDigit) = "snan".toList ∧ body.take 4 = "snan".toList then some .nan
  else (unsigned body).map fun q => .finite (if negative then -q else q)

/-! Digits of any script, and exponents at the limits -/

example : Decimal.ofText "٠.٢٥" = some (.finite (1 / 4)) := by decide +kernel

example : Decimal.ofText "1e-4000000000000000000" = none := by decide +kernel

end Decimals
