import OpenPms.StripePayments
import OpenPms.ChannexAri
import OpenPms.Lib.Decimal

/-!
The amounts that go to Stripe and come from it. Both conversions count hundredths, whatever
the currency is, so they agree with its minor unit where that has two digits; and an amount
that is positive is rounded to cents before it is sent.
-/
namespace OpenPms.Payments

open Decimals KeyedTable Ari

/-! Conversions -/

def moneyToStripeCents (amount : ℚ) : Except Signal ℤ := do
  let product ← result (amount * 100)
  if 10 ^ 28 ≤ |halfUp product| then .error .invalidOperation else .ok (halfUp product)

/-- The integer that `charge_booking` sends for an amount. -/
def amountCents (amount : ℚ) : Except Signal ℤ := do
  let rounded ← quantizeBy halfEven amount
  moneyToStripeCents rounded

/-- The amount that a webhook reads from an integer. -/
def centsToMoney (cents : ℤ) : Except Signal ℚ := do
  let quotient ← result (cents / 100)
  quantizeBy halfEven quotient

/-- The integer is positive and counts the minor unit of the amounts that are recorded, in
cents, on the folio and the charge; a refund of up to as much is read back in that unit. -/
structure InMinorUnits (currency : String) (sent : ℤ) (posting : FolioPosting)
    (row : StripeCharge) : Prop where
  pos : 0 < sent
  folio : (sent : ℚ) = posting.amount / 100 * 10 ^ currencyExponent currency
  charge : (sent : ℚ) = row.amount / 100 * 10 ^ currencyExponent currency
  inverse : ∀ n : ℤ, 0 ≤ n → n ≤ sent → centsToMoney n = .ok (n / 10 ^ currencyExponent currency)

/-! Hundredths -/

theorem halfEven_pos_iff {x : ℚ} (hx : 0 < x) : 0 < halfEven x ↔ 1 / 2 < x := by
  constructor
  · intro hpos
    by_contra hsmall
    rw [not_lt] at hsmall
    have hfloor : ⌊x⌋ = 0 := Int.floor_eq_iff.mpr ⟨by push_cast; linarith, by push_cast; linarith⟩
    have hfract : Int.fract x = x := by
      rw [Int.fract, hfloor, Int.cast_zero, sub_zero]
    unfold halfEven at hpos
    rw [hfract, hfloor] at hpos
    split at hpos
    · omega
    · rw [if_neg hsmall.not_gt] at hpos
      omega
  · intro hhalf
    by_cases hone : 1 ≤ x
    · have hle := le_halfEven (n := 1) (by exact_mod_cast hone)
      omega
    · have hfloor : ⌊x⌋ = 0 :=
        Int.floor_eq_iff.mpr ⟨by push_cast; linarith, by push_cast; linarith⟩
      have hfract : Int.fract x = x := by
        rw [Int.fract, hfloor, Int.cast_zero, sub_zero]
      unfold halfEven
      rw [hfract, hfloor, if_neg hhalf.not_gt, if_pos hhalf]
      omega

/-- An integer with room in the context is its own product and quotient by a hundred. -/
theorem result_cents {n : ℤ} (h : |n| < 10 ^ 28) :
    result (n / 100 * 100 : ℚ) = .ok n ∧ result (n / 100 : ℚ) = .ok (n / 100) := by
  have habs : |(n : ℚ)| ≤ 10 ^ 28 := by exact_mod_cast h.le
  have hwhole : Short (n / 100) := ⟨n, -2, h.le, by norm_num [div_eq_mul_inv]⟩
  have hint : Short n := ⟨n, 0, h.le, by norm_num⟩
  have hsmall : |(n : ℚ) / 100| ≤ 10 ^ 40 := by
    rw [abs_div, abs_of_pos (by norm_num : (0 : ℚ) < 100)]
    linarith
  refine ⟨?_, result_short hwhole hsmall⟩
  rw [div_mul_cancel₀ _ (by norm_num : (100 : ℚ) ≠ 0)]
  exact result_short hint (by linarith)

theorem moneyToStripeCents_cents {n : ℤ} (h : |n| < 10 ^ 28) :
    moneyToStripeCents (n / 100) = .ok n := by
  unfold moneyToStripeCents
  rw [(result_cents h).1]
  show (if 10 ^ 28 ≤ |halfUp (n : ℚ)| then _ else _) = _
  rw [halfUp_intCast, if_neg h.not_ge]

theorem centsToMoney_cents {n : ℤ} (h : |n| < 10 ^ 28) : centsToMoney n = .ok (n / 100) := by
  unfold centsToMoney
  rw [(result_cents h).2]
  show quantizeBy halfEven (n / 100 : ℚ) = _
  unfold quantizeBy
  rw [div_mul_cancel₀ _ (by norm_num : (100 : ℚ) ≠ 0), halfEven_intCast, if_neg h.not_ge]

/-- What is sent is the amount in cents. -/
theorem amountCents_ok {amount : ℚ} {sent : ℤ} :
    amountCents amount = .ok sent ↔ |quantizeCents amount| < 10 ^ 28 ∧ sent = quantizeCents amount := by
  have hcents : halfEven (amount * 100) = quantizeCents amount := rfl
  unfold amountCents quantizeBy
  rw [hcents]
  split
  · next hbig => exact iff_of_false nofun fun h => hbig.not_gt h.1
  · next hsmall =>
    show moneyToStripeCents _ = _ ↔ _
    rw [moneyToStripeCents_cents (not_le.mp hsmall), Except.ok.injEq, eq_comm]
    exact ⟨fun h => ⟨not_le.mp hsmall, h⟩, fun h => h.2⟩

section Charge
variable {secret : Bool} {bookingId pm rowId folioId : UUID} {amount : ℚ} {db : PaymentsDb}
  {plan : ChargePlan} {sent : ℤ} {currency : String}

theorem bind_orError_ok {α β : Type} {detail : String} {statusCode : ℕ} {x : Option α}
    {f : α → Except StripePaymentError β} {b : β} :
    (orError detail statusCode x >>= f) = .ok b ↔ ∃ a, x = some a ∧ f a = .ok b := by
  cases x with
  | none => exact iff_of_false nofun fun ⟨_, h, _⟩ => nomatch h
  | some a => exact ⟨fun h => ⟨a, rfl, h⟩, fun ⟨_, ha, h⟩ => Option.some.inj ha ▸ h⟩

theorem bind_failIf_ok {β : Type} {c : Prop} [Decidable c] {detail : String} {statusCode : ℕ}
    {f : Unit → Except StripePaymentError β} {b : β} :
    (failIf c detail statusCode >>= f) = .ok b ↔ ¬ c ∧ f () = .ok b := by
  unfold failIf
  split
  · next h => exact iff_of_false nofun fun h' => h'.1 h
  · next h => exact ⟨fun h' => ⟨h, h'⟩, fun h' => h'.2⟩

/-- A plan is made for a positive amount and holds it in cents. -/
theorem chargePlan_ok (h : chargePlan secret bookingId pm amount db = .ok plan) :
    0 < amount ∧ plan.amount = quantizeCents amount := by
  unfold chargePlan at h
  simp only [bind_failIf_ok, bind_orError_ok] at h
  obtain ⟨-, hpos, _, -, _, -, -, -, _, -, -, hplan⟩ := h
  cases hplan
  exact ⟨not_le.mp hpos, rfl⟩

theorem minor_units_of_two {posting : FolioPosting} {row : StripeCharge}
    (hexp : currencyExponent currency = 2) (hpos : 0 < sent) (hbound : |sent| < 10 ^ 28)
    (hposting : posting.amount = sent) (hrow : row.amount = sent) :
    InMinorUnits currency sent posting row := by
  have hunit : (sent : ℚ) = sent / 100 * 10 ^ 2 := by ring
  refine ⟨hpos, ?_, ?_, fun n hn hle => ?_⟩
  · rw [hposting, hexp]
    exact hunit
  · rw [hrow, hexp]
    exact hunit
  · have hn' : |n| < 10 ^ 28 := by
      rw [abs_of_nonneg hn]
      rw [abs_of_pos hpos] at hbound
      omega
    rw [hexp, centsToMoney_cents hn']
    norm_num

/-- Only two digits make the hundredths of a positive amount its minor units. -/
theorem two_of_minor_units {posting : FolioPosting} {row : StripeCharge}
    (hposting : posting.amount = sent) (h : InMinorUnits currency sent posting row) :
    currencyExponent currency = 2 := by
  have hne : (sent : ℚ) ≠ 0 := by exact_mod_cast h.pos.ne'
  have hfolio := h.folio
  rw [hposting] at hfolio
  have hpow : (10 : ℚ) ^ currencyExponent currency = 10 ^ 2 := by
    have hmul : (sent : ℚ) * 10 ^ currencyExponent currency = sent * 10 ^ 2 := by linarith
    exact mul_left_cancel₀ hne hmul
  exact pow_right_injective₀ (by norm_num) (by norm_num) hpow

/-- The integer that is sent for a charge counts the minor unit of the amount that is recorded,
and refunds are read back in it, exactly if the currency has two digits and the amount is more
than half a cent. -/
theorem stripe_minor_units_iff {piId : String} {label : Option String}
    (hplan : chargePlan secret bookingId pm amount db = .ok plan)
    (hsent : amountCents amount = .ok sent) :
    (∃ posting row,
      (recordCharge rowId folioId piId label plan db).folio = db.folio ++ [posting] ∧
      (recordCharge rowId folioId piId label plan db).charges = db.charges.insert row ∧
      InMinorUnits plan.currency sent posting row) ↔
    currencyExponent plan.currency = 2 ∧ 1 / 200 < amount := by
  obtain ⟨hpos, hamount⟩ := chargePlan_ok hplan
  obtain ⟨hbound, hcents⟩ := amountCents_ok.mp hsent
  have hplanned : plan.amount = sent := hamount.trans hcents.symm
  have hhalf : 0 < sent ↔ 1 / 200 < amount := by
    have hround : 0 < halfEven (amount * 100) ↔ 1 / 2 < amount * 100 :=
      halfEven_pos_iff (by linarith)
    rw [hcents]
    refine hround.trans ⟨fun h => by linarith, fun h => by linarith⟩
  constructor
  · rintro ⟨posting, row, hfolio, -, hunits⟩
    have hposting : posting.amount = sent := by
      have hlast := List.append_cancel_left hfolio
      rw [← (List.cons.inj hlast).1]
      exact hplanned
    exact ⟨two_of_minor_units hposting hunits, hhalf.mp hunits.pos⟩
  · rintro ⟨hexp, hlarge⟩
    rw [← hcents] at hbound
    exact ⟨_, _, rfl, rfl, minor_units_of_two hexp (hhalf.mpr hlarge) hbound hplanned hplanned⟩

end Charge

namespace Demo

theorem nodup_booking (b : Booking) : ([b].map Booking.id).Nodup := List.nodup_singleton _

theorem nodup_card (m : StripePaymentMethod) : ([m].map StripePaymentMethod.id).Nodup :=
  List.nodup_singleton _

def chargedBooking : Booking := ⟨1000, 1, 5, none, none, .confirmed, "direct", 0, none, []⟩

def savedCard : StripePaymentMethod := ⟨30, 1, none, "pm_1"⟩

/-- One booking of a property with this currency, and a saved card. -/
def pricedIn (currency : String) : PaymentsDb where
  bookings := ⟨[chargedBooking], nodup_booking chargedBooking⟩
  paymentMethods := ⟨[savedCard], nodup_card savedCard⟩
  currency p := if p = 1 then some currency else none
  connected p := p = 1
  charges := .empty
  folio := []

def chargeOf (currency : String) (cents : ℤ) : ChargePlan :=
  ⟨1000, 1, "pm_1", currency, cents⟩

end Demo

theorem stripe_minor_units_usd :
    ∃ posting row, (recordCharge 40 400 "pi_1" none (Demo.chargeOf "usd" 5000)
        (Demo.pricedIn "USD")).folio = [posting] ∧
      (recordCharge 40 400 "pi_1" none (Demo.chargeOf "usd" 5000) (Demo.pricedIn "USD")).charges =
        Table.empty.insert row ∧ InMinorUnits "usd" 5000 posting row := by
  have hplan : chargePlan true 1000 30 50 (Demo.pricedIn "USD") = .ok (Demo.chargeOf "usd" 5000) := by
    decide +kernel
  have hsent : amountCents 50 = .ok 5000 := by decide +kernel
  exact (stripe_minor_units_iff hplan hsent).mpr ⟨by decide, by norm_num⟩

/-- A thousand yen are sent as a hundred thousand, and half a cent as nothing. -/
theorem yen_charged_hundredfold :
    chargePlan true 1000 30 1000 (Demo.pricedIn "JPY") = .ok (Demo.chargeOf "jpy" 100000) ∧
    amountCents 1000 = .ok 100000 ∧ currencyExponent "jpy" = 0 ∧
    (¬ ∃ posting row, (recordCharge 40 400 "pi_1" none (Demo.chargeOf "jpy" 100000)
        (Demo.pricedIn "JPY")).folio = [posting] ∧
      (recordCharge 40 400 "pi_1" none (Demo.chargeOf "jpy" 100000) (Demo.pricedIn "JPY")).charges =
        Table.empty.insert row ∧ InMinorUnits "jpy" 100000 posting row) ∧
    (chargePlan true 1000 30 (1 / 200) (Demo.pricedIn "USD")).isOk = true ∧
    amountCents (1 / 200) = .ok 0 := by
  have hexp : currencyExponent "jpy" = 0 := by decide
  refine ⟨by decide +kernel, by decide +kernel, hexp, ?_, by decide +kernel, by decide +kernel⟩
  rintro ⟨posting, row, hfolio, -, hunits⟩
  have hposting : posting.amount = 100000 := by
    rw [← (List.cons.inj hfolio).1]
    rfl
  have htwo := two_of_minor_units hposting hunits
  rw [hexp] at htwo
  exact absurd htwo (by decide)

end OpenPms.Payments
