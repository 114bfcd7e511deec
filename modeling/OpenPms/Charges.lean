import OpenPms.Database

/-!
The nightly rates of a stay and the folio rows posted for it: the posting of the property's
country pack, with what its engine raises, and the rows that it replaces.
-/
namespace OpenPms

open Decimals Tax Transaction Prog

/-- `ValueError` of `iter_stay_nights`, as a transaction. -/
def stayNights (checkIn checkOut : ℤ) : Tx (List ℤ) :=
  ofExcept ((iterStayNights checkIn checkOut).mapError .valueError)

/-- The total and the nights in order with their prices. -/
def sumRatesForStay (rt ratePlan : UUID) (checkIn checkOut : ℤ) :
    Tx (Money × List (ℤ × Money)) := do
  let nights ← stayNights checkIn checkOut
  let byDate ← select fun db => db.rates rt ratePlan
  let missing := nights.filter fun d => byDate d = none
  raiseIf (missing ≠ []) (.missingRates missing)
  let perNight := nights.map fun d => (d, (byDate d).getD 0)
  pure ((perNight.map (·.2)).sum, perNight)

def requireBooking (bid : UUID) : Tx Unit := do
  let found ← select fun db => db.bookings.find bid
  raiseIf (found = none) (.folio "booking not found" 404)

/-! The posting of the country pack -/

def Err.ofSignal : Signal → Err
  | .invalidOperation => .invalidOperation
  | .divisionByZero => .divisionByZero
  | .overflow => .decimalOverflow

/-- The line of a rule on a base that is not a number. The response model refuses the amount
unless an inclusive rate is zero; the rate is read before. -/
def unpricedLine (r : Rule) : Except Err Unit :=
  match r.parsedRate with
  | .error e => .error (.ofSignal e)
  | .ok rate =>
    if r.inclusive = false then .error .validationError
    else if rate = .finite 0 then
      if r.compound then .error .validationError else .ok ()
    else match Decimal.add (.finite 1) rate with
      | .error e => .error (.ofSignal e)
      | .ok _ => .error .validationError

/-- The posting of such a base: the response model refuses the subtotal at the latest. -/
def unpricedTaxes {α : Type} (rules : List Rule) : Except Err α := do
  let active ← (selectActive "room_charge" rules).mapError .ofSignal
  (active.filter fun r => !r.compound).forM unpricedLine
  (compoundRules active).forM unpricedLine
  .error .validationError

/-- The amount left for the room charge and the tax rows, when the pack is switched on. -/
def Env.taxPosting (env : Env) (propertyId : UUID) (base : Money) :
    Except Err (Option (Money × List (Money × String))) :=
  match env.countryPack propertyId with
  | none => .ok none
  | some (taxes, mode) =>
    if mode = .off then .ok none
    else match base with
      | ⊤ => unpricedTaxes <|
          if mode = .inclusive then (parseRules taxes).map setInclusive else parseRules taxes
      | (n : ℤ) => ((countryPackTaxPosting (n / 100) taxes "room_charge" (some mode)).mapError
          .ofSignal).map fun p => some (inCents p)

/-- What a posting can raise. -/
inductive TaxError : Err → Prop
  | signal (e : Signal) : TaxError (.ofSignal e)
  | refused : TaxError .validationError

theorem unpricedLine_error {r : Rule} {e : Err} (h : unpricedLine r = .error e) : TaxError e := by
  unfold unpricedLine at h
  split at h
  · cases h
    exact .signal _
  · split at h
    · cases h
      exact .refused
    · split at h
      · split at h
        · cases h
          exact .refused
        · cases h
      · split at h
        · cases h
          exact .signal _
        · cases h
          exact .refused

theorem unpricedLines_error {rules : List Rule} {e : Err}
    (h : rules.forM unpricedLine = .error e) : TaxError e := by
  induction rules with
  | nil => cases h
  | cons r rest ih =>
    change (unpricedLine r >>= fun _ => rest.forM unpricedLine) = .error e at h
    rcases Except.bind_eq_error.mp h with hline | ⟨_, -, hrest⟩
    · exact unpricedLine_error hline
    · exact ih hrest

theorem unpricedTaxes_error {α : Type} {rules : List Rule} {e : Err}
    (h : (unpricedTaxes rules : Except Err α) = .error e) : TaxError e := by
  rcases Except.bind_eq_error.mp h with hactive | ⟨active, -, h⟩
  · cases hselect : selectActive "room_charge" rules with
    | error s =>
      rw [hselect] at hactive
      cases hactive
      exact .signal s
    | ok active =>
      rw [hselect] at hactive
      cases hactive
  · rcases Except.bind_eq_error.mp h with hplain | ⟨_, -, h⟩
    · exact unpricedLines_error hplain
    · rcases Except.bind_eq_error.mp h with hcompound | ⟨_, -, hlast⟩
      · exact unpricedLines_error hcompound
      · cases hlast
        exact .refused

theorem taxPosting_error {env : Env} {propertyId : UUID} {base : Money} {e : Err}
    (h : env.taxPosting propertyId base = .error e) : TaxError e := by
  unfold Env.taxPosting at h
  split at h
  · cases h
  · split at h
    · cases h
    · split at h
      · exact unpricedTaxes_error h
      · next taxes mode _ _ _ n =>
        cases hposting : countryPackTaxPosting (n / 100) taxes "room_charge" (some mode) with
        | error s =>
          rw [hposting] at h
          cases h
          exact .signal s
        | ok p =>
          rw [hposting] at h
          cases h

def countryPackTaxPrefix : String := "[country-pack-tax]"

def taxDescription (line : String) : String := countryPackTaxPrefix ++ " " ++ line

/-- The columns take the tax rows. -/
def TaxesFit (taxes : List (Money × String)) : Prop :=
  ∀ line ∈ taxes, line.1.fits = true ∧ (taxDescription line.2).length ≤ 512

instance (taxes : List (Money × String)) : Decidable (TaxesFit taxes) :=
  inferInstanceAs (Decidable (∀ line ∈ taxes, _))

/-- Charge rows of category tax that an earlier posting of the pack has written. -/
def isCountryPackTax (bid : UUID) (ft : FolioTransaction) : Bool :=
  ft.bookingId = bid && ft.transactionType = .charge && ft.category = "tax" &&
    (ft.description.any fun text => countryPackTaxPrefix.toList.isPrefixOf text.toList)

/-- Replace the automatic tax rows; returns the amount left for the room charge. -/
def replaceCountryPackTaxCharges (env : Env) (bid propertyId : UUID) (base : Money) :
    Tx Money := do
  requireBooking bid
  modify fun db => { db with folio := db.folio.filter fun ft => !isCountryPackTax bid ft }
  let posting ← ofExcept (env.taxPosting propertyId base)
  match posting with
  | none => pure base
  | some (roomCharge, taxes) => do
    raiseIf (¬ TaxesFit taxes) .dataError
    modify fun db => { db with folio := db.folio ++ taxes.mapIdx fun i line =>
      { id := env.folioId (i + 1), bookingId := bid, transactionType := .charge,
        amount := line.1, paymentMethod := none,
        description := some (taxDescription line.2), category := "tax" } }
    pure roomCharge

/-- Set the amount of the first row that satisfies the predicate. -/
def setFirstAmount (p : FolioTransaction → Bool) (amount : Money) :
    List FolioTransaction → List FolioTransaction
  | [] => []
  | ft :: rest =>
    if p ft then { ft with amount := amount } :: rest else ft :: setFirstAmount p amount rest

def isRoomCharge (bid : UUID) (ft : FolioTransaction) : Bool :=
  ft.bookingId = bid && ft.transactionType = .charge && ft.category = "room_charge"

/-- The oldest room-charge row of the booking takes the amount, if there is one. -/
def updateFolioChargeAmount (bid : UUID) (amount : Money) : Tx Unit := do
  let charged ← select fun db => db.folio.any (isRoomCharge bid)
  raiseIf (charged = true ∧ amount.fits = false) .dataError
  modify fun db => { db with folio := setFirstAmount (isRoomCharge bid) amount db.folio }

def computeFolioBalance (bid : UUID) (db : Db) : Money :=
  let total (t : FolioType) : Money :=
    ((db.folio.filter fun ft => ft.bookingId = bid && ft.transactionType = t).map (·.amount)).sum
  (total .charge).sub (total .payment)

theorem exec_stayNights_ok {checkIn checkOut : ℤ} {db db' : Db} {nights : List ℤ} :
    (stayNights checkIn checkOut).exec db = (.ok nights, db') ↔
      iterStayNights checkIn checkOut = .ok nights ∧ db = db' := by
  unfold stayNights
  rw [exec_ofExcept_ok]
  cases iterStayNights checkIn checkOut <;> simp [Except.mapError]

theorem stayNights_of_span {ci co : ℤ} (hlt : ci < co) (hspan : co - ci ≤ maxStayNights) :
    stayNights ci co = pure (daysBetween ci co) := by
  rw [stayNights, iterStayNights_of_span hlt hspan]
  rfl

/-- A priced stay lists its nights in order, and the total is the sum of the prices. -/
theorem exec_sumRates_ok {rt ratePlan : UUID} {checkIn checkOut : ℤ} {db db' : Db}
    {total : Money} {perNight : List (ℤ × Money)}
    (h : (sumRatesForStay rt ratePlan checkIn checkOut).exec db = (.ok (total, perNight), db')) :
    db = db' ∧ iterStayNights checkIn checkOut = .ok (perNight.map (·.1)) ∧
      total = (perNight.map (·.2)).sum := by
  unfold sumRatesForStay at h
  simp only [exec_bind_ok, exec_stayNights_ok, exec_select, exec_raiseIf_ok, exec_pure,
    Prod.mk.injEq, Except.ok.injEq] at h
  obtain ⟨nights, _, ⟨hnights, rfl⟩, _, _, ⟨rfl, rfl⟩, _, _, ⟨-, rfl⟩, ⟨rfl, rfl⟩, rfl⟩ := h
  refine ⟨rfl, ?_, rfl⟩
  rw [hnights]
  simp [Function.comp_def]

/-- The folio is all that replacing the taxes changes. -/
theorem exec_replaceTaxes_ok {env : Env} {bid propertyId : UUID} {base amount : Money}
    {db db' : Db}
    (h : (replaceCountryPackTaxCharges env bid propertyId base).exec db = (.ok amount, db')) :
    ∃ folio, db' = { db with folio := folio } := by
  unfold replaceCountryPackTaxCharges at h
  simp only [requireBooking, exec_bind_ok, exec_select, exec_raiseIf_ok, exec_modify,
    Prod.mk.injEq, Except.ok.injEq] at h
  obtain ⟨_, _, ⟨_, _, ⟨rfl, rfl⟩, -, rfl⟩, _, _, ⟨-, rfl⟩, posting, _, hposting, h⟩ := h
  obtain ⟨-, rfl⟩ := exec_ofExcept_ok.mp hposting
  split at h
  · cases h
    exact ⟨_, rfl⟩
  · simp only [exec_bind_ok, exec_raiseIf_ok, exec_modify, Prod.mk.injEq] at h
    obtain ⟨_, _, ⟨-, rfl⟩, _, _, ⟨-, rfl⟩, h⟩ := h
    cases h
    exact ⟨_, rfl⟩

/-- The amount must fit its column when there is a row that takes it. -/
theorem exec_updateFolioCharge_ok {bid : UUID} {amount : Money} {db db' : Db} {u : Unit} :
    (updateFolioChargeAmount bid amount).exec db = (.ok u, db') ↔
      ((∃ ft ∈ db.folio, isRoomCharge bid ft = true) → amount.fits = true) ∧
        db' = { db with folio := setFirstAmount (isRoomCharge bid) amount db.folio } := by
  simp only [updateFolioChargeAmount, exec_bind_ok, exec_select, exec_raiseIf_ok, exec_modify,
    Prod.mk.injEq, Except.ok.injEq, not_and, Bool.not_eq_false]
  constructor
  · rintro ⟨_, _, ⟨rfl, rfl⟩, _, _, ⟨hfits, rfl⟩, -, rfl⟩
    exact ⟨fun hrow => hfits (List.any_eq_true.mpr hrow), rfl⟩
  · rintro ⟨hfits, rfl⟩
    exact ⟨_, db, ⟨rfl, rfl⟩, (), db, ⟨fun hrow => hfits (List.any_eq_true.mp hrow), rfl⟩, trivial,
      rfl⟩

end OpenPms
