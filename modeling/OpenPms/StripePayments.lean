import OpenPms.ChannexBooking

/-!
Stripe charges and refunds. A request checks its rows, calls Stripe and then writes its
own rows; what Stripe has done stays done when the request fails afterwards. Amounts are
in cents. The folio rows of a refund do not name their charge in the table: `charge` is
the charge whose request or webhook has posted the row, and `refund` the refund request
that the row is for, where the requests are told apart.
-/
namespace OpenPms.Payments

open KeyedTable

inductive ChargeStatus where
  | succeeded
  | failed
  | refunded
  | partialRefund
  deriving DecidableEq

structure StripeCharge where
  id : UUID
  propertyId : UUID
  bookingId : UUID
  folioTxId : Option UUID
  stripeChargeId : String
  stripePmId : String
  amount : ℤ
  currency : String
  status : ChargeStatus
  failureMessage : Option String
  deriving DecidableEq

structure StripePaymentMethod where
  id : UUID
  propertyId : UUID
  bookingId : Option UUID
  stripePmId : String
  deriving DecidableEq

/-- A folio row of type Payment, method and channel stripe. -/
structure FolioPosting where
  id : UUID
  bookingId : UUID
  amount : ℤ
  description : String
  charge : UUID
  refund : Option ℕ
  deriving DecidableEq

/-- `currency` are the properties, `connected` tells which have an active connection. -/
structure PaymentsDb where
  bookings : Table Booking.id
  paymentMethods : Table StripePaymentMethod.id
  currency : UUID → Option String
  connected : UUID → Bool
  charges : Table StripeCharge.id
  folio : List FolioPosting

structure StripePaymentError where
  detail : String
  statusCode : ℕ
  deriving DecidableEq

/-! Requests up to their call of Stripe -/

/-- `Decimal.quantize` to cents. -/
def quantizeCents (amount : ℚ) : ℤ := roundHalfEven (amount * 100)

structure ChargePlan where
  bookingId : UUID
  propertyId : UUID
  stripePmId : String
  currency : String
  amount : ℤ
  deriving DecidableEq

def orError {α : Type} (detail : String) (statusCode : ℕ) : Option α → Except StripePaymentError α
  | none => .error ⟨detail, statusCode⟩
  | some a => .ok a

def failIf (c : Prop) [Decidable c] (detail : String) (statusCode : ℕ) :
    Except StripePaymentError Unit :=
  if c then .error ⟨detail, statusCode⟩ else .ok ()

def chargePlan (secret : Bool) (bookingId stripePmRowId : UUID) (amount : ℚ) (db : PaymentsDb) :
    Except StripePaymentError ChargePlan := do
  failIf (secret = false) "Stripe secret key is not configured" 503
  failIf (amount ≤ 0) "amount must be positive" 422
  let booking ← orError "booking not found" 404 (db.bookings.find bookingId)
  let pm ← orError "saved payment method not found" 422 (db.paymentMethods.find stripePmRowId)
  failIf (pm.propertyId ≠ booking.propertyId)
    "payment method does not belong to this booking's property" 422
  failIf (pm.bookingId.isSome ∧ pm.bookingId ≠ some bookingId)
    "payment method is restricted to another booking" 422
  let currency ← orError "property not found" 404 (db.currency booking.propertyId)
  failIf (db.connected booking.propertyId = false) "Stripe is not connected for this property" 422
  pure ⟨bookingId, booking.propertyId, pm.stripePmId, Text.lower (Text.strip currency),
    quantizeCents amount⟩

structure RefundPlan where
  charge : StripeCharge
  amount : ℤ
  deriving DecidableEq

/-- One refund at most is made here for a charge. -/
def refundPlan (secret : Bool) (bookingId chargeRowId : UUID) (amount : Option ℚ)
    (db : PaymentsDb) : Except StripePaymentError RefundPlan := do
  failIf (secret = false) "Stripe secret key is not configured" 503
  let _ ← orError "booking not found" 404 (db.bookings.find bookingId)
  let ch ← orError "charge not found" 404 (db.charges.find chargeRowId)
  failIf (ch.bookingId ≠ bookingId) "charge does not belong to this booking" 404
  failIf (ch.status = .failed) "cannot refund a failed charge" 422
  failIf (ch.status = .refunded) "charge is already fully refunded" 422
  failIf (ch.status = .partialRefund) "only one refund is allowed per charge" 422
  let refundAmt := (amount.map quantizeCents).getD ch.amount
  failIf (amount.isSome ∧ refundAmt ≤ 0) "refund amount must be positive" 422
  failIf (ch.amount < refundAmt) "refund amount exceeds charge amount" 422
  failIf (db.connected ch.propertyId = false) "Stripe is not connected for this property" 422
  pure ⟨ch, refundAmt⟩

/-! What the requests write -/

/-- A blank label is replaced by the default text. -/
def labelOr (label : Option String) (default : String) : String :=
  match label with
  | none => default
  | some text => if Text.strip text = "" then default else Text.strip text

def recordFailure (rowId : UUID) (failedId message : String) (plan : ChargePlan)
    (db : PaymentsDb) : PaymentsDb :=
  let row : StripeCharge :=
    { id := rowId, propertyId := plan.propertyId, bookingId := plan.bookingId,
      folioTxId := none, stripeChargeId := failedId, stripePmId := plan.stripePmId,
      amount := plan.amount, currency := plan.currency.toUpper, status := .failed,
      failureMessage := some message }
  { db with charges := db.charges.insert row }

/-- The status of the intent is not looked at. -/
def recordCharge (rowId folioId : UUID) (piId : String) (label : Option String)
    (plan : ChargePlan) (db : PaymentsDb) : PaymentsDb :=
  let posting : FolioPosting :=
    ⟨folioId, plan.bookingId, plan.amount, labelOr label "Stripe card payment", rowId, none⟩
  let row : StripeCharge :=
    { id := rowId, propertyId := plan.propertyId, bookingId := plan.bookingId,
      folioTxId := some folioId, stripeChargeId := piId, stripePmId := plan.stripePmId,
      amount := plan.amount, currency := plan.currency.toUpper, status := .succeeded,
      failureMessage := none }
  { db with folio := db.folio ++ [posting], charges := db.charges.insert row }

def StripeCharge.withStatus (status : ChargeStatus) (ch : StripeCharge) : StripeCharge :=
  { ch with status := status }

theorem StripeCharge.id_withStatus (status : ChargeStatus) (ch : StripeCharge) :
    (ch.withStatus status).id = ch.id := rfl

/-- The status and the negative row of a refund of `amount`. -/
def bookRefund (folioId : UUID) (refund : Option ℕ) (description : String)
    (charge : StripeCharge) (amount : ℤ) (db : PaymentsDb) : PaymentsDb :=
  let status := if charge.amount ≤ amount then .refunded else .partialRefund
  let posting : FolioPosting :=
    ⟨folioId, charge.bookingId, -amount, description, charge.id, refund⟩
  { db with
    charges := db.charges.update charge.id (.withStatus status) (StripeCharge.id_withStatus status)
    folio := db.folio ++ [posting] }

/-- What a webhook would book: nothing unless the charge is still succeeded; the whole
charge when no positive amount is given; never more than the charge. -/
def reconciledAmount (charge : StripeCharge) (amountRefunded : Option ℤ) : Option ℤ :=
  if charge.status ≠ .succeeded then none
  else some (min charge.amount
    ((amountRefunded.filter fun a => 0 < a).getD charge.amount))

def lookupStripeChargeForWebhook (piId : String) (db : PaymentsDb) : Option StripeCharge :=
  db.charges.rows.find? fun ch => ch.stripeChargeId = piId

def reconcileRefundFromWebhook (folioId : UUID) (piId : String) (amountRefunded : Option ℤ)
    (db : PaymentsDb) : PaymentsDb :=
  match lookupStripeChargeForWebhook piId db with
  | none => db
  | some ch =>
    match reconciledAmount ch amountRefunded with
    | none => db
    | some amount => bookRefund folioId none "Stripe refund (webhook)" ch amount db

/-! Stripe's side -/

/-- What Stripe has captured and refunded for a payment intent, in the integers that it is
sent: it reads them in the minor unit of the currency. -/
structure Intent where
  captured : ℤ
  refunded : ℤ
  deriving DecidableEq

/-- What is left with Stripe, where the minor unit has so many digits. -/
def Intent.kept (digits : ℕ) (intent : Intent) : ℚ :=
  (intent.captured - intent.refunded) / 10 ^ digits

inductive IntentStatus where
  | succeeded
  | requiresAction
  | processing
  deriving DecidableEq

inductive CreateAnswer where
  | error (message : String)
  | intent (id : String) (status : IntentStatus)
  deriving DecidableEq

structure System where
  db : PaymentsDb
  stripe : String → Intent

/-- Only an intent that has succeeded has captured its amount. -/
def capture (stripe : String → Intent) (id : String) (status : IntentStatus) (amount : ℤ) :
    String → Intent :=
  Function.update stripe id ⟨if status = .succeeded then amount else 0, 0⟩

def giveBack (stripe : String → Intent) (id : String) (amount : ℤ) : String → Intent :=
  Function.update stripe id
    ⟨(stripe id).captured, (stripe id).refunded + amount⟩

/-! One request after the other -/

def chargeBooking (secret : Bool) (rowId folioId : UUID) (failedId : String)
    (bookingId stripePmRowId : UUID) (amount : ℚ) (label : Option String) (answer : CreateAnswer)
    (s : System) : System :=
  match chargePlan secret bookingId stripePmRowId amount s.db with
  | .error _ => s
  | .ok plan =>
    match answer with
    | .error message => { s with db := recordFailure rowId failedId message plan s.db }
    | .intent id status =>
      let stripe := capture s.stripe id status plan.amount
      if id = "" then { s with stripe := stripe }
      else ⟨recordCharge rowId folioId id label plan s.db, stripe⟩

/-- Stripe refuses what exceeds the captured amount, and may refuse for other reasons. -/
def refundStripeCharge (secret : Bool) (folioId bookingId chargeRowId : UUID) (amount : Option ℚ)
    (willing : Bool) (s : System) : System :=
  match refundPlan secret bookingId chargeRowId amount s.db with
  | .error _ => s
  | .ok plan =>
    let intent := s.stripe plan.charge.stripeChargeId
    if willing = true ∧ plan.amount ≤ intent.captured - intent.refunded then
      ⟨bookRefund folioId none "Stripe refund" plan.charge plan.amount s.db,
        giveBack s.stripe plan.charge.stripeChargeId plan.amount⟩
    else s

/-- Stripe refunds `more` on its own, nothing when the event is delivered again, and the
webhook carries the cumulative amount. -/
def chargeRefunded (folioId : UUID) (piId : String) (more : ℤ) (s : System) : System :=
  let stripe := giveBack s.stripe piId more
  ⟨reconcileRefundFromWebhook folioId piId (some (stripe piId).refunded) s.db, stripe⟩

inductive PaymentEvent where
  | charge (secret : Bool) (rowId folioId : UUID) (failedId : String)
      (bookingId stripePmRowId : UUID) (amount : ℚ) (label : Option String) (answer : CreateAnswer)
  | refund (secret : Bool) (folioId bookingId chargeRowId : UUID) (amount : Option ℚ)
      (willing : Bool)
  | webhook (folioId : UUID) (piId : String) (more : ℤ)

def PaymentEvent.apply : PaymentEvent → System → System
  | .charge secret rowId folioId failedId bookingId pm amount label answer =>
    chargeBooking secret rowId folioId failedId bookingId pm amount label answer
  | .refund secret folioId bookingId chargeRowId amount willing =>
    refundStripeCharge secret folioId bookingId chargeRowId amount willing
  | .webhook folioId piId more => chargeRefunded folioId piId more

end OpenPms.Payments
