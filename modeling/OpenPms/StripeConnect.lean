import OpenPms.StripeFolio
import OpenPms.WebhookSecrets

/-!
The Stripe account of a property. It is connected over OAuth and kept enciphered, and every
call of Stripe names the account that is connected at that moment. What Stripe answers is up to
Stripe; what it documents of its answers is a hypothesis: cards and payment intents belong to
the account under which they were made, and Stripe grants requests for them under no other, and
only as long as the platform may act for the account.
-/
namespace OpenPms.Payments

open KeyedTable

/-- One row a property. -/
structure StripeConnection where
  propertyId : UUID
  stripeAccountId : String
  livemode : Bool
  connectedAt : ℤ
  disconnectedAt : Option ℤ
  deriving DecidableEq

/-- The properties are `currency`. -/
structure ConnectDb where
  bookings : Table Booking.id
  currency : UUID → Option String
  connections : Table StripeConnection.propertyId
  paymentMethods : Table StripePaymentMethod.id
  charges : Table StripeCharge.id
  folio : List FolioPosting

/-- Stripe's side: the accounts that the platform may act for, and the accounts of the cards
and the intents. No request reads it. -/
structure StripeSide where
  linked : String → Bool
  cardAccount : String → Option String
  intentAccount : String → Option String
  intents : String → Intent

structure Connected where
  db : ConnectDb
  stripe : StripeSide

structure StripeSettings extends WebhookSettings where
  stripeSecretKey : Option String
  stripeClientId : Option String
  stripeRedirectUri : Option String
  deriving DecidableEq

def isSet (value : Option String) : Bool := Text.strip (value.getD "") ≠ ""

inductive ConnectError where
  | connect (detail : String) (statusCode : ℕ)
  | payment (e : StripePaymentError)
  | cipher
  deriving DecidableEq

/-! Rows -/

def ConnectDb.activeConnection (propertyId : UUID) (db : ConnectDb) : Option StripeConnection :=
  (db.connections.find propertyId).filter fun row => row.disconnectedAt.isNone

/-- What the payment requests see of the connections. -/
def ConnectDb.payments (db : ConnectDb) : PaymentsDb where
  bookings := db.bookings
  paymentMethods := db.paymentMethods
  currency := db.currency
  connected p := (db.activeConnection p).isSome
  charges := db.charges
  folio := db.folio

inductive StripeStatusRead where
  | notConnected
  | connected (livemode : Bool) (connectedAt : ℤ)
  deriving DecidableEq

def getStripeStatus (propertyId : UUID) (db : ConnectDb) : StripeStatusRead :=
  match db.activeConnection propertyId with
  | none => .notConnected
  | some row => .connected row.livemode row.connectedAt

def StripeConnection.reconnect (ciphertext : String) (livemode : Bool) (now : ℤ)
    (row : StripeConnection) : StripeConnection :=
  { row with stripeAccountId := ciphertext, livemode := livemode, connectedAt := now,
             disconnectedAt := none }

theorem StripeConnection.id_reconnect (ciphertext : String) (livemode : Bool) (now : ℤ)
    (row : StripeConnection) :
    (row.reconnect ciphertext livemode now).propertyId = row.propertyId := rfl

def StripeConnection.disconnect (now : ℤ) (row : StripeConnection) : StripeConnection :=
  { row with disconnectedAt := some now }

theorem StripeConnection.id_disconnect (now : ℤ) (row : StripeConnection) :
    (row.disconnect now).propertyId = row.propertyId := rfl

def saveConnection (propertyId : UUID) (ciphertext : String) (livemode : Bool) (now : ℤ)
    (connections : Table StripeConnection.propertyId) : Table StripeConnection.propertyId :=
  match connections.find propertyId with
  | some _ =>
    connections.update propertyId (.reconnect ciphertext livemode now)
      (StripeConnection.id_reconnect ciphertext livemode now)
  | none => connections.insert ⟨propertyId, ciphertext, livemode, now, none⟩

/-! Stripe's answers -/

/-- Stripe is willing or refuses, with a text for it. -/
structure Reply where
  willing : Bool
  message : String
  deriving DecidableEq

inductive TokenAnswer where
  | error (message : String)
  | token (stripeUserId : String) (livemode : Bool)
  deriving DecidableEq

/-- The intent exists whatever its identifier and its status are. -/
def StripeSide.holdIntent (stripe : StripeSide) (account : String) :
    CreateAnswer → String → Option String
  | .error _ => stripe.intentAccount
  | .intent id _ => Function.update stripe.intentAccount id (some account)

/-! Connections -/

section Requests
variable {Key Nonce : Type} (env : SecretsEnv Key Nonce)

def encryptStripeAccountId (settings : WebhookSettings) (nonce : Nonce) (plain : String) :
    Option String :=
  (getFernet env settings).map fun k => env.encrypt k nonce plain

/-- Unlike the secrets of subscriptions, a text that the key does not open is an error. -/
def decryptStripeAccountId (settings : WebhookSettings) (stored : String) : Option String :=
  (getFernet env settings).bind fun k => env.decrypt k stored

/-- The account that the running key opens for a property. -/
def ConnectDb.account (settings : WebhookSettings) (propertyId : UUID) (db : ConnectDb) :
    Option String :=
  (db.activeConnection propertyId).bind fun row =>
    decryptStripeAccountId env settings row.stripeAccountId

def requireStripeSettings (settings : StripeSettings) : Except ConnectError Unit :=
  if isSet settings.stripeSecretKey = false then
    .error (.connect "Stripe secret key is not configured" 503)
  else if isSet settings.stripeClientId = false then
    .error (.connect "Stripe client_id is not configured" 503)
  else if isSet settings.stripeRedirectUri = false then
    .error (.connect "Stripe redirect_uri is not configured" 503)
  else .ok ()

def requireProperty (e : ConnectError) (propertyId : UUID) (db : ConnectDb) :
    Except ConnectError Unit :=
  if db.currency propertyId = none then .error e else .ok ()

/-- The property is the one that the state names. -/
def connectPlan (settings : StripeSettings) (propertyId : UUID) (db : ConnectDb) :
    Except ConnectError Unit := do
  requireStripeSettings settings
  requireProperty (.connect "property not found" 404) propertyId db

def exchangeCodeForConnection (settings : StripeSettings) (nonce : Nonce) (propertyId : UUID)
    (answer : TokenAnswer) (now : ℤ) (s : Connected) : Except ConnectError Unit × Connected :=
  match connectPlan settings propertyId s.db with
  | .error e => (.error e, s)
  | .ok _ =>
    match answer with
    | .error message => (.error (.connect message 400), s)
    | .token account livemode =>
      -- the account has let the platform in, whatever becomes of the row
      let stripe := { s.stripe with linked := Function.update s.stripe.linked account true }
      if account = "" then
        (.error (.connect "Stripe did not return stripe_user_id" 502), { s with stripe := stripe })
      else
        match encryptStripeAccountId env settings.toWebhookSettings nonce account with
        | none => (.error .cipher, { s with stripe := stripe })
        | some ciphertext =>
          let rows := saveConnection propertyId ciphertext livemode now s.db.connections
          (.ok (), ⟨{ s.db with connections := rows }, stripe⟩)

def disconnectPlan (settings : StripeSettings) (propertyId : UUID) (db : ConnectDb) :
    Except ConnectError String := do
  requireProperty (.connect "Property not found" 404) propertyId db
  requireStripeSettings settings
  match db.activeConnection propertyId with
  | none => .error (.connect "Stripe is not connected for this property" 404)
  | some row =>
    match decryptStripeAccountId env settings.toWebhookSettings row.stripeAccountId with
    | none => .error .cipher
    | some account => .ok account

def disconnectStripeConnection (settings : StripeSettings) (propertyId : UUID) (reply : Reply)
    (now : ℤ) (s : Connected) : Except ConnectError Unit × Connected :=
  match disconnectPlan env settings propertyId s.db with
  | .error e => (.error e, s)
  | .ok account =>
    if reply.willing = true then
      let rows := s.db.connections.update propertyId (.disconnect now)
        (StripeConnection.id_disconnect now)
      let stripe := { s.stripe with linked := Function.update s.stripe.linked account false }
      (.ok (), ⟨{ s.db with connections := rows }, stripe⟩)
    else (.error (.connect reply.message 502), s)

/-! Cards -/

/-- The account of a property, as the payment requests get it. -/
def activeAccount (settings : StripeSettings) (propertyId : UUID) (db : ConnectDb) :
    Except ConnectError String :=
  match db.activeConnection propertyId with
  | none => .error (.payment ⟨"Stripe is not connected for this property", 422⟩)
  | some row =>
    match decryptStripeAccountId env settings.toWebhookSettings row.stripeAccountId with
    | none => .error .cipher
    | some account => .ok account

def requirePaymentSecret (settings : StripeSettings) : Except ConnectError Unit :=
  if isSet settings.stripeSecretKey = false then
    .error (.payment ⟨"Stripe secret key is not configured", 503⟩)
  else .ok ()

def checkCardBooking (propertyId : UUID) (db : ConnectDb) :
    Option UUID → Except ConnectError Unit
  | none => .ok ()
  | some bookingId =>
    match db.bookings.find bookingId with
    | none => .error (.payment ⟨"booking not found", 404⟩)
    | some b =>
      if b.propertyId ≠ propertyId then
        .error (.payment ⟨"booking does not belong to this property", 422⟩)
      else .ok ()

def savePlan (settings : StripeSettings) (propertyId : UUID) (bookingId : Option UUID)
    (db : ConnectDb) : Except ConnectError String := do
  requireProperty (.payment ⟨"Property not found", 404⟩) propertyId db
  requirePaymentSecret settings
  let account ← activeAccount env settings propertyId db
  checkCardBooking propertyId db bookingId
  pure account

def savePaymentMethod (settings : StripeSettings) (rowId propertyId : UUID) (pmId : String)
    (bookingId : Option UUID) (reply : Reply) (s : Connected) :
    Except ConnectError Unit × Connected :=
  match savePlan env settings propertyId bookingId s.db with
  | .error e => (.error e, s)
  | .ok _ =>
    let stripePmId := Text.strip pmId
    if reply.willing = true then
      let row : StripePaymentMethod := ⟨rowId, propertyId, bookingId, stripePmId⟩
      (.ok (), { s with db := { s.db with paymentMethods := s.db.paymentMethods.insert row } })
    else (.error (.payment ⟨reply.message, 422⟩), s)

def detachPlan (settings : StripeSettings) (pmRowId : UUID) (db : ConnectDb) :
    Except ConnectError (StripePaymentMethod × String) := do
  requirePaymentSecret settings
  match db.paymentMethods.find pmRowId with
  | none => .error (.payment ⟨"payment method not found", 404⟩)
  | some row => do
    let account ← activeAccount env settings row.propertyId db
    pure (row, account)

def deletePaymentMethod (settings : StripeSettings) (pmRowId : UUID) (reply : Reply)
    (s : Connected) : Except ConnectError Unit × Connected :=
  match detachPlan env settings pmRowId s.db with
  | .error e => (.error e, s)
  | .ok _ =>
    if reply.willing = true then
      (.ok (), { s with db := { s.db with paymentMethods := s.db.paymentMethods.erase pmRowId } })
    else (.error (.payment ⟨reply.message, 422⟩), s)

/-! Payments -/

/-- The system of the payment requests, in which there is one Stripe for all. -/
def Connected.flat (s : Connected) : System := ⟨s.db.payments, s.stripe.intents⟩

/-- What the payment requests write. -/
def Connected.withFlat (s : Connected) (f : System) : Connected where
  db := { s.db with charges := f.db.charges, folio := f.db.folio }
  stripe := { s.stripe with intents := f.stripe }

/-- How a charge is answered that has got to Stripe. -/
def chargeAnswer : CreateAnswer → Except ConnectError Unit
  | .error message => .error (.payment ⟨message, 422⟩)
  | .intent id _ =>
    if id = "" then .error (.payment ⟨"Stripe did not return a payment intent id", 502⟩)
    else .ok ()

def chargeConnected (settings : StripeSettings) (rowId folioId : UUID) (failedId : String)
    (bookingId stripePmRowId : UUID) (amount : ℚ) (label : Option String) (answer : CreateAnswer)
    (s : Connected) : Except ConnectError Unit × Connected :=
  match chargePlan (isSet settings.stripeSecretKey) bookingId stripePmRowId amount
      s.db.payments with
  | .error e => (.error (.payment e), s)
  | .ok plan =>
    match s.db.account env settings.toWebhookSettings plan.propertyId with
    | none => (.error .cipher, s)
    | some account =>
      let after := s.withFlat (chargeBooking (isSet settings.stripeSecretKey) rowId folioId failedId
        bookingId stripePmRowId amount label answer s.flat)
      (chargeAnswer answer, { after with
        stripe := { after.stripe with intentAccount := s.stripe.holdIntent account answer } })

def refundConnected (settings : StripeSettings) (folioId bookingId chargeRowId : UUID)
    (amount : Option ℚ) (reply : Reply) (s : Connected) : Except ConnectError Unit × Connected :=
  match refundPlan (isSet settings.stripeSecretKey) bookingId chargeRowId amount
      s.db.payments with
  | .error e => (.error (.payment e), s)
  | .ok plan =>
    match s.db.account env settings.toWebhookSettings plan.charge.propertyId with
    | none => (.error .cipher, s)
    | some _ =>
      let id := plan.charge.stripeChargeId
      let intent := s.stripe.intents id
      if reply.willing = true ∧ plan.amount ≤ intent.captured - intent.refunded then
        (.ok (), s.withFlat ⟨bookRefund folioId none "Stripe refund" plan.charge plan.amount
          s.db.payments, giveBack s.stripe.intents id plan.amount⟩)
      else (.error (.payment ⟨reply.message, 422⟩), s)

/-! Events -/

/-- A request, a refund that Stripe reports, a card that a customer enters at Stripe, or an
account that shuts the platform out: its owner does, or another tenant disconnects it. -/
inductive ConnectEvent (Nonce : Type) where
  | exchange (settings : StripeSettings) (nonce : Nonce) (propertyId : UUID)
      (answer : TokenAnswer) (now : ℤ)
  | disconnect (settings : StripeSettings) (propertyId : UUID) (reply : Reply) (now : ℤ)
  | save (settings : StripeSettings) (rowId propertyId : UUID) (pmId : String)
      (bookingId : Option UUID) (reply : Reply)
  | delete (settings : StripeSettings) (pmRowId : UUID) (reply : Reply)
  | charge (settings : StripeSettings) (rowId folioId : UUID) (failedId : String)
      (bookingId stripePmRowId : UUID) (amount : ℚ) (label : Option String)
      (answer : CreateAnswer)
  | refund (settings : StripeSettings) (folioId bookingId chargeRowId : UUID)
      (amount : Option ℚ) (reply : Reply)
  | webhook (folioId : UUID) (piId : String) (more : ℤ)
  | enter (stripePmId account : String)
  | shut (account : String)

namespace ConnectEvent

def apply : ConnectEvent Nonce → Connected → Connected
  | exchange settings nonce propertyId answer now, s =>
    (exchangeCodeForConnection env settings nonce propertyId answer now s).2
  | disconnect settings propertyId reply now, s =>
    (disconnectStripeConnection env settings propertyId reply now s).2
  | save settings rowId propertyId pmId bookingId reply, s =>
    (savePaymentMethod env settings rowId propertyId pmId bookingId reply s).2
  | delete settings pmRowId reply, s => (deletePaymentMethod env settings pmRowId reply s).2
  | charge settings rowId folioId failedId bookingId pm amount label answer, s =>
    (chargeConnected env settings rowId folioId failedId bookingId pm amount label answer s).2
  | refund settings folioId bookingId chargeRowId amount reply, s =>
    (refundConnected env settings folioId bookingId chargeRowId amount reply s).2
  | webhook folioId piId more, s => s.withFlat (chargeRefunded folioId piId more s.flat)
  | enter stripePmId account, s =>
    { s with stripe := { s.stripe with
        cardAccount := Function.update s.stripe.cardAccount stripePmId (some account) } }
  | shut account, s =>
    { s with stripe := { s.stripe with linked := Function.update s.stripe.linked account false } }

/-- The settings under which a payment request runs. -/
def settings : ConnectEvent Nonce → Option WebhookSettings
  | save settings .. | delete settings .. | charge settings .. | refund settings .. =>
    some settings.toWebhookSettings
  | _ => none

end ConnectEvent

end Requests

end OpenPms.Payments
