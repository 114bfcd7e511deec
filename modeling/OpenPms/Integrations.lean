import OpenPms.Basic
import OpenPms.Lib.KeyedTable
import OpenPms.Lib.Transaction

/-!
API keys and outbound webhook subscriptions of all tenants: the services, the
authentication of a request by its key, and the fan-out of an event to the
subscriptions. `sha256` is the digest of `hashlib`, and the check of a target address
(which resolves its host) is a parameter of the requests that make it.
-/
namespace OpenPms

open KeyedTable Transaction Prog

structure ApiKey where
  id : UUID
  tenantId : UUID
  keyHash : String
  name : String
  scopes : List String
  isActive : Bool
  expiresAt : Option ℤ
  deriving DecidableEq

structure WebhookSubscription where
  id : UUID
  tenantId : UUID
  url : String
  events : List String
  isActive : Bool
  deriving DecidableEq

structure WebhookPendingDelivery where
  id : UUID
  tenantId : UUID
  webhookSubscriptionId : UUID
  eventType : String
  data : String
  attemptCount : ℕ
  nextRetryAt : ℤ
  status : String
  deriving DecidableEq

/-- `now` is the server's clock. -/
structure Integrations where
  now : ℤ
  apiKeys : Table ApiKey.id
  subscriptions : Table WebhookSubscription.id
  pendingDeliveries : List WebhookPendingDelivery

namespace Integrations

def empty (now : ℤ) : Integrations := ⟨now, .empty, .empty, []⟩

end Integrations

inductive IntegrationError where
  | apiKeyService (detail : String) (statusCode : ℕ)
  | webhookSubscription (detail : String) (statusCode : ℕ)
  | unknownEvent (event : String)
  | unknownKey
  | integrityError
  deriving DecidableEq

/-- The requests lock no rows. -/
abbrev IntegrationTx := Prog Integrations Empty IntegrationError

/-! API keys -/

/-- What `secrets.token_urlsafe` draws. -/
structure UrlSafe where
  text : String
  safe : ∀ c ∈ text.toList, c.isAlphanum ∨ c = '-' ∨ c = '_'

def generateApiKeyPlaintext (token : UrlSafe) : String := "opms_" ++ token.text

/-- Python's `[s.strip().lower() for s in texts if s.strip()]`. -/
def normalizedTexts (texts : List String) : List String :=
  (texts.filter fun s => Text.strip s ≠ "").map fun s => Text.lower (Text.strip s)

/-- The hash and the identifier are unique columns. -/
def createApiKey (sha256 : String → String) (id : UUID) (token : UrlSafe) (tenantId : UUID)
    (name : String) (scopes : List String) (expiresAt : Option ℤ) :
    IntegrationTx (ApiKey × String) := do
  let trimmed := Text.strip name
  raiseIf (trimmed = "") (.apiKeyService "name is required" 422)
  let normScopes := normalizedTexts scopes
  raiseIf (normScopes = []) (.apiKeyService "at least one scope is required" 422)
  let plain := generateApiKeyPlaintext token
  let row : ApiKey := ⟨id, tenantId, sha256 plain, trimmed, normScopes, true, expiresAt⟩
  let clash ← select fun db =>
    db.apiKeys.rows.any fun r => r.id = row.id || r.keyHash = row.keyHash
  raiseIf (clash = true) .integrityError
  modify fun db => { db with apiKeys := db.apiKeys.insert row }
  pure (row, plain)

def selectApiKey (tenantId keyId : UUID) : IntegrationTx (Option ApiKey) :=
  select fun db => (db.apiKeys.find keyId).filter fun r => r.tenantId = tenantId

def updateApiKey (keyId : UUID) (f : ApiKey → ApiKey) (hf : ∀ r, (f r).id = r.id) :
    IntegrationTx Unit :=
  modify fun db => { db with apiKeys := db.apiKeys.update keyId f hf }

def patchApiKey (tenantId keyId : UUID) (isActive : Option Bool) (name : Option String) :
    IntegrationTx Unit := do
  let found ← selectApiKey tenantId keyId
  match found with
  | none => raise (.apiKeyService "API key not found" 404)
  | some row => do
    raiseIf (name.map Text.strip = some "") (.apiKeyService "name cannot be empty" 422)
    updateApiKey row.id (fun r => { r with
      name := (name.map Text.strip).getD r.name, isActive := isActive.getD r.isActive }) fun _ => rfl

/-- `AsyncSession.delete`: the row goes when the coroutine runs. -/
def deleteApiKeyRow (keyId : UUID) : IntegrationTx Unit :=
  modify fun db => { db with apiKeys := db.apiKeys.erase keyId }

def deleteApiKey (tenantId keyId : UUID) : IntegrationTx Unit := do
  let found ← selectApiKey tenantId keyId
  match found with
  | none => raise (.apiKeyService "API key not found" 404)
  | some row => do
    -- called without await: the coroutine is made and never runs
    let _coroutine := deleteApiKeyRow row.id
    pure ()

/-- The database function: the active rows that have not expired. -/
def lookupApiKeyByHash (digest : String) (db : Integrations) : Option ApiKey :=
  db.apiKeys.rows.find? fun r =>
    r.keyHash = digest && r.isActive && r.expiresAt.all (db.now < ·)

/-- `none` without a key in the request; else the tenant, the key and its scopes. -/
def authenticateApiKey (sha256 : String → String) (header : Option String) :
    IntegrationTx (Option (UUID × UUID × List String)) :=
  match header.filter fun raw => Text.strip raw ≠ "" with
  | none => pure none
  | some raw => do
    let found ← select (lookupApiKeyByHash (sha256 (Text.strip raw)))
    match found with
    | none => raise .unknownKey
    | some row => pure (some (row.tenantId, row.id, normalizedTexts row.scopes))

/-! Webhook subscriptions -/

def validWebhookEvents : List String :=
  ["booking.created", "booking.updated", "booking.cancelled", "availability.changed",
    "rate.updated", "guest.checked_in", "guest.checked_out"]

/-- Blank names are dropped, an unknown one is an error, each event stands once. -/
def normalizeEvents (events : List String) : Except IntegrationError (List String) :=
  match (events.filter fun e => Text.strip e ≠ "").find? fun e =>
      Text.lower (Text.strip e) ∉ validWebhookEvents with
  | some e => .error (.unknownEvent e)
  | none =>
    let out := normalizedTexts events
    if out = [] then .error (.webhookSubscription "at least one event is required" 422)
    else .ok out.reverse.dedup.reverse

def createSubscription (id tenantId : UUID) (url : Except IntegrationError String)
    (events : List String) (isActive : Bool) : IntegrationTx Unit := do
  let u ← ofExcept url
  let ev ← ofExcept (normalizeEvents events)
  let clash ← select fun db => (db.subscriptions.find id).isSome
  raiseIf (clash = true) .integrityError
  modify fun db => { db with
    subscriptions := db.subscriptions.insert ⟨id, tenantId, u, ev, isActive⟩ }

def listSubscriptions (tenantId : UUID) (db : Integrations) : List WebhookSubscription :=
  (db.subscriptions.rows.filter fun s => s.tenantId = tenantId).insertionSort (·.url ≤ ·.url)

def selectSubscription (tenantId subscriptionId : UUID) :
    IntegrationTx (Option WebhookSubscription) :=
  select fun db => (db.subscriptions.find subscriptionId).filter fun s => s.tenantId = tenantId

def patchSubscription (tenantId subscriptionId : UUID)
    (url : Option (Except IntegrationError String)) (events : Option (List String))
    (isActive : Option Bool) : IntegrationTx Unit := do
  let found ← selectSubscription tenantId subscriptionId
  match found with
  | none => raise (.webhookSubscription "subscription not found" 404)
  | some row => do
    let u ← ofExcept (url.getD (.ok row.url))
    let ev ← ofExcept ((events.map normalizeEvents).getD (.ok row.events))
    let patched (s : WebhookSubscription) : WebhookSubscription :=
      { s with url := u, events := ev, isActive := isActive.getD s.isActive }
    modify fun db => { db with
      subscriptions := db.subscriptions.update row.id patched fun _ => rfl }

def deleteSubscriptionRow (subscriptionId : UUID) : IntegrationTx Unit :=
  modify fun db => { db with subscriptions := db.subscriptions.erase subscriptionId }

def deleteSubscription (tenantId subscriptionId : UUID) : IntegrationTx Unit := do
  let found ← selectSubscription tenantId subscriptionId
  match found with
  | none => raise (.webhookSubscription "subscription not found" 404)
  | some row => do
    -- as in `deleteApiKey`, the coroutine never runs
    let _coroutine := deleteSubscriptionRow row.id
    pure ()

def listMatchingSubscriptions (tenantId : UUID) (eventType : String) (db : Integrations) :
    List WebhookSubscription :=
  db.subscriptions.rows.filter fun s =>
    s.tenantId = tenantId && s.isActive && Text.lower (Text.strip eventType) ∈ s.events

/-- One delivery is queued for each subscription that matches; `ids` are drawn for them. -/
def dispatchWebhookEvent (ids : ℕ → UUID) (tenantId : UUID) (eventType data : String) :
    IntegrationTx Unit := do
  let subs ← select (listMatchingSubscriptions tenantId eventType)
  let now ← select Integrations.now
  let queued := subs.mapIdx fun n s =>
    { id := ids n, tenantId := tenantId, webhookSubscriptionId := s.id, eventType := eventType,
      data := data, attemptCount := 0, nextRetryAt := now, status := "pending" :
      WebhookPendingDelivery }
  modify fun db => { db with pendingDeliveries := db.pendingDeliveries ++ queued }

/-! Runs -/

inductive IntegrationOp where
  | createApiKey (id : UUID) (token : UrlSafe) (tenantId : UUID) (name : String)
      (scopes : List String) (expiresAt : Option ℤ)
  | patchApiKey (tenantId keyId : UUID) (isActive : Option Bool) (name : Option String)
  | deleteApiKey (tenantId keyId : UUID)
  | createSubscription (id tenantId : UUID) (url : Except IntegrationError String)
      (events : List String) (isActive : Bool)
  | patchSubscription (tenantId subscriptionId : UUID)
      (url : Option (Except IntegrationError String)) (events : Option (List String))
      (isActive : Option Bool)
  | deleteSubscription (tenantId subscriptionId : UUID)
  | dispatchWebhookEvent (ids : ℕ → UUID) (tenantId : UUID) (eventType data : String)
  | timePasses (seconds : ℕ)

def IntegrationOp.prog (sha256 : String → String) : IntegrationOp → IntegrationTx Unit
  | .createApiKey id token tenantId name scopes expiresAt =>
    OpenPms.createApiKey sha256 id token tenantId name scopes expiresAt >>= fun _ => pure ()
  | .patchApiKey tenantId keyId isActive name => OpenPms.patchApiKey tenantId keyId isActive name
  | .deleteApiKey tenantId keyId => OpenPms.deleteApiKey tenantId keyId
  | .createSubscription id tenantId url events isActive =>
    OpenPms.createSubscription id tenantId url events isActive
  | .patchSubscription tenantId subscriptionId url events isActive =>
    OpenPms.patchSubscription tenantId subscriptionId url events isActive
  | .deleteSubscription tenantId subscriptionId =>
    OpenPms.deleteSubscription tenantId subscriptionId
  | .dispatchWebhookEvent ids tenantId eventType data =>
    OpenPms.dispatchWebhookEvent ids tenantId eventType data
  | .timePasses seconds => modify fun db => { db with now := db.now + seconds }

namespace Integrations

/-- One request after another, each in its own transaction. -/
inductive Later (sha256 : String → String) (s : Integrations) : Integrations → Prop
  | refl : Later sha256 s s
  | tail {s' : Integrations} (op : IntegrationOp) :
      Later sha256 s s' → Later sha256 s ((op.prog sha256).transact s')

def Reachable (sha256 : String → String) (s : Integrations) : Prop :=
  ∃ now, Later sha256 (empty now) s

end Integrations

end OpenPms
