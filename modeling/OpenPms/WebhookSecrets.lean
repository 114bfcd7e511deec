import OpenPms.Integrations

/-!
Signing secrets of webhook subscriptions across a rotation of the Fernet key. A stored text
that the running key does not open is taken for legacy plaintext, so that a second call
encrypts what the first one has written.
-/
namespace OpenPms

/-! The cipher -/

/-- What the code uses of `cryptography.fernet`. The nonce is the time and the random IV
of a token; `key` is `none` where the constructor raises `ValueError`. -/
structure Fernet (Key Nonce : Type) where
  key : String → Option Key
  encrypt : Key → Nonce → String → String
  decrypt : Key → String → Option String

/-- The first characters of every token: its version byte and the high bytes of the time. -/
def fernetVersion : String := "gAAAAA"

def IsToken (text : String) : Prop := fernetVersion.toList <+: text.toList

namespace Fernet

variable {Key Nonce : Type}

/-- Decryption inverts encryption under the same key and raises `InvalidToken` otherwise. -/
structure Lawful (F : Fernet Key Nonce) : Prop where
  decrypt_encrypt : ∀ k n plain, F.decrypt k (F.encrypt k n plain) = some plain
  decrypt_other : ∀ k k' n plain, k ≠ k' → F.decrypt k (F.encrypt k' n plain) = none
  decrypt_text : ∀ k text, ¬ IsToken text → F.decrypt k text = none
  isToken_encrypt : ∀ k n plain, IsToken (F.encrypt k n plain)

end Fernet

structure WebhookSettings where
  webhookSecretFernetKey : Option String
  jwtSecret : String
  deriving DecidableEq

/-- The cipher together with the key text that is hashed out of the JWT secret. -/
structure SecretsEnv (Key Nonce : Type) extends Fernet Key Nonce where
  derivedKey : String → String

/-- A subscription with the column of its signing secret. -/
structure SecretRow extends WebhookSubscription where
  secret : String
  deriving DecidableEq

section Secrets

variable {Key Nonce : Type} (env : SecretsEnv Key Nonce)

def getFernet (settings : WebhookSettings) : Option Key :=
  let raw := Text.strip (settings.webhookSecretFernetKey.getD "")
  if raw ≠ "" then env.key raw else env.key (env.derivedKey settings.jwtSecret)

/-- Non-Fernet rows, and every row under a key that cannot be read, are legacy plaintext. -/
def decryptWebhookSecret (settings : WebhookSettings) (stored : String) : String :=
  match (getFernet env settings).bind fun k => env.decrypt k stored with
  | some plain => plain
  | none => stored

def encryptPlaintextWithFernetKey (nonce : Nonce) (plain keyAscii : String) :
    Except String String :=
  let trimmed := Text.strip keyAscii
  if trimmed = "" then .error "Fernet key is required"
  else
    match env.key trimmed with
    | none => .error "Invalid Fernet key material"
    | some f => .ok (env.encrypt f nonce plain)

def generateWebhookSecret (random : String) : String := "whsec_" ++ random

/-- The body of the loop over the rows. -/
def reencryptRow (settings : WebhookSettings) (nonce : UUID → Nonce) (newFernetKey : String)
    (row : SecretRow) : Except IntegrationError SecretRow :=
  let plain := decryptWebhookSecret env settings row.secret
  match encryptPlaintextWithFernetKey env (nonce row.id) plain newFernetKey with
  | .ok secret => .ok { row with secret := secret }
  | .error text => .error (.webhookSubscription text 422)

/-- The rows are those of the tenant; `probe` is the nonce of the token that only checks the
key. -/
def reencryptSubscriptionSecretsForTenant (settings : WebhookSettings) (probe : Nonce)
    (nonce : UUID → Nonce) (newFernetKey : String) (rows : List SecretRow) :
    Except IntegrationError (List SecretRow × ℕ) :=
  match encryptPlaintextWithFernetKey env probe "" newFernetKey with
  | .error text => .error (.webhookSubscription text 422)
  | .ok _ =>
    match rows.mapM (reencryptRow env settings nonce newFernetKey) with
    | .ok updated => .ok (updated, updated.length)
    | .error err => .error err

/-- The nonces of one call. -/
structure Rotation (Nonce : Type) where
  probe : Nonce
  nonce : UUID → Nonce

/-- A call that fails is rolled back. -/
def reencrypted (settings : WebhookSettings) (newFernetKey : String)
    (rows : List SecretRow) (call : Rotation Nonce) : List SecretRow :=
  match reencryptSubscriptionSecretsForTenant env settings call.probe call.nonce newFernetKey
      rows with
  | .ok (updated, _) => updated
  | .error _ => rows

/-- The table after one call after the other, all with the same new key. -/
def rotations (settings : WebhookSettings) (newFernetKey : String)
    (rows : List SecretRow) (calls : List (Rotation Nonce)) :
    List SecretRow :=
  calls.foldl (reencrypted env settings newFernetKey) rows

end Secrets

theorem generateWebhookSecret_not_token (random : String) :
    ¬ IsToken (generateWebhookSecret random) := by
  unfold IsToken generateWebhookSecret fernetVersion
  rw [String.toList_append]
  rintro ⟨rest, hrest⟩
  simp at hrest

/-! What one call does to a row -/

section Rotations

variable {Key Nonce : Type} {env : SecretsEnv Key Nonce} {settings : WebhookSettings}
  {newFernetKey : String} {k' : Key}

/-- The key text of a rotation that is not refused. -/
structure Accepted (env : SecretsEnv Key Nonce) (newFernetKey : String) (k' : Key) : Prop where
  nonempty : Text.strip newFernetKey ≠ ""
  key : env.key (Text.strip newFernetKey) = some k'

theorem Accepted.encrypt (h : Accepted env newFernetKey k') (n : Nonce) (plain : String) :
    encryptPlaintextWithFernetKey env n plain newFernetKey = .ok (env.encrypt k' n plain) := by
  simp only [encryptPlaintextWithFernetKey, h.nonempty, if_false, h.key]

def reseal (env : SecretsEnv Key Nonce) (settings : WebhookSettings) (k' : Key)
    (nonce : UUID → Nonce) (row : SecretRow) : SecretRow :=
  { row with secret := env.encrypt k' (nonce row.id) (decryptWebhookSecret env settings row.secret) }

theorem Accepted.mapM_reencryptRow (h : Accepted env newFernetKey k') (nonce : UUID → Nonce)
    (rows : List SecretRow) :
    rows.mapM (reencryptRow env settings nonce newFernetKey)
      = .ok (rows.map (reseal env settings k' nonce)) := by
  induction rows with
  | nil => rfl
  | cons row rest ih =>
    have hrow : reencryptRow env settings nonce newFernetKey row
        = .ok (reseal env settings k' nonce row) := by
      simp only [reencryptRow, h.encrypt, reseal]
    rw [List.mapM_cons, ih, hrow]
    rfl

theorem Accepted.reencrypted_eq (h : Accepted env newFernetKey k')
    (rows : List SecretRow) (call : Rotation Nonce) :
    reencrypted env settings newFernetKey rows call
      = rows.map (reseal env settings k' call.nonce) := by
  simp only [reencrypted, reencryptSubscriptionSecretsForTenant, h.encrypt, h.mapM_reencryptRow]

theorem Accepted.rotations_cons (h : Accepted env newFernetKey k')
    (rows : List SecretRow) (call : Rotation Nonce) (calls : List (Rotation Nonce)) :
    rotations env settings newFernetKey rows (call :: calls)
      = rotations env settings newFernetKey
          (rows.map (reseal env settings k' call.nonce)) calls := by
  rw [rotations, List.foldl_cons, h.reencrypted_eq, rotations]

theorem Accepted.getFernet_deployed (h : Accepted env newFernetKey k') :
    getFernet env { settings with webhookSecretFernetKey := some newFernetKey } = some k' := by
  simp only [getFernet, Option.getD_some, ne_eq, h.nonempty, not_false_iff, if_true, h.key]

/-! The whole rotation -/

/-- The stored text is the secret itself or a token of the running key for it. -/
def Holds (env : SecretsEnv Key Nonce) (settings : WebhookSettings) (shown : String)
    (stored : String) : Prop :=
  stored = shown ∨ ∃ k n, getFernet env settings = some k ∧ stored = env.encrypt k n shown

theorem decrypt_of_not_token (hF : env.Lawful) {text : String} (htext : ¬ IsToken text) :
    decryptWebhookSecret env settings text = text := by
  cases hk : getFernet env settings with
  | none => simp only [decryptWebhookSecret, hk, Option.bind_none]
  | some k => simp only [decryptWebhookSecret, hk, Option.bind_some, hF.decrypt_text k text htext]

theorem decrypt_token (hF : env.Lawful) {k : Key} (hk : getFernet env settings = some k)
    (n : Nonce) (plain : String) :
    decryptWebhookSecret env settings (env.encrypt k n plain) = plain := by
  simp only [decryptWebhookSecret, hk, Option.bind_some, hF.decrypt_encrypt]

/-- A token of another key is returned as it is. -/
theorem decrypt_foreign (hF : env.Lawful) (hk : getFernet env settings ≠ some k')
    (n : Nonce) (plain : String) :
    decryptWebhookSecret env settings (env.encrypt k' n plain) = env.encrypt k' n plain := by
  cases hcur : getFernet env settings with
  | none => simp only [decryptWebhookSecret, hcur, Option.bind_none]
  | some k =>
    have hne : k ≠ k' := fun heq => hk (by rw [hcur, heq])
    simp only [decryptWebhookSecret, hcur, Option.bind_some, hF.decrypt_other k k' n plain hne]

theorem Holds.decrypt (hF : env.Lawful) {shown stored : String} (hplain : ¬ IsToken shown)
    (h : Holds env settings shown stored) :
    decryptWebhookSecret env settings stored = shown := by
  rcases h with rfl | ⟨k, n, hk, rfl⟩
  · exact decrypt_of_not_token hF hplain
  · exact decrypt_token hF hk n shown

/-- Under the running key a rotation keeps what every row holds. -/
theorem Holds.resealed (hF : env.Lawful) {shown : String} (hplain : ¬ IsToken shown)
    (hk : getFernet env settings = some k') {row : SecretRow}
    (h : Holds env settings shown row.secret) (nonce : UUID → Nonce) :
    Holds env settings shown (reseal env settings k' nonce row).secret := by
  refine .inr ⟨k', nonce row.id, hk, ?_⟩
  simp only [reseal, h.decrypt hF hplain]

/-- `text` is a token of the new key for the secret, encrypted once more `depth` times. -/
inductive Wrapped (env : SecretsEnv Key Nonce) (k' : Key) (shown : String) : ℕ → String → Prop
  | once (n : Nonce) : Wrapped env k' shown 0 (env.encrypt k' n shown)
  | again {depth : ℕ} {text : String} (n : Nonce) (h : Wrapped env k' shown depth text) :
      Wrapped env k' shown (depth + 1) (env.encrypt k' n text)

theorem Wrapped.isToken (hF : env.Lawful) {shown text : String} {depth : ℕ}
    (h : Wrapped env k' shown depth text) : IsToken text := by
  cases h with
  | once n => exact hF.isToken_encrypt k' n shown
  | again n _ => exact hF.isToken_encrypt k' n _

/-- The deployed key takes off one layer, so that the secret is back only at depth 0. -/
theorem Wrapped.decrypt_iff (hF : env.Lawful) {shown text : String} {depth : ℕ}
    (hplain : ¬ IsToken shown) (hk : getFernet env settings = some k')
    (h : Wrapped env k' shown depth text) :
    decryptWebhookSecret env settings text = shown ↔ depth = 0 := by
  cases h with
  | once n => simp only [decrypt_token hF hk]
  | again n inner =>
    rw [decrypt_token hF hk]
    constructor
    · intro heq
      exact absurd (heq ▸ inner.isToken hF) hplain
    · intro hzero
      omega

theorem Wrapped.foreign (hF : env.Lawful) {shown text : String} {depth : ℕ}
    (hk : getFernet env settings ≠ some k') (h : Wrapped env k' shown depth text) :
    decryptWebhookSecret env settings text = text := by
  cases h with
  | once n => exact decrypt_foreign hF hk n shown
  | again n _ => exact decrypt_foreign hF hk n _

/-- Where the running key is another one, each call adds a layer. -/
theorem Wrapped.resealed (hF : env.Lawful) {shown : String} {depth : ℕ}
    (hk : getFernet env settings ≠ some k') {row : SecretRow}
    (h : Wrapped env k' shown depth row.secret) (nonce : UUID → Nonce) :
    Wrapped env k' shown (depth + 1) (reseal env settings k' nonce row).secret := by
  simp only [reseal, h.foreign hF hk]
  exact .again _ h

/-- The first call opens every row and leaves one layer. -/
theorem Holds.wrapped (hF : env.Lawful) {shown : String} (hplain : ¬ IsToken shown)
    {row : SecretRow} (h : Holds env settings shown row.secret)
    (nonce : UUID → Nonce) :
    Wrapped env k' shown 0 (reseal env settings k' nonce row).secret := by
  simp only [reseal, h.decrypt hF hplain]
  exact .once _

/-- The rows of a rotation, each with its own id and a text that has `P`. -/
def RowsHold (P : UUID → String → Prop) (rows : List SecretRow) : Prop :=
  ∀ row ∈ rows, P row.id row.secret

theorem rotations_invariant (h : Accepted env newFernetKey k') {P : ℕ → UUID → String → Prop}
    (hstep : ∀ depth (row : SecretRow) nonce, P depth row.id row.secret →
      P (depth + 1) row.id (reseal env settings k' nonce row).secret)
    (calls : List (Rotation Nonce)) (depth : ℕ) (rows : List SecretRow)
    (hrows : RowsHold (P depth) rows) :
    RowsHold (P (depth + calls.length)) (rotations env settings newFernetKey rows calls) := by
  induction calls generalizing depth rows with
  | nil => exact hrows
  | cons call rest ih =>
    rw [h.rotations_cons, List.length_cons, ← Nat.add_assoc, Nat.add_right_comm]
    apply ih
    intro row hrow
    obtain ⟨old, hold, rfl⟩ := List.mem_map.mp hrow
    exact hstep depth old call.nonce (hrows old hold)

theorem rotations_eq_nil (h : Accepted env newFernetKey k') (rows : List SecretRow)
    (calls : List (Rotation Nonce)) :
    rotations env settings newFernetKey rows calls = [] ↔ rows = [] := by
  induction calls generalizing rows with
  | nil => rfl
  | cons call rest ih =>
    rw [h.rotations_cons, ih]
    exact List.map_eq_nil_iff

/-- Every secret survives the rotation exactly when the request is made once, or its key is
the running one, or there is nothing to encrypt. -/
theorem secrets_survive_rotation_iff (hF : env.Lawful) (h : Accepted env newFernetKey k')
    (shown : UUID → String) (hplain : ∀ id, ¬ IsToken (shown id))
    (rows : List SecretRow)
    (hrows : ∀ row ∈ rows, Holds env settings (shown row.id) row.secret)
    (calls : List (Rotation Nonce)) (hcalls : calls ≠ []) :
    (∀ row ∈ rotations env settings newFernetKey rows calls,
      decryptWebhookSecret env { settings with webhookSecretFernetKey := some newFernetKey }
        row.secret = shown row.id) ↔
      calls.length = 1 ∨ getFernet env settings = some k' ∨ rows = [] := by
  have hdeployed : getFernet env { settings with webhookSecretFernetKey := some newFernetKey }
      = some k' := h.getFernet_deployed
  by_cases hk : getFernet env settings = some k'
  · have hkeep : RowsHold (fun id text => Holds env settings (shown id) text)
        (rotations env settings newFernetKey rows calls) :=
      rotations_invariant h (P := fun _ id text => Holds env settings (shown id) text)
        (fun _ row nonce hrow => hrow.resealed hF (hplain row.id) hk nonce) calls 0 rows hrows
    refine ⟨fun _ => .inr (.inl hk), fun _ row hrow => ?_⟩
    rw [← (hkeep row hrow).decrypt hF (hplain row.id)]
    simp only [decryptWebhookSecret, hdeployed, hk]
  · obtain ⟨first, rest, rfl⟩ := List.exists_cons_of_ne_nil hcalls
    have hfirst : RowsHold (fun id text => Wrapped env k' (shown id) 0 text)
        (rows.map (reseal env settings k' first.nonce)) := by
      intro row hrow
      obtain ⟨old, hold, rfl⟩ := List.mem_map.mp hrow
      exact (hrows old hold).wrapped hF (hplain old.id) first.nonce
    have hall := rotations_invariant h
      (P := fun depth id text => Wrapped env k' (shown id) depth text)
      (fun _ row nonce hrow => hrow.resealed hF hk nonce) rest 0 _ hfirst
    rw [← h.rotations_cons, Nat.zero_add] at hall
    have hrow : ∀ row ∈ rotations env settings newFernetKey rows (first :: rest),
        (decryptWebhookSecret env { settings with webhookSecretFernetKey := some newFernetKey }
          row.secret = shown row.id ↔ rest.length = 0) := fun row hrow =>
      (hall row hrow).decrypt_iff hF (hplain row.id) hdeployed
    have hnil : rotations env settings newFernetKey rows (first :: rest) = [] ↔ rows = [] :=
      rotations_eq_nil h rows (first :: rest)
    constructor
    · intro hshown
      rcases hempty : rotations env settings newFernetKey rows (first :: rest) with _ | ⟨row, _⟩
      · exact .inr (.inr (hnil.mp hempty))
      · have hmem : row ∈ rotations env settings newFernetKey rows (first :: rest) := by
          rw [hempty]
          exact List.mem_cons_self
        have hrest := (hrow row hmem).mp (hshown row hmem)
        exact .inl (by simp only [List.length_cons, hrest])
    · rintro (hone | hsame | hempty) row hmem
      · have hrest : rest.length = 0 := by
          simpa using hone
        exact (hrow row hmem).mpr hrest
      · exact absurd hsame hk
      · rw [hnil.mpr hempty] at hmem
        cases hmem

end Rotations

namespace Demo

/-- A cipher with two keys that writes the key and the text behind the version. -/
def twoKeys : SecretsEnv Bool Unit where
  key text := if text = "old" then some false else if text = "new" then some true else none
  encrypt k _ plain := String.ofList (fernetVersion.toList ++ (if k then '1' else '0') :: plain.toList)
  decrypt k text :=
    if text.toList.take 7 = fernetVersion.toList ++ [if k then '1' else '0'] then
      some (String.ofList (text.toList.drop 7))
    else none
  derivedKey secret := secret

theorem twoKeys_lawful : twoKeys.Lawful where
  decrypt_encrypt k _ plain := by
    simp [twoKeys, fernetVersion]
  decrypt_other k k' _ plain hne := by
    cases k <;> cases k' <;> simp_all [twoKeys, fernetVersion]
  decrypt_text k text htext := by
    simp only [twoKeys, ite_eq_right_iff, reduceCtorEq, imp_false]
    intro heq
    apply htext
    have hsplit : text.toList = (fernetVersion.toList ++ [if k then '1' else '0'])
        ++ text.toList.drop 7 := by
      rw [← heq, List.take_append_drop]
    exact ⟨_, by rw [hsplit, List.append_assoc]⟩
  isToken_encrypt k _ plain := by
    refine ⟨(if k then '1' else '0') :: plain.toList, ?_⟩
    simp [twoKeys]

def oldSettings : WebhookSettings := ⟨some "old", "jwt"⟩

def shown (_ : UUID) : String := generateWebhookSecret "abc"

def sealedRow : SecretRow :=
  ⟨⟨1, 1, "https://example.com/hook", ["booking.created"], true⟩,
    twoKeys.encrypt false () (shown 1)⟩

/-- A row from before the encryption. -/
def legacyRow : SecretRow :=
  ⟨⟨2, 1, "https://example.com/old", ["booking.created"], true⟩, shown 2⟩

def rotateCall : Rotation Unit := ⟨(), fun _ => ()⟩

theorem accepted_new : Accepted twoKeys " new " true := ⟨by decide, by decide⟩

end Demo

/-- The request is sent once, over a sealed row and a legacy one. -/
theorem rotation_once_demo :
    Demo.twoKeys.Lawful ∧
      ∀ row ∈ rotations Demo.twoKeys Demo.oldSettings " new " [Demo.sealedRow, Demo.legacyRow]
          [Demo.rotateCall],
        decryptWebhookSecret Demo.twoKeys
          { Demo.oldSettings with webhookSecretFernetKey := some " new " } row.secret
          = Demo.shown row.id :=
  ⟨Demo.twoKeys_lawful,
    (secrets_survive_rotation_iff Demo.twoKeys_lawful Demo.accepted_new
      Demo.shown (fun _ => generateWebhookSecret_not_token _) _
      (by
        intro row hrow
        rcases List.mem_pair.mp hrow with rfl | rfl
        · exact .inr ⟨false, (), by decide, rfl⟩
        · exact .inl rfl) _ (by simp)).mpr (.inl rfl)⟩

/-- A retried request seals the token of the first call, and the deployed key opens the
outer one only. -/
theorem rotation_twice_loses_secret :
    Demo.sealedRow.secret = Demo.twoKeys.encrypt false () (Demo.shown Demo.sealedRow.id) ∧
      getFernet Demo.twoKeys Demo.oldSettings = some false ∧
      ¬ ∀ row ∈ rotations Demo.twoKeys Demo.oldSettings "new" [Demo.sealedRow]
          [Demo.rotateCall, Demo.rotateCall],
        decryptWebhookSecret Demo.twoKeys
          { Demo.oldSettings with webhookSecretFernetKey := some "new" } row.secret
          = Demo.shown row.id := by
  decide

end OpenPms
