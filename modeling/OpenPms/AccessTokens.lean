import Mathlib.Data.List.Infix
import OpenPms.OauthState

/-!
Access tokens between the service that signs them and the middleware that reads them. Both
take the algorithm and the keys from the settings, but only the middleware takes the
audience and the issuer.
-/
namespace OpenPms.AccessTokens

open JsonText Numerals OauthState

/-! Settings -/

/-- A text that is set and not blank. -/
def given (text : Option String) : Option String := text.filter fun t => Text.strip t ≠ ""

structure Settings extends OauthState.Settings where
  jwtPrivateKeyPem : Option String
  jwtPublicKeyPem : Option String
  jwtIssuer : Option String
  jwtAudience : Option String
  accessTokenTtlMinutes : ℕ
  secret_long : upper jwtAlgorithm = "HS256" → 32 ≤ jwtSecret.length
  private_required : upper jwtAlgorithm = "RS256" → (given jwtPrivateKeyPem).isSome
  ttl_pos : 1 ≤ accessTokenTtlMinutes

/-! Points in time -/

/-- An aware `datetime`, as microseconds since 1970. -/
structure Instant where
  micros : ℤ
  after_min : -62135596800000000 ≤ micros
  before_max : micros < 253402300800000000

/-- The whole seconds that stand for it in a token. -/
def Instant.numericDate (t : Instant) : ℤ := t.micros / 1000000

def Instant.plusMinutes (t : Instant) (minutes : ℕ) : Option Instant :=
  if h : t.micros + minutes * 60000000 < 253402300800000000 then
    some ⟨t.micros + minutes * 60000000, by have := t.after_min; omega, h⟩
  else none

/-! The libraries -/

abbrev Claims := List (List Char × Scalar)

abbrev Payload := List (List Char × Value)

def Claims.payload (claims : Claims) : Payload :=
  claims.map fun field => (field.1, field.2.value)

/-- `payload.get(key)` -/
def get (payload : Payload) (key : String) : Value := (lookup payload key.toList).getD .null

inductive JwtError where
  | pyJwt (text : String)
  | other (text : String)
  deriving DecidableEq

/-- What `jwt.decode` is asked for besides the signature and the expiry. -/
structure DecodeOptions where
  algorithms : List String
  require : List String
  audience : Option String
  issuer : Option String

/-- The functions of PyJWT, with the text of the public key that `cryptography` gives for a
private one. The second key of a match verifies what the first one signs. -/
structure PyJwt where
  encode : Claims → (key algorithm : String) → Except JwtError String
  decode : (token key : String) → DecodeOptions → Instant → Except JwtError Payload
  publicPem : String → Except JwtError String
  Matching : (algorithm signing verifying : String) → Prop

/-! The keys -/

/-- `str.replace` of a backslash and the letter n by a line break. -/
def breakLines : List Char → List Char
  | '\\' :: 'n' :: rest => '\n' :: breakLines rest
  | c :: rest => c :: breakLines rest
  | [] => []

def normalizePem (pem : String) : String :=
  let s := Text.strip pem
  if ['\\', 'n'] <:+: s.toList ∧ '\n' ∉ s.toList then String.ofList (breakLines s.toList) else s

inductive TokenError where
  | valueError (text : String)
  | runtimeError (text : String)
  | overflowError
  | jwt (exception : JwtError)
  deriving DecidableEq

def publicPemFromPrivate (J : PyJwt) (privatePem : String) : Except TokenError String :=
  (J.publicPem (normalizePem privatePem)).mapError .jwt

/-- The key and the algorithm for `jwt.encode`. -/
def jwtSigningMaterial (settings : Settings) : Except TokenError (String × String) :=
  if upper settings.jwtAlgorithm = "RS256" then
    match given settings.jwtPrivateKeyPem with
    | some pem => .ok (normalizePem pem, "RS256")
    | none =>
      .error (.runtimeError "jwt_private_key_pem is required when jwt_algorithm is RS256")
  else if upper settings.jwtAlgorithm = "HS256" then
    if settings.jwtSecret.length < 32 then
      .error (.runtimeError "jwt_secret must be at least 32 characters when using HS256")
    else .ok (settings.jwtSecret, "HS256")
  else .error (.runtimeError ("Unsupported jwt_algorithm: " ++ settings.jwtAlgorithm))

/-- The key and the algorithm for `jwt.decode`. -/
def jwtVerifyingMaterial (J : PyJwt) (settings : Settings) :
    Except TokenError (String × String) :=
  if upper settings.jwtAlgorithm = "RS256" then
    match given settings.jwtPublicKeyPem with
    | some pem => .ok (normalizePem pem, "RS256")
    | none =>
      match given settings.jwtPrivateKeyPem with
      | some pem => (publicPemFromPrivate J pem).map fun key => (key, "RS256")
      | none => .error (.runtimeError
          "jwt_public_key_pem or jwt_private_key_pem required for RS256 verification")
  else if upper settings.jwtAlgorithm = "HS256" then
    if settings.jwtSecret.length < 32 then
      .error (.runtimeError "jwt_secret must be at least 32 characters when using HS256")
    else .ok (settings.jwtSecret, "HS256")
  else .error (.runtimeError ("Unsupported jwt_algorithm: " ++ settings.jwtAlgorithm))

/-! Issuing -/

def encodeToken (J : PyJwt) (settings : Settings) (claims : Claims) :
    Except TokenError String := do
  let (key, algorithm) ← jwtSigningMaterial settings
  (J.encode claims key algorithm).mapError .jwt

/-- The columns of a user that are put in its token. -/
structure User where
  id : Uuid
  tenantId : Uuid
  role : String

def accessClaims (user : User) (now exp : Instant) : Claims :=
  [("sub".toList, .text (uuidText user.id)), ("tenant_id".toList, .text (uuidText user.tenantId)),
    ("role".toList, .text user.role.toList), ("typ".toList, .text "access".toList),
    ("iat".toList, .number now.numericDate), ("exp".toList, .number exp.numericDate)]

def issueAccessToken (J : PyJwt) (settings : Settings) (user : User) (now : Instant) :
    Except TokenError String :=
  match now.plusMinutes settings.accessTokenTtlMinutes with
  | none => .error .overflowError
  | some exp => encodeToken J settings (accessClaims user now exp)

/-! The middleware -/

def decodeAccessToken (J : PyJwt) (settings : Settings) (token : String)
    (audience issuer : Option String) (now : Instant) : Except TokenError Payload := do
  let (key, algorithm) ← jwtVerifyingMaterial J settings
  let payload ← (J.decode token key ⟨[algorithm], ["exp", "sub"], audience, issuer⟩ now).mapError
    .jwt
  match get payload "tenant_id" with
  | .null => .error (.jwt (.pyJwt "Missing required tenant_id claim"))
  | _ => pure payload

structure RequestState where
  tenantId : Uuid
  userId : Option Uuid
  userRole : Option String
  deriving DecidableEq

def roleOf : Value → Option String
  | .str s =>
    let trimmed := Text.strip (String.ofList s)
    if trimmed = "" then none else some (Text.lower trimmed)
  | _ => none

def subjectOf : Value → Except TokenError (Option Uuid)
  | .null => .ok none
  | raw => ((uuidOf raw).mapError fun _ => .valueError "bad_sub").map some

def requestState (payload : Payload) : Except TokenError RequestState :=
  match get payload "tenant_id" with
  | .null => .error (.valueError "missing_tenant")
  | raw => do
    let tenantId ← (uuidOf raw).mapError fun _ => .valueError "bad_tenant"
    let userId ← subjectOf (get payload "sub")
    pure ⟨tenantId, userId, roleOf (get payload "role")⟩

def bearerPrefix : String := "Bearer "

/-- `none` without a bearer token. -/
def authenticateJwt (J : PyJwt) (settings : Settings) (now : Instant)
    (authorization : Option String) : Except TokenError (Option RequestState) :=
  match authorization with
  | none => .ok none
  | some header =>
    if bearerPrefix.toList.isPrefixOf header.toList = false then .ok none
    else
      let token := Text.strip (String.ofList (header.toList.drop bearerPrefix.length))
      if token = "" then .ok none
      else
        match decodeAccessToken J settings token settings.jwtAudience settings.jwtIssuer now with
        | .error (.jwt (.pyJwt _)) => .error (.valueError "invalid_token")
        | .error exception => .error exception
        | .ok payload => (requestState payload).map some

/-! What the libraries document -/

/-- Distinct keys, and numbers that can be read again. -/
structure Claims.Serial (claims : Claims) : Prop where
  distinct : (claims.map Prod.fst).Nodup
  fits : ∀ field ∈ claims, field.2.Fits

/-- The claims pass the checks of `jwt.decode` where neither an audience nor an issuer is
asked for. -/
structure Payload.Current (require : List String) (now : Instant) (payload : Payload) : Prop where
  required : ∀ key ∈ require, get payload key ≠ .null
  exp : ∀ v, lookup payload "exp".toList = some v → ∃ n, v = .int n ∧ now.micros < n * 1000000
  iat : ∀ v, lookup payload "iat".toList = some v → ∃ n, v = .int n ∧ n * 1000000 ≤ now.micros
  nbf : lookup payload "nbf".toList = none
  sub : ∀ v, lookup payload "sub".toList = some v → ∃ s, v = .str s
  jti : lookup payload "jti".toList = none
  aud : lookup payload "aud".toList = none

/-- The audience is the one of the token or one of several. -/
def Payload.HasAudience (payload : Payload) (audience : String) : Prop :=
  lookup payload "aud".toList = some (.str audience.toList) ∨
    ∃ items, lookup payload "aud".toList = some (.arr items) ∧ .str audience.toList ∈ items

structure PyJwt.Documented (J : PyJwt) : Prop where
  /-- A token is letters, digits, dots and the two signs of base64url. -/
  compact : ∀ {claims key algorithm token}, J.encode claims key algorithm = .ok token →
    token ≠ "" ∧ ∀ c ∈ token.toList, Text.isSpace c = false
  /-- The key of a private PEM that signs can be loaded for its public one. -/
  loads : ∀ {claims key token}, J.encode claims key "RS256" = .ok token →
    ∃ verifying, J.publicPem key = .ok verifying
  derived : ∀ {key verifying}, J.publicPem key = .ok verifying →
    J.Matching "RS256" key verifying
  secret : ∀ key, J.Matching "HS256" key key
  /-- Signatures are checked, and what is signed is not altered. -/
  signed : ∀ {claims key verifying algorithm token options now payload}, claims.Serial →
    J.encode claims key algorithm = .ok token →
    J.decode token verifying options now = .ok payload →
    J.Matching algorithm key verifying ∧ payload = claims.payload
  audience : ∀ {token key options now payload a}, options.audience = some a →
    J.decode token key options now = .ok payload → Payload.HasAudience payload a
  issuer : ∀ {token key options now payload a}, options.issuer = some a →
    J.decode token key options now = .ok payload →
    lookup payload "iss".toList = some (.str a.toList)
  inverts : ∀ {claims key verifying algorithm token require now}, claims.Serial →
    J.encode claims key algorithm = .ok token → J.Matching algorithm key verifying →
    Payload.Current require now claims.payload →
    J.decode token verifying ⟨[algorithm], require, none, none⟩ now = .ok claims.payload

/-! The claims of a token -/

section Claims

variable {user : User} {issuedAt exp now : Instant}

theorem fits_numericDate (t : Instant) : Scalar.Fits (.number t.numericDate) := by
  have hlow := t.after_min
  have hhigh := t.before_max
  have hsmall : t.numericDate.natAbs < 2 ^ 60 := by
    unfold Instant.numericDate
    omega
  have hle : 60 ≤ maxStrDigits := by decide
  exact hsmall.trans_le (two_pow_le_ten_pow hle)

theorem serial_accessClaims (user : User) (issuedAt exp : Instant) :
    (accessClaims user issuedAt exp).Serial := by
  refine ⟨by simp [accessClaims], fun field hfield => ?_⟩
  simp only [accessClaims, List.mem_cons, List.not_mem_nil, or_false] at hfield
  rcases hfield with rfl | rfl | rfl | rfl | rfl | rfl
  · trivial
  · trivial
  · trivial
  · trivial
  · exact fits_numericDate issuedAt
  · exact fits_numericDate exp

theorem payload_accessClaims : (accessClaims user issuedAt exp).payload =
    [("sub".toList, .str (uuidText user.id)), ("tenant_id".toList, .str (uuidText user.tenantId)),
      ("role".toList, .str user.role.toList), ("typ".toList, .str "access".toList),
      ("iat".toList, .int issuedAt.numericDate), ("exp".toList, .int exp.numericDate)] := rfl

theorem current_accessClaims (user : User) (hfrom : issuedAt.micros ≤ now.micros)
    (huntil : now.micros < exp.numericDate * 1000000) :
    Payload.Current ["exp", "sub"] now (accessClaims user issuedAt exp).payload := by
  have hiat : issuedAt.numericDate * 1000000 ≤ now.micros := by
    unfold Instant.numericDate
    omega
  rw [payload_accessClaims]
  constructor
  · simp [get, lookup_cons, lookup_nil]
  · simp [lookup_cons, lookup_nil, huntil]
  · simp [lookup_cons, lookup_nil, hiat]
  · simp [lookup_cons, lookup_nil]
  · simp [lookup_cons, lookup_nil]
  · simp [lookup_cons, lookup_nil]
  · simp [lookup_cons, lookup_nil]

/-- A token carries neither an audience nor an issuer. -/
theorem lookup_accessClaims (user : User) (issuedAt exp : Instant) :
    lookup (accessClaims user issuedAt exp).payload "aud".toList = none ∧
      lookup (accessClaims user issuedAt exp).payload "iss".toList = none := by
  rw [payload_accessClaims]
  constructor <;> simp [lookup_cons, lookup_nil]

theorem get_tenant : get (accessClaims user issuedAt exp).payload "tenant_id"
    = .str (uuidText user.tenantId) := by
  rw [payload_accessClaims]
  simp [get, lookup_cons, lookup_nil]

theorem get_sub : get (accessClaims user issuedAt exp).payload "sub"
    = .str (uuidText user.id) := by
  rw [payload_accessClaims]
  simp [get, lookup_cons, lookup_nil]

theorem get_role : get (accessClaims user issuedAt exp).payload "role"
    = .str user.role.toList := by
  rw [payload_accessClaims]
  simp [get, lookup_cons, lookup_nil]

theorem requestState_accessClaims : requestState (accessClaims user issuedAt exp).payload =
    .ok ⟨user.tenantId, some user.id, roleOf (.str user.role.toList)⟩ := by
  unfold requestState
  simp only [get_tenant, get_sub, get_role, subjectOf, uuidOf, parseUuid_uuidText, bind,
    Except.bind, pure, Except.pure, Except.mapError, Except.map]

end Claims

/-! The keys of a configuration -/

section Keys

variable {J : PyJwt} {settings : Settings} {claims : Claims} {token : String}

/-- A public key that is configured belongs to the private one. -/
def KeysMatch (J : PyJwt) (settings : Settings) : Prop :=
  upper settings.jwtAlgorithm = "RS256" → ∀ privatePem ∈ given settings.jwtPrivateKeyPem,
    ∀ publicPem ∈ given settings.jwtPublicKeyPem,
      J.Matching "RS256" (normalizePem privatePem) (normalizePem publicPem)

theorem jwtSigningMaterial_rs256 (hrs : upper settings.jwtAlgorithm = "RS256") :
    ∃ pem, given settings.jwtPrivateKeyPem = some pem ∧
      jwtSigningMaterial settings = .ok (normalizePem pem, "RS256") := by
  obtain ⟨pem, hpem⟩ := Option.isSome_iff_exists.mp (settings.private_required hrs)
  exact ⟨pem, hpem, by rw [jwtSigningMaterial, if_pos hrs, hpem]⟩

/-- The secret is long enough for both of its users, as it is checked at the start. -/
theorem material_hs256 (hhs : upper settings.jwtAlgorithm = "HS256") :
    jwtSigningMaterial settings = .ok (settings.jwtSecret, "HS256") ∧
      jwtVerifyingMaterial J settings = .ok (settings.jwtSecret, "HS256") := by
  have hrs : ¬ upper settings.jwtAlgorithm = "RS256" := by
    rw [hhs]
    decide
  have hlong : ¬ settings.jwtSecret.length < 32 := by
    have := settings.secret_long hhs
    omega
  constructor
  · rw [jwtSigningMaterial, if_neg hrs, if_pos hhs, if_neg hlong]
  · rw [jwtVerifyingMaterial, if_neg hrs, if_pos hhs, if_neg hlong]

theorem decodeAccessToken_refused (hhs : upper settings.jwtAlgorithm = "HS256") {token : String}
    {audience issuer : Option String} {now : Instant} {e : JwtError}
    (h : J.decode token settings.jwtSecret ⟨["HS256"], ["exp", "sub"], audience, issuer⟩ now =
      .error e) : decodeAccessToken J settings token audience issuer now = .error (.jwt e) := by
  unfold decodeAccessToken
  simp only [(material_hs256 hhs).2, bind, Except.bind, h, Except.mapError]

/-- What a token is signed with is what it is verified with, up to the public key. -/
theorem material_of_encoded (hJ : J.Documented)
    (htoken : encodeToken J settings claims = .ok token) :
    ∃ key verifying algorithm, J.encode claims key algorithm = .ok token ∧
      jwtVerifyingMaterial J settings = .ok (verifying, algorithm) ∧
      (J.Matching algorithm key verifying ↔ KeysMatch J settings) := by
  have hencode : ∀ {key algorithm}, jwtSigningMaterial settings = .ok (key, algorithm) →
      J.encode claims key algorithm = .ok token := by
    intro key algorithm hmaterial
    rw [encodeToken, hmaterial] at htoken
    cases h : J.encode claims key algorithm with
    | error e => simp [h, bind, Except.bind, Except.mapError] at htoken
    | ok t => simpa [h, bind, Except.bind, Except.mapError] using htoken
  rcases settings.algorithm_known with hhs | hrs
  · obtain ⟨hsign, hverify⟩ := material_hs256 (J := J) hhs
    have hmatch : KeysMatch J settings := by
      intro hrs
      rw [hhs] at hrs
      exact absurd hrs (by decide)
    exact ⟨_, _, _, hencode hsign, hverify, iff_of_true (hJ.secret _) hmatch⟩
  · obtain ⟨pem, hpem, hsign⟩ := jwtSigningMaterial_rs256 hrs
    have hencoded := hencode hsign
    cases hpublic : given settings.jwtPublicKeyPem with
    | some publicPem =>
      refine ⟨_, normalizePem publicPem, _, hencoded, ?_, ?_⟩
      · rw [jwtVerifyingMaterial, if_pos hrs, hpublic]
      · simp [KeysMatch, hrs, hpem, hpublic]
    | none =>
      obtain ⟨verifying, hverifying⟩ := hJ.loads hencoded
      have hmatch : KeysMatch J settings := by
        intro _ _ _ publicPem hgiven
        rw [hpublic] at hgiven
        cases hgiven
      refine ⟨_, verifying, _, hencoded, ?_, iff_of_true (hJ.derived hverifying) hmatch⟩
      rw [jwtVerifyingMaterial, if_pos hrs, hpublic, hpem]
      simp [publicPemFromPrivate, hverifying, Except.mapError, Except.map]

end Keys

/-! Reading a token -/

section Reading

variable {J : PyJwt} {settings : Settings} {token : String} {payload : Payload} {now : Instant}

/-- An issued token is read where no audience and no issuer is asked for, under its key. -/
theorem decode_encoded_iff {claims : Claims} {key verifying algorithm : String}
    {audience issuer : Option String} (hJ : J.Documented) (hserial : claims.Serial)
    (hencode : J.encode claims key algorithm = .ok token)
    (hcurrent : Payload.Current ["exp", "sub"] now claims.payload)
    (hiss : lookup claims.payload "iss".toList = none) :
    J.decode token verifying ⟨[algorithm], ["exp", "sub"], audience, issuer⟩ now = .ok payload ↔
      audience = none ∧ issuer = none ∧ J.Matching algorithm key verifying ∧
        payload = claims.payload := by
  constructor
  · intro hdecode
    obtain ⟨hmatching, rfl⟩ := hJ.signed hserial hencode hdecode
    refine ⟨?_, ?_, hmatching, rfl⟩
    · cases haudience : audience with
      | none => rfl
      | some a =>
        rcases hJ.audience haudience hdecode with haud | ⟨items, haud, -⟩
        · rw [hcurrent.aud] at haud
          cases haud
        · rw [hcurrent.aud] at haud
          cases haud
    · cases hissuer : issuer with
      | none => rfl
      | some a =>
        have hlookup := hJ.issuer hissuer hdecode
        rw [hiss] at hlookup
        cases hlookup
  · rintro ⟨rfl, rfl, hmatching, rfl⟩
    exact hJ.inverts hserial hencode hmatching hcurrent

theorem decodeAccessToken_ok {audience issuer : Option String} {key algorithm : String}
    (hmaterial : jwtVerifyingMaterial J settings = .ok (key, algorithm)) :
    decodeAccessToken J settings token audience issuer now = .ok payload ↔
      J.decode token key ⟨[algorithm], ["exp", "sub"], audience, issuer⟩ now = .ok payload ∧
        get payload "tenant_id" ≠ .null := by
  unfold decodeAccessToken
  simp only [hmaterial, bind, Except.bind]
  cases J.decode token key ⟨[algorithm], ["exp", "sub"], audience, issuer⟩ now with
  | error e => simp [Except.mapError]
  | ok read =>
    simp only [Except.mapError, Except.ok.injEq]
    split
    · next hnull =>
      simp only [reduceCtorEq, false_iff, not_and, not_not]
      rintro rfl
      exact hnull
    · next hnull =>
      simp only [pure, Except.pure, Except.ok.injEq, iff_self_and]
      rintro rfl
      exact hnull

/-- A bearer token without spaces is what the header is read as. -/
theorem authenticateJwt_bearer (hne : token ≠ "")
    (hspace : ∀ c ∈ token.toList, Text.isSpace c = false) :
    authenticateJwt J settings now (some (bearerPrefix ++ token)) =
      match decodeAccessToken J settings token settings.jwtAudience settings.jwtIssuer now with
      | .error (.jwt (.pyJwt _)) => .error (.valueError "invalid_token")
      | .error exception => .error exception
      | .ok payload => (requestState payload).map some := by
  have htake : bearerPrefix.toList.isPrefixOf (bearerPrefix ++ token).toList = true := by
    rw [String.toList_append, List.isPrefixOf_iff_prefix]
    exact List.prefix_append _ _
  have hdrop : String.ofList ((bearerPrefix ++ token).toList.drop bearerPrefix.length)
      = token := by
    rw [String.toList_append, ← String.length_toList, List.drop_left, String.ofList_toList]
  unfold authenticateJwt
  simp only [htake, hdrop, strip_of_no_space hspace, hne, if_false, Bool.true_eq_false]

theorem authenticateJwt_bearer_ok {state : RequestState} (hne : token ≠ "")
    (hspace : ∀ c ∈ token.toList, Text.isSpace c = false) :
    authenticateJwt J settings now (some (bearerPrefix ++ token)) = .ok (some state) ↔
      ∃ payload, decodeAccessToken J settings token settings.jwtAudience settings.jwtIssuer now
        = .ok payload ∧ requestState payload = .ok state := by
  rw [authenticateJwt_bearer hne hspace]
  cases decodeAccessToken J settings token settings.jwtAudience settings.jwtIssuer now with
  | error e =>
    simp only [reduceCtorEq, false_and, exists_false, iff_false]
    split
    · simp
    · simp
    · next h => cases h
  | ok read =>
    cases h : requestState read with
    | error e => simp [h, Except.map]
    | ok s => simp [h, Except.map]

/-- A role comes back as it is only if it is not blank, without blanks around it and in
lower case. -/
theorem roleOf_eq_some {role : String} :
    roleOf (.str role.toList) = some role ↔ role ≠ "" ∧ Text.lower (Text.strip role) = role := by
  simp only [roleOf, String.ofList_toList]
  split
  · next hblank =>
    simp only [reduceCtorEq, hblank, false_iff, not_and]
    intro hne hlower
    exact hne hlower.symm
  · next hblank =>
    simp only [Option.some.injEq, iff_and_self]
    rintro hlower rfl
    exact hblank rfl

end Reading

/-- A token is accepted until it expires, as of its user, unless the configuration names an
audience, an issuer or a foreign public key. -/
theorem accessToken_accepted_iff {J : PyJwt} (hJ : J.Documented) {settings : Settings}
    {user : User} {issuedAt exp now : Instant} {token : String}
    (hexp : issuedAt.plusMinutes settings.accessTokenTtlMinutes = some exp)
    (htoken : issueAccessToken J settings user issuedAt = .ok token)
    (hfrom : issuedAt.micros ≤ now.micros)
    (huntil : now.micros < exp.numericDate * 1000000) :
    authenticateJwt J settings now (some (bearerPrefix ++ token))
        = .ok (some ⟨user.tenantId, some user.id, some user.role⟩) ↔
      settings.jwtAudience = none ∧ settings.jwtIssuer = none ∧ KeysMatch J settings ∧
        user.role ≠ "" ∧ Text.lower (Text.strip user.role) = user.role := by
  rw [issueAccessToken, hexp] at htoken
  obtain ⟨key, verifying, algorithm, hencode, hmaterial, hmatch⟩ := material_of_encoded hJ htoken
  obtain ⟨hne, hspace⟩ := hJ.compact hencode
  have hdecode (payload : Payload) : J.decode token verifying
      ⟨[algorithm], ["exp", "sub"], settings.jwtAudience, settings.jwtIssuer⟩ now = .ok payload ↔
      settings.jwtAudience = none ∧ settings.jwtIssuer = none ∧
        J.Matching algorithm key verifying ∧ payload = (accessClaims user issuedAt exp).payload :=
    decode_encoded_iff hJ (serial_accessClaims user issuedAt exp) hencode
      (current_accessClaims user hfrom huntil) (lookup_accessClaims user issuedAt exp).2
  have htenant : get (accessClaims user issuedAt exp).payload "tenant_id" ≠ .null := by
    rw [get_tenant]
    intro hnull
    cases hnull
  rw [authenticateJwt_bearer_ok hne hspace]
  simp only [decodeAccessToken_ok hmaterial, hdecode, hmatch]
  constructor
  · rintro ⟨payload, ⟨⟨haudience, hissuer, hkeys, rfl⟩, -⟩, hstate⟩
    rw [requestState_accessClaims, Except.ok.injEq, RequestState.mk.injEq] at hstate
    exact ⟨haudience, hissuer, hkeys, roleOf_eq_some.mp hstate.2.2⟩
  · rintro ⟨haudience, hissuer, hkeys, hrole⟩
    refine ⟨_, ⟨⟨haudience, hissuer, hkeys, rfl⟩, htenant⟩, ?_⟩
    rw [requestState_accessClaims, roleOf_eq_some.mpr hrole]

namespace Demo

section Tabled

variable {claims : Claims} {iat exp : ℤ} {secret token : String}

/-- PyJWT as far as one token goes. -/
def tabled (claims : Claims) (iat exp : ℤ) (secret token : String) : PyJwt where
  encode claims' key algorithm :=
    if claims' = claims ∧ key = secret ∧ algorithm = "HS256" then .ok token
    else .error (.other "not tabled")
  decode token' key options now :=
    if token' = token ∧ key = secret ∧ "HS256" ∈ options.algorithms ∧
        (options.require.all fun name => (lookup claims.payload name.toList).isSome) ∧
        options.audience = none ∧ options.issuer = none ∧ iat * 1000000 ≤ now.micros ∧
        now.micros < exp * 1000000 then .ok claims.payload
    else .error (.pyJwt "invalid")
  publicPem _ := .error (.other "not a PEM")
  Matching algorithm signing verifying := algorithm = "HS256" ∧ signing = verifying

theorem encode_tabled :
    (tabled claims iat exp secret token).encode claims secret "HS256" = .ok token :=
  if_pos ⟨rfl, rfl, rfl⟩

theorem encode_tabled_ok {claims' : Claims} {key algorithm token' : String}
    (h : (tabled claims iat exp secret token).encode claims' key algorithm = .ok token') :
    claims' = claims ∧ key = secret ∧ algorithm = "HS256" ∧ token' = token := by
  simp only [tabled] at h
  split at h
  · next hcond =>
    cases h
    exact ⟨hcond.1, hcond.2.1, hcond.2.2, rfl⟩
  · cases h

theorem decode_tabled_ok {key token' : String} {options : DecodeOptions} {now : Instant}
    {payload : Payload}
    (h : (tabled claims iat exp secret token).decode token' key options now = .ok payload) :
    key = secret ∧ options.audience = none ∧ options.issuer = none ∧
      payload = claims.payload := by
  simp only [tabled] at h
  split at h
  · next hcond =>
    cases h
    exact ⟨hcond.2.1, hcond.2.2.2.2.1, hcond.2.2.2.2.2.1, rfl⟩
  · cases h

theorem decode_tabled_audience {key token' a : String} {options : DecodeOptions} {now : Instant}
    (ha : options.audience = some a) :
    (tabled claims iat exp secret token).decode token' key options now
      = .error (.pyJwt "invalid") := by
  refine if_neg ?_
  rintro ⟨-, -, -, -, haudience, -⟩
  rw [ha] at haudience
  cases haudience

theorem decode_tabled {require : List String} {now : Instant}
    (hiat : lookup claims.payload "iat".toList = some (.int iat))
    (hexp : lookup claims.payload "exp".toList = some (.int exp))
    (hcurrent : Payload.Current require now claims.payload) :
    (tabled claims iat exp secret token).decode token secret ⟨["HS256"], require, none, none⟩ now
      = .ok claims.payload := by
  have hrequire : (require.all fun name =>
      (lookup claims.payload name.toList).isSome) = true := by
    rw [List.all_eq_true]
    intro name hname
    have hget := hcurrent.required name hname
    cases h : lookup claims.payload name.toList with
    | none => simp [get, h] at hget
    | some v => rfl
  obtain ⟨_, hn, hfrom⟩ := hcurrent.iat _ hiat
  cases hn
  obtain ⟨_, hn, huntil⟩ := hcurrent.exp _ hexp
  cases hn
  exact if_pos ⟨rfl, rfl, List.mem_singleton_self _, hrequire, rfl, rfl, hfrom, huntil⟩

theorem documented_tabled (hne : token ≠ "") (hspace : ∀ c ∈ token.toList, Text.isSpace c = false)
    (hiat : lookup claims.payload "iat".toList = some (.int iat))
    (hexp : lookup claims.payload "exp".toList = some (.int exp)) :
    (tabled claims iat exp secret token).Documented where
  compact := by
    intro claims key algorithm token h
    obtain ⟨-, -, -, rfl⟩ := encode_tabled_ok h
    exact ⟨hne, hspace⟩
  loads := by
    intro claims key token h
    exact absurd (encode_tabled_ok h).2.2.1 (by decide)
  derived := by
    intro key verifying h
    cases h
  secret _ := ⟨rfl, rfl⟩
  signed := by
    intro claims key verifying algorithm token options now payload _ hencode hdecode
    obtain ⟨rfl, rfl, rfl, rfl⟩ := encode_tabled_ok hencode
    obtain ⟨rfl, -, -, rfl⟩ := decode_tabled_ok hdecode
    exact ⟨⟨rfl, rfl⟩, rfl⟩
  audience := by
    intro token key options now payload a haudience hdecode
    rw [(decode_tabled_ok hdecode).2.1] at haudience
    cases haudience
  issuer := by
    intro token key options now payload a hissuer hdecode
    rw [(decode_tabled_ok hdecode).2.2.1] at hissuer
    cases hissuer
  inverts := by
    intro claims key verifying algorithm token require now _ hencode hmatching hcurrent
    obtain ⟨rfl, rfl, rfl, rfl⟩ := encode_tabled_ok hencode
    obtain ⟨-, rfl⟩ := hmatching
    exact decode_tabled hiat hexp hcurrent

end Tabled

def secret : String := "0123456789abcdef0123456789abcdef"

theorem known_hs256 : upper "HS256" = "HS256" ∨ upper "HS256" = "RS256" := by decide

theorem fernet_hs256 : upper "HS256" = "RS256" →
    Text.strip ((none : Option String).getD "") ≠ "" := by
  decide

/-- The settings of a server that signs with the secret and may ask for an audience. -/
def settings (audience : Option String) : Settings where
  stripeOauthStateSecret := none
  jwtAlgorithm := "HS256"
  jwtSecret := secret
  webhookSecretFernetKey := none
  jwtPrivateKeyPem := none
  jwtPublicKeyPem := none
  jwtIssuer := none
  jwtAudience := audience
  accessTokenTtlMinutes := 60
  algorithm_known := known_hs256
  fernet_required := fernet_hs256
  secret_long := by decide
  private_required := by decide
  ttl_pos := by decide

def signedOwner : User := ⟨5, 1, "owner"⟩

def issued : Instant := ⟨1000000000, by decide, by decide⟩

def expiry : Instant := ⟨4600000000, by decide, by decide⟩

def presented : Instant := ⟨2000000000, by decide, by decide⟩

def ownerClaims : Claims := accessClaims signedOwner issued expiry

/-- The text that HMAC-SHA256 under the secret gives for these claims. -/
def ownerTokenParts : List String :=
  ["eyJhbGciOiJIUzI1NiIsInR5cCI6IkpXVCJ9.eyJzd",
    "WIiOiIwMDAwMDAwMC0wMDAwLTAwMDAtMDAwMC0wMDA",
    "wMDAwMDAwMDUiLCJ0ZW5hbnRfaWQiOiIwMDAwMDAwM",
    "C0wMDAwLTAwMDAtMDAwMC0wMDAwMDAwMDAwMDEiLCJ",
    "yb2xlIjoib3duZXIiLCJ0eXAiOiJhY2Nlc3MiLCJpY",
    "XQiOjEwMDAsImV4cCI6NDYwMH0.QLIEnhEtySaFHiZ",
    "mxMMTSAE5sgnfy6s2doS2spoXBrc"]

def ownerToken : String := Text.ofParts ownerTokenParts

theorem isSpace_ownerToken : ∀ c ∈ ownerToken.toList, Text.isSpace c = false :=
  isSpace_ofParts (by decide +kernel)

theorem ownerToken_ne_empty : ownerToken ≠ "" := ofParts_ne_empty (by decide)

/-- The library as far as the token of the owner goes. -/
def jwt : PyJwt := tabled ownerClaims 1000 4600 secret ownerToken

theorem documented_jwt : jwt.Documented := by
  refine documented_tabled ownerToken_ne_empty isSpace_ownerToken ?_ ?_
  · rw [ownerClaims, payload_accessClaims, show issued.numericDate = 1000 from by decide]
    simp [lookup_cons, lookup_nil]
  · rw [ownerClaims, payload_accessClaims, show expiry.numericDate = 4600 from by decide]
    simp [lookup_cons, lookup_nil]

theorem keysMatch_settings (audience : Option String) : KeysMatch jwt (settings audience) := by
  intro _ pem hpem
  cases hpem

theorem upper_settings (audience : Option String) :
    upper (settings audience).jwtAlgorithm = "HS256" := by
  have hupper : upper "HS256" = "HS256" := by decide
  exact hupper

theorem plusMinutes_issued (audience : Option String) :
    issued.plusMinutes (settings audience).accessTokenTtlMinutes = some expiry := by
  have hsum : issued.micros + ((settings audience).accessTokenTtlMinutes : ℤ) * 60000000
      = 4600000000 := by
    norm_num [issued, settings]
  simp [Instant.plusMinutes, hsum, expiry]

theorem issueAccessToken_owner (audience : Option String) :
    issueAccessToken jwt (settings audience) signedOwner issued = .ok ownerToken := by
  have hsign := (material_hs256 (J := jwt) (upper_settings audience)).1
  have hencode : jwt.encode (accessClaims signedOwner issued expiry) (settings audience).jwtSecret
      "HS256" = .ok ownerToken := encode_tabled
  rw [issueAccessToken, plusMinutes_issued]
  simp only [encodeToken, hsign, bind, Except.bind, hencode, Except.mapError]

theorem role_signedOwner : signedOwner.role ≠ "" ∧
    Text.lower (Text.strip signedOwner.role) = signedOwner.role := by
  decide

/-- Where an audience is asked for, the token of the owner is refused. -/
theorem decodeAccessToken_owner (a : String) :
    decodeAccessToken jwt (settings (some a)) ownerToken (some a) none presented
      = .error (.jwt (.pyJwt "invalid")) :=
  decodeAccessToken_refused (upper_settings (some a)) (decode_tabled_audience rfl)

end Demo

/-- The token of an owner opens the API for the owner. -/
theorem accessToken_accepted_demo :
    issueAccessToken Demo.jwt (Demo.settings none) Demo.signedOwner Demo.issued
        = .ok Demo.ownerToken ∧
      authenticateJwt Demo.jwt (Demo.settings none) Demo.presented
        (some (bearerPrefix ++ Demo.ownerToken)) = .ok (some ⟨1, some 5, some "owner"⟩) := by
  have htoken := Demo.issueAccessToken_owner none
  have hfrom : Demo.issued.micros ≤ Demo.presented.micros := by decide
  have huntil : Demo.presented.micros < Demo.expiry.numericDate * 1000000 := by decide
  exact ⟨htoken, (accessToken_accepted_iff Demo.documented_jwt (Demo.plusMinutes_issued none)
    htoken hfrom huntil).mpr ⟨rfl, rfl, Demo.keysMatch_settings none, Demo.role_signedOwner⟩⟩

/-- With an audience in the settings the same token is refused. -/
theorem accessToken_rejected :
    Demo.jwt.Documented ∧ KeysMatch Demo.jwt (Demo.settings (some "openpms")) ∧
      issueAccessToken Demo.jwt (Demo.settings (some "openpms")) Demo.signedOwner Demo.issued
        = .ok Demo.ownerToken ∧
      authenticateJwt Demo.jwt (Demo.settings (some "openpms")) Demo.presented
        (some (bearerPrefix ++ Demo.ownerToken)) = .error (.valueError "invalid_token") := by
  refine ⟨Demo.documented_jwt, Demo.keysMatch_settings _, Demo.issueAccessToken_owner _, ?_⟩
  have hdecode : decodeAccessToken Demo.jwt (Demo.settings (some "openpms")) Demo.ownerToken
      (Demo.settings (some "openpms")).jwtAudience (Demo.settings (some "openpms")).jwtIssuer
      Demo.presented = .error (.jwt (.pyJwt "invalid")) :=
    Demo.decodeAccessToken_owner "openpms"
  rw [authenticateJwt_bearer Demo.ownerToken_ne_empty Demo.isSpace_ownerToken, hdecode]

end OpenPms.AccessTokens
