import OpenPms.PasswordChange

/-!
The two kinds of signed tokens. Access tokens and the tokens of reset links are signed with
one key and share the subject and the tenant; only the decoder of the reset links looks at
the claim that tells them apart.
-/
namespace OpenPms

open KeyedTable Transaction Prog

/-! Claims and their decoding -/

/-- The claims that are set or read somewhere. Identifiers are kept as such, not as text. -/
structure JwtPayload where
  sub : Option UUID
  tenantId : Option UUID
  role : Option String
  typ : Option String
  pwdFp : Option String
  iat : Option ℤ
  exp : Option ℤ
  aud : Option String
  iss : Option String
  deriving DecidableEq

/-- `jwt.encode` under the signing key, and the claims of a text whose signature fits the
verifying key. -/
structure Jwt where
  encode : JwtPayload → String
  verified : String → Option JwtPayload

/-- The token of the claims is nonempty text without blanks around it that gives them back. -/
structure Jwt.Signs (J : Jwt) (p : JwtPayload) : Prop where
  verified_encode : J.verified (J.encode p) = some p
  strip_encode : Text.strip (J.encode p) = J.encode p
  encode_ne_empty : J.encode p ≠ ""

structure JwtSettings where
  jwtAudience : Option String
  jwtIssuer : Option String
  deriving DecidableEq

/-- What `jwt.decode` checks of the claims: the two that are required, the times, and the
audience and the issuer, of which a token must have none where none is asked for. -/
def JwtPayload.Valid (audience issuer : Option String) (now : ℤ) (p : JwtPayload) : Prop :=
  p.sub.isSome ∧ (∃ exp ∈ p.exp, now < exp) ∧ (∀ iat ∈ p.iat, iat ≤ now) ∧ p.aud = audience ∧
    ∀ iss ∈ issuer, p.iss = some iss

instance (audience issuer : Option String) (now : ℤ) (p : JwtPayload) :
    Decidable (p.Valid audience issuer now) := by
  unfold JwtPayload.Valid
  infer_instance

def jwtDecode (J : Jwt) (audience issuer : Option String) (now : ℤ) (token : String) :
    Option JwtPayload :=
  (J.verified token).filter fun p => p.Valid audience issuer now

def decodeAccessToken (J : Jwt) (audience issuer : Option String) (now : ℤ) (token : String) :
    Option JwtPayload :=
  (jwtDecode J audience issuer now token).filter fun p => p.tenantId.isSome

def decodePasswordResetToken (J : Jwt) (now : ℤ) (token : String) : Option JwtPayload :=
  (jwtDecode J none none now token).filter fun p =>
    p.typ = some "password_reset" && p.tenantId.isSome && p.pwdFp.getD "" ≠ ""

/-! Issuing -/

def AccessToken.payload (t : AccessToken) : JwtPayload where
  sub := some t.sub
  tenantId := some t.tenantId
  role := some t.role
  typ := some "access"
  pwdFp := none
  iat := some t.iat
  exp := some t.exp
  aud := none
  iss := none

/-- One hour, in seconds. -/
def passwordResetTtl : ℤ := 3600

def issuePasswordResetToken (env : PasswordEnv) (now : ℤ) (user : User) : JwtPayload where
  sub := some user.id
  tenantId := some user.tenantId
  role := none
  typ := some "password_reset"
  pwdFp := some (passwordFingerprint env user.passwordHash)
  iat := some now
  exp := some (now + passwordResetTtl)
  aud := none
  iss := none

inductive TokenKind where
  | access
  | passwordReset
  deriving DecidableEq

/-- Every token that the system issues. -/
def TokenKind.payload (env : PasswordEnv) (now : ℤ) (user : User) : TokenKind → JwtPayload
  | access => (issueAccessToken env.toAuthEnv now user).payload
  | passwordReset => issuePasswordResetToken env now user

/-! The two readers -/

structure RequestState where
  tenantId : UUID
  userId : Option UUID
  userRole : Option String
  deriving DecidableEq

def bearerPrefix : String := "Bearer "

/-- `none` without a bearer token; the text is that of the `ValueError`. -/
def authenticateJwt (J : Jwt) (settings : JwtSettings) (now : ℤ) (authorization : String) :
    Except String (Option RequestState) :=
  if bearerPrefix.toList.isPrefixOf authorization.toList = false then .ok none
  else
    let token := Text.strip (String.ofList (authorization.toList.drop bearerPrefix.length))
    if token = "" then .ok none
    else
      match decodeAccessToken J settings.jwtAudience settings.jwtIssuer now token with
      | none => .error "invalid_token"
      | some payload =>
        match payload.tenantId with
        | none => .error "missing_tenant"
        | some tenantId =>
          .ok (some
            { tenantId := tenantId
              userId := payload.sub
              userRole := ((payload.role.map Text.strip).filter (· ≠ "")).map Text.lower })

/-- The middleware on a bearer request: the state the application is called with, or the
detail of the 401. -/
def tenantJwtMiddleware (J : Jwt) (settings : JwtSettings) (now : ℤ) (authorization : String) :
    Except String RequestState :=
  match authenticateJwt J settings now authorization with
  | .error _ => .error "Invalid or expired token"
  | .ok none => .error "Missing bearer token"
  | .ok (some state) => .ok state

/-- What `reset_password` takes from its token. -/
def resetClaims (J : Jwt) (now : ℤ) (token : String) : Option ResetClaims :=
  (decodePasswordResetToken J now token).bind fun p =>
    match p.tenantId, p.sub with
    | some tenantId, some sub => some ⟨tenantId, sub, p.pwdFp.getD ""⟩
    | _, _ => none

/-! Access through the middleware -/

section Middleware

variable {J : Jwt} {settings : JwtSettings} {now : ℤ} {p : JwtPayload}

theorem jwtDecode_encode (hJ : J.Signs p) (audience issuer : Option String) :
    jwtDecode J audience issuer now (J.encode p)
      = if p.Valid audience issuer now then some p else none := by
  simp only [jwtDecode, hJ.verified_encode, Option.filter_some, decide_eq_true_eq]

theorem decodeAccessToken_encode (hJ : J.Signs p) (audience issuer : Option String) :
    decodeAccessToken J audience issuer now (J.encode p)
      = if p.Valid audience issuer now ∧ p.tenantId.isSome then some p else none := by
  unfold decodeAccessToken
  rw [jwtDecode_encode hJ]
  by_cases hvalid : p.Valid audience issuer now
  · cases htenant : p.tenantId <;> simp [hvalid, htenant]
  · simp [hvalid]

theorem tenantJwtMiddleware_bearer (hJ : J.Signs p) (state : RequestState) :
    tenantJwtMiddleware J settings now (bearerPrefix ++ J.encode p) = .ok state ↔
      p.Valid settings.jwtAudience settings.jwtIssuer now ∧ p.tenantId = some state.tenantId ∧
        p.sub = state.userId ∧
        ((p.role.map Text.strip).filter (· ≠ "")).map Text.lower = state.userRole := by
  have htake : bearerPrefix.toList.isPrefixOf (bearerPrefix ++ J.encode p).toList = true := by
    rw [String.toList_append, List.isPrefixOf_iff_prefix]
    exact List.prefix_append _ _
  have hdrop : String.ofList ((bearerPrefix ++ J.encode p).toList.drop bearerPrefix.length)
      = J.encode p := by
    rw [String.toList_append, ← String.length_toList, List.drop_left, String.ofList_toList]
  unfold tenantJwtMiddleware authenticateJwt
  simp only [htake, hdrop, hJ.strip_encode, hJ.encode_ne_empty, if_false,
    decodeAccessToken_encode hJ, Bool.true_eq_false]
  by_cases hvalid : p.Valid settings.jwtAudience settings.jwtIssuer now
  · cases htenant : p.tenantId with
    | none => simp
    | some tenantId =>
      obtain ⟨sTenant, sUser, sRole⟩ := state
      simp [hvalid, htenant]
  · simp [hvalid]

theorem exists_tenantJwtMiddleware (hJ : J.Signs p) :
    (∃ state, tenantJwtMiddleware J settings now (bearerPrefix ++ J.encode p) = .ok state) ↔
      p.Valid settings.jwtAudience settings.jwtIssuer now ∧ p.tenantId.isSome := by
  constructor
  · rintro ⟨state, hstate⟩
    obtain ⟨hvalid, htenant, -, -⟩ := (tenantJwtMiddleware_bearer hJ state).mp hstate
    exact ⟨hvalid, by rw [htenant]; rfl⟩
  · rintro ⟨hvalid, htenant⟩
    obtain ⟨tenantId, htenant⟩ := Option.isSome_iff_exists.mp htenant
    exact ⟨⟨tenantId, p.sub, _⟩,
      (tenantJwtMiddleware_bearer hJ _).mpr ⟨hvalid, htenant, rfl, rfl⟩⟩

/-- A reset token is valid for its hour, where neither an audience nor an issuer is asked. -/
theorem valid_issuePasswordResetToken (env : PasswordEnv) (user : User) (issuedAt : ℤ) :
    (issuePasswordResetToken env issuedAt user).Valid settings.jwtAudience settings.jwtIssuer now ↔
      settings.jwtAudience = none ∧ settings.jwtIssuer = none ∧ issuedAt ≤ now ∧
        now < issuedAt + passwordResetTtl := by
  cases haud : settings.jwtAudience <;> cases hiss : settings.jwtIssuer <;>
    simp [JwtPayload.Valid, issuePasswordResetToken, and_comm]

end Middleware

/-! Resets -/

theorem resetPassword_keeps_others (env : PasswordEnv) {claims : ResetClaims} {id : UUID}
    (hid : id ≠ claims.sub) (newPassword : String) :
    Keeps (fun db : AuthDb => db.users.find id)
      (resetPassword env (some claims) newPassword) := by
  unfold resetPassword
  intro db
  cases hfound : getUser claims.tenantId claims.sub db with
  | none =>
    simp only [exec_bind, exec_select, hfound]
    rfl
  | some user =>
    have hne : id ≠ user.id := by
      rw [getUser_id hfound]
      exact hid
    have hreplace : Keeps (fun db : AuthDb => db.users.find id)
        (replacePassword env claims.tenantId user newPassword) := by
      unfold replacePassword revokeAllRefreshTokensForUser updateUser
      refine keeps_bind (keeps_bind (keeps_acquire _) fun _ => keeps_bind (keeps_select _) fun _ =>
        keeps_bind (keeps_raiseIf _) fun _ => keeps_modify fun db => ?_) fun _ => ?_
      · have hfind : (db.users.update user.id (setPasswordHash (env.hashPassword newPassword))
            (id_setPasswordHash _)).find id = db.users.find id := Table.find_update_of_ne hne
        exact hfind
      · exact keeps_bind (keeps_select _) fun _ =>
          keeps_bind (keeps_forEach fun _ => keeps_acquire _) fun _ => keeps_modify fun _ => rfl
    have hrest := keeps_bind (f := fun db : AuthDb => db.users.find id)
      (keeps_raiseIf (c := user.isActive = false) invalidToken) fun _ =>
      keeps_bind (keeps_raiseIf (c := passwordFingerprint env user.passwordHash ≠ claims.pwdFp)
        invalidToken) fun _ => hreplace
    rw [exec_bind, exec_select]
    simp only [hfound]
    exact hrest db

/-- Only tokens of the one kind give claims to a reset. -/
theorem resetClaims_of_issued {J : Jwt} {env : PasswordEnv} {kind : TokenKind} {user : User}
    {issuedAt now : ℤ} {claims : ResetClaims} (hJ : J.Signs (kind.payload env issuedAt user))
    (h : resetClaims J now (J.encode (kind.payload env issuedAt user)) = some claims) :
    kind = .passwordReset ∧ claims.tenantId = user.tenantId ∧ claims.sub = user.id := by
  unfold resetClaims decodePasswordResetToken at h
  rw [jwtDecode_encode hJ] at h
  cases kind with
  | access =>
    have htyp : (TokenKind.access.payload env issuedAt user).typ = some "access" := rfl
    split at h
    · simp [Option.filter_some, htyp] at h
    · simp at h
  | passwordReset =>
    refine ⟨rfl, ?_⟩
    split at h
    · simp only [Option.filter_some] at h
      split at h
      · simp only [TokenKind.payload, issuePasswordResetToken, Option.bind_some,
          Option.some.injEq] at h
        exact ⟨by rw [← h], by rw [← h]⟩
      · simp at h
    · simp at h

/-! The kinds -/

/-- A token opens the API only if it is an access token, and resets a password only if it is
a reset token, of the user whose password it resets. -/
def Separated (J : Jwt) (settings : JwtSettings) (env : PasswordEnv) (kind : TokenKind)
    (user : User) (issuedAt now : ℤ) : Prop :=
  let token := J.encode (kind.payload env issuedAt user)
  (∀ state, tenantJwtMiddleware J settings now (bearerPrefix ++ token) = .ok state →
      kind = .access) ∧
    ∀ (server : PasswordEnv) newPassword db db',
      (resetPassword server (resetClaims J now token) newPassword).exec db = (.ok (), db') →
        kind = .passwordReset ∧ ∀ id, id ≠ user.id → db'.users.find id = db.users.find id

/-- The kinds are told apart except for a reset token within its hour, on a system that
configures neither an audience nor an issuer. -/
theorem token_kinds_separated_iff {J : Jwt} {env : PasswordEnv} {kind : TokenKind} {user : User}
    {issuedAt : ℤ} (hJ : J.Signs (kind.payload env issuedAt user)) (settings : JwtSettings)
    (now : ℤ) :
    Separated J settings env kind user issuedAt now ↔
      kind = .access ∨ settings.jwtAudience ≠ none ∨ settings.jwtIssuer ≠ none ∨
        now < issuedAt ∨ issuedAt + passwordResetTtl ≤ now := by
  have hreset : ∀ (server : PasswordEnv) newPassword db db',
      (resetPassword server (resetClaims J now (J.encode (kind.payload env issuedAt user)))
        newPassword).exec db = (.ok (), db') →
      kind = .passwordReset ∧ ∀ id, id ≠ user.id → db'.users.find id = db.users.find id := by
    intro server newPassword db db' hexec
    cases hclaims : resetClaims J now (J.encode (kind.payload env issuedAt user)) with
    | none =>
      rw [hclaims] at hexec
      simp [resetPassword, exec_raise] at hexec
    | some claims =>
      obtain ⟨hkind, -, hsub⟩ := resetClaims_of_issued hJ hclaims
      refine ⟨hkind, fun id hid => ?_⟩
      rw [hclaims] at hexec
      rw [← hsub] at hid
      exact (resetPassword_keeps_others server hid newPassword).eq hexec
  have hopens : (∀ state, tenantJwtMiddleware J settings now
      (bearerPrefix ++ J.encode (kind.payload env issuedAt user)) = .ok state → kind = .access) ↔
      kind = .access ∨ ¬ ∃ state, tenantJwtMiddleware J settings now
        (bearerPrefix ++ J.encode (kind.payload env issuedAt user)) = .ok state := by
    rw [or_comm, ← imp_iff_not_or]
    exact ⟨fun h ⟨state, hstate⟩ => h state hstate, fun h state hstate => h ⟨state, hstate⟩⟩
  constructor
  · rintro ⟨hmiddleware, -⟩
    rcases hopens.mp hmiddleware with hkind | hclosed
    · exact .inl hkind
    · cases kind with
      | access => exact .inl rfl
      | passwordReset =>
        rw [exists_tenantJwtMiddleware hJ] at hclosed
        have hinvalid : ¬ (issuePasswordResetToken env issuedAt user).Valid settings.jwtAudience
            settings.jwtIssuer now := fun hvalid => hclosed ⟨hvalid, rfl⟩
        rw [valid_issuePasswordResetToken] at hinvalid
        by_cases haud : settings.jwtAudience = none
        · by_cases hiss : settings.jwtIssuer = none
          · have htimes : ¬ (issuedAt ≤ now ∧ now < issuedAt + passwordResetTtl) :=
              fun h => hinvalid ⟨haud, hiss, h⟩
            omega
          · exact .inr (.inr (.inl hiss))
        · exact .inr (.inl haud)
  · intro hcond
    refine ⟨hopens.mpr ?_, hreset⟩
    cases kind with
    | access => exact .inl rfl
    | passwordReset =>
      right
      rw [exists_tenantJwtMiddleware hJ]
      rintro ⟨hvalid, -⟩
      obtain ⟨haud, hiss, hfrom, huntil⟩ := (valid_issuePasswordResetToken env user issuedAt).mp
        hvalid
      rcases hcond with hkind | hcond | hcond | hcond | hcond
      · cases hkind
      · exact hcond haud
      · exact hcond hiss
      · omega
      · omega

namespace Demo

def plainSettings : JwtSettings := ⟨none, none⟩

def linkOwner : User := ⟨5, 1, "owner", true, "a@b.c", "hash old"⟩

/-- SHA-256 as far as the hash of the owner goes. -/
def linkEnv : PasswordEnv :=
  { passwordEnv false with
    sha256 := fun raw =>
      if raw = "hash old" then "e87a9d03c15f6720b49288bb8111f26f3fee75fb482a4d3d34587e7df0fac756"
      else raw }

/-- The claims of a link that is mailed at time 1000. -/
def linkPayload : JwtPayload := TokenKind.passwordReset.payload linkEnv 1000 linkOwner

/-- The text that HMAC-SHA256 under "0123456789abcdef0123456789abcdef" gives for them. -/
def linkTokenParts : List String :=
  ["eyJhbGciOiJIUzI1NiIsInR5cCI6IkpXVCJ9.eyJzd",
    "WIiOiIwMDAwMDAwMC0wMDAwLTAwMDAtMDAwMC0wMDA",
    "wMDAwMDAwMDUiLCJ0ZW5hbnRfaWQiOiIwMDAwMDAwM",
    "C0wMDAwLTAwMDAtMDAwMC0wMDAwMDAwMDAwMDEiLCJ",
    "0eXAiOiJwYXNzd29yZF9yZXNldCIsInB3ZF9mcCI6I",
    "mU4N2E5ZDAzYzE1ZiIsImlhdCI6MTAwMCwiZXhwIjo",
    "0NjAwfQ.u5Q7mS8AC6u3ANktsJBNEZkInq_6sS4myv",
    "OL4YlNcTk"]

def linkToken : String := Text.ofParts linkTokenParts

/-- The keys as far as this one link goes. -/
def linkJwt : Jwt where
  encode p := if p = linkPayload then linkToken else ""
  verified text := if text = linkToken then some linkPayload else none

theorem encode_link : linkJwt.encode linkPayload = linkToken := by
  simp [linkJwt]

theorem signs_link : linkJwt.Signs linkPayload where
  verified_encode := by
    rw [encode_link]
    simp [linkJwt]
  strip_encode := by
    rw [encode_link]
    exact strip_of_no_space (isSpace_ofParts (by decide +kernel))
  encode_ne_empty := by
    rw [encode_link]
    exact ofParts_ne_empty (by decide +kernel)

end Demo

/-- After its hour the link opens nothing any more. -/
theorem token_kinds_separated_demo :
    Demo.linkJwt.encode Demo.linkPayload = Demo.linkToken ∧
      Separated Demo.linkJwt Demo.plainSettings Demo.linkEnv .passwordReset Demo.linkOwner
        1000 5000 :=
  ⟨Demo.encode_link, (token_kinds_separated_iff Demo.signs_link Demo.plainSettings 5000).mpr
    (by decide)⟩

/-- Within it, the link is a bearer token of its user. -/
theorem reset_link_opens_api :
    tenantJwtMiddleware Demo.linkJwt Demo.plainSettings 1500 (bearerPrefix ++ Demo.linkToken)
        = .ok ⟨1, some 5, none⟩ ∧
      ¬ Separated Demo.linkJwt Demo.plainSettings Demo.linkEnv .passwordReset Demo.linkOwner
        1000 1500 := by
  have hopens : tenantJwtMiddleware Demo.linkJwt Demo.plainSettings 1500
      (bearerPrefix ++ Demo.linkJwt.encode Demo.linkPayload) = .ok ⟨1, some 5, none⟩ :=
    (tenantJwtMiddleware_bearer Demo.signs_link _).mpr (by decide +kernel)
  refine ⟨Demo.encode_link ▸ hopens, fun hseparated => ?_⟩
  have hkind := hseparated.1 ⟨1, some 5, none⟩ hopens
  cases hkind

end OpenPms
