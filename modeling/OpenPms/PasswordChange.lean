import OpenPms.ActiveOwner

/-!
Sessions across a change of the password. The change replaces the hash and revokes, in one
UPDATE, the tokens that this statement sees. A login that has verified the old hash or a
refresh that has selected an old token can commit a new one afterwards.
-/
namespace OpenPms

open KeyedTable Transaction Prog Interleaving

/-! The services -/

/-- The hash carries a salt of its own, so that a new one is never the one that is stored. -/
structure PasswordEnv extends AuthEnv where
  hashPassword : String → String
  verifyPassword : String → String → Bool
  passwordNeedsRehash : String → Bool

structure AuthLoginRequest where
  tenantId : Option UUID
  email : String
  password : String

structure AuthLoginResponse where
  accessToken : AccessToken
  refreshToken : String
  user : User
  deriving DecidableEq

def setPasswordHash (hash : String) (u : User) : User := { u with passwordHash := hash }

theorem id_setPasswordHash (hash : String) (u : User) : (setPasswordHash hash u).id = u.id := rfl

def userByEmail (tenantId : UUID) (email : String) (db : AuthDb) : Option User :=
  db.users.rows.find? fun u => u.tenantId = tenantId && u.email = email

def AuthLoginRequest.user (body : AuthLoginRequest) (db : AuthDb) : Option User :=
  body.tenantId.bind fun tid => userByEmail tid (Text.lower (Text.strip body.email)) db

def invalidCredentials : AuthError := .authService "invalid credentials" 401

def login (env : PasswordEnv) (body : AuthLoginRequest) : AuthTx AuthLoginResponse :=
  match body.tenantId with
  | none => raise (.authService "tenant_id required" 500)
  | some tid => do
    let found ← select (userByEmail tid (Text.lower (Text.strip body.email)))
    match found with
    | none => raise invalidCredentials
    | some user => do
      raiseIf (user.isActive = false) invalidCredentials
      raiseIf (env.verifyPassword body.password user.passwordHash = false) invalidCredentials
      runIf (env.passwordNeedsRehash user.passwordHash = true)
        (updateUser user (setPasswordHash (env.hashPassword body.password)) (id_setPasswordHash _))
      let access := issueAccessToken env.toAuthEnv (env.clock 1) user
      let refreshRaw ← persistRefreshPair env.toAuthEnv user
      pure ⟨access, refreshRaw, user⟩

def unrevokedTokens (tenantId userId : UUID) (db : AuthDb) : List UUID :=
  (db.refreshTokens.rows.filter fun t =>
    t.tenantId = tenantId && t.userId = userId && t.revokedAt.isNone).map (·.id)

def revokeSeen (seen : List UUID) (now : ℤ) (t : RefreshToken) : RefreshToken :=
  if t.id ∈ seen ∧ t.revokedAt = none then revoke now t else t

theorem id_revokeSeen (seen : List UUID) (now : ℤ) (t : RefreshToken) :
    (revokeSeen seen now t).id = t.id := by
  unfold revokeSeen
  split <;> rfl

/-- One UPDATE of the rows that it sees; a row that it has waited for is checked again. -/
def revokeAllRefreshTokensForUser (now : ℤ) (tenantId userId : UUID) : AuthTx Unit := do
  let seen ← select (unrevokedTokens tenantId userId)
  forEach seen acquire
  modify fun db => { db with
    refreshTokens := db.refreshTokens.updateAll (revokeSeen seen now) (id_revokeSeen seen now) }

/-- The new hash is flushed before the UPDATE of the tokens. -/
def replacePassword (env : PasswordEnv) (tenantId : UUID) (user : User) (newPassword : String) :
    AuthTx Unit := do
  updateUser user (setPasswordHash (env.hashPassword newPassword)) (id_setPasswordHash _)
  revokeAllRefreshTokensForUser (env.clock 0) tenantId user.id

def changePassword (env : PasswordEnv) (tenantId userId : UUID)
    (currentPassword newPassword : String) : AuthTx Unit := do
  let found ← select (getUser tenantId userId)
  match found with
  | none => raise userNotFound
  | some user => do
    raiseIf (user.isActive = false) userNotFound
    raiseIf (env.verifyPassword currentPassword user.passwordHash = false)
      (.authService "invalid current password" 401)
    replacePassword env tenantId user newPassword

/-- The claims of a reset token whose signature and expiry have been checked. -/
structure ResetClaims where
  tenantId : UUID
  sub : UUID
  pwdFp : String

def passwordFingerprint (env : PasswordEnv) (hash : String) : String :=
  Text.take 12 (env.sha256 hash)

def invalidToken : AuthError := .authService "invalid or expired token" 401

/-- The claims are `none` when the token does not decode. -/
def resetPassword (env : PasswordEnv) (claims : Option ResetClaims) (newPassword : String) :
    AuthTx Unit :=
  match claims with
  | none => raise invalidToken
  | some claims => do
    let found ← select (getUser claims.tenantId claims.sub)
    match found with
    | none => raise invalidToken
    | some user => do
      raiseIf (user.isActive = false) invalidToken
      raiseIf (passwordFingerprint env user.passwordHash ≠ claims.pwdFp) invalidToken
      replacePassword env claims.tenantId user newPassword

inductive AuthRequest where
  | refresh (body : AuthRefreshRequest)
  | login (body : AuthLoginRequest)
  | changePassword (tenantId userId : UUID) (currentPassword newPassword : String)
  | resetPassword (claims : Option ResetClaims) (newPassword : String)

def AuthRequest.prog (env : PasswordEnv) : AuthRequest → AuthTx Unit
  | refresh body => refreshSession env.toAuthEnv body >>= fun _ => pure ()
  | login body => OpenPms.login env body >>= fun _ => pure ()
  | changePassword tenantId userId current new =>
    OpenPms.changePassword env tenantId userId current new
  | resetPassword claims new => OpenPms.resetPassword env claims new

/-- The password that the request sets for the user. -/
def AuthRequest.sets (tenantId userId : UUID) : AuthRequest → Option String
  | changePassword t u _ new => if t = tenantId ∧ u = userId then some new else none
  | resetPassword (some claims) new =>
    if claims.tenantId = tenantId ∧ claims.sub = userId then some new else none
  | _ => none

/-! Any number of requests at a time -/

variable {ι : Type}

/-- The user's hash is, at the commit, the one that the login has verified. -/
def PasswordAsRead (body : AuthLoginRequest) (reads : List AuthDb) (db : AuthDb) : Prop :=
  ∀ db₀ ∈ reads.getLast?, ∀ u ∈ body.user db₀,
    (db.users.find u.id).map (·.passwordHash) = some u.passwordHash

/-- The third read is that of the UPDATE, which has seen every token still to be revoked. -/
def TokensSeen (tenantId userId : UUID) (reads : List AuthDb) (db : AuthDb) : Prop :=
  match reads.reverse with
  | _ :: _ :: seen :: _ =>
    ∀ id ∈ unrevokedTokens tenantId userId db, id ∈ unrevokedTokens tenantId userId seen
  | _ => True

def AuthRequest.Timely (env : PasswordEnv) : AuthRequest → List AuthDb → AuthDb → Prop
  | refresh body => TokenAsSelected env.toAuthEnv body
  | login body => PasswordAsRead body
  | changePassword tenantId userId _ _ => TokensSeen tenantId userId
  | resetPassword (some claims) _ => TokensSeen claims.tenantId claims.sub
  | resetPassword none _ => fun _ _ => True

/-- The discipline of requests whose commits find what their checks have found. -/
def sessions (tenantId userId : UUID) (env : ι → PasswordEnv) (req : ι → AuthRequest) :
    Discipline AuthDb UUID ι where
  inv db := (db.users.find userId).map (·.tenantId) = some tenantId
  guar _ _ _ := True
  timing := ⟨fun _ _ _ => True, fun i o db => (req i).Timely (env i) o db⟩

/-- No token of the user is left unrevoked. -/
def AllRevoked (tenantId userId : UUID) (db : AuthDb) : Prop :=
  ∀ t ∈ db.refreshTokens.rows, t.tenantId = tenantId → t.userId = userId → t.revokedAt.isSome

/-! What the writes do -/

/-- Users keep their tenants, and only one user changes. -/
structure UserWrites (userId : UUID) (w : AuthDb → AuthDb) : Prop where
  tenant : ∀ (db : AuthDb) id,
    ((w db).users.find id).map (·.tenantId) = (db.users.find id).map (·.tenantId)
  other : ∀ (db : AuthDb) id, id ≠ userId → (w db).users.find id = db.users.find id

theorem userWrites_id (userId : UUID) : UserWrites userId id := ⟨fun _ _ => rfl, fun _ _ _ => rfl⟩

theorem userWrites_hash (user : User) (hash : String) : UserWrites user.id fun db =>
    { db with users := db.users.update user.id (setPasswordHash hash) (id_setPasswordHash hash) }
    where
  tenant db id := by
    by_cases hid : id = user.id
    · subst hid
      rw [Table.find_update_self]
      cases db.users.find user.id with
      | none => rfl
      | some u => rfl
    · rw [Table.find_update_of_ne hid]
  other db id hid := by
    dsimp only
    rw [Table.find_update_of_ne hid]

/-- The later writes leave the users alone and add tokens of one user only. -/
structure AddsTokens (tenantId userId : UUID) (w₀ w : AuthDb → AuthDb) : Prop where
  users : ∀ db, (w db).users = (w₀ db).users
  others : ∀ db t u, ¬ (t = tenantId ∧ u = userId) → AllRevoked t u db → AllRevoked t u (w db)

theorem UserWrites.adds {userId tenantId id : UUID} {w₀ w : AuthDb → AuthDb}
    (h : UserWrites userId w₀) (hadds : AddsTokens tenantId id w₀ w) : UserWrites userId w where
  tenant db id' := by
    rw [hadds.users]
    exact h.tenant db id'
  other db id' hid := by
    rw [hadds.users]
    exact h.other db id' hid

theorem allRevoked_map {tenantId userId : UUID} {db db' : AuthDb}
    {f : RefreshToken → RefreshToken}
    (hrows : db'.refreshTokens.rows = db.refreshTokens.rows.map f)
    (hrevoke : ∀ t, f t = t ∨ ∃ now, f t = revoke now t) (h : AllRevoked tenantId userId db) :
    AllRevoked tenantId userId db' := by
  intro t ht htenant huser
  rw [hrows] at ht
  obtain ⟨t₀, ht₀, rfl⟩ := List.mem_map.mp ht
  have hsame : (f t₀).tenantId = t₀.tenantId ∧ (f t₀).userId = t₀.userId := by
    rcases hrevoke t₀ with heq | ⟨now, heq⟩
    · rw [heq]
      exact ⟨rfl, rfl⟩
    · rw [heq]
      exact ⟨rfl, rfl⟩
  exact isSome_revoke hrevoke (h t₀ ht₀ (hsame.1 ▸ htenant) (hsame.2 ▸ huser))

theorem allRevoked_insert {tenantId userId : UUID} {db : AuthDb} {row : RefreshToken}
    (hrow : ¬ (tenantId = row.tenantId ∧ userId = row.userId))
    (h : AllRevoked tenantId userId db) :
    AllRevoked tenantId userId { db with refreshTokens := db.refreshTokens.insert row } := by
  intro t ht htenant huser
  rcases Table.mem_insert_iff.mp ht with hmem | ⟨-, rfl⟩
  · exact h t hmem htenant huser
  · exact absurd ⟨htenant.symm, huser.symm⟩ hrow

theorem revokeSeen_revokes (seen : List UUID) (now : ℤ) (t : RefreshToken) :
    revokeSeen seen now t = t ∨ ∃ now', revokeSeen seen now t = revoke now' t := by
  unfold revokeSeen
  split
  · exact Or.inr ⟨now, rfl⟩
  · exact Or.inl rfl

/-- Every token that is still unrevoked when the UPDATE is committed has to be among those it
has seen. -/
theorem allRevoked_revokeSeen {tenantId userId : UUID} {seen : List UUID} {db db' : AuthDb}
    {now : ℤ} (hrows : db'.refreshTokens.rows = db.refreshTokens.rows.map (revokeSeen seen now))
    (hseen : ∀ id ∈ unrevokedTokens tenantId userId db, id ∈ seen) :
    AllRevoked tenantId userId db' := by
  intro t ht htenant huser
  rw [hrows] at ht
  obtain ⟨t₀, ht₀, rfl⟩ := List.mem_map.mp ht
  by_cases hlive : t₀.revokedAt = none
  · have hsame : t₀.tenantId = tenantId ∧ t₀.userId = userId := by
      rcases revokeSeen_revokes seen now t₀ with heq | ⟨now', heq⟩
      · rw [heq] at htenant huser
        exact ⟨htenant, huser⟩
      · rw [heq] at htenant huser
        exact ⟨htenant, huser⟩
    have hid : t₀.id ∈ seen := by
      refine hseen t₀.id (List.mem_map.mpr ⟨t₀, List.mem_filter.mpr ⟨ht₀, ?_⟩, rfl⟩)
      simp [hsame, hlive]
    unfold revokeSeen
    rw [if_pos ⟨hid, hlive⟩]
    rfl
  · exact isSome_revoke (revokeSeen_revokes seen now) (Option.isSome_iff_ne_none.mpr hlive)

theorem AddsTokens.revoke {tenantId userId : UUID} {w₀ w : AuthDb → AuthDb}
    (h : AddsTokens tenantId userId w₀ w) {g : AuthDb → AuthDb}
    {f : RefreshToken → RefreshToken} (hrevoke : ∀ t, f t = t ∨ ∃ now, f t = revoke now t)
    (husers : ∀ db, (g db).users = db.users)
    (hrows : ∀ db, (g db).refreshTokens.rows = db.refreshTokens.rows.map f) :
    AddsTokens tenantId userId w₀ (g ∘ w) where
  users db := (husers (w db)).trans (h.users db)
  others db t u hother hall := allRevoked_map (hrows (w db)) hrevoke (h.others db t u hother hall)

theorem AddsTokens.insert {tenantId userId : UUID} {w₀ w : AuthDb → AuthDb} {row : RefreshToken}
    (h : AddsTokens tenantId userId w₀ w) (htenant : row.tenantId = tenantId)
    (huser : row.userId = userId) :
    AddsTokens tenantId userId w₀
      ((fun db => { db with refreshTokens := db.refreshTokens.insert row }) ∘ w) where
  users db := h.users db
  others db t u hother hall := by
    refine allRevoked_insert ?_ (h.others db t u hother hall)
    rw [htenant, huser]
    exact hother

/-! How each request ends -/

/-- What a change of the password has read and will do. -/
structure Replaces (env : PasswordEnv) (tenantId userId : UUID) (newPassword : String)
    (inv : AuthDb → Prop) (o : List AuthDb) (w : AuthDb → AuthDb) : Prop where
  found : ∃ db u, inv db ∧ getUser tenantId userId db = some u
  writes : UserWrites userId w
  hash : ∀ (db : AuthDb) u, db.users.find userId = some u →
    ((w db).users.find userId).map (·.passwordHash) = some (env.hashPassword newPassword)
  keeps : ∀ db t u, AllRevoked t u db → AllRevoked t u (w db)
  revokes : ∀ db, TokensSeen tenantId userId o db → AllRevoked tenantId userId (w db)

def AuthRequest.Ends (env : PasswordEnv) (inv : AuthDb → Prop) (o : List AuthDb)
    (w : AuthDb → AuthDb) : AuthRequest → Prop
  | refresh body => ∃ raw row db₀, body.refreshToken = some raw ∧ o.getLast? = some db₀ ∧
      selectToken body.tenantId (env.sha256 (Text.strip raw)) (env.clock 0) db₀ = some row ∧
      row.revokedAt = none ∧ AddsTokens row.tenantId row.userId id w
  | login body => ∃ db₀ u, inv db₀ ∧ o.getLast? = some db₀ ∧ body.user db₀ = some u ∧
      env.verifyPassword body.password u.passwordHash = true ∧
      ∃ w₀, UserWrites u.id w₀ ∧ AddsTokens u.tenantId u.id w₀ w
  | changePassword tenantId userId _ new => Replaces env tenantId userId new inv o w
  | resetPassword claims new => ∃ c, claims = some c ∧ Replaces env c.tenantId c.sub new inv o w

/-- What is carried through the part of a transaction that adds the tokens. -/
def Adding (D : Discipline AuthDb UUID ι) (tenantId userId : UUID) (w₀ : AuthDb → AuthDb)
    (L : Set UUID) (w : AuthDb → AuthDb) (A : AuthDb → Prop) : Prop :=
  Stable D L A ∧ AddsTokens tenantId userId w₀ w

section Sessions
variable {tenantId userId : UUID} {env : ι → PasswordEnv} {req : ι → AuthRequest} {i : ι}

theorem carried_adding {D : Discipline AuthDb UUID ι} {w₀ : AuthDb → AuthDb} :
    Carried D (Adding D tenantId userId w₀) where
  stable h := h.1
  lock _ _ h _ hA := ⟨_, hA, h.1.mono (Set.subset_insert _ _), h.2⟩

/-- The derivation of a request, with what it has read and will write. -/
def EndsAs (tenantId userId : UUID) (env : ι → PasswordEnv) (req : ι → AuthRequest) (i : ι) :
    Post AuthDb UUID AuthError Unit :=
  fun r o _ w _ => r = .ok () →
    (req i).Ends (env i) (sessions tenantId userId env req).inv o w

theorem runs_refresh {body : AuthRefreshRequest} (hreq : req i = .refresh body) :
    Runs (sessions tenantId userId env req) i [] ∅ id (fun _ => True)
      (EndsAs tenantId userId env req i) ((AuthRequest.refresh body).prog (env i)) := by
  have hexchange := runs_exchange (D := sessions tenantId userId env req) (i := i)
    (env i).toAuthEnv body
    (H := fun row => Adding (sessions tenantId userId env req) row.tenantId row.userId id)
    (fun _ => carried_adding) ?_ ?_ ?_
  · unfold AuthRequest.prog refreshSession
    simp only [bind_assoc, pure_bind]
    refine runs_bind hexchange (fun _ _ _ _ _ _ => of_error_eq_ok) ?_
    intro r o L w A hend
    obtain ⟨hadds, hlive, raw, db₀, hraw, hlast, hrow⟩ := hend r.1 r.2 rfl
    refine runs_pure fun _ => ?_
    rw [hreq]
    exact ⟨raw, r.1, db₀, hraw, hlast, hrow, hlive, hadds.2⟩
  · intro row L
    refine ⟨stable_true _, fun _ => rfl, fun db t u _ hall => ?_⟩
    refine allRevoked_map (f := fun t => if t.id = row.id then revoke ((env i).clock 0) t else t)
      rfl ?_ hall
    intro t
    split
    · exact Or.inr ⟨_, rfl⟩
    · exact Or.inl rfl
  · exact fun row new htenant huser _ _ _ h => ⟨h.1, h.2.insert htenant huser⟩
  · exact fun row f hf hrevoke _ _ _ h => ⟨h.1, h.2.revoke hrevoke (fun _ => rfl) fun _ => rfl⟩

theorem runs_updateUser_bind {D : Discipline AuthDb UUID ι} {user : User} {f : User → User}
    {hf : ∀ u, (f u).id = u.id} {k : Unit → AuthTx Unit} {o : List AuthDb} {L : Set UUID}
    {w : AuthDb → AuthDb} {Q : Post AuthDb UUID AuthError Unit}
    (he : ∀ e o L w A, Q (.error e) o L w A)
    (hk : ∀ db, Runs D i (db :: o) (insert user.id L)
      ((fun db => { db with users := db.users.update user.id f hf }) ∘ w) (fun _ => True) Q
      (k ())) :
    Runs D i o L w (fun _ => True) Q (updateUser user f hf >>= k) := by
  unfold updateUser
  simp only [bind_assoc]
  refine runs_acquire_bind (stable_true _) ?_
  refine runs_select_bind (stable_true _) fun db _ _ => ?_
  refine runs_raiseIf_bind (he _ _ _ _ _) fun _ => ?_
  exact runs_modify_bind (hk db)

theorem adds_start (w : AuthDb → AuthDb) (hkeeps : ∀ db t u, AllRevoked t u db →
    AllRevoked t u (w db)) : AddsTokens tenantId userId w w :=
  ⟨fun _ => rfl, fun db t u _ hall => hkeeps db t u hall⟩

theorem carries_newToken {D : Discipline AuthDb UUID ι} (e : AuthEnv) (user : User)
    (w₀ : AuthDb → AuthDb) :
    Carries D i (Adding D user.tenantId user.id w₀) (persistRefreshPair e user) := by
  refine carries_persist carried_adding e user ?_ ?_
  · exact fun row htenant huser _ _ _ h => ⟨h.1, h.2.insert htenant huser⟩
  · exact fun f hf hrevoke _ _ _ h => ⟨h.1, h.2.revoke hrevoke (fun _ => rfl) fun _ => rfl⟩

theorem runs_login {body : AuthLoginRequest} (hreq : req i = .login body) :
    Runs (sessions tenantId userId env req) i [] ∅ id (fun _ => True)
      (EndsAs tenantId userId env req i) ((AuthRequest.login body).prog (env i)) := by
  unfold AuthRequest.prog login
  cases htenant : body.tenantId with
  | none =>
    simp only [htenant]
    exact runs_raise of_error_eq_ok
  | some tid =>
    simp only [htenant, bind_assoc]
    refine runs_select_bind (stable_true _) fun db₀ hinv _ => ?_
    cases hfound : userByEmail tid (Text.lower (Text.strip body.email)) db₀ with
    | none =>
      simp only [id, hfound]
      exact runs_raise of_error_eq_ok
    | some user =>
      simp only [id, hfound, bind_assoc, pure_bind]
      refine runs_raiseIf_bind of_error_eq_ok fun _ => ?_
      refine runs_raiseIf_bind of_error_eq_ok fun hverify => ?_
      have huser : body.user db₀ = some user := by
        unfold AuthLoginRequest.user
        rw [htenant]
        exact hfound
      have hend : ∀ o L w₀, [db₀] <:+ o → UserWrites user.id w₀ →
          (∀ db t u, AllRevoked t u db → AllRevoked t u (w₀ db)) →
          Runs (sessions tenantId userId env req) i o L w₀ (fun _ => True)
            (EndsAs tenantId userId env req i)
            (persistRefreshPair (env i).toAuthEnv user >>= fun _ => pure ()) := by
        intro o L w₀ hfirst hwrites hkeeps
        refine (carries_newToken _ user w₀).runs_bind ⟨stable_true _, adds_start w₀ hkeeps⟩
          (fun _ _ _ _ _ => of_error_eq_ok) ?_
        intro _ o' L' w A hsuffix hadds
        refine runs_pure fun _ => ?_
        rw [hreq]
        refine ⟨db₀, user, hinv, ?_, huser, by simpa using hverify, w₀, hwrites, hadds.2⟩
        obtain ⟨front, rfl⟩ := hfirst.trans hsuffix
        simp
      unfold runIf
      split
      · refine runs_updateUser_bind (fun _ _ _ _ _ => of_error_eq_ok) fun db₁ => ?_
        exact hend _ _ _ (List.suffix_cons ..) (userWrites_hash user _) fun _ _ _ hall => hall
      · exact hend _ _ _ List.suffix_rfl (userWrites_id user.id) fun _ _ _ hall => hall

theorem runs_replacePassword {D : Discipline AuthDb UUID ι} {e : PasswordEnv}
    {tid uid : UUID} {user : User} {newPassword : String} {db₀ : AuthDb} (hinv : D.inv db₀)
    (hfound : getUser tid uid db₀ = some user) :
    Runs D i [db₀] ∅ id (fun _ => True)
      (fun r o _ w _ => r = .ok () → Replaces e tid uid newPassword D.inv o w)
      (replacePassword e tid user newPassword) := by
  have hid : user.id = uid := getUser_id hfound
  subst hid
  unfold replacePassword revokeAllRefreshTokensForUser
  refine runs_updateUser_bind (fun _ _ _ _ _ => of_error_eq_ok) fun db₁ => ?_
  refine runs_select_bind (stable_true _) fun db₂ _ _ => ?_
  have hcarried : Carried D fun L (w : AuthDb → AuthDb) A => Stable D L A ∧ w = fun db => { db with
      users := db.users.update user.id (setPasswordHash (e.hashPassword newPassword))
        (id_setPasswordHash _) } :=
    ⟨fun h => h.1, fun _ _ h _ hA => ⟨_, hA, h.1.mono (Set.subset_insert _ _), h.2⟩⟩
  refine (carries_forEach fun _ => carries_acquire hcarried _).runs_bind ⟨stable_true _, rfl⟩
    (fun _ _ _ _ _ => of_error_eq_ok) ?_
  rintro _ o L w A hsuffix ⟨-, rfl⟩
  refine ⟨fun _ => ?_⟩
  obtain ⟨front, rfl⟩ := hsuffix
  constructor
  · exact ⟨db₀, user, hinv, hfound⟩
  · exact ⟨(userWrites_hash user _).tenant, (userWrites_hash user _).other⟩
  · intro db u hu
    simp only [Function.comp_apply, Table.find_update_self, hu, Option.map_some]
    rfl
  · intro db t u hall
    exact allRevoked_map rfl (revokeSeen_revokes _ _) hall
  · intro db htimely
    have hseen : ∀ id ∈ unrevokedTokens tid user.id db, id ∈ unrevokedTokens tid user.id db₂ := by
      simpa [TokensSeen] using htimely
    exact allRevoked_revokeSeen rfl hseen

theorem runs_changePassword {tid uid : UUID} {current new : String}
    (hreq : req i = .changePassword tid uid current new) :
    Runs (sessions tenantId userId env req) i [] ∅ id (fun _ => True)
      (EndsAs tenantId userId env req i)
      ((AuthRequest.changePassword tid uid current new).prog (env i)) := by
  unfold AuthRequest.prog changePassword
  refine runs_select_bind (stable_true _) fun db₀ hinv _ => ?_
  cases hfound : getUser tid uid db₀ with
  | none =>
    simp only [id, hfound]
    exact runs_raise of_error_eq_ok
  | some user =>
    simp only [id, hfound]
    refine runs_raiseIf_bind of_error_eq_ok fun _ => ?_
    refine runs_raiseIf_bind of_error_eq_ok fun _ => ?_
    refine ⟨(runs_replacePassword hinv hfound).ok.mono ?_⟩
    intro r o L w A h hr
    rw [hreq]
    exact h hr

theorem runs_resetPassword {claims : Option ResetClaims} {new : String}
    (hreq : req i = .resetPassword claims new) :
    Runs (sessions tenantId userId env req) i [] ∅ id (fun _ => True)
      (EndsAs tenantId userId env req i)
      ((AuthRequest.resetPassword claims new).prog (env i)) := by
  unfold AuthRequest.prog resetPassword
  cases claims with
  | none => exact runs_raise of_error_eq_ok
  | some claims =>
    refine runs_select_bind (stable_true _) fun db₀ hinv _ => ?_
    cases hfound : getUser claims.tenantId claims.sub db₀ with
    | none =>
      simp only [id, hfound]
      exact runs_raise of_error_eq_ok
    | some user =>
      simp only [id, hfound]
      refine runs_raiseIf_bind of_error_eq_ok fun _ => ?_
      refine runs_raiseIf_bind of_error_eq_ok fun _ => ?_
      refine ⟨(runs_replacePassword hinv hfound).ok.mono ?_⟩
      intro r o L w A h hr
      rw [hreq]
      exact ⟨claims, rfl, h hr⟩

theorem runs_authRequest (i : ι) :
    Runs (sessions tenantId userId env req) i [] ∅ id (fun _ => True)
      (EndsAs tenantId userId env req i) ((req i).prog (env i)) := by
  cases hreq : req i with
  | refresh body => exact runs_refresh hreq
  | login body => exact runs_login hreq
  | changePassword tid uid current new => exact runs_changePassword hreq
  | resetPassword claims new => exact runs_resetPassword hreq

/-- Every request leaves each user in its tenant. -/
theorem AuthRequest.Ends.writes {e : PasswordEnv} {inv : AuthDb → Prop} {o : List AuthDb}
    {w : AuthDb → AuthDb} {r : AuthRequest} (h : r.Ends e inv o w) : ∃ uid, UserWrites uid w := by
  cases r with
  | refresh body =>
    obtain ⟨raw, row, db₀, -, -, -, -, hadds⟩ := h
    exact ⟨row.userId, (userWrites_id row.userId).adds hadds⟩
  | login body =>
    obtain ⟨db₀, u, -, -, -, -, w₀, hwrites, hadds⟩ := h
    exact ⟨u.id, hwrites.adds hadds⟩
  | changePassword tid uid current new => exact ⟨uid, Replaces.writes h⟩
  | resetPassword claims new =>
    obtain ⟨c, -, hreplaces⟩ := h
    exact ⟨c.sub, hreplaces.writes⟩

theorem commits_endsAs {r : Except AuthError Unit} {o : List AuthDb} {L : Set UUID}
    {w : AuthDb → AuthDb} {A : AuthDb → Prop} (h : EndsAs tenantId userId env req i r o L w A) :
    Commits (sessions tenantId userId env req) i r o L w A := by
  intro a hr db hdb _ _
  obtain ⟨uid, hwrites⟩ := (h hr).writes
  exact ⟨trivial, (hwrites.tenant db userId).trans hdb⟩

/-! What a whole run leaves -/

/-- The state that a change of the user's password leaves: no token of the user is unrevoked, and
the hash is that of a password which one of the requests sets. -/
def SignedOut (tenantId userId : UUID) (env : ι → PasswordEnv) (req : ι → AuthRequest)
    (db : AuthDb) : Prop :=
  AllRevoked tenantId userId db ∧ ∃ j new, (req j).sets tenantId userId = some new ∧
    (db.users.find userId).map (·.passwordHash) = some ((env j).hashPassword new)

theorem SignedOut.keep {db : AuthDb} {w : AuthDb → AuthDb} {uid : UUID}
    (h : SignedOut tenantId userId env req db) (hwrites : UserWrites uid w) (hne : userId ≠ uid)
    (hall : AllRevoked tenantId userId (w db)) : SignedOut tenantId userId env req (w db) := by
  obtain ⟨-, j, new, hsets, hhash⟩ := h
  refine ⟨hall, j, new, hsets, ?_⟩
  rw [hwrites.other db userId hne]
  exact hhash

theorem signedOut_of_replaces {db : AuthDb} {o : List AuthDb} {w : AuthDb → AuthDb} {new : String}
    (hsets : (req i).sets tenantId userId = some new)
    (hdb : (sessions tenantId userId env req).inv db)
    (h : Replaces (env i) tenantId userId new (sessions tenantId userId env req).inv o w)
    (htimely : TokensSeen tenantId userId o db) : SignedOut tenantId userId env req (w db) := by
  obtain ⟨u, hu, -⟩ := Option.map_eq_some_iff.mp hdb
  exact ⟨h.revokes db htimely, i, new, hsets, h.hash db u hu⟩

/-- A change of another user's password, which may have the same tenant. -/
theorem SignedOut.replaced {db : AuthDb} {o : List AuthDb} {w : AuthDb → AuthDb} {tid uid : UUID}
    {e : PasswordEnv} {new : String} (h : SignedOut tenantId userId env req db)
    (hreplaces : Replaces e tid uid new (sessions tenantId userId env req).inv o w)
    (hother : ¬ (tid = tenantId ∧ uid = userId)) : SignedOut tenantId userId env req (w db) := by
  refine h.keep hreplaces.writes ?_ (hreplaces.keeps db _ _ h.1)
  rintro rfl
  obtain ⟨db₀, u, hinv, hfound⟩ := hreplaces.found
  obtain ⟨hfind, htenant⟩ := Option.filter_eq_some_iff.mp hfound
  have hmine : (db₀.users.find userId).map (·.tenantId) = some tenantId := hinv
  rw [hfind] at hmine
  have htid : u.tenantId = tid := by simpa using htenant
  exact hother ⟨htid.symm.trans (Option.some.inj hmine), rfl⟩

theorem signedOut_set {db : AuthDb} {o : List AuthDb} {w : AuthDb → AuthDb} {new : String}
    (hsets : (req i).sets tenantId userId = some new)
    (hend : (req i).Ends (env i) (sessions tenantId userId env req).inv o w)
    (hdb : (sessions tenantId userId env req).inv db) (htimely : (req i).Timely (env i) o db) :
    SignedOut tenantId userId env req (w db) := by
  have hown := hsets
  cases hreq : req i with
  | refresh body =>
    rw [hreq] at hsets
    cases hsets
  | login body =>
    rw [hreq] at hsets
    cases hsets
  | changePassword tid uid current new' =>
    rw [hreq] at hsets hend htimely
    obtain ⟨⟨rfl, rfl⟩, hnew⟩ := Option.ite_none_right_eq_some.mp hsets
    cases hnew
    exact signedOut_of_replaces hown hdb hend htimely
  | resetPassword claims new' =>
    rw [hreq] at hsets hend htimely
    obtain ⟨c, rfl, hreplaces⟩ := hend
    obtain ⟨⟨rfl, rfl⟩, hnew⟩ := Option.ite_none_right_eq_some.mp hsets
    cases hnew
    exact signedOut_of_replaces hown hdb hreplaces htimely

/-- A request that sets no password of the user leaves the tokens revoked: a refresh has
selected none of them, and a login of the user would have verified the new hash. -/
theorem signedOut_other {db : AuthDb} {o : List AuthDb} {w : AuthDb → AuthDb}
    (hverify : ∀ i j p q, (env i).verifyPassword p ((env j).hashPassword q) = true → p = q)
    (hold : ∀ i j body new, req i = .login body → (req j).sets tenantId userId = some new →
      body.password ≠ new)
    (hsets : (req i).sets tenantId userId = none)
    (hend : (req i).Ends (env i) (sessions tenantId userId env req).inv o w)
    (htimely : (req i).Timely (env i) o db) (h : SignedOut tenantId userId env req db) :
    SignedOut tenantId userId env req (w db) := by
  cases hreq : req i with
  | refresh body =>
    rw [hreq] at hend htimely
    obtain ⟨raw, row, db₀, hraw, hlast, hselect, hlive, hadds⟩ := hend
    have hrow : row ∈ db.refreshTokens.rows :=
      (Table.find_eq_some.mp (htimely raw hraw db₀ hlast row hselect)).1
    have hother : ¬ (tenantId = row.tenantId ∧ userId = row.userId) := by
      rintro ⟨htenant, huser⟩
      have hrevoked := h.1 row hrow htenant.symm huser.symm
      simp [hlive] at hrevoked
    obtain ⟨hall, j, new, hnew, hhash⟩ := h
    refine ⟨hadds.others db _ _ hother hall, j, new, hnew, ?_⟩
    rw [hadds.users db]
    exact hhash
  | login body =>
    have hbody := hreq
    rw [hreq] at hend htimely
    obtain ⟨db₀, u, -, hlast, hfound, hpassword, w₀, hwrites, hadds⟩ := hend
    have hne : userId ≠ u.id := by
      rintro rfl
      obtain ⟨-, j, new, hnew, hhash⟩ := h
      have hread := htimely db₀ hlast u hfound
      rw [hhash] at hread
      rw [← Option.some.inj hread] at hpassword
      exact hold i j body new hbody hnew (hverify i j _ _ hpassword)
    exact h.keep (hwrites.adds hadds) hne (hadds.others db _ _ (fun hsame => hne hsame.2) h.1)
  | changePassword tid uid current new =>
    rw [hreq] at hend hsets
    refine h.replaced hend fun hsame => ?_
    simp [AuthRequest.sets, hsame] at hsets
  | resetPassword claims new =>
    rw [hreq] at hend hsets
    obtain ⟨c, rfl, hreplaces⟩ := hend
    refine h.replaced hreplaces fun hsame => ?_
    simp [AuthRequest.sets, hsame] at hsets

/-- In every interleaving of refreshes, logins with old passwords and changes of the password,
as long as each commit finds what its transaction has checked, no token of the user is left
unrevoked from the commit of a change on. -/
theorem password_change_ends_sessions [DecidableEq ι] {db : AuthDb}
    (huser : (db.users.find userId).map (·.tenantId) = some tenantId)
    (hverify : ∀ i j p q, (env i).verifyPassword p ((env j).hashPassword q) = true → p = q)
    (hold : ∀ i j body new, req i = .login body → (req j).sets tenantId userId = some new →
      body.password ≠ new)
    {c : Config AuthDb UUID AuthError Unit ι}
    (hr : Config.Reach (sessions tenantId userId env req).timing
      (Config.start db fun i => (req i).prog (env i)) c) {j : ι} {new : String}
    (hsets : (req j).sets tenantId userId = some new) (hj : c.tx j = .committed ()) :
    AllRevoked tenantId userId c.db := by
  have hrun : (∃ j new, c.results j = some () ∧ (req j).sets tenantId userId = some new) →
      SignedOut tenantId userId env req c.db := by
    refine results_of_reach (Q := EndsAs tenantId userId env req)
      (J := fun m db => (∃ j new, m j = some () ∧ (req j).sets tenantId userId = some new) →
        SignedOut tenantId userId env req db) ?_ ?_ huser ?_ runs_authRequest hr
    · exact fun i r o L w A hend => commits_endsAs hend
    · intro i a o L w A m db hend hdb _ htime _ ih hset
      cases hi : (req i).sets tenantId userId with
      | some new => exact signedOut_set hi (hend rfl) hdb htime
      | none =>
        refine signedOut_other hverify hold hi (hend rfl) htime (ih ?_)
        obtain ⟨j, new, hj, hnew⟩ := hset
        have hij : j ≠ i := by
          rintro rfl
          simp [hi] at hnew
        rw [Function.update_of_ne hij] at hj
        exact ⟨j, new, hj, hnew⟩
    · rintro ⟨j, new, hj, -⟩
      cases hj
  refine (hrun ⟨j, new, ?_, hsets⟩).1
  simp [Config.results, hj, TxState.result]

end Sessions

instance (body : AuthLoginRequest) (reads : List AuthDb) (db : AuthDb) :
    Decidable (PasswordAsRead body reads db) :=
  inferInstanceAs (Decidable (∀ db₀ ∈ reads.getLast?, ∀ u ∈ body.user db₀,
    (db.users.find u.id).map (·.passwordHash) = some u.passwordHash))

theorem tokensSeen_iff (tenantId userId : UUID) (reads : List AuthDb) (db : AuthDb) :
    (∀ seen ∈ reads.reverse[2]?,
        ∀ id ∈ unrevokedTokens tenantId userId db, id ∈ unrevokedTokens tenantId userId seen) ↔
      TokensSeen tenantId userId reads db := by
  unfold TokensSeen
  split
  · next hreads => simp [hreads]
  · next hreads =>
    have hshort : reads.reverse[2]? = none := by
      rcases hlist : reads.reverse with _ | ⟨first, _ | ⟨second, _ | ⟨third, rest⟩⟩⟩
      · rfl
      · rfl
      · rfl
      · exact absurd hlist (hreads first second third rest)
    simp [hshort]

instance (tenantId userId : UUID) (reads : List AuthDb) (db : AuthDb) :
    Decidable (TokensSeen tenantId userId reads db) :=
  decidable_of_iff (∀ seen ∈ reads.reverse[2]?,
    ∀ id ∈ unrevokedTokens tenantId userId db, id ∈ unrevokedTokens tenantId userId seen)
    (tokensSeen_iff tenantId userId reads db)

instance (env : PasswordEnv) : (r : AuthRequest) → (o : List AuthDb) → (db : AuthDb) →
    Decidable (r.Timely env o db)
  | .refresh body, o, db => inferInstanceAs (Decidable (TokenAsSelected env.toAuthEnv body o db))
  | .login body, o, db => inferInstanceAs (Decidable (PasswordAsRead body o db))
  | .changePassword tenantId userId _ _, o, db =>
    inferInstanceAs (Decidable (TokensSeen tenantId userId o db))
  | .resetPassword (some claims) _, o, db =>
    inferInstanceAs (Decidable (TokensSeen claims.tenantId claims.sub o db))
  | .resetPassword none _, _, _ => inferInstanceAs (Decidable True)

instance (tenantId userId : UUID) (env : ι → PasswordEnv) (req : ι → AuthRequest) (i : ι)
    (o : List AuthDb) (db : AuthDb) :
    Decidable ((sessions tenantId userId env req).timing.commit i o db) :=
  inferInstanceAs (Decidable ((req i).Timely (env i) o db))

instance (tenantId userId : UUID) (env : ι → PasswordEnv) (req : ι → AuthRequest) (i : ι)
    (o : List AuthDb) (db : AuthDb) :
    Decidable ((sessions tenantId userId env req).timing.lock i o db) :=
  inferInstanceAs (Decidable True)

/-! A login with the old password next to a change -/

namespace Demo

def passwordEnv (i : Bool) : PasswordEnv where
  toAuthEnv := refreshEnv i
  hashPassword q := "$" ++ q
  verifyPassword p hash := hash = "$" ++ p
  passwordNeedsRehash _ := false

theorem password_of_verify (i j : Bool) (p q : String)
    (h : (passwordEnv i).verifyPassword p ((passwordEnv j).hashPassword q) = true) : p = q := by
  have heq : "$" ++ q = "$" ++ p := by simpa [passwordEnv] using h
  exact (String.append_right_inj _).mp heq.symm

/-- The first one signs in with the password that the second one replaces. -/
def signInAndChange (i : Bool) : AuthRequest :=
  if i then .changePassword 1 5 "old" "new" else .login ⟨some 1, "ada@example.org", "old"⟩

theorem old_of_login (i j : Bool) (body : AuthLoginRequest) (new : String)
    (h : signInAndChange i = .login body) (hsets : (signInAndChange j).sets 1 5 = some new) :
    body.password ≠ new := by
  cases i with
  | true => cases h
  | false =>
    cases h
    cases j with
    | false => cases hsets
    | true =>
      cases hsets
      decide

/-- The login commits before the UPDATE of the change sees the tokens. -/
def loginInTime : List (Event Bool) :=
  .step true :: (List.replicate 6 (.step false) ++ List.replicate 9 (.step true))

/-- The login has verified the old hash when the change commits. -/
def loginTooLate : List (Event Bool) :=
  .step false :: (List.replicate 9 (.step true) ++ List.replicate 5 (.step false))

def unrevoked (c : Config AuthDb UUID AuthError Unit Bool) : List UUID :=
  unrevokedTokens 1 5 c.db

def bothCommitted (c : Config AuthDb UUID AuthError Unit Bool) : Bool :=
  (c.results false).isSome && (c.results true).isSome

end Demo

theorem committed_of_isSome {c : Config AuthDb UUID AuthError Unit Bool} {i : Bool}
    (h : (c.results i).isSome = true) : c.tx i = .committed () := by
  obtain ⟨_, hi⟩ := Option.isSome_iff_exists.mp h
  exact Config.tx_of_results hi

theorem password_change_ends_sessions_demo :
    ∃ c, (Config.start Demo.signedIn fun i =>
          (Demo.signInAndChange i).prog (Demo.passwordEnv i)).runIn
        (sessions 1 5 Demo.passwordEnv Demo.signInAndChange).timing Demo.loginInTime = some c ∧
      c.db.refreshTokens.rows.map (·.id) = [50, 51, 60] ∧ AllRevoked 1 5 c.db := by
  have htokens : ((Config.start Demo.signedIn fun i =>
      (Demo.signInAndChange i).prog (Demo.passwordEnv i)).runIn
        (sessions 1 5 Demo.passwordEnv Demo.signInAndChange).timing Demo.loginInTime).map
      (fun c => (Demo.bothCommitted c, c.db.refreshTokens.rows.map (·.id))) =
        some (true, [50, 51, 60]) := by
    decide
  obtain ⟨c, hrun, hc⟩ := Option.map_eq_some_iff.mp htokens
  obtain ⟨hboth, hids⟩ := Prod.mk.inj hc
  have hj : c.tx true = .committed () :=
    committed_of_isSome ((Bool.and_eq_true _ _).mp hboth).2
  have hsets : (Demo.signInAndChange true).sets 1 5 = some "new" := by decide
  exact ⟨c, hrun, hids, password_change_ends_sessions (by decide) Demo.password_of_verify
    Demo.old_of_login (Config.reach_of_runIn hrun) hsets hj⟩

/-- The login with the old password leaves a token behind the change. -/
theorem login_outlives_password_change :
    (∀ i j p q, (Demo.passwordEnv i).verifyPassword p ((Demo.passwordEnv j).hashPassword q) =
      true → p = q) ∧
    ∃ c : Config AuthDb UUID AuthError Unit Bool,
      Config.Reach .any (Config.start Demo.signedIn fun i =>
        (Demo.signInAndChange i).prog (Demo.passwordEnv i)) c ∧
      c.tx false = .committed () ∧ c.tx true = .committed () ∧
      (Demo.signInAndChange true).sets 1 5 = some "new" ∧ ¬ AllRevoked 1 5 c.db := by
  refine ⟨Demo.password_of_verify, ?_⟩
  have htokens : ((Config.start Demo.signedIn fun i =>
      (Demo.signInAndChange i).prog (Demo.passwordEnv i)).run Demo.loginTooLate).map
      (fun c => (Demo.bothCommitted c, Demo.unrevoked c)) = some (true, [60]) := by
    decide
  obtain ⟨c, hrun, hc⟩ := Option.map_eq_some_iff.mp htokens
  obtain ⟨hboth, hids⟩ := Prod.mk.inj hc
  obtain ⟨hfalse, htrue⟩ := (Bool.and_eq_true _ _).mp hboth
  refine ⟨c, Config.reach_of_run hrun, committed_of_isSome hfalse, committed_of_isSome htrue,
    by decide, fun hall => ?_⟩
  have hid : (60 : UUID) ∈ Demo.unrevoked c := by
    rw [hids]
    decide
  obtain ⟨t, ht, -⟩ := List.mem_map.mp hid
  obtain ⟨hrow, hlive⟩ := List.mem_filter.mp ht
  simp only [Bool.and_eq_true, decide_eq_true_eq, Option.isNone_iff_eq_none] at hlive
  have hrevoked := hall t hrow hlive.1.1 hlive.1.2
  simp [hlive.2] at hrevoked

end OpenPms
