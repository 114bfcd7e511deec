import OpenPms.Basic
import OpenPms.Lib.KeyedTable
import OpenPms.Lib.Interleaving

/-!
Rotation of refresh tokens. A refresh selects the row of the token without a lock,
marks it as revoked and stores a row for the new token, in one transaction. Two
refreshes of one token that both select it before either commits both succeed.
-/
namespace OpenPms

open KeyedTable Transaction Prog Interleaving

structure User where
  id : UUID
  tenantId : UUID
  role : String
  isActive : Bool
  email : String
  passwordHash : String
  deriving DecidableEq

structure RefreshToken where
  id : UUID
  tenantId : UUID
  userId : UUID
  tokenHash : String
  expiresAt : ℤ
  revokedAt : Option ℤ
  createdAt : ℤ
  deriving DecidableEq

structure AuthDb where
  users : Table User.id
  refreshTokens : Table RefreshToken.id

inductive AuthError where
  | authService (detail : String) (statusCode : ℕ)
  | staleData
  | integrityError
  deriving DecidableEq

/-- The rows that are locked are users and tokens, named by their identifiers. -/
abbrev AuthTx := Prog AuthDb UUID AuthError

/-- What a refresh gets from outside: the digest of `hashlib`, the readings of the clock
in their order, the new token and the identifier of its row, and the settings. -/
structure AuthEnv where
  sha256 : String → String
  clock : ℕ → ℤ
  newToken : String
  newId : UUID
  accessTokenTtlMinutes : ℤ
  refreshTokenTtlDays : ℤ

structure AuthRefreshRequest where
  tenantId : UUID
  refreshToken : Option String

/-- The claims that are signed. -/
structure AccessToken where
  sub : UUID
  tenantId : UUID
  role : String
  iat : ℤ
  exp : ℤ
  deriving DecidableEq

structure TokenPairResponse where
  accessToken : AccessToken
  refreshToken : String
  deriving DecidableEq

def issueAccessToken (env : AuthEnv) (now : ℤ) (user : User) : AccessToken :=
  ⟨user.id, user.tenantId, user.role, now, now + env.accessTokenTtlMinutes * 60⟩

def maxActiveRefreshTokens : ℕ := 10

/-- All but the newest active tokens of the user. -/
def staleTokens (now : ℤ) (user : User) (db : AuthDb) : List UUID :=
  let active := db.refreshTokens.rows.filter fun t =>
    t.userId = user.id && t.tenantId = user.tenantId && t.revokedAt.isNone && now < t.expiresAt
  ((active.insertionSort fun t u => u.createdAt ≤ t.createdAt).drop maxActiveRefreshTokens).map
    (·.id)

def revoke (now : ℤ) (t : RefreshToken) : RefreshToken := { t with revokedAt := some now }

theorem id_revoke (now : ℤ) (t : RefreshToken) : (revoke now t).id = t.id := rfl

def AuthDb.revokeToken (db : AuthDb) (id : UUID) (now : ℤ) : AuthDb :=
  { db with refreshTokens := db.refreshTokens.update id (revoke now) (id_revoke now) }

def revokeExcessActiveRefreshTokens (now : ℤ) (user : User) : AuthTx Unit := do
  let stale ← select (staleTokens now user)
  forEach stale acquire
  let revoked (t : RefreshToken) : RefreshToken := if t.id ∈ stale then revoke now t else t
  modify fun db => { db with
    refreshTokens := db.refreshTokens.updateAll revoked fun t => by
      unfold revoked
      split <;> rfl }

def persistRefreshPair (env : AuthEnv) (user : User) : AuthTx String := do
  let row : RefreshToken :=
    { id := env.newId, tenantId := user.tenantId, userId := user.id,
      tokenHash := env.sha256 env.newToken,
      expiresAt := env.clock 2 + env.refreshTokenTtlDays * 86400, revokedAt := none,
      createdAt := env.clock 3 }
  let clash ← select fun db => (db.refreshTokens.find row.id).isSome
  raiseIf (clash = true) .integrityError
  modify fun db => { db with refreshTokens := db.refreshTokens.insert row }
  revokeExcessActiveRefreshTokens (env.clock 4) user
  pure env.newToken

/-- The unrevoked row of a token that has not expired. -/
def selectToken (tenantId : UUID) (digest : String) (now : ℤ) (db : AuthDb) :
    Option RefreshToken :=
  db.refreshTokens.rows.find? fun t =>
    t.tenantId = tenantId && t.tokenHash = digest && t.revokedAt.isNone && now < t.expiresAt

/-- The exchange of a token, together with the row that was exchanged. -/
def exchangeToken (env : AuthEnv) (body : AuthRefreshRequest) :
    AuthTx (RefreshToken × TokenPairResponse) :=
  match body.refreshToken.filter fun raw => Text.strip raw ≠ "" with
  | none => raise (.authService "missing refresh token" 401)
  | some raw => do
    let digest := env.sha256 (Text.strip raw)
    let found ← select (selectToken body.tenantId digest (env.clock 0))
    match found with
    | none => raise (.authService "invalid refresh token" 401)
    | some row => do
      let user ← select fun db => (db.users.find row.userId).filter fun u =>
        u.tenantId = row.tenantId && u.isActive
      match user with
      | none => raise (.authService "user inactive" 401)
      | some user => do
        -- the UPDATE by primary key waits for the row and raises when it is gone
        acquire row.id
        let present ← select fun db => (db.refreshTokens.find row.id).isSome
        raiseIf (present = false) .staleData
        modify fun db => db.revokeToken row.id (env.clock 0)
        let access := issueAccessToken env (env.clock 1) user
        let refreshRaw ← persistRefreshPair env user
        pure (row, ⟨access, refreshRaw⟩)

def refreshSession (env : AuthEnv) (body : AuthRefreshRequest) : AuthTx TokenPairResponse :=
  exchangeToken env body >>= fun r => pure r.2

/-! What a refresh does to the tokens -/

namespace AuthDb

/-- The token is there, and revoked. -/
def Spent (db : AuthDb) (id : UUID) : Prop :=
  ∃ t, db.refreshTokens.find id = some t ∧ t.revokedAt.isSome

/-- Spent tokens stay spent. -/
def Rotates (db db' : AuthDb) : Prop := ∀ id, db.Spent id → db'.Spent id

theorem Rotates.trans {db db' db'' : AuthDb} (h : Rotates db db') (h' : Rotates db' db'') :
    Rotates db db'' :=
  fun id hid => h' id (h id hid)

end AuthDb

theorem spent_revokeToken {db : AuthDb} {id : UUID} {now : ℤ}
    (h : (db.refreshTokens.find id).isSome) : (db.revokeToken id now).Spent id := by
  obtain ⟨t, ht⟩ := Option.isSome_iff_exists.mp h
  refine ⟨revoke now t, ?_, rfl⟩
  unfold AuthDb.revokeToken
  rw [Table.find_update_self, ht, Option.map_some]

theorem rotates_revokeToken (db : AuthDb) (id : UUID) (now : ℤ) :
    db.Rotates (db.revokeToken id now) := by
  rintro id' ⟨t, ht, hrev⟩
  by_cases hid : id' = id
  · subst hid
    exact spent_revokeToken (by simp [ht])
  · refine ⟨t, ?_, hrev⟩
    unfold AuthDb.revokeToken
    rw [Table.find_update_of_ne hid, ht]

theorem rotates_insert (db : AuthDb) (row : RefreshToken) :
    db.Rotates { db with refreshTokens := db.refreshTokens.insert row } := by
  rintro id ⟨t, ht, hrev⟩
  refine ⟨t, ?_, hrev⟩
  cases hnew : db.refreshTokens.find row.id with
  | none => exact Table.find_insert_of_some hnew ht
  | some u =>
    have hmem : row.id ∈ db.refreshTokens.rows.map (·.id) := by
      obtain ⟨hu, hk⟩ := Table.find_eq_some.mp hnew
      exact List.mem_map.mpr ⟨u, hu, hk⟩
    simpa [Table.insert, hmem] using ht

theorem isSome_revoke {f : RefreshToken → RefreshToken}
    (hrevoke : ∀ t, f t = t ∨ ∃ now, f t = revoke now t) {t : RefreshToken}
    (ht : t.revokedAt.isSome) : (f t).revokedAt.isSome := by
  rcases hrevoke t with heq | ⟨now, heq⟩
  · rw [heq]
    exact ht
  · rw [heq]
    rfl

theorem rotates_updateAll (db : AuthDb) (f : RefreshToken → RefreshToken)
    (hf : ∀ t, (f t).id = t.id) (hrevoked : ∀ t, t.revokedAt.isSome → (f t).revokedAt.isSome) :
    db.Rotates { db with refreshTokens := db.refreshTokens.updateAll f hf } := by
  rintro id ⟨t, ht, hrev⟩
  exact ⟨f t, by rw [Table.find_updateAll, ht, Option.map_some], hrevoked t hrev⟩

/-! Any number of refreshes at a time -/

variable {ι : Type}

/-- The token row is, at the commit, as the transaction has selected it. -/
def TokenAsSelected (env : AuthEnv) (body : AuthRefreshRequest) (reads : List AuthDb)
    (db : AuthDb) : Prop :=
  ∀ raw ∈ body.refreshToken, ∀ db₀ ∈ reads.getLast?,
    ∀ row ∈ selectToken body.tenantId (env.sha256 (Text.strip raw)) (env.clock 0) db₀,
      db.refreshTokens.find row.id = some row

/-- The discipline of refreshes whose commits meet the condition. -/
def rotation (env : ι → AuthEnv) (body : ι → AuthRefreshRequest) : Discipline AuthDb UUID ι where
  inv _ := True
  guar _ := AuthDb.Rotates
  timing := ⟨fun _ _ _ => True, fun i o db => TokenAsSelected (env i) (body i) o db⟩

/-- The pending writes revoke the token and keep spent tokens spent. -/
structure Revokes (id : UUID) (w : AuthDb → AuthDb) : Prop where
  rotates : ∀ db : AuthDb, db.Rotates (w db)
  spent : ∀ db : AuthDb, (db.refreshTokens.find id).isSome → (w db).Spent id

theorem Revokes.comp {id : UUID} {w f : AuthDb → AuthDb} (h : Revokes id w)
    (hf : ∀ db : AuthDb, db.Rotates (f db)) : Revokes id (f ∘ w) where
  rotates db := (h.rotates db).trans (hf (w db))
  spent db hid := hf (w db) id (h.spent db hid)

/-- How an exchange ends: the row is the one that its first SELECT found. -/
def Exchanged (env : AuthEnv) (body : AuthRefreshRequest) :
    Post AuthDb UUID AuthError (RefreshToken × TokenPairResponse) :=
  fun r o _ w _ => ∀ row pair, r = .ok (row, pair) → Revokes row.id w ∧ row.revokedAt = none ∧
    ∃ raw db₀, body.refreshToken = some raw ∧ o.getLast? = some db₀ ∧
      selectToken body.tenantId (env.sha256 (Text.strip raw)) (env.clock 0) db₀ = some row

section Rotation
variable {env : ι → AuthEnv} {body : ι → AuthRefreshRequest} {i : ι}

/-- What is carried through the part of an exchange that follows the revocation. -/
def Carrying (D : Discipline AuthDb UUID ι) (id : UUID) (L : Set UUID) (w : AuthDb → AuthDb)
    (A : AuthDb → Prop) : Prop :=
  Stable D L A ∧ Revokes id w

theorem carried_carrying {D : Discipline AuthDb UUID ι} {id : UUID} :
    Carried D (Carrying D id) where
  stable h := h.1
  lock _ _ h _ hA := ⟨_, hA, h.1.mono (Set.subset_insert _ _), h.2⟩

/-- A new token of the user is inserted, and others are revoked. -/
theorem carries_persist {D : Discipline AuthDb UUID ι}
    {H : Set UUID → (AuthDb → AuthDb) → (AuthDb → Prop) → Prop} (hH : Carried D H) (e : AuthEnv)
    (user : User)
    (hinsert : ∀ row : RefreshToken, row.tenantId = user.tenantId → row.userId = user.id →
      ∀ {L w A}, H L w A →
        H L ((fun db => { db with refreshTokens := db.refreshTokens.insert row }) ∘ w) A)
    (hrevoke : ∀ (f : RefreshToken → RefreshToken) (hf : ∀ t, (f t).id = t.id),
      (∀ t, f t = t ∨ ∃ now, f t = revoke now t) → ∀ {L w A}, H L w A →
        H L ((fun db => { db with refreshTokens := db.refreshTokens.updateAll f hf }) ∘ w) A) :
    Carries D i H (persistRefreshPair e user) := by
  unfold persistRefreshPair revokeExcessActiveRefreshTokens
  refine carries_bind (carries_select hH _) fun _ => ?_
  refine carries_bind (carries_raiseIf _) fun _ => ?_
  refine carries_bind (carries_modify (hinsert _ rfl rfl)) fun _ => ?_
  refine carries_bind ?_ fun _ => carries_pure _
  refine carries_bind (carries_select hH _) fun stale => ?_
  refine carries_bind (carries_forEach fun _ => carries_acquire hH _) fun _ => ?_
  refine carries_modify (hrevoke _ _ fun t => ?_)
  split
  · exact Or.inr ⟨_, rfl⟩
  · exact Or.inl rfl

/-- An exchange in any company: what holds of the revocation alone and is kept by the new token
and by further revocations holds of all that the exchange writes. -/
theorem runs_exchange {D : Discipline AuthDb UUID ι} (e : AuthEnv) (body : AuthRefreshRequest)
    {H : RefreshToken → Set UUID → (AuthDb → AuthDb) → (AuthDb → Prop) → Prop}
    (hH : ∀ row, Carried D (H row))
    (hstart : ∀ row L, H row L (fun db => db.revokeToken row.id (e.clock 0)) fun _ => True)
    (hinsert : ∀ row new : RefreshToken, new.tenantId = row.tenantId → new.userId = row.userId →
      ∀ {L w A}, H row L w A →
        H row L ((fun db => { db with refreshTokens := db.refreshTokens.insert new }) ∘ w) A)
    (hrevoke : ∀ row (f : RefreshToken → RefreshToken) (hf : ∀ t, (f t).id = t.id),
      (∀ t, f t = t ∨ ∃ now, f t = revoke now t) → ∀ {L w A}, H row L w A →
        H row L ((fun db => { db with refreshTokens := db.refreshTokens.updateAll f hf }) ∘ w) A) :
    Runs D i [] ∅ id (fun _ => True) (fun r o L w A => ∀ row pair, r = .ok (row, pair) →
      H row L w A ∧ row.revokedAt = none ∧
      ∃ raw db₀, body.refreshToken = some raw ∧ o.getLast? = some db₀ ∧
        selectToken body.tenantId (e.sha256 (Text.strip raw)) (e.clock 0) db₀ = some row)
      (exchangeToken e body) := by
  unfold exchangeToken
  cases hraw : body.refreshToken.filter fun raw => Text.strip raw ≠ "" with
  | none => exact runs_raise nofun
  | some raw =>
    have hbody : body.refreshToken = some raw := (Option.filter_eq_some_iff.mp hraw).1
    refine runs_select_bind (stable_true _) fun db₀ _ _ => ?_
    cases hrow : selectToken body.tenantId (e.sha256 (Text.strip raw)) (e.clock 0) db₀ with
    | none =>
      simp only [id, hrow]
      exact runs_raise nofun
    | some row =>
      simp only [id, hrow]
      refine runs_select_bind (stable_true _) fun db₁ _ _ => ?_
      split
      · exact runs_raise nofun
      · next user huser =>
        obtain ⟨hfound, hsame⟩ := Option.filter_eq_some_iff.mp huser
        simp only [Bool.and_eq_true, decide_eq_true_eq] at hsame
        have hid : user.id = row.userId := (Table.find_eq_some.mp hfound).2
        refine runs_acquire_bind (stable_true _) ?_
        refine runs_select_bind (stable_true _) fun db₂ _ _ => ?_
        refine runs_raiseIf_bind nofun fun _ => ?_
        refine runs_modify_bind ?_
        have hpersist : Carries D i (H row) (persistRefreshPair e user) := by
          refine carries_persist (hH row) e user ?_ (hrevoke row)
          exact fun new htenant hnew => hinsert row new (htenant.trans hsame.1) (hnew.trans hid)
        refine hpersist.runs_bind (hstart row _) (fun _ _ _ _ _ => nofun) ?_
        intro _ o L w A hsuffix hend
        refine runs_pure ?_
        intro row' pair heq
        cases heq
        have hfind := List.find?_some hrow
        simp only [Bool.and_eq_true, Option.isNone_iff_eq_none] at hfind
        refine ⟨hend, hfind.1.2, raw, db₀, hbody, ?_, hrow⟩
        obtain ⟨front, rfl⟩ := hsuffix
        simp

theorem runs_exchangeToken (i : ι) : Runs (rotation env body) i [] ∅ id (fun _ => True)
    (Exchanged (env i) (body i)) (exchangeToken (env i) (body i)) := by
  have hruns := runs_exchange (D := rotation env body) (i := i) (env i) (body i)
    (H := fun row => Carrying (rotation env body) row.id) (fun _ => carried_carrying) ?_ ?_ ?_
  · refine ⟨hruns.ok.mono ?_⟩
    intro r o L w A h row pair hr
    obtain ⟨hcarrying, hlive, hselect⟩ := h row pair hr
    exact ⟨hcarrying.2, hlive, hselect⟩
  · intro row L
    exact ⟨stable_true _, fun db => rotates_revokeToken db _ _, fun db => spent_revokeToken⟩
  · exact fun row new _ _ _ _ _ h => ⟨h.1, h.2.comp fun db => rotates_insert db new⟩
  · intro row f hf hrevoke L w A h
    exact ⟨h.1, h.2.comp fun db => rotates_updateAll db f hf fun t => isSome_revoke hrevoke⟩

/-- No two transactions have exchanged one token, and exchanged tokens are spent. -/
structure SingleUse (m : ι → Option (RefreshToken × TokenPairResponse)) (db : AuthDb) : Prop where
  spent : ∀ i row pair, m i = some (row, pair) → db.Spent row.id
  once : ∀ i j row row' pair pair', m i = some (row, pair) → m j = some (row', pair') →
    row.id = row'.id → i = j

theorem singleUse_commit [DecidableEq ι] {a : RefreshToken × TokenPairResponse} {o : List AuthDb}
    {L : Set UUID} {w : AuthDb → AuthDb} {A : AuthDb → Prop}
    {m : ι → Option (RefreshToken × TokenPairResponse)} {db : AuthDb}
    (hend : Exchanged (env i) (body i) (.ok a) o L w A)
    (htime : TokenAsSelected (env i) (body i) o db) (h : SingleUse m db) :
    SingleUse (Function.update m i (some a)) (w db) := by
  obtain ⟨row, pair⟩ := a
  obtain ⟨hrevokes, hlive, raw, db₀, hraw, hlast, hselect⟩ := hend row pair rfl
  have hfind : db.refreshTokens.find row.id = some row := htime raw hraw db₀ hlast row hselect
  have hother : ∀ j row' pair', m j = some (row', pair') → row'.id ≠ row.id := by
    intro j row' pair' hj hid
    obtain ⟨t, ht, hrev⟩ := h.spent j row' pair' hj
    rw [hid, hfind] at ht
    cases ht
    simp [hlive] at hrev
  constructor
  · intro j row' pair' hj
    by_cases hij : j = i
    · subst hij
      rw [Function.update_self] at hj
      cases hj
      exact hrevokes.spent db (by simp [hfind])
    · rw [Function.update_of_ne hij] at hj
      exact hrevokes.rotates db _ (h.spent j row' pair' hj)
  · intro j k row' row'' pair' pair'' hj hk hid
    by_cases hij : j = i
    · by_cases hik : k = i
      · rw [hij, hik]
      · subst hij
        rw [Function.update_self] at hj
        rw [Function.update_of_ne hik] at hk
        cases hj
        exact absurd hid.symm (hother k row'' pair'' hk)
    · rw [Function.update_of_ne hij] at hj
      by_cases hik : k = i
      · subst hik
        rw [Function.update_self] at hk
        cases hk
        exact absurd hid (hother j row' pair' hj)
      · rw [Function.update_of_ne hik] at hk
        exact h.once j k row' row'' pair' pair'' hj hk hid

/-- Refreshes whose commits find the token as they have selected it exchange every
token at most once, in every interleaving. -/
theorem refresh_tokens_single_use [DecidableEq ι] {db : AuthDb}
    {c : Config AuthDb UUID AuthError (RefreshToken × TokenPairResponse) ι}
    (hr : Config.Reach (rotation env body).timing
      (Config.start db fun i => exchangeToken (env i) (body i)) c) :
    ∀ i j row row' pair pair', c.tx i = .committed (row, pair) →
      c.tx j = .committed (row', pair') → row.id = row'.id → i = j := by
  have hsingle : SingleUse c.results c.db := by
    refine results_of_reach (Q := fun i => Exchanged (env i) (body i)) ?_ ?_ trivial ?_ ?_ hr
    · intro i r o L w A hend a hret db _ _ _
      obtain ⟨row, pair⟩ := a
      exact ⟨(hend row pair hret).1.rotates db, trivial⟩
    · intro i a o L w A m db hend _ _ htime _ h
      exact singleUse_commit hend htime h
    · exact ⟨fun _ _ _ h => absurd h (by simp), fun _ _ _ _ _ _ h => absurd h (by simp)⟩
    · exact runs_exchangeToken
  intro i j row row' pair pair' hi hj hid
  refine hsingle.once i j row row' pair pair' ?_ ?_ hid
  · simp [Config.results, hi, TxState.result]
  · simp [Config.results, hj, TxState.result]

end Rotation

instance (env : AuthEnv) (body : AuthRefreshRequest) (reads : List AuthDb) (db : AuthDb) :
    Decidable (TokenAsSelected env body reads db) :=
  inferInstanceAs (Decidable (∀ raw ∈ body.refreshToken, ∀ db₀ ∈ reads.getLast?,
    ∀ row ∈ selectToken body.tenantId (env.sha256 (Text.strip raw)) (env.clock 0) db₀,
      db.refreshTokens.find row.id = some row))

instance (env : ι → AuthEnv) (body : ι → AuthRefreshRequest) (i : ι) (o : List AuthDb)
    (db : AuthDb) : Decidable ((rotation env body).timing.commit i o db) :=
  inferInstanceAs (Decidable (TokenAsSelected (env i) (body i) o db))

instance (env : ι → AuthEnv) (body : ι → AuthRefreshRequest) (i : ι) (o : List AuthDb)
    (db : AuthDb) : Decidable ((rotation env body).timing.lock i o db) :=
  inferInstanceAs (Decidable True)

namespace Demo

/-- One user with two tokens. -/
def signedIn : AuthDb where
  users := ⟨[⟨5, 1, "owner", true, "ada@example.org", "$old"⟩], by decide⟩
  refreshTokens := ⟨[⟨50, 1, 5, "h50", 2000, none, 10⟩, ⟨51, 1, 5, "h51", 2000, none, 20⟩],
    by decide⟩

def refreshEnv (i : Bool) : AuthEnv where
  sha256 raw := "h" ++ raw
  clock n := 100 + n
  newToken := if i then "61" else "60"
  newId := if i then 61 else 60
  accessTokenTtlMinutes := 15
  refreshTokenTtlDays := 30

def refreshSame (_ : Bool) : AuthRefreshRequest := ⟨1, some "50"⟩

def refreshBoth (i : Bool) : AuthRefreshRequest := ⟨1, some (if i then "51" else "50")⟩

/-- Both select their token before either commits. -/
def overlapping : List (Event Bool) :=
  .step false :: (List.replicate 10 (.step true) ++ List.replicate 9 (.step false))

def exchangedRow (t : TxState AuthDb UUID AuthError (RefreshToken × TokenPairResponse)) :
    Option UUID :=
  t.result.map (·.1.id)

end Demo

theorem exists_of_exchangedRow
    {t : TxState AuthDb UUID AuthError (RefreshToken × TokenPairResponse)} {id : UUID}
    (h : Demo.exchangedRow t = some id) : ∃ row pair, t = .committed (row, pair) ∧ row.id = id := by
  cases t with
  | committed a => exact ⟨a.1, a.2, rfl, Option.some.inj h⟩
  | running p w o => cases h
  | aborted => cases h

/-- Two tokens, exchanged at the same time. -/
theorem refresh_tokens_single_use_demo :
    ∃ c, (Config.start Demo.signedIn fun i =>
          exchangeToken (Demo.refreshEnv i) (Demo.refreshBoth i)).runIn
        (rotation Demo.refreshEnv Demo.refreshBoth).timing Demo.overlapping = some c ∧
      Demo.exchangedRow (c.tx false) = some 50 ∧ Demo.exchangedRow (c.tx true) = some 51 ∧
      ∀ i j row row' pair pair', c.tx i = .committed (row, pair) →
        c.tx j = .committed (row', pair') → row.id = row'.id → i = j := by
  have hrows : ((Config.start Demo.signedIn fun i =>
      exchangeToken (Demo.refreshEnv i) (Demo.refreshBoth i)).runIn
        (rotation Demo.refreshEnv Demo.refreshBoth).timing Demo.overlapping).map
      (fun c => (Demo.exchangedRow (c.tx false), Demo.exchangedRow (c.tx true))) =
        some (some 50, some 51) := by
    decide
  obtain ⟨c, hrun, hc⟩ := Option.map_eq_some_iff.mp hrows
  obtain ⟨hfalse, htrue⟩ := Prod.mk.inj hc
  exact ⟨c, hrun, hfalse, htrue, refresh_tokens_single_use (Config.reach_of_runIn hrun)⟩

/-- One token, exchanged twice. -/
theorem token_exchanged_twice :
    ∃ c : Config AuthDb UUID AuthError (RefreshToken × TokenPairResponse) Bool,
      Config.Reach .any (Config.start Demo.signedIn fun i =>
        exchangeToken (Demo.refreshEnv i) (Demo.refreshSame i)) c ∧
      ∃ row row' pair pair', c.tx false = .committed (row, pair) ∧
        c.tx true = .committed (row', pair') ∧ row.id = row'.id := by
  have hrows : ((Config.start Demo.signedIn fun i =>
      exchangeToken (Demo.refreshEnv i) (Demo.refreshSame i)).run Demo.overlapping).map
      (fun c => (Demo.exchangedRow (c.tx false), Demo.exchangedRow (c.tx true))) =
        some (some 50, some 50) := by
    decide
  obtain ⟨c, hrun, hc⟩ := Option.map_eq_some_iff.mp hrows
  obtain ⟨hfalse, htrue⟩ := Prod.mk.inj hc
  obtain ⟨row, pair, htx, hid⟩ := exists_of_exchangedRow hfalse
  obtain ⟨row', pair', htx', hid'⟩ := exists_of_exchangedRow htrue
  exact ⟨c, Config.reach_of_run hrun, row, row', pair, pair', htx, htx', hid.trans hid'.symm⟩

end OpenPms
