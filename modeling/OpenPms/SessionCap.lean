import OpenPms.PasswordChange
import OpenPms.Lib.Sorting

/-!
The cap on the sessions of a user. An issue stores the row of the new token and then revokes
what the user has beyond the ten newest tokens that are active.
-/
namespace OpenPms

open KeyedTable Transaction Prog Surplus

def logout (env : AuthEnv) (tenantId : UUID) (rawToken : String) : AuthTx Unit := do
  let digest := env.sha256 (Text.strip rawToken)
  let seen ← select fun db => (db.refreshTokens.rows.filter fun t =>
    t.tenantId = tenantId && t.tokenHash = digest && t.revokedAt.isNone).map (·.id)
  forEach seen acquire
  modify fun db => { db with
    refreshTokens := db.refreshTokens.updateAll (revokeSeen seen (env.clock 0))
      (id_revokeSeen seen (env.clock 0)) }

inductive SessionRequest where
  | login (body : AuthLoginRequest)
  | refresh (body : AuthRefreshRequest)
  | logout (tenantId : UUID) (rawToken : String)

/-- Whom a token is issued to, and the row that a refresh has exchanged for it. -/
structure Issued where
  tenantId : UUID
  userId : UUID
  exchanged : Option UUID
  deriving DecidableEq

def SessionRequest.prog (env : PasswordEnv) : SessionRequest → AuthTx (Option Issued)
  | login body =>
    OpenPms.login env body >>= fun r => pure (some ⟨r.user.tenantId, r.user.id, none⟩)
  | refresh body =>
    exchangeToken env.toAuthEnv body >>= fun r =>
      pure (some ⟨r.1.tenantId, r.1.userId, some r.1.id⟩)
  | logout tenantId rawToken => OpenPms.logout env.toAuthEnv tenantId rawToken >>= fun _ => pure none

/-- The user's tokens that are neither revoked nor expired. -/
def activeTokens (now : ℤ) (tenantId userId : UUID) (db : AuthDb) : List RefreshToken :=
  db.refreshTokens.rows.filter fun t =>
    t.userId = userId && t.tenantId = tenantId && t.revokedAt.isNone && now < t.expiresAt

theorem mem_activeTokens {now : ℤ} {tenantId userId : UUID} {db : AuthDb} {t : RefreshToken} :
    t ∈ activeTokens now tenantId userId db ↔
      t ∈ db.refreshTokens.rows ∧ t.userId = userId ∧ t.tenantId = tenantId ∧
        t.revokedAt = none ∧ now < t.expiresAt := by
  simp [activeTokens, and_assoc]

/-! What the statements of an issue do -/

theorem id_ifStale (stale : List UUID) (now : ℤ) (t : RefreshToken) :
    (if t.id ∈ stale then revoke now t else t).id = t.id := by
  split <;> rfl

/-- The tables after the UPDATE of the cap. -/
def AuthDb.capped (db : AuthDb) (now : ℤ) (user : User) : AuthDb :=
  { db with
    refreshTokens := db.refreshTokens.updateAll
      (fun t => if t.id ∈ staleTokens now user db then revoke now t else t)
      (id_ifStale (staleTokens now user db) now) }

def newToken (env : AuthEnv) (user : User) : RefreshToken :=
  { id := env.newId, tenantId := user.tenantId, userId := user.id,
    tokenHash := env.sha256 env.newToken,
    expiresAt := env.clock 2 + env.refreshTokenTtlDays * 86400, revokedAt := none,
    createdAt := env.clock 3 }

def AuthDb.withToken (db : AuthDb) (row : RefreshToken) : AuthDb :=
  { db with refreshTokens := db.refreshTokens.insert row }

theorem exec_forEach_acquire {σ κ ε : Type} (keys : List κ) (s : σ) :
    (forEach keys acquire : Prog σ κ ε Unit).exec s = (.ok (), s) := by
  induction keys with
  | nil => rfl
  | cons key rest ih =>
    unfold forEach
    rw [exec_bind, exec_acquire]
    exact ih

theorem exec_revokeExcess (now : ℤ) (user : User) (db : AuthDb) :
    (revokeExcessActiveRefreshTokens now user).exec db = (.ok (), db.capped now user) := by
  unfold revokeExcessActiveRefreshTokens
  rw [exec_bind, exec_select]
  simp only [exec_bind, exec_forEach_acquire, exec_modify]
  rfl

theorem exec_persistRefreshPair_ok {env : AuthEnv} {user : User} {db db' : AuthDb} {raw : String}
    (h : (persistRefreshPair env user).exec db = (.ok raw, db')) :
    db.refreshTokens.find env.newId = none ∧
      db' = (db.withToken (newToken env user)).capped (env.clock 4) user := by
  unfold persistRefreshPair at h
  obtain ⟨clash, db₁, hclash, h⟩ := exec_bind_ok.mp h
  cases hclash
  obtain ⟨_, db₁, hraise, h⟩ := exec_bind_ok.mp h
  obtain ⟨hfree, rfl⟩ := exec_raiseIf_ok.mp hraise
  obtain ⟨_, db₁, hinsert, h⟩ := exec_bind_ok.mp h
  cases hinsert
  obtain ⟨_, db₁, hcap, h⟩ := exec_bind_ok.mp h
  rw [exec_revokeExcess] at hcap
  cases hcap
  cases h
  exact ⟨by simpa using hfree, rfl⟩

theorem refreshTokens_updateUser {user : User} {f : User → User} {hf : ∀ u, (f u).id = u.id}
    {db db' : AuthDb} {r : Unit} (h : (updateUser user f hf).exec db = (.ok r, db')) :
    db'.refreshTokens = db.refreshTokens := by
  have hkeeps : Keeps AuthDb.refreshTokens (updateUser user f hf) :=
    keeps_bind (keeps_acquire _) fun _ => keeps_bind (keeps_select _) fun _ =>
      keeps_bind (keeps_raiseIf _) fun _ => keeps_modify fun _ => rfl
  exact hkeeps.eq h

theorem exec_login_ok {env : PasswordEnv} {body : AuthLoginRequest} {r : AuthLoginResponse}
    {db db' : AuthDb} (h : (login env body).exec db = (.ok r, db')) :
    ∃ db₁ : AuthDb, db₁.refreshTokens = db.refreshTokens ∧
      db₁.refreshTokens.find env.newId = none ∧
      db' = (db₁.withToken (newToken env.toAuthEnv r.user)).capped (env.clock 4) r.user := by
  unfold login at h
  cases htenant : body.tenantId with
  | none => simp [htenant] at h
  | some tid =>
    simp only [htenant] at h
    obtain ⟨found, db₁, hfound, h⟩ := exec_bind_ok.mp h
    cases hfound
    cases hfound : userByEmail tid (Text.lower (Text.strip body.email)) db with
    | none => simp [hfound] at h
    | some user =>
      simp only [hfound] at h
      obtain ⟨_, db₁, hactive, h⟩ := exec_bind_ok.mp h
      obtain ⟨-, rfl⟩ := exec_raiseIf_ok.mp hactive
      obtain ⟨_, db₁, hverify, h⟩ := exec_bind_ok.mp h
      obtain ⟨-, rfl⟩ := exec_raiseIf_ok.mp hverify
      obtain ⟨_, db₁, hrehash, h⟩ := exec_bind_ok.mp h
      obtain ⟨raw, db₂, hpersist, h⟩ := exec_bind_ok.mp h
      cases h
      obtain ⟨hfree, heq⟩ := exec_persistRefreshPair_ok hpersist
      refine ⟨db₁, ?_, hfree, heq⟩
      rcases exec_runIf_ok.mp hrehash with ⟨-, hupdate⟩ | ⟨-, rfl⟩
      · exact refreshTokens_updateUser hupdate
      · rfl

theorem exec_exchangeToken_ok {env : AuthEnv} {body : AuthRefreshRequest}
    {r : RefreshToken × TokenPairResponse} {db db' : AuthDb}
    (h : (exchangeToken env body).exec db = (.ok r, db')) :
    ∃ user : User, user.id = r.1.userId ∧ user.tenantId = r.1.tenantId ∧
      (db.revokeToken r.1.id (env.clock 0)).refreshTokens.find env.newId = none ∧
      db' = ((db.revokeToken r.1.id (env.clock 0)).withToken (newToken env user)).capped
        (env.clock 4) user := by
  unfold exchangeToken at h
  split at h
  · simp at h
  · next raw _ =>
    obtain ⟨found, db₁, hfound, h⟩ := exec_bind_ok.mp h
    cases hfound
    cases hfound : selectToken body.tenantId (env.sha256 (Text.strip raw)) (env.clock 0) db with
    | none => simp [hfound] at h
    | some row =>
      simp only [hfound] at h
      obtain ⟨owner, db₁, howner, h⟩ := exec_bind_ok.mp h
      cases howner
      cases howner : (db.users.find row.userId).filter fun u =>
          u.tenantId = row.tenantId && u.isActive with
      | none => simp [howner] at h
      | some user =>
        simp only [howner] at h
        obtain ⟨_, db₁, hlock, h⟩ := exec_bind_ok.mp h
        cases hlock
        obtain ⟨_, db₁, hpresent, h⟩ := exec_bind_ok.mp h
        cases hpresent
        obtain ⟨_, db₁, hraise, h⟩ := exec_bind_ok.mp h
        obtain ⟨-, rfl⟩ := exec_raiseIf_ok.mp hraise
        obtain ⟨_, db₁, hrevoke, h⟩ := exec_bind_ok.mp h
        cases hrevoke
        obtain ⟨refreshRaw, db₂, hpersist, h⟩ := exec_bind_ok.mp h
        cases h
        obtain ⟨hfree, heq⟩ := exec_persistRefreshPair_ok hpersist
        obtain ⟨hfind, htenant⟩ := Option.filter_eq_some_iff.mp howner
        simp only [Bool.and_eq_true, decide_eq_true_eq] at htenant
        exact ⟨user, (Table.find_eq_some.mp hfind).2, htenant.1, hfree, heq⟩

/-- The tables with the row that a refresh exchanges marked as revoked. -/
def AuthDb.exchanged (db : AuthDb) (now : ℤ) : Option UUID → AuthDb
  | none => db
  | some id => db.revokeToken id now

/-- What an issue comes to: the new row over the tables without the exchanged token, and
the cap over both. -/
theorem exec_issue_ok {env : PasswordEnv} {req : SessionRequest} {issued : Issued}
    {db db' : AuthDb} (h : (req.prog env).exec db = (.ok (some issued), db')) :
    ∃ (user : User) (db₁ : AuthDb), user.id = issued.userId ∧ user.tenantId = issued.tenantId ∧
      db₁.refreshTokens = (db.exchanged (env.clock 0) issued.exchanged).refreshTokens ∧
      db₁.refreshTokens.find env.newId = none ∧
      db' = (db₁.withToken (newToken env.toAuthEnv user)).capped (env.clock 4) user := by
  cases req with
  | login body =>
    obtain ⟨r, db₁, hlogin, hret⟩ := exec_bind_ok.mp h
    cases hret
    obtain ⟨db₂, htokens, hfree, heq⟩ := exec_login_ok hlogin
    exact ⟨r.user, db₂, rfl, rfl, htokens, hfree, heq⟩
  | refresh body =>
    obtain ⟨r, db₁, hexchange, hret⟩ := exec_bind_ok.mp h
    cases hret
    obtain ⟨user, hid, htenant, hfree, heq⟩ := exec_exchangeToken_ok hexchange
    exact ⟨user, _, hid, htenant, rfl, hfree, heq⟩
  | logout tenantId rawToken =>
    obtain ⟨_, db₁, -, hret⟩ := exec_bind_ok.mp h
    cases hret

/-! What the cap revokes -/

section Cap

variable {now : ℤ} {user : User} {db : AuthDb}

theorem staleTokens_eq (now : ℤ) (user : User) (db : AuthDb) :
    staleTokens now user db = (surplus RefreshToken.createdAt maxActiveRefreshTokens
      (activeTokens now user.tenantId user.id db)).map (·.id) := rfl

theorem nodup_rows (db : AuthDb) : db.refreshTokens.rows.Nodup :=
  db.refreshTokens.nodup.of_map _

theorem nodup_activeTokens (now : ℤ) (tenantId userId : UUID) (db : AuthDb) :
    (activeTokens now tenantId userId db).Nodup :=
  (nodup_rows db).filter _

theorem row_of_id {t u : RefreshToken} (ht : t ∈ db.refreshTokens.rows)
    (hu : u ∈ db.refreshTokens.rows) (hid : t.id = u.id) : t = u :=
  List.inj_on_of_nodup_map db.refreshTokens.nodup ht hu hid

theorem mem_staleTokens {t : RefreshToken} (ht : t ∈ db.refreshTokens.rows) :
    t.id ∈ staleTokens now user db ↔ t ∈ surplus RefreshToken.createdAt maxActiveRefreshTokens
      (activeTokens now user.tenantId user.id db) := by
  rw [staleTokens_eq, List.mem_map]
  constructor
  · rintro ⟨u, hu, hid⟩
    have hrow : u ∈ db.refreshTokens.rows := (mem_activeTokens.mp (mem_of_mem_surplus hu)).1
    exact row_of_id ht hrow hid.symm ▸ hu
  · intro hs
    exact ⟨t, hs, rfl⟩

/-- What stays active is what was active, without the surplus. -/
theorem activeTokens_capped : activeTokens now user.tenantId user.id (db.capped now user)
    = (activeTokens now user.tenantId user.id db).filter fun t =>
      t ∉ surplus RefreshToken.createdAt maxActiveRefreshTokens
        (activeTokens now user.tenantId user.id db) := by
  let active (t : RefreshToken) : Bool := t.userId = user.id && t.tenantId = user.tenantId &&
    t.revokedAt.isNone && now < t.expiresAt
  let cap (t : RefreshToken) := if t.id ∈ staleTokens now user db then revoke now t else t
  have hactive : ∀ t ∈ db.refreshTokens.rows, (active ∘ cap) t
      = (decide (t ∉ surplus RefreshToken.createdAt maxActiveRefreshTokens
          (activeTokens now user.tenantId user.id db)) && active t) := by
    intro t ht
    by_cases hstale : t.id ∈ staleTokens now user db
    · have hs := (mem_staleTokens ht).mp hstale
      simp [active, cap, hstale, hs, revoke]
    · have hs : t ∉ surplus RefreshToken.createdAt maxActiveRefreshTokens
          (activeTokens now user.tenantId user.id db) :=
        fun hs => hstale ((mem_staleTokens ht).mpr hs)
      simp only [cap, Function.comp_apply, hstale, if_false, hs, not_false_iff, decide_true,
        Bool.true_and]
  have hcap : ∀ t ∈ db.refreshTokens.rows.filter (active ∘ cap), cap t = t := by
    intro t ht
    obtain ⟨hrow, hkept⟩ := List.mem_filter.mp ht
    rw [hactive t hrow, Bool.and_eq_true, decide_eq_true_eq] at hkept
    exact if_neg fun hstale => hkept.1 ((mem_staleTokens hrow).mp hstale)
  calc (db.refreshTokens.rows.map cap).filter active
      = (db.refreshTokens.rows.filter (active ∘ cap)).map cap := List.filter_map
    _ = db.refreshTokens.rows.filter (active ∘ cap) := by
        rw [List.map_congr_left hcap, List.map_id']
    _ = (db.refreshTokens.rows.filter active).filter fun t =>
          t ∉ surplus RefreshToken.createdAt maxActiveRefreshTokens
            (activeTokens now user.tenantId user.id db) := by
        rw [List.filter_filter, List.filter_congr hactive]

/-- A row that the cap has revoked was one of the surplus. -/
theorem mem_surplus_of_capped {t t' : RefreshToken} (ht : t ∈ db.refreshTokens.rows)
    (hlive : t.revokedAt = none) (ht' : t' ∈ (db.capped now user).refreshTokens.rows)
    (hid : t'.id = t.id) (hrevoked : t'.revokedAt ≠ none) :
    t ∈ surplus RefreshToken.createdAt maxActiveRefreshTokens
      (activeTokens now user.tenantId user.id db) := by
  obtain ⟨u, hu, rfl⟩ := List.mem_map.mp ht'
  have hut : u = t := row_of_id hu ht ((id_ifStale _ now u).symm.trans hid)
  subst hut
  by_contra hs
  have hstale : u.id ∉ staleTokens now user db := fun hstale => hs ((mem_staleTokens hu).mp hstale)
  rw [if_neg hstale] at hrevoked
  exact hrevoked hlive

end Cap

/-! One issue after the other -/

/-- The user's tokens have been created at different times. -/
def DistinctTimes (tenantId userId : UUID) (db : AuthDb) : Prop :=
  ∀ t ∈ db.refreshTokens.rows, ∀ u ∈ db.refreshTokens.rows,
    t.tenantId = tenantId → t.userId = userId → u.tenantId = tenantId → u.userId = userId →
    t.createdAt = u.createdAt → t = u

/-- A token of the request would be newer than every token of the user. -/
def Newer (env : AuthEnv) (tenantId userId : UUID) (db : AuthDb) : Prop :=
  ∀ t ∈ db.refreshTokens.rows, t.tenantId = tenantId → t.userId = userId →
    t.createdAt < env.clock 3

/-- Each row is one of the old rows, as far as its origin goes. -/
def SameTokens (db db' : AuthDb) : Prop :=
  ∀ t' ∈ db'.refreshTokens.rows, ∃ t ∈ db.refreshTokens.rows,
    t.id = t'.id ∧ t.tenantId = t'.tenantId ∧ t.userId = t'.userId ∧ t.createdAt = t'.createdAt

theorem sameTokens_map {db db' : AuthDb} {f : RefreshToken → RefreshToken}
    (heq : db'.refreshTokens.rows = db.refreshTokens.rows.map f)
    (hcols : ∀ t, t.id = (f t).id ∧ t.tenantId = (f t).tenantId ∧ t.userId = (f t).userId ∧
      t.createdAt = (f t).createdAt) : SameTokens db db' := by
  intro t' ht'
  rw [heq] at ht'
  obtain ⟨t, ht, rfl⟩ := List.mem_map.mp ht'
  exact ⟨t, ht, hcols t⟩

theorem sameTokens_of_eq {db db' : AuthDb} (heq : db'.refreshTokens = db.refreshTokens) :
    SameTokens db db' := by
  intro t' ht'
  rw [heq] at ht'
  exact ⟨t', ht', rfl, rfl, rfl, rfl⟩

theorem sameTokens_exchanged {db db' : AuthDb} {now : ℤ} {id : Option UUID}
    (heq : db'.refreshTokens = (db.exchanged now id).refreshTokens) : SameTokens db db' := by
  cases id with
  | none => exact sameTokens_of_eq heq
  | some id =>
    refine sameTokens_map (congrArg Table.rows heq) fun t => ?_
    split <;> exact ⟨rfl, rfl, rfl, rfl⟩

theorem sameTokens_capped (db : AuthDb) (now : ℤ) (user : User) :
    SameTokens db (db.capped now user) := by
  refine sameTokens_map rfl fun t => ?_
  split <;> exact ⟨rfl, rfl, rfl, rfl⟩

section Times

variable {tenantId userId : UUID} {db db' : AuthDb}

theorem DistinctTimes.same (h : DistinctTimes tenantId userId db) (hsame : SameTokens db db') :
    DistinctTimes tenantId userId db' := by
  intro t' ht' u' hu' htenant huser htenant' huser' htime
  obtain ⟨t, ht, hid, htt, htu, htc⟩ := hsame t' ht'
  obtain ⟨u, hu, hid', hut, huu, huc⟩ := hsame u' hu'
  have htu : t = u := h t ht u hu (htt.trans htenant) (htu.trans huser) (hut.trans htenant')
    (huu.trans huser') (by omega)
  subst htu
  exact row_of_id ht' hu' (hid.symm.trans hid')

theorem Newer.same {env : AuthEnv} (h : Newer env tenantId userId db)
    (hsame : SameTokens db db') : Newer env tenantId userId db' := by
  intro t' ht' htenant huser
  obtain ⟨t, ht, -, htt, htu, htc⟩ := hsame t' ht'
  have hlt := h t ht (htt.trans htenant) (htu.trans huser)
  omega

theorem DistinctTimes.withToken {env : AuthEnv} {user : User}
    (h : DistinctTimes tenantId userId db) (hnewer : Newer env tenantId userId db)
    (hfree : db.refreshTokens.find env.newId = none) :
    DistinctTimes tenantId userId (db.withToken (newToken env user)) := by
  intro t ht u hu htenant huser htenant' huser' htime
  have hnew : (newToken env user).createdAt = env.clock 3 := rfl
  rcases (Table.mem_insert (v := newToken env user) hfree).mp ht with ht | rfl
  · rcases (Table.mem_insert (v := newToken env user) hfree).mp hu with hu | rfl
    · exact h t ht u hu htenant huser htenant' huser' htime
    · have hlt := hnewer t ht htenant huser
      omega
  · rcases (Table.mem_insert (v := newToken env user) hfree).mp hu with hu | rfl
    · have hlt := hnewer u hu htenant' huser'
      omega
    · rfl

theorem DistinctTimes.issue {env : PasswordEnv} {req : SessionRequest} {issued : Issued}
    (h : DistinctTimes tenantId userId db) (hnewer : Newer env.toAuthEnv tenantId userId db)
    (hexec : (req.prog env).exec db = (.ok (some issued), db')) :
    DistinctTimes tenantId userId db' := by
  obtain ⟨user, db₁, -, -, htokens, hfree, rfl⟩ := exec_issue_ok hexec
  have hsame := sameTokens_exchanged htokens
  exact ((h.same hsame).withToken (hnewer.same hsame) hfree).same (sameTokens_capped _ _ _)

theorem sameTokens_logout {env : AuthEnv} {tid : UUID} {raw : String} {r : Unit}
    (h : (logout env tid raw).exec db = (.ok r, db')) : SameTokens db db' := by
  unfold logout at h
  obtain ⟨seen, db₁, hseen, h⟩ := exec_bind_ok.mp h
  cases hseen
  obtain ⟨_, db₁, hlocks, h⟩ := exec_bind_ok.mp h
  rw [exec_forEach_acquire] at hlocks
  cases hlocks
  cases h
  refine sameTokens_map rfl fun t => ?_
  unfold revokeSeen
  split <;> exact ⟨rfl, rfl, rfl, rfl⟩

/-- The creation times stay distinct, whether the request is answered or rolled back. -/
theorem DistinctTimes.transact {env : PasswordEnv} (h : DistinctTimes tenantId userId db)
    (hnewer : Newer env.toAuthEnv tenantId userId db) (req : SessionRequest) :
    DistinctTimes tenantId userId ((req.prog env).transact db) := by
  refine transact_induction (R := fun _ db' => DistinctTimes tenantId userId db') _ h ?_
  intro r db' hexec
  cases r with
  | some issued => exact h.issue hnewer hexec
  | none =>
    cases req with
    | login body =>
      obtain ⟨_, _, -, hret⟩ := exec_bind_ok.mp hexec
      cases hret
    | refresh body =>
      obtain ⟨_, _, -, hret⟩ := exec_bind_ok.mp hexec
      cases hret
    | logout tid raw =>
      obtain ⟨_, _, hlogout, hret⟩ := exec_bind_ok.mp hexec
      cases hret
      exact h.same (sameTokens_logout hlogout)

end Times

/-- The states between requests that are served one at a time, each issue with a creation
time of its own after those of the user's tokens. -/
inductive SessionRun (tenantId userId : UUID) (db₀ : AuthDb) : AuthDb → Prop
  | start : SessionRun tenantId userId db₀ db₀
  | step {db : AuthDb} (h : SessionRun tenantId userId db₀ db) (env : PasswordEnv)
      (hnewer : Newer env.toAuthEnv tenantId userId db) (req : SessionRequest) :
      SessionRun tenantId userId db₀ ((req.prog env).transact db)

theorem SessionRun.distinct {tenantId userId : UUID} {db₀ db : AuthDb}
    (h : SessionRun tenantId userId db₀ db) (h₀ : DistinctTimes tenantId userId db₀) :
    DistinctTimes tenantId userId db := by
  induction h with
  | start => exact h₀
  | step _ env hnewer req ih => exact ih.transact hnewer req

/-- What holds right after an issue, at the reading of the clock that the cap takes. -/
structure CapHolds (env : PasswordEnv) (issued : Issued) (db db' : AuthDb) : Prop where
  atMost : (activeTokens (env.clock 4) issued.tenantId issued.userId db').length
    ≤ maxActiveRefreshTokens
  new : env.newId ∈ (activeTokens (env.clock 4) issued.tenantId issued.userId db').map (·.id)
  oldest : ∀ t ∈ db.refreshTokens.rows, t.revokedAt = none → issued.exchanged ≠ some t.id →
    ∀ t' ∈ db'.refreshTokens.rows, t'.id = t.id → t'.revokedAt ≠ none →
      maxActiveRefreshTokens ≤ ((activeTokens (env.clock 4) issued.tenantId issued.userId
        db').filter fun u => t.createdAt < u.createdAt).length

/-- The issue ends before its own token expires. -/
def Prompt (env : AuthEnv) : Prop :=
  env.clock 4 < env.clock 2 + env.refreshTokenTtlDays * 86400

theorem capHolds_issue {env : PasswordEnv} {user : User} {db₁ : AuthDb}
    (hprompt : Prompt env.toAuthEnv)
    (hdistinct : DistinctTimes user.tenantId user.id db₁)
    (hnewer : Newer env.toAuthEnv user.tenantId user.id db₁)
    (hfree : db₁.refreshTokens.find env.newId = none) :
    CapHolds env ⟨user.tenantId, user.id, none⟩ db₁
      ((db₁.withToken (newToken env.toAuthEnv user)).capped (env.clock 4) user) := by
  have hnew : newToken env.toAuthEnv user ∈ activeTokens (env.clock 4) user.tenantId user.id
      (db₁.withToken (newToken env.toAuthEnv user)) :=
    mem_activeTokens.mpr ⟨(Table.mem_insert hfree).mpr (.inr rfl), rfl, rfl, rfl, hprompt⟩
  have hdistinct' : DistinctTimes user.tenantId user.id
      (db₁.withToken (newToken env.toAuthEnv user)) := hdistinct.withToken hnewer hfree
  refine ⟨?_, ?_, ?_⟩
  · simp only [activeTokens_capped]
    exact length_filter_notMem_surplus
  · rw [activeTokens_capped, List.mem_map]
    refine ⟨newToken env.toAuthEnv user, List.mem_filter.mpr ⟨hnew, ?_⟩, rfl⟩
    rw [decide_eq_true_eq]
    refine notMem_surplus_of_newest (by decide) ?_ (nodup_activeTokens _ _ _ _)
    intro u hu hle
    obtain ⟨hrow, huser, htenant, -, -⟩ := mem_activeTokens.mp hu
    rcases (Table.mem_insert (v := newToken env.toAuthEnv user) hfree).mp hrow with hold | rfl
    · have hlt := hnewer u hold htenant huser
      exact absurd hle (by simpa [newToken] using hlt)
    · rfl
  · intro t ht hlive _ t' ht' hid hrevoked
    have hrow : t ∈ (db₁.withToken (newToken env.toAuthEnv user)).refreshTokens.rows :=
      (Table.mem_insert hfree).mpr (.inl ht)
    have hsurplus := mem_surplus_of_capped hrow hlive ht' hid hrevoked
    obtain ⟨-, htuser, httenant, -, -⟩ := mem_activeTokens.mp (mem_of_mem_surplus hsurplus)
    rw [← length_kept hsurplus]
    refine (List.subperm_of_subset (nodup_kept (nodup_activeTokens _ _ _ _)) ?_).length_le
    intro u hu
    have hactive := mem_of_mem_kept hu
    obtain ⟨hurow, huuser, hutenant, -, -⟩ := mem_activeTokens.mp hactive
    have hstays := notMem_surplus_of_mem_kept (nodup_activeTokens _ _ _ _) hu
    have hle : t.createdAt ≤ u.createdAt := age_le hsurplus hu
    have hne : t.createdAt ≠ u.createdAt := by
      intro htime
      have htu := hdistinct' t hrow u hurow httenant htuser hutenant huuser htime
      exact hstays (htu ▸ hsurplus)
    rw [activeTokens_capped, List.mem_filter, List.mem_filter]
    exact ⟨⟨hactive, by simpa using hstays⟩, by simp only [decide_eq_true_eq]; omega⟩

/-- Right after each issue the user has at most ten active tokens, the new one among them,
and the cap has revoked a token only where ten newer ones were active. -/
theorem session_cap {tenantId userId : UUID} {db₀ db db' : AuthDb}
    (h₀ : DistinctTimes tenantId userId db₀) (h : SessionRun tenantId userId db₀ db)
    {env : PasswordEnv} (hnewer : Newer env.toAuthEnv tenantId userId db)
    (hprompt : Prompt env.toAuthEnv) {req : SessionRequest} {exchanged : Option UUID}
    (hexec : (req.prog env).exec db = (.ok (some ⟨tenantId, userId, exchanged⟩), db')) :
    CapHolds env ⟨tenantId, userId, exchanged⟩ db db' := by
  obtain ⟨user, db₁, rfl, rfl, htokens, hfree, rfl⟩ := exec_issue_ok hexec
  have hsame := sameTokens_exchanged htokens
  obtain ⟨hmost, hnew, holdest⟩ := capHolds_issue hprompt ((h.distinct h₀).same hsame)
    (hnewer.same hsame) hfree
  refine ⟨hmost, hnew, ?_⟩
  intro t ht hlive hexchanged
  have hrow : t ∈ db₁.refreshTokens.rows := by
    rw [htokens]
    cases exchanged with
    | none => exact ht
    | some id =>
      have hne : t.id ≠ id := fun heq => hexchanged (by rw [heq])
      exact List.mem_map.mpr ⟨t, ht, if_neg hne⟩
  exact holdest t hrow hlive nofun

namespace Demo

/-- Ten tokens of one user, created at 1 to 10. -/
def tenSessions : AuthDb where
  users := signedIn.users
  refreshTokens := ⟨(List.range 10).map fun i =>
    ⟨100 + i, 1, 5, "h", 100000, none, (i : ℤ) + 1⟩, by decide⟩

def eleventhLogin : SessionRequest := .login ⟨some 1, "ada@example.org", "old"⟩

end Demo

/-- The eleventh login revokes the oldest token. -/
theorem session_cap_demo :
    ∃ db', ((Demo.eleventhLogin.prog (Demo.passwordEnv false)).exec Demo.tenSessions
        = (.ok (some ⟨1, 5, none⟩), db')) ∧
      (activeTokens 104 1 5 db').map (·.id) = [101, 102, 103, 104, 105, 106, 107, 108, 109, 60] ∧
      CapHolds (Demo.passwordEnv false) ⟨1, 5, none⟩ Demo.tenSessions db' := by
  have hrun : ((Demo.eleventhLogin.prog (Demo.passwordEnv false)).exec Demo.tenSessions).1
      = .ok (some ⟨1, 5, none⟩) := by
    decide
  have hexec := exec_eq_transact hrun
  have htimes : DistinctTimes 1 5 Demo.tenSessions := by
    unfold DistinctTimes
    decide
  have hnewer : Newer (Demo.passwordEnv false).toAuthEnv 1 5 Demo.tenSessions := by
    unfold Newer
    decide
  have hprompt : Prompt (Demo.passwordEnv false).toAuthEnv := by
    unfold Prompt
    decide
  exact ⟨_, hexec, by decide, session_cap htimes .start hnewer hprompt hexec⟩

end OpenPms
