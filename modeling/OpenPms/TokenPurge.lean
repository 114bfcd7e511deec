import OpenPms.SessionCap
import OpenPms.Lib.Alike

/-!
The purge of refresh tokens. The maintenance script deletes the rows that are revoked or
past their expiry. No request of the accounts reads them, so every answer of a run is the
one that it would have been without the purges.
-/
namespace OpenPms

open KeyedTable Transaction Prog

/-! The script -/

/-- The rows that row level security shows to the script: those of one tenant, or all of
them to a role that it does not bind. -/
def shownTo (tenantId : Option UUID) (t : RefreshToken) : Bool :=
  tenantId.all fun tid => t.tenantId = tid

/-- The rows that the DELETE matches. -/
def purgeable (tenantId : Option UUID) (now : ℤ) (t : RefreshToken) : Bool :=
  shownTo tenantId t && (t.revokedAt.isSome || t.expiresAt < now)

theorem nodup_kept_rows (db : AuthDb) (p : RefreshToken → Bool) :
    ((db.refreshTokens.rows.filter p).map RefreshToken.id).Nodup :=
  (List.filter_sublist.map _).nodup db.refreshTokens.nodup

def AuthDb.without (db : AuthDb) (p : RefreshToken → Bool) : AuthDb :=
  { db with refreshTokens := ⟨db.refreshTokens.rows.filter fun t => !p t, nodup_kept_rows db _⟩ }

/-- The number of rows that it deletes. -/
def purgeStaleRefreshTokens (tenantId : Option UUID) (now : ℤ) : AuthTx ℕ := do
  let stale ← select fun db => (db.refreshTokens.rows.filter (purgeable tenantId now)).map (·.id)
  forEach stale acquire
  modify fun db => db.without (purgeable tenantId now)
  pure stale.length

theorem exec_purge (tenantId : Option UUID) (now : ℤ) (db : AuthDb) :
    (purgeStaleRefreshTokens tenantId now).transact db = db.without (purgeable tenantId now) := by
  refine transact_ok (a := ((db.refreshTokens.rows.filter (purgeable tenantId now)).map
    (·.id)).length) ?_
  unfold purgeStaleRefreshTokens
  rw [exec_bind, exec_select]
  simp only [exec_bind, exec_forEach_acquire, exec_modify]
  rfl

/-! The requests of the accounts -/

inductive AccountRequest where
  | login (body : AuthLoginRequest)
  | refresh (body : AuthRefreshRequest)
  | logout (tenantId : UUID) (rawToken : String)
  | changePassword (tenantId userId : UUID) (currentPassword newPassword : String)
  | resetPassword (claims : Option ResetClaims) (newPassword : String)
  | patchUser (tenantId : UUID) (patch : UserPatch)

inductive AccountAnswer where
  | session (r : AuthLoginResponse)
  | tokens (r : TokenPairResponse)
  | user (u : User)
  | done
  deriving DecidableEq

def AccountRequest.prog (env : PasswordEnv) : AccountRequest → AuthTx AccountAnswer
  | login body => OpenPms.login env body >>= fun r => pure (.session r)
  | refresh body => refreshSession env.toAuthEnv body >>= fun r => pure (.tokens r)
  | logout tenantId rawToken =>
    OpenPms.logout env.toAuthEnv tenantId rawToken >>= fun _ => pure .done
  | changePassword tenantId userId current new =>
    OpenPms.changePassword env tenantId userId current new >>= fun _ => pure .done
  | resetPassword claims new => OpenPms.resetPassword env claims new >>= fun _ => pure .done
  | patchUser tenantId patch => patch.prog tenantId >>= fun u => pure (.user u)

/-! Databases that look alike -/

/-- The row can still be exchanged at that time. -/
def Usable (now : ℤ) (t : RefreshToken) : Bool := t.revokedAt.isNone && decide (now < t.expiresAt)

def AuthDb.usable (db : AuthDb) (now : ℤ) : List RefreshToken :=
  db.refreshTokens.rows.filter (Usable now)

/-- The same users and, for every time in `late`, the same usable tokens in the same order.
Every row has its identifier in `used`. -/
structure LooksAlike (used : Set UUID) (late : Set ℤ) (db db' : AuthDb) : Prop where
  users : db'.users = db.users
  usable : ∀ now ∈ late, db'.usable now = db.usable now
  known : ∀ t ∈ db.refreshTokens.rows, t.id ∈ used
  known' : ∀ t ∈ db'.refreshTokens.rows, t.id ∈ used

namespace LooksAlike
variable {used : Set UUID} {late : Set ℤ} {db db' : AuthDb}

theorem refl (hknown : ∀ t ∈ db.refreshTokens.rows, t.id ∈ used) : LooksAlike used late db db :=
  ⟨rfl, fun _ _ => rfl, hknown, hknown⟩

theorem mono {used' : Set UUID} {late' : Set ℤ} (h : LooksAlike used late db db')
    (hused : used ⊆ used') (hlate : late' ⊆ late) : LooksAlike used' late' db db' :=
  ⟨h.users, fun now hnow => h.usable now (hlate hnow), fun t ht => hused (h.known t ht),
    fun t ht => hused (h.known' t ht)⟩

/-- What is asked of usable rows only has the same answers. -/
theorem filter (h : LooksAlike used late db db') {now : ℤ} (hnow : now ∈ late)
    {p : RefreshToken → Bool} (hp : ∀ t, p t = true → Usable now t = true) :
    db'.refreshTokens.rows.filter p = db.refreshTokens.rows.filter p := by
  have hfilter : ∀ rows : List RefreshToken,
      rows.filter p = (rows.filter (Usable now)).filter p := by
    intro rows
    rw [List.filter_filter]
    refine List.filter_congr fun t _ => ?_
    cases hpt : p t with
    | true => simp [hp t hpt]
    | false => rfl
  rw [hfilter, hfilter db.refreshTokens.rows]
  exact congrArg (List.filter p) (h.usable now hnow)

/-- A usable row of one side is a row of the other. -/
theorem mem_iff (h : LooksAlike used late db db') {now : ℤ} (hnow : now ∈ late)
    {t : RefreshToken} (ht : Usable now t = true) :
    t ∈ db'.refreshTokens.rows ↔ t ∈ db.refreshTokens.rows := by
  have hmem : ∀ db₁ : AuthDb, t ∈ db₁.usable now ↔ t ∈ db₁.refreshTokens.rows := by
    intro db₁
    simp [AuthDb.usable, ht]
  rw [← hmem, ← hmem, h.usable now hnow]

/-- Rows are edited alike as long as the edits agree on usable rows and revive none. -/
theorem updateAll (h : LooksAlike used late db db') {f f' : RefreshToken → RefreshToken}
    {hf : ∀ t, (f t).id = t.id} {hf' : ∀ t, (f' t).id = t.id}
    (hdead : ∀ now t, Usable now t = false → Usable now (f t) = false ∧ Usable now (f' t) = false)
    (hsame : ∀ now ∈ late, ∀ t ∈ db.refreshTokens.rows, Usable now t = true → f' t = f t) :
    LooksAlike used late { db with refreshTokens := db.refreshTokens.updateAll f hf }
      { db' with refreshTokens := db'.refreshTokens.updateAll f' hf' } := by
  have hedit : ∀ (now : ℤ) (g : RefreshToken → RefreshToken) (rows : List RefreshToken),
      (∀ t, Usable now t = false → Usable now (g t) = false) →
        (rows.map g).filter (Usable now) = ((rows.filter (Usable now)).map g).filter (Usable now) := by
    intro now g rows hg
    induction rows with
    | nil => rfl
    | cons t rest ih =>
      cases ht : Usable now t with
      | true => simp [ht, ih, List.filter_cons]
      | false => simp [ht, ih, hg t ht]
  refine ⟨h.users, fun now hnow => ?_, ?_, ?_⟩
  · change (db'.refreshTokens.rows.map f').filter (Usable now) =
      (db.refreshTokens.rows.map f).filter (Usable now)
    rw [hedit now f' _ fun t ht => (hdead now t ht).2, hedit now f _ fun t ht => (hdead now t ht).1]
    have husable := h.usable now hnow
    unfold AuthDb.usable at husable
    rw [husable]
    refine congrArg (List.filter (Usable now)) (List.map_congr_left fun t ht => ?_)
    obtain ⟨hmem, hlive⟩ := List.mem_filter.mp ht
    exact hsame now hnow t hmem hlive
  · rintro t ht
    obtain ⟨u, hu, rfl⟩ := List.mem_map.mp ht
    rw [hf]
    exact h.known u hu
  · rintro t ht
    obtain ⟨u, hu, rfl⟩ := List.mem_map.mp ht
    rw [hf']
    exact h.known' u hu

/-- A row with an identifier of its own is inserted on both sides. -/
theorem insert (h : LooksAlike used late db db') (row : RefreshToken) (hnew : row.id ∉ used) :
    LooksAlike (insert row.id used) late (db.withToken row) (db'.withToken row) := by
  have hrows : ∀ db₁ : AuthDb, (∀ t ∈ db₁.refreshTokens.rows, t.id ∈ used) →
      (db₁.withToken row).refreshTokens.rows = db₁.refreshTokens.rows ++ [row] := by
    intro db₁ hknown
    refine Table.insert_rows (Table.find_eq_none.mpr fun t ht heq => hnew ?_)
    rw [← heq]
    exact hknown t ht
  refine ⟨h.users, fun now hnow => ?_, ?_, ?_⟩
  · unfold AuthDb.usable
    rw [hrows db h.known, hrows db' h.known', List.filter_append, List.filter_append]
    exact congrArg (· ++ _) (h.usable now hnow)
  · rw [hrows db h.known]
    intro t ht
    rcases List.mem_append.mp ht with hold | hone
    · exact .inr (h.known t hold)
    · exact .inl (by rw [List.mem_singleton.mp hone])
  · rw [hrows db' h.known']
    intro t ht
    rcases List.mem_append.mp ht with hold | hone
    · exact .inr (h.known' t hold)
    · exact .inl (by rw [List.mem_singleton.mp hone])

/-- A purge of one side, for times that are not before it. -/
theorem purge (h : LooksAlike used late db db') (tenantId : Option UUID) {time : ℤ}
    (hlate : ∀ now ∈ late, time ≤ now) :
    LooksAlike used late (db.without (purgeable tenantId time)) db' := by
  refine ⟨h.users, fun now hnow => ?_, fun t ht => h.known t (List.mem_of_mem_filter ht), h.known'⟩
  rw [h.usable now hnow]
  unfold AuthDb.usable AuthDb.without
  rw [List.filter_filter]
  refine List.filter_congr fun t _ => ?_
  cases ht : Usable now t with
  | false => rfl
  | true =>
    have hle := hlate now hnow
    unfold Usable at ht
    simp only [Bool.and_eq_true, Option.isNone_iff_eq_none, decide_eq_true_eq] at ht
    have hkept : ¬ t.expiresAt < time := by omega
    simp [purgeable, ht.1, hkept]

end LooksAlike

/-! Each request answers alike -/

section Requests
variable {used : Set UUID} {late : Set ℤ}

theorem not_usable_ifStale (stale : List UUID) (now time : ℤ) (t : RefreshToken)
    (ht : Usable now t = false) :
    Usable now (if t.id ∈ stale then revoke time t else t) = false := by
  split
  · rfl
  · exact ht

theorem not_usable_revokeSeen (seen : List UUID) (now time : ℤ) (t : RefreshToken)
    (ht : Usable now t = false) : Usable now (revokeSeen seen time t) = false := by
  unfold revokeSeen
  split
  · rfl
  · exact ht

/-- A row is among those of a query exactly when it meets its condition. -/
theorem id_mem_filter {db : AuthDb} {t : RefreshToken} (ht : t ∈ db.refreshTokens.rows)
    (p : RefreshToken → Bool) :
    t.id ∈ (db.refreshTokens.rows.filter p).map (·.id) ↔ p t = true := by
  constructor
  · intro hid
    obtain ⟨u, hu, heq⟩ := List.mem_map.mp hid
    obtain ⟨hmem, hp⟩ := List.mem_filter.mp hu
    rwa [← row_of_id hmem ht heq]
  · exact fun hp => List.mem_map_of_mem (List.mem_filter.mpr ⟨ht, hp⟩)

theorem LooksAlike.staleTokens {db db' : AuthDb} (h : LooksAlike used late db db') {now : ℤ}
    (hnow : now ∈ late) (user : User) : staleTokens now user db' = staleTokens now user db := by
  unfold OpenPms.staleTokens
  rw [h.filter hnow (p := fun t => t.userId = user.id && t.tenantId = user.tenantId &&
    t.revokedAt.isNone && now < t.expiresAt) ?_]
  intro t ht
  simp only [Bool.and_eq_true] at ht
  unfold Usable
  rw [Bool.and_eq_true]
  exact ⟨ht.1.2, ht.2⟩

theorem alike_revokeExcess {now : ℤ} (hnow : now ∈ late) (user : User) :
    Alike (LooksAlike used late) (revokeExcessActiveRefreshTokens now user)
      (revokeExcessActiveRefreshTokens now user) fun _ => LooksAlike used late := by
  refine alike_bind (alike_select fun s s' hs => (hs.staleTokens hnow user).symm) fun stale =>
    alike_bind (alike_acquireAll _ _) fun _ => alike_modify ?_
  rintro s s' ⟨hs, -, -⟩
  refine hs.updateAll (fun time t ht => ?_) fun _ _ t _ _ => rfl
  exact ⟨not_usable_ifStale stale time now t ht, not_usable_ifStale stale time now t ht⟩

theorem alike_persist {env : AuthEnv} (hclock : ∀ i, env.clock i ∈ late) (user : User)
    (hnew : env.newId ∉ used) :
    Alike (LooksAlike used late) (persistRefreshPair env user) (persistRefreshPair env user)
      fun _ => LooksAlike (insert env.newId used) late := by
  have hfree : ∀ db : AuthDb, (∀ t ∈ db.refreshTokens.rows, t.id ∈ used) →
      (db.refreshTokens.find env.newId).isSome = false := by
    intro db hknown
    rw [Option.isSome_eq_false_iff, Option.isNone_iff_eq_none]
    exact Table.find_eq_none.mpr fun t ht heq => hnew (heq ▸ hknown t ht)
  refine alike_bind (alike_select fun s s' hs => ?_) fun clash =>
    alike_bind (alike_raiseIf _) fun _ => alike_bind (alike_modify ?_) fun _ =>
      alike_bind (alike_revokeExcess (hclock 4) user) fun _ => alike_pure fun _ _ hs => hs
  · exact (hfree s hs.known).trans (hfree s' hs.known').symm
  · rintro s s' ⟨hs, -, -⟩
    exact hs.insert (newToken env user) hnew

theorem alike_updateUser (user : User) (f : User → User) (hf : ∀ u, (f u).id = u.id) :
    Alike (LooksAlike used late) (updateUser user f hf) (updateUser user f hf)
      fun _ => LooksAlike used late := by
  refine alike_bind (alike_acquire _) fun _ =>
    alike_bind (alike_select fun s s' hs => by rw [hs.users]) fun present =>
      alike_bind (alike_raiseIf _) fun _ => alike_modify ?_
  rintro s s' ⟨hs, -, -⟩
  exact ⟨by rw [hs.users], hs.usable, hs.known, hs.known'⟩

theorem LooksAlike.anyway {used' : Set UUID} (hused : used ⊆ used') {db db' : AuthDb}
    (h : LooksAlike used late db db') : LooksAlike used' late db db' :=
  h.mono hused subset_rfl

theorem alike_login {env : PasswordEnv} (hclock : ∀ i, env.clock i ∈ late)
    (hnew : env.newId ∉ used) (body : AuthLoginRequest) :
    Alike (LooksAlike used late) (login env body) (login env body)
      fun _ => LooksAlike (insert env.newId used) late := by
  unfold login
  split
  · exact alike_raise _
  · next tid _ =>
    refine alike_bind (alike_select fun s s' hs => ?_) fun found => ?_
    · unfold userByEmail
      rw [hs.users]
    · split
      · exact alike_raise _
      · next user =>
        refine Alike.weaken ?_ (fun s s' hs => hs.1) fun _ _ _ hs => hs
        exact alike_bind (alike_raiseIf _) fun _ => alike_bind (alike_raiseIf _) fun _ =>
          alike_bind (alike_runIf (alike_updateUser _ _ _)) fun _ =>
            alike_bind (alike_persist hclock user hnew) fun _ => alike_pure fun _ _ hs => hs

theorem LooksAlike.selectToken {db db' : AuthDb} (h : LooksAlike used late db db') {now : ℤ}
    (hnow : now ∈ late) (tenantId : UUID) (digest : String) :
    selectToken tenantId digest now db' = selectToken tenantId digest now db := by
  unfold OpenPms.selectToken
  rw [← List.head?_filter, ← List.head?_filter, h.filter hnow]
  intro t ht
  simp only [Bool.and_eq_true] at ht
  unfold Usable
  rw [Bool.and_eq_true]
  exact ⟨ht.1.2, ht.2⟩

theorem LooksAlike.revokeToken {db db' : AuthDb} (h : LooksAlike used late db db') (id : UUID)
    (time : ℤ) : LooksAlike used late (db.revokeToken id time) (db'.revokeToken id time) := by
  have hid : ∀ t : RefreshToken, (if t.id = id then revoke time t else t).id = t.id := by
    intro t
    split <;> rfl
  have hdead : ∀ now (t : RefreshToken), Usable now t = false →
      Usable now (if t.id = id then revoke time t else t) = false := by
    intro now t ht
    split
    · rfl
    · exact ht
  have hupdated : LooksAlike used late
      { db with refreshTokens := db.refreshTokens.updateAll _ hid }
      { db' with refreshTokens := db'.refreshTokens.updateAll _ hid } :=
    h.updateAll (fun now t ht => ⟨hdead now t ht, hdead now t ht⟩) fun _ _ _ _ _ => rfl
  exact hupdated

theorem alike_exchange {env : AuthEnv} (hclock : ∀ i, env.clock i ∈ late)
    (hnew : env.newId ∉ used) (body : AuthRefreshRequest) :
    Alike (LooksAlike used late) (exchangeToken env body) (exchangeToken env body)
      fun _ => LooksAlike (insert env.newId used) late := by
  unfold exchangeToken
  split
  · exact alike_raise _
  · next raw _ =>
    refine alike_bind (alike_select fun s s' hs =>
      (hs.selectToken (hclock 0) body.tenantId _).symm) fun found => ?_
    cases found with
    | none => exact alike_raise _
    | some row =>
      -- the selected row is there on both sides until it is written
      have hthere : ∀ s : AuthDb, some row = selectToken body.tenantId
          (env.sha256 (Text.strip raw)) (env.clock 0) s → row ∈ s.refreshTokens.rows :=
        fun s hrow => List.mem_of_find?_eq_some hrow.symm
      refine Alike.weaken (R := fun s s' => LooksAlike used late s s' ∧
        row ∈ s.refreshTokens.rows ∧ row ∈ s'.refreshTokens.rows) ?_
        (fun s s' hs => ⟨hs.1, hthere s hs.2.1, hthere s' hs.2.2⟩) fun _ _ _ hs => hs
      refine alike_bind (alike_select fun s s' hs => by rw [hs.1.users]) fun user => ?_
      cases user with
      | none => exact alike_raise _
      | some user =>
        refine Alike.weaken (R := fun s s' => LooksAlike used late s s' ∧
          row ∈ s.refreshTokens.rows ∧ row ∈ s'.refreshTokens.rows) ?_
          (fun s s' hs => hs.1) fun _ _ _ hs => hs
        refine alike_bind (alike_acquire _) fun _ => alike_bind (alike_select fun s s' hs => ?_)
          fun present => alike_bind (alike_raiseIf _) fun _ =>
            alike_bind (S := fun _ => LooksAlike used late) (alike_modify ?_) fun _ =>
              alike_bind (alike_persist hclock user hnew) fun _ => alike_pure fun _ _ hs => hs
        · have hfind : ∀ db : AuthDb, row ∈ db.refreshTokens.rows →
              (db.refreshTokens.find row.id).isSome = true := by
            intro db hrow
            rw [Table.find_of_mem hrow]
            rfl
          rw [hfind s hs.2.1, hfind s' hs.2.2]
        · rintro s s' ⟨⟨hs, -⟩, -⟩
          exact hs.revokeToken row.id (env.clock 0)

/-- One UPDATE of unrevoked rows: which expired ones are among them makes no difference. -/
theorem alike_revokeRows {p : RefreshToken → Bool} (time : ℤ) :
    Alike (LooksAlike used late)
      (do
        let seen ← select fun db : AuthDb => (db.refreshTokens.rows.filter p).map (·.id)
        forEach seen acquire
        modify fun db => { db with
          refreshTokens := db.refreshTokens.updateAll (revokeSeen seen time)
            (id_revokeSeen seen time) } : AuthTx Unit)
      (do
        let seen ← select fun db : AuthDb => (db.refreshTokens.rows.filter p).map (·.id)
        forEach seen acquire
        modify fun db => { db with
          refreshTokens := db.refreshTokens.updateAll (revokeSeen seen time)
            (id_revokeSeen seen time) })
      fun _ => LooksAlike used late := by
  refine alike_select_bind fun s s' hs => alike_bind (alike_acquireAll _ _) fun _ =>
    alike_modify ?_
  rintro _ _ ⟨rfl, rfl⟩
  refine hs.updateAll (fun now t ht => ⟨not_usable_revokeSeen _ now time t ht,
    not_usable_revokeSeen _ now time t ht⟩) fun now hnow t ht hlive => ?_
  have hmem := (hs.mem_iff hnow hlive).mpr ht
  unfold revokeSeen
  simp only [id_mem_filter ht, id_mem_filter hmem]

theorem alike_logout (env : AuthEnv) (tenantId : UUID) (raw : String) :
    Alike (LooksAlike used late) (logout env tenantId raw) (logout env tenantId raw)
      fun _ => LooksAlike used late :=
  alike_revokeRows (env.clock 0)

theorem alike_replacePassword (env : PasswordEnv) (tenantId : UUID) (user : User) (new : String) :
    Alike (LooksAlike used late) (replacePassword env tenantId user new)
      (replacePassword env tenantId user new) fun _ => LooksAlike used late :=
  alike_bind (alike_updateUser _ _ _) fun _ => alike_revokeRows (env.clock 0)

theorem alike_getUser (tenantId userId : UUID) :
    Alike (LooksAlike used late) (select (getUser tenantId userId) : AuthTx (Option User))
      (select (getUser tenantId userId)) fun _ => LooksAlike used late := by
  refine (alike_select fun s s' hs => ?_).weaken (fun _ _ hs => hs) fun _ _ _ hs => hs.1
  unfold getUser
  rw [hs.users]

theorem alike_changePassword (env : PasswordEnv) (tenantId userId : UUID)
    (current new : String) :
    Alike (LooksAlike used late) (changePassword env tenantId userId current new)
      (changePassword env tenantId userId current new) fun _ => LooksAlike used late := by
  refine alike_bind (alike_getUser tenantId userId) fun found => ?_
  split
  · exact alike_raise _
  · exact alike_bind (alike_raiseIf _) fun _ => alike_bind (alike_raiseIf _) fun _ =>
      alike_replacePassword _ _ _ _

theorem alike_resetPassword (env : PasswordEnv) (claims : Option ResetClaims) (new : String) :
    Alike (LooksAlike used late) (resetPassword env claims new) (resetPassword env claims new)
      fun _ => LooksAlike used late := by
  unfold resetPassword
  split
  · exact alike_raise _
  · refine alike_bind (alike_getUser _ _) fun found => ?_
    split
    · exact alike_raise _
    · exact alike_bind (alike_raiseIf _) fun _ => alike_bind (alike_raiseIf _) fun _ =>
        alike_replacePassword _ _ _ _

theorem alike_patchUser (tenantId : UUID) (patch : UserPatch) :
    Alike (LooksAlike used late) (patch.prog tenantId) (patch.prog tenantId)
      fun _ => LooksAlike used late := by
  unfold UserPatch.prog patchUser
  split
  · refine alike_bind (alike_getUser _ _) fun found => ?_
    split
    · exact alike_raise _
    · exact alike_pure fun _ _ hs => hs
  · refine alike_bind (alike_raiseIf _) fun _ => alike_bind (alike_getUser _ _) fun found => ?_
    split
    · exact alike_raise _
    · refine alike_bind (alike_raiseIf _) fun _ => alike_bind (alike_raiseIf _) fun _ =>
        alike_bind (alike_raiseIf _) fun _ =>
          alike_bind (S := fun _ => LooksAlike used late) ?_ fun others =>
            alike_bind (alike_raiseIf _) fun _ =>
              alike_bind (alike_runIf (alike_updateUser _ _ _)) fun _ =>
                alike_pure fun _ _ hs => hs
      refine (alike_select fun s s' hs => ?_).weaken (fun _ _ hs => hs) fun _ _ _ hs => hs.1
      unfold otherActiveOwners
      rw [hs.users]

/-- What a request may read of the clock, and the identifier that it may draw. -/
theorem alike_request {env : PasswordEnv} (hclock : ∀ i, env.clock i ∈ late)
    (hnew : env.newId ∉ used) (req : AccountRequest) :
    Alike (LooksAlike used late) (req.prog env) (req.prog env)
      fun _ => LooksAlike (insert env.newId used) late := by
  have hanyway : ∀ {s s' : AuthDb}, LooksAlike used late s s' →
      LooksAlike (insert env.newId used) late s s' :=
    fun hs => hs.anyway (Set.subset_insert _ _)
  cases req with
  | login body =>
    exact alike_bind (alike_login hclock hnew body) fun _ => alike_pure fun _ _ hs => hs
  | refresh body =>
    refine alike_bind (alike_bind (alike_exchange hclock hnew body) fun r =>
      alike_pure fun _ _ hs => hs) fun _ => alike_pure fun _ _ hs => hs
  | logout tenantId raw =>
    exact alike_bind (alike_logout _ tenantId raw) fun _ => alike_pure fun _ _ hs => hanyway hs
  | changePassword tenantId userId current new =>
    exact alike_bind (alike_changePassword env tenantId userId current new) fun _ =>
      alike_pure fun _ _ hs => hanyway hs
  | resetPassword claims new =>
    exact alike_bind (alike_resetPassword env claims new) fun _ =>
      alike_pure fun _ _ hs => hanyway hs
  | patchUser tenantId patch =>
    exact alike_bind (alike_patchUser tenantId patch) fun _ => alike_pure fun _ _ hs => hanyway hs

end Requests

/-! Runs with purges -/

inductive AccountEvent where
  | request (env : PasswordEnv) (req : AccountRequest)
  | purge (tenantId : Option UUID) (now : ℤ)

namespace AccountEvent

def isRequest : AccountEvent → Bool
  | request _ _ => true
  | purge _ _ => false

/-- The identifier for a new row. -/
def draws : AccountEvent → Option UUID
  | request env _ => some env.newId
  | purge _ _ => none

/-- A request after a purge reads no earlier time than the purge did. -/
inductive Before : AccountEvent → AccountEvent → Prop
  | request {env : PasswordEnv} {req : AccountRequest} {e : AccountEvent} :
      Before (.request env req) e
  | purges {tenantId tenantId' : Option UUID} {now now' : ℤ} :
      Before (.purge tenantId now) (.purge tenantId' now')
  | later {tenantId : Option UUID} {now : ℤ} {env : PasswordEnv} {req : AccountRequest}
      (hclock : ∀ i, now ≤ env.clock i) : Before (.purge tenantId now) (.request env req)

end AccountEvent

/-- The answers of the requests of a run, one transaction after the other, and the tables
that it leaves. -/
def serveAccounts (db : AuthDb) :
    List AccountEvent → List (Except AuthError AccountAnswer) × AuthDb
  | [] => ([], db)
  | .request env req :: rest =>
    let served := serveAccounts ((req.prog env).transact db) rest
    (((req.prog env).exec db).1 :: served.1, served.2)
  | .purge tenantId now :: rest =>
    serveAccounts ((purgeStaleRefreshTokens tenantId now).transact db) rest

/-- The users are the same and, at each time in `late` that no purge of the run is after,
the tokens that can be exchanged. -/
structure SameAccounts (late : Set ℤ) (events : List AccountEvent) (db db' : AuthDb) : Prop where
  users : db'.users = db.users
  usable : ∀ now ∈ late, (∀ tenantId time, .purge tenantId time ∈ events → time ≤ now) →
    db'.usable now = db.usable now

/-- A run with purges beside the same run without them. -/
theorem serve_alike {used : Set UUID} {late : Set ℤ} {db db' : AuthDb}
    {events : List AccountEvent} (h : LooksAlike used late db db')
    (hlate : ∀ env req, .request env req ∈ events → ∀ i, env.clock i ∈ late)
    (hclock : events.Pairwise AccountEvent.Before)
    (hids : (events.filterMap AccountEvent.draws).Nodup)
    (hfresh : ∀ id ∈ events.filterMap AccountEvent.draws, id ∉ used) :
    (serveAccounts db events).1 = (serveAccounts db' (events.filter AccountEvent.isRequest)).1 ∧
      SameAccounts late events (serveAccounts db events).2
        (serveAccounts db' (events.filter AccountEvent.isRequest)).2 := by
  induction events generalizing used late db db' with
  | nil => exact ⟨rfl, h.users, fun now hnow _ => h.usable now hnow⟩
  | cons e rest ih =>
    obtain ⟨hbefore, hrest⟩ := List.pairwise_cons.mp hclock
    cases e with
    | request env req =>
      have hdraws : (AccountEvent.request env req :: rest).filterMap AccountEvent.draws =
          env.newId :: rest.filterMap AccountEvent.draws := rfl
      rw [hdraws] at hids hfresh
      obtain ⟨hnotin, hnodup⟩ := List.nodup_cons.mp hids
      have hreq := alike_request (hlate env req (List.mem_cons_self ..))
        (hfresh env.newId (List.mem_cons_self ..)) req
      obtain ⟨hanswer, hafter⟩ := hreq.transact
        (fun _ _ hs => hs.anyway (Set.subset_insert _ _)) h
      have hunused : ∀ id ∈ rest.filterMap AccountEvent.draws, id ∉ insert env.newId used := by
        rintro id hid (rfl | hused)
        · exact hnotin hid
        · exact hfresh id (List.mem_cons_of_mem _ hid) hused
      obtain ⟨hanswers, hlast⟩ := ih hafter
        (fun env' req' hmem => hlate env' req' (List.mem_cons_of_mem _ hmem)) hrest hnodup hunused
      refine ⟨?_, hlast.users, fun time htime hpurges => hlast.usable time htime
        fun tenantId now hmem => hpurges tenantId now (List.mem_cons_of_mem _ hmem)⟩
      change ((req.prog env).exec db).1 :: _ = ((req.prog env).exec db').1 :: _
      rw [hanswer, hanswers]
    | purge tenantId now =>
      have hpurged := (h.mono subset_rfl (fun time (htime : time ∈ late ∩ {t | now ≤ t}) =>
        htime.1)).purge tenantId fun time htime => htime.2
      have hlater : ∀ env req, .request env req ∈ rest → ∀ i,
          env.clock i ∈ late ∩ {time | now ≤ time} := by
        intro env req hmem i
        refine ⟨hlate env req (List.mem_cons_of_mem _ hmem) i, ?_⟩
        cases hbefore _ hmem with
        | later hclock => exact hclock i
      obtain ⟨hanswers, hlast⟩ :=
        ih (exec_purge tenantId now db ▸ hpurged) hlater hrest hids hfresh
      refine ⟨hanswers, hlast.users, fun time htime hpurges => ?_⟩
      refine hlast.usable time ⟨htime, hpurges tenantId now (List.mem_cons_self ..)⟩ ?_
      exact fun tenantId' now' hmem => hpurges tenantId' now' (List.mem_cons_of_mem _ hmem)

/-- Whenever the script is run, every request is answered as it would have been without it:
nobody is logged out by a purge, and no revoked or expired token comes back. -/
theorem purges_unnoticed {db : AuthDb} {events : List AccountEvent}
    (hclock : events.Pairwise AccountEvent.Before)
    (hids : (events.filterMap AccountEvent.draws).Nodup)
    (hfresh : ∀ t ∈ db.refreshTokens.rows, t.id ∉ events.filterMap AccountEvent.draws) :
    (serveAccounts db events).1 = (serveAccounts db (events.filter AccountEvent.isRequest)).1 ∧
      SameAccounts Set.univ events (serveAccounts db events).2
        (serveAccounts db (events.filter AccountEvent.isRequest)).2 := by
  let used : Set UUID := {id | ∃ t ∈ db.refreshTokens.rows, t.id = id}
  have hknown : ∀ t ∈ db.refreshTokens.rows, t.id ∈ used := fun t ht => ⟨t, ht, rfl⟩
  have halike : LooksAlike used Set.univ db db := LooksAlike.refl hknown
  refine serve_alike halike (fun _ _ _ _ => trivial) hclock hids ?_
  rintro id hid ⟨t, ht, rfl⟩
  exact hfresh t ht hid

/-- A token is exchanged, the exchanged row is purged, and the other token is exchanged. -/
def Demo.purgedBetween : List AccountEvent :=
  [.request (Demo.passwordEnv false) (.refresh ⟨1, some "50"⟩), .purge none 100,
    .request (Demo.passwordEnv true) (.refresh ⟨1, some "51"⟩)]

theorem purges_unnoticed_demo :
    (serveAccounts Demo.signedIn Demo.purgedBetween).2.refreshTokens.rows.map (·.id) =
        [51, 60, 61] ∧
      (serveAccounts Demo.signedIn (Demo.purgedBetween.filter
          AccountEvent.isRequest)).2.refreshTokens.rows.map (·.id) = [50, 51, 60, 61] ∧
      (serveAccounts Demo.signedIn Demo.purgedBetween).1 =
        (serveAccounts Demo.signedIn (Demo.purgedBetween.filter AccountEvent.isRequest)).1 := by
  have hclock : Demo.purgedBetween.Pairwise AccountEvent.Before := by
    refine .cons (fun _ _ => .request) (.cons ?_ (.cons (by simp) .nil))
    intro e he
    rw [List.mem_singleton.mp he]
    refine .later fun i => ?_
    change (100 : ℤ) ≤ 100 + i
    omega
  have hids : (Demo.purgedBetween.filterMap AccountEvent.draws).Nodup := by decide
  have hfresh : ∀ t ∈ Demo.signedIn.refreshTokens.rows,
      t.id ∉ Demo.purgedBetween.filterMap AccountEvent.draws := by decide
  exact ⟨by decide, by decide, (purges_unnoticed hclock hids hfresh).1⟩

end OpenPms
