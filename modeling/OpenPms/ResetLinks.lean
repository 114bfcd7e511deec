import OpenPms.PasswordChange

/-!
Links that reset a password. A link names the hash at its issue by a fingerprint, and a reset
compares the fingerprint with an unlocked read of the user before it overwrites the hash. Two
resets that have both read the old hash both succeed.
-/
namespace OpenPms

open KeyedTable Transaction Prog Interleaving

def hashOf (userId : UUID) (db : AuthDb) : Option String :=
  (db.users.find userId).map (·.passwordHash)

/-- The request may write the hash of the user with this identifier and email. -/
def AuthRequest.Concerns (tenantId userId : UUID) (email : String) : AuthRequest → Prop
  | refresh _ => False
  | login body => body.tenantId = some tenantId ∧ Text.lower (Text.strip body.email) = email
  | changePassword t u _ _ => t = tenantId ∧ u = userId
  | resetPassword claims _ => ∃ c, claims = some c ∧ c.tenantId = tenantId ∧ c.sub = userId

/-- The hash that the request may write: a login writes one when the old one is outdated. -/
def AuthRequest.newHash (env : PasswordEnv) : AuthRequest → Option String
  | refresh _ => none
  | login body => some (env.hashPassword body.password)
  | changePassword _ _ _ new => some (env.hashPassword new)
  | resetPassword _ new => some (env.hashPassword new)

variable {ι : Type}

/-- The user's hash is, at the commit, the one that the request has read first. -/
def HashAsRead (userId : UUID) (reads : List AuthDb) (db : AuthDb) : Prop :=
  ∀ db₀ ∈ reads.getLast?, hashOf userId db = hashOf userId db₀

def AuthRequest.LinkTimely (userId : UUID) : AuthRequest → List AuthDb → AuthDb → Prop
  | resetPassword (some claims) _, o, db => claims.sub = userId → HashAsRead userId o db
  | _, _, _ => True

/-- The discipline of requests among which no reset overwrites a hash that it has not read. -/
def links (tenantId userId : UUID) (email : String) (req : ι → AuthRequest) :
    Discipline AuthDb UUID ι where
  inv db := (db.users.find userId).map (fun u => (u.tenantId, u.email)) = some (tenantId, email)
  guar _ _ _ := True
  timing := ⟨fun _ _ _ => True, fun i o db => (req i).LinkTimely userId o db⟩

/-! What a request does to the hashes -/

/-- One hash is replaced, if it is there, and nothing else of the users. -/
structure SetsHash (id : UUID) (hash : String) (w : AuthDb → AuthDb) : Prop where
  self : ∀ db, (w db).users.find id = (db.users.find id).map (setPasswordHash hash)
  other : ∀ db id', id' ≠ id → (w db).users.find id' = db.users.find id'

def KeepsUsers (w₀ w : AuthDb → AuthDb) : Prop := ∀ db, (w db).users = (w₀ db).users

theorem setsHash_update (user : User) (hash : String) : SetsHash user.id hash fun db =>
    { db with users := db.users.update user.id (setPasswordHash hash) (id_setPasswordHash hash) }
    where
  self db := by
    dsimp only
    rw [Table.find_update_self]
  other db id' hid := by
    dsimp only
    rw [Table.find_update_of_ne hid]

theorem SetsHash.keeps {id : UUID} {hash : String} {w₀ w : AuthDb → AuthDb}
    (h : SetsHash id hash w₀) (hkeeps : KeepsUsers w₀ w) : SetsHash id hash w where
  self db := by
    rw [hkeeps db]
    exact h.self db
  other db id' hid := by
    rw [hkeeps db]
    exact h.other db id' hid

/-- How a request ends: with the users as they were, or with one new hash, which is the user's
only if the request concerns the user. -/
structure HashEffect (tenantId userId : UUID) (email : String) (env : PasswordEnv)
    (req : AuthRequest) (o : List AuthDb) (w : AuthDb → AuthDb) : Prop where
  writes : KeepsUsers id w ∨ ∃ id hash, SetsHash id hash w ∧ req.newHash env = some hash ∧
    (id = userId → req.Concerns tenantId userId email)
  reset : ∀ claims new, req = .resetPassword (some claims) new → claims.sub = userId →
    SetsHash userId (env.hashPassword new) w ∧
      ∃ db₀ u, o.getLast? = some db₀ ∧ db₀.users.find userId = some u ∧
        passwordFingerprint env u.passwordHash = claims.pwdFp

section Links
variable {tenantId userId : UUID} {email : String} {env : ι → PasswordEnv}
  {req : ι → AuthRequest} {i : ι}

def EndsWithHash (tenantId userId : UUID) (email : String) (env : ι → PasswordEnv)
    (req : ι → AuthRequest) (i : ι) : Post AuthDb UUID AuthError Unit :=
  fun r o _ w _ => r = .ok () → HashEffect tenantId userId email (env i) (req i) o w

/-- What is carried through the part of a transaction that writes tokens only. -/
def AfterHash (D : Discipline AuthDb UUID ι) (w₀ : AuthDb → AuthDb) (L : Set UUID)
    (w : AuthDb → AuthDb) (A : AuthDb → Prop) : Prop :=
  Stable D L A ∧ KeepsUsers w₀ w

theorem carried_afterHash {D : Discipline AuthDb UUID ι} {w₀ : AuthDb → AuthDb} :
    Carried D (AfterHash D w₀) where
  stable h := h.1
  lock _ _ h _ hA := ⟨_, hA, h.1.mono (Set.subset_insert _ _), h.2⟩

theorem carries_persist_users {D : Discipline AuthDb UUID ι} (e : AuthEnv) (user : User)
    (w₀ : AuthDb → AuthDb) : Carries D i (AfterHash D w₀) (persistRefreshPair e user) := by
  refine carries_persist carried_afterHash e user ?_ ?_
  · exact fun _ _ _ _ _ _ h => ⟨h.1, fun db => h.2 db⟩
  · exact fun _ _ _ _ _ _ h => ⟨h.1, fun db => h.2 db⟩

theorem runs_refresh_hash {body : AuthRefreshRequest} (hreq : req i = .refresh body) :
    Runs (links tenantId userId email req) i [] ∅ id (fun _ => True)
      (EndsWithHash tenantId userId email env req i) ((AuthRequest.refresh body).prog (env i)) := by
  have hexchange := runs_exchange (D := links tenantId userId email req) (i := i)
    (env i).toAuthEnv body (H := fun _ => AfterHash (links tenantId userId email req) id)
    (fun _ => carried_afterHash) (fun _ _ => ⟨stable_true _, fun _ => rfl⟩)
    (fun _ _ _ _ _ _ _ h => ⟨h.1, fun db => h.2 db⟩)
    (fun _ _ _ _ _ _ _ h => ⟨h.1, fun db => h.2 db⟩)
  unfold AuthRequest.prog refreshSession
  simp only [bind_assoc, pure_bind]
  refine runs_bind hexchange (fun _ _ _ _ _ _ => of_error_eq_ok) ?_
  intro r o L w A hend
  obtain ⟨hafter, -⟩ := hend r.1 r.2 rfl
  refine runs_pure fun _ => ⟨.inl hafter.2, ?_⟩
  intro claims new heq
  rw [hreq] at heq
  cases heq

theorem runs_login_hash {body : AuthLoginRequest} (hreq : req i = .login body) :
    Runs (links tenantId userId email req) i [] ∅ id (fun _ => True)
      (EndsWithHash tenantId userId email env req i) ((AuthRequest.login body).prog (env i)) := by
  unfold AuthRequest.prog login
  cases htenant : body.tenantId with
  | none =>
    simp only [htenant]
    exact runs_raise of_error_eq_ok
  | some tid =>
    simp only [htenant, bind_assoc]
    refine runs_select_bind (stable_true _) fun db₀ hinv _ => ?_
    cases hfound : userByEmail tid (Text.lower (Text.strip body.email)) db₀ with
    | none =>
      simp only [id, hfound]
      exact runs_raise of_error_eq_ok
    | some user =>
      simp only [id, hfound, bind_assoc, pure_bind]
      refine runs_raiseIf_bind of_error_eq_ok fun _ => ?_
      refine runs_raiseIf_bind of_error_eq_ok fun _ => ?_
      have hnone : ∀ claims new, req i ≠ .resetPassword (some claims) new := by
        intro claims new heq
        rw [hreq] at heq
        cases heq
      have hend : ∀ o L w₀, (KeepsUsers id w₀ ∨ ∃ id hash, SetsHash id hash w₀ ∧
            (req i).newHash (env i) = some hash ∧
            (id = userId → (req i).Concerns tenantId userId email)) →
          Runs (links tenantId userId email req) i o L w₀ (fun _ => True)
            (EndsWithHash tenantId userId email env req i)
            (persistRefreshPair (env i).toAuthEnv user >>= fun _ => pure ()) := by
        intro o L w₀ hwrites
        refine (carries_persist_users _ user w₀).runs_bind ⟨stable_true _, fun _ => rfl⟩
          (fun _ _ _ _ _ => of_error_eq_ok) ?_
        intro _ o' L' w A _ hafter
        refine runs_pure fun _ => ⟨?_, fun claims new heq => absurd heq (hnone claims new)⟩
        rcases hwrites with hkeeps | ⟨id, hash, hsets, hrest⟩
        · exact .inl fun db => (hafter.2 db).trans (hkeeps db)
        · exact .inr ⟨id, hash, hsets.keeps hafter.2, hrest⟩
      unfold runIf
      split
      · refine runs_updateUser_bind (fun _ _ _ _ _ => of_error_eq_ok) fun db₁ => ?_
        refine hend _ _ _ (.inr ⟨user.id, _, setsHash_update user _, by rw [hreq]; rfl, ?_⟩)
        intro hid
        rw [hreq]
        obtain ⟨hmatch, hmem⟩ : (user.tenantId = tid ∧
            user.email = Text.lower (Text.strip body.email)) ∧ user ∈ db₀.users.rows :=
          ⟨by simpa using List.find?_some hfound, List.mem_of_find?_eq_some hfound⟩
        have hrow : db₀.users.find userId = some user := hid ▸ Table.find_of_mem hmem
        have huser : (user.tenantId, user.email) = (tenantId, email) := by
          have hinv' : (db₀.users.find userId).map (fun u => (u.tenantId, u.email))
              = some (tenantId, email) := hinv
          rw [hrow] at hinv'
          exact Option.some.inj hinv'
        obtain ⟨huserTenant, huserEmail⟩ := Prod.mk.inj huser
        exact ⟨by rw [htenant, ← hmatch.1, huserTenant], by rw [← hmatch.2, huserEmail]⟩
      · exact hend _ _ _ (.inl fun _ => rfl)

/-- The rest of a change once the user has been read: the hash is set, then tokens change. -/
theorem runs_replace_hash {D : Discipline AuthDb UUID ι} {e : PasswordEnv} {tid : UUID}
    {user : User} {newPassword : String} {db₀ : AuthDb} :
    Runs D i [db₀] ∅ id (fun _ => True)
      (fun r o _ w _ => r = .ok () →
        SetsHash user.id (e.hashPassword newPassword) w ∧ o.getLast? = some db₀)
      (replacePassword e tid user newPassword) := by
  unfold replacePassword revokeAllRefreshTokensForUser
  refine runs_updateUser_bind (fun _ _ _ _ _ => of_error_eq_ok) fun db₁ => ?_
  refine runs_select_bind (stable_true _) fun db₂ _ _ => ?_
  refine (carries_forEach fun _ => carries_acquire carried_afterHash _).runs_bind
    ⟨stable_true _, fun _ => rfl⟩ (fun _ _ _ _ _ => of_error_eq_ok) ?_
  rintro _ o L w A ⟨front, rfl⟩ hafter
  refine ⟨fun _ => ⟨?_, by simp⟩⟩
  exact (setsHash_update user _).keeps fun db => hafter.2 db

theorem runs_changePassword_hash {tid uid : UUID} {current new : String}
    (hreq : req i = .changePassword tid uid current new) :
    Runs (links tenantId userId email req) i [] ∅ id (fun _ => True)
      (EndsWithHash tenantId userId email env req i)
      ((AuthRequest.changePassword tid uid current new).prog (env i)) := by
  unfold AuthRequest.prog changePassword
  refine runs_select_bind (stable_true _) fun db₀ hinv _ => ?_
  cases hfound : getUser tid uid db₀ with
  | none =>
    simp only [id, hfound]
    exact runs_raise of_error_eq_ok
  | some user =>
    simp only [id, hfound]
    refine runs_raiseIf_bind of_error_eq_ok fun _ => ?_
    refine runs_raiseIf_bind of_error_eq_ok fun _ => ?_
    refine ⟨runs_replace_hash.ok.mono ?_⟩
    intro r o L w A hend hr
    refine ⟨.inr ⟨user.id, _, (hend hr).1, by rw [hreq]; rfl, ?_⟩, ?_⟩
    · intro hid
      rw [hreq]
      obtain ⟨hfind, htenant⟩ := Option.filter_eq_some_iff.mp hfound
      have huid : user.id = uid := getUser_id hfound
      have hrow : db₀.users.find userId = some user := by
        rw [← hid, huid]
        exact hfind
      have hinv' : (db₀.users.find userId).map (fun u => (u.tenantId, u.email))
          = some (tenantId, email) := hinv
      rw [hrow] at hinv'
      have huser := (Prod.mk.inj (Option.some.inj hinv')).1
      exact ⟨(of_decide_eq_true htenant).symm.trans huser, huid.symm.trans hid⟩
    · intro claims new' heq
      rw [hreq] at heq
      cases heq

theorem runs_resetPassword_hash {claims : Option ResetClaims} {new : String}
    (hreq : req i = .resetPassword claims new) :
    Runs (links tenantId userId email req) i [] ∅ id (fun _ => True)
      (EndsWithHash tenantId userId email env req i)
      ((AuthRequest.resetPassword claims new).prog (env i)) := by
  unfold AuthRequest.prog resetPassword
  cases claims with
  | none => exact runs_raise of_error_eq_ok
  | some claims =>
    refine runs_select_bind (stable_true _) fun db₀ hinv _ => ?_
    cases hfound : getUser claims.tenantId claims.sub db₀ with
    | none =>
      simp only [id, hfound]
      exact runs_raise of_error_eq_ok
    | some user =>
      simp only [id, hfound]
      refine runs_raiseIf_bind of_error_eq_ok fun _ => ?_
      refine runs_raiseIf_bind of_error_eq_ok fun hfp => ?_
      refine ⟨runs_replace_hash.ok.mono ?_⟩
      intro r o L w A hend hr
      obtain ⟨hsets, hlast⟩ := hend hr
      obtain ⟨hfind, htenant⟩ := Option.filter_eq_some_iff.mp hfound
      have hsub : user.id = claims.sub := getUser_id hfound
      refine ⟨.inr ⟨user.id, _, hsets, by rw [hreq]; rfl, ?_⟩, ?_⟩
      · intro hid
        rw [hreq]
        have hrow : db₀.users.find userId = some user := by
          rw [← hid, hsub]
          exact hfind
        have hinv' : (db₀.users.find userId).map (fun u => (u.tenantId, u.email))
            = some (tenantId, email) := hinv
        rw [hrow] at hinv'
        have huser := (Prod.mk.inj (Option.some.inj hinv')).1
        exact ⟨claims, rfl, (of_decide_eq_true htenant).symm.trans huser, hsub.symm.trans hid⟩
      · intro claims' new' heq huid
        rw [hreq] at heq
        cases heq
        have hid : user.id = userId := hsub.trans huid
        refine ⟨hid ▸ hsets, db₀, user, hlast, ?_, not_not.mp hfp⟩
        rw [← huid]
        exact hfind

theorem runs_request_hash (i : ι) :
    Runs (links tenantId userId email req) i [] ∅ id (fun _ => True)
      (EndsWithHash tenantId userId email env req i) ((req i).prog (env i)) := by
  cases hreq : req i with
  | refresh body => exact runs_refresh_hash hreq
  | login body => exact runs_login_hash hreq
  | changePassword tid uid current new => exact runs_changePassword_hash hreq
  | resetPassword claims new => exact runs_resetPassword_hash hreq

/-! The hashes of the user, one after the other -/

theorem HashEffect.inv {o : List AuthDb} {w : AuthDb → AuthDb} {db : AuthDb} {e : PasswordEnv}
    {r : AuthRequest} (h : HashEffect tenantId userId email e r o w)
    (hinv : (links tenantId userId email req).inv db) :
    (links tenantId userId email req).inv (w db) := by
  have hinv' : (db.users.find userId).map (fun u => (u.tenantId, u.email))
      = some (tenantId, email) := hinv
  change ((w db).users.find userId).map (fun u => (u.tenantId, u.email)) = some (tenantId, email)
  rcases h.writes with hkeeps | ⟨id, hash, hsets, -, -⟩
  · rw [hkeeps db]
    exact hinv'
  · by_cases hid : userId = id
    · subst hid
      rw [hsets.self, Option.map_map]
      exact hinv'
    · rw [hsets.other db userId hid]
      exact hinv'

theorem hashOf_set {hash : String} {w : AuthDb → AuthDb} {db : AuthDb}
    (h : SetsHash userId hash w) (hinv : (links tenantId userId email req).inv db) :
    hashOf userId (w db) = some hash := by
  have hinv' : (db.users.find userId).map (fun u => (u.tenantId, u.email))
      = some (tenantId, email) := hinv
  obtain ⟨u, hu, -⟩ := Option.map_eq_some_iff.mp hinv'
  unfold hashOf
  rw [h.self, hu]
  rfl

/-- The user's hash stays, or becomes the one of a request that concerns the user. -/
theorem HashEffect.hash {o : List AuthDb} {w : AuthDb → AuthDb} {db : AuthDb} {e : PasswordEnv}
    {r : AuthRequest} (h : HashEffect tenantId userId email e r o w)
    (hinv : (links tenantId userId email req).inv db) :
    hashOf userId (w db) = hashOf userId db ∨ r.Concerns tenantId userId email ∧
      ∃ hash, r.newHash e = some hash ∧ hashOf userId (w db) = some hash := by
  rcases h.writes with hkeeps | ⟨id, hash, hsets, hnew, hconcerns⟩
  · left
    unfold hashOf
    rw [hkeeps db]
    rfl
  · by_cases hid : id = userId
    · subst hid
      exact .inr ⟨hconcerns rfl, hash, hnew, hashOf_set hsets hinv⟩
    · left
      unfold hashOf
      rw [hsets.other db userId (Ne.symm hid)]

/-- The first twelve digits of the digest. -/
def fingerprint (sha256 : String → String) (hash : String) : String := Text.take 12 (sha256 hash)

/-- Every new hash of the user has a fingerprint of its own: the salts are random and the
fingerprints of one user's hashes do not collide. -/
structure FreshHashes (sha256 : String → String) (tenantId userId : UUID) (email : String)
    (env : ι → PasswordEnv) (req : ι → AuthRequest) (first : String) : Prop where
  digest : ∀ i, (env i).sha256 = sha256
  old : ∀ i hash, (req i).Concerns tenantId userId email → (req i).newHash (env i) = some hash →
    fingerprint sha256 hash ≠ fingerprint sha256 first
  new : ∀ i j hash hash', i ≠ j → (req i).Concerns tenantId userId email →
    (req j).Concerns tenantId userId email → (req i).newHash (env i) = some hash →
    (req j).newHash (env j) = some hash' → fingerprint sha256 hash ≠ fingerprint sha256 hash'

/-- The hashes that the user has had: the first one and those of committed requests. -/
def Held (tenantId userId : UUID) (email : String) (env : ι → PasswordEnv)
    (req : ι → AuthRequest) (first : String) (m : ι → Option Unit) (hash : String) : Prop :=
  hash = first ∨ ∃ i, m i = some () ∧ (req i).Concerns tenantId userId email ∧
    (req i).newHash (env i) = some hash

/-- The user's hash is one of those. -/
def Known (tenantId userId : UUID) (email : String) (env : ι → PasswordEnv)
    (req : ι → AuthRequest) (first : String) (m : ι → Option Unit) (db : AuthDb) : Prop :=
  ∃ hash, hashOf userId db = some hash ∧ Held tenantId userId email env req first m hash

/-- A fingerprint that one of the user's hashes had, and the present one has not. -/
def SpentLink (sha256 : String → String) (tenantId userId : UUID) (email : String)
    (env : ι → PasswordEnv) (req : ι → AuthRequest) (first : String) (pwdFp : String)
    (m : ι → Option Unit) (db : AuthDb) : Prop :=
  (∃ hash, Held tenantId userId email env req first m hash ∧ fingerprint sha256 hash = pwdFp) ∧
    ∀ hash ∈ hashOf userId db, fingerprint sha256 hash ≠ pwdFp

variable {sha256 : String → String} {first : String} {m : ι → Option Unit}
  {db : AuthDb} {o : List AuthDb} {w : AuthDb → AuthDb} {pwdFp : String}

section Commits
variable [DecidableEq ι]

theorem Held.update {hash : String} (h : Held tenantId userId email env req first m hash)
    (i : ι) : Held tenantId userId email env req first (Function.update m i (some ())) hash := by
  rcases h with hfirst | ⟨j, hj, hrest⟩
  · exact .inl hfirst
  · refine .inr ⟨j, ?_, hrest⟩
    by_cases hji : j = i
    · rw [hji, Function.update_self]
    · rw [Function.update_of_ne hji]
      exact hj

omit [DecidableEq ι] in
/-- Two hashes of the user with one fingerprint are the same hash. -/
theorem Held.inj (hfresh : FreshHashes sha256 tenantId userId email env req first)
    {hash hash' : String} (h : Held tenantId userId email env req first m hash)
    (h' : Held tenantId userId email env req first m hash')
    (heq : fingerprint sha256 hash = fingerprint sha256 hash') : hash = hash' := by
  rcases h with rfl | ⟨i, -, hi, hnew⟩
  · rcases h' with rfl | ⟨j, -, hj, hnew'⟩
    · rfl
    · exact absurd heq.symm (hfresh.old j hash' hj hnew')
  · rcases h' with rfl | ⟨j, -, hj, hnew'⟩
    · exact absurd heq (hfresh.old i hash hi hnew)
    · by_cases hij : i = j
      · subst hij
        exact Option.some.inj (hnew.symm.trans hnew')
      · exact absurd heq (hfresh.new i j hash hash' hij hi hj hnew hnew')

theorem Known.commit (h : Known tenantId userId email env req first m db)
    (heffect : HashEffect tenantId userId email (env i) (req i) o w)
    (hinv : (links tenantId userId email req).inv db) :
    Known tenantId userId email env req first (Function.update m i (some ())) (w db) := by
  rcases heffect.hash hinv with hsame | ⟨hconcerns, hash, hnew, hhash⟩
  · obtain ⟨hash, hhash, hheld⟩ := h
    exact ⟨hash, hsame.trans hhash, hheld.update i⟩
  · exact ⟨hash, hhash, .inr ⟨i, Function.update_self .., hconcerns, hnew⟩⟩

omit [DecidableEq ι] in
/-- The hash of a request that has not committed yet is none of those the user has had. -/
theorem Held.ne_new (hfresh : FreshHashes sha256 tenantId userId email env req first)
    {hash new : String} (h : Held tenantId userId email env req first m hash) (hm : m i = none)
    (hconcerns : (req i).Concerns tenantId userId email)
    (hnew : (req i).newHash (env i) = some new) :
    fingerprint sha256 new ≠ fingerprint sha256 hash := by
  rcases h with rfl | ⟨j, hj, hconcerns', hnew'⟩
  · exact hfresh.old i new hconcerns hnew
  · have hij : i ≠ j := by
      rintro rfl
      rw [hm] at hj
      cases hj
    exact hfresh.new i j new hash hij hconcerns hconcerns' hnew hnew'

theorem SpentLink.commit (hfresh : FreshHashes sha256 tenantId userId email env req first)
    (h : SpentLink sha256 tenantId userId email env req first pwdFp m db) (hm : m i = none)
    (heffect : HashEffect tenantId userId email (env i) (req i) o w)
    (hinv : (links tenantId userId email req).inv db) :
    SpentLink sha256 tenantId userId email env req first pwdFp
      (Function.update m i (some ())) (w db) := by
  obtain ⟨⟨old, hheld, hold⟩, hnow⟩ := h
  refine ⟨⟨old, hheld.update i, hold⟩, ?_⟩
  rcases heffect.hash hinv with hsame | ⟨hconcerns, new, hnew, hhash⟩
  · rw [hsame]
    exact hnow
  · intro hash hmem
    rw [hhash] at hmem
    cases hmem
    rw [← hold]
    exact hheld.ne_new hfresh hm hconcerns hnew

omit [DecidableEq ι] in
/-- A timely reset finds the fingerprint of its link on the hash that it overwrites. -/
theorem fingerprint_of_reset (hfresh : FreshHashes sha256 tenantId userId email env req first)
    {claims : ResetClaims} {new : String} (hreq : req i = .resetPassword (some claims) new)
    (hsub : claims.sub = userId)
    (heffect : HashEffect tenantId userId email (env i) (req i) o w)
    (htime : (links tenantId userId email req).timing.commit i o db) :
    ∃ hash, hashOf userId db = some hash ∧ fingerprint sha256 hash = claims.pwdFp := by
  obtain ⟨-, db₀, u, hlast, hu, hfp⟩ := heffect.reset claims new hreq hsub
  have hread : HashAsRead userId o db := by
    have htimely : (req i).LinkTimely userId o db := htime
    rw [hreq] at htimely
    exact htimely hsub
  have hsame := hread db₀ hlast
  refine ⟨u.passwordHash, ?_, ?_⟩
  · rw [hsame]
    unfold hashOf
    rw [hu]
    rfl
  · unfold passwordFingerprint at hfp
    rw [hfresh.digest i] at hfp
    exact hfp

/-- The reset of a link spends it. -/
theorem spentLink_of_reset (hfresh : FreshHashes sha256 tenantId userId email env req first)
    {claims : ResetClaims} {new : String} (hreq : req i = .resetPassword (some claims) new)
    (htenant : claims.tenantId = tenantId) (hsub : claims.sub = userId)
    (heffect : HashEffect tenantId userId email (env i) (req i) o w)
    (hinv : (links tenantId userId email req).inv db)
    (htime : (links tenantId userId email req).timing.commit i o db) (hm : m i = none)
    (hknown : Known tenantId userId email env req first m db) :
    SpentLink sha256 tenantId userId email env req first claims.pwdFp
      (Function.update m i (some ())) (w db) := by
  obtain ⟨hash, hhash, hfp⟩ := fingerprint_of_reset hfresh hreq hsub heffect htime
  obtain ⟨hash', hhash', hheld⟩ := hknown
  have hsame : hash = hash' := Option.some.inj (hhash.symm.trans hhash')
  subst hsame
  refine ⟨⟨hash, hheld.update i, hfp⟩, ?_⟩
  have hset : hashOf userId (w db) = some ((env i).hashPassword new) :=
    hashOf_set (heffect.reset claims new hreq hsub).1 hinv
  have hconcerns : (req i).Concerns tenantId userId email := by
    rw [hreq]
    exact ⟨claims, rfl, htenant, hsub⟩
  have hnew : (req i).newHash (env i) = some ((env i).hashPassword new) := by
    rw [hreq]
    rfl
  intro now hnow
  rw [hset] at hnow
  cases hnow
  rw [← hfp]
  exact hheld.ne_new hfresh hm hconcerns hnew

omit [DecidableEq ι] in
/-- A spent link is not used any more. -/
theorem SpentLink.unused (hfresh : FreshHashes sha256 tenantId userId email env req first)
    {claims : ResetClaims} {new : String} (hreq : req i = .resetPassword (some claims) new)
    (hsub : claims.sub = userId)
    (h : SpentLink sha256 tenantId userId email env req first claims.pwdFp m db)
    (heffect : HashEffect tenantId userId email (env i) (req i) o w)
    (htime : (links tenantId userId email req).timing.commit i o db) : False := by
  obtain ⟨hash, hhash, hfp⟩ := fingerprint_of_reset hfresh hreq hsub heffect htime
  exact h.2 hash hhash hfp

/-! Whole runs -/

def IsReset (req : ι → AuthRequest) (claims : ResetClaims) (i : ι) : Prop :=
  ∃ new, req i = .resetPassword (some claims) new

omit [DecidableEq ι] in
theorem endsWithHash_commits (i : ι) (r : Except AuthError Unit) (o : List AuthDb) (L : Set UUID)
    (w : AuthDb → AuthDb) (A : AuthDb → Prop)
    (h : EndsWithHash tenantId userId email env req i r o L w A) :
    Commits (links tenantId userId email req) i r o L w A := by
  intro a hr db hinv _ _
  exact ⟨trivial, (h hr).inv hinv⟩

/-- What is true of the answers and the committed state all along. -/
structure LinkHistory (sha256 : String → String) (tenantId userId : UUID) (email : String)
    (env : ι → PasswordEnv) (req : ι → AuthRequest) (first : String) (claims : ResetClaims)
    (m : ι → Option Unit) (db : AuthDb) : Prop where
  known : Known tenantId userId email env req first m db
  spent : ∀ i, IsReset req claims i → m i = some () →
    SpentLink sha256 tenantId userId email env req first claims.pwdFp m db
  once : ∀ i j, IsReset req claims i → IsReset req claims j → m i = some () → m j = some () →
    i = j

theorem LinkHistory.commit (hfresh : FreshHashes sha256 tenantId userId email env req first)
    {claims : ResetClaims} (htenant : claims.tenantId = tenantId) (hsub : claims.sub = userId)
    (h : LinkHistory sha256 tenantId userId email env req first claims m db) (hm : m i = none)
    (heffect : HashEffect tenantId userId email (env i) (req i) o w)
    (hinv : (links tenantId userId email req).inv db)
    (htime : (links tenantId userId email req).timing.commit i o db) :
    LinkHistory sha256 tenantId userId email env req first claims
      (Function.update m i (some ())) (w db) := by
  have hold : ∀ j, j ≠ i → Function.update m i (some ()) j = some () → m j = some () := by
    intro j hji hj
    rwa [Function.update_of_ne hji] at hj
  have hfirst : ∀ j, IsReset req claims j → j ≠ i → IsReset req claims i →
      Function.update m i (some ()) j = some () → False := by
    rintro j hreset hji ⟨new, hreq⟩ hj
    exact (h.spent j hreset (hold j hji hj)).unused hfresh hreq hsub heffect htime
  refine ⟨h.known.commit heffect hinv, ?_, ?_⟩
  · intro j hreset hj
    by_cases hji : j = i
    · subst hji
      obtain ⟨new, hreq⟩ := hreset
      exact spentLink_of_reset hfresh hreq htenant hsub heffect hinv htime hm h.known
    · exact (h.spent j hreset (hold j hji hj)).commit hfresh hm heffect hinv
  · intro j k hj hk hmj hmk
    by_cases hji : j = i
    · by_cases hki : k = i
      · rw [hji, hki]
      · exact (hfirst k hk hki (hji ▸ hj) hmk).elim
    · by_cases hki : k = i
      · exact (hfirst j hj hji (hki ▸ hk) hmj).elim
      · exact h.once j k hj hk (hold j hji hmj) (hold k hki hmk)

theorem linkHistory_of_reach (hfresh : FreshHashes sha256 tenantId userId email env req first)
    (hinv : (links tenantId userId email req).inv db) (hhash : hashOf userId db = some first)
    {claims : ResetClaims} (htenant : claims.tenantId = tenantId) (hsub : claims.sub = userId)
    {c : Config AuthDb UUID AuthError Unit ι}
    (hr : Config.Reach (links tenantId userId email req).timing
      (Config.start db fun i => (req i).prog (env i)) c) :
    LinkHistory sha256 tenantId userId email env req first claims c.results c.db := by
  refine results_of_reach endsWithHash_commits ?_ hinv ?_ runs_request_hash hr
  · intro i _ o _ w _ m s hend hs _ htime hm h
    exact h.commit hfresh htenant hsub hm (hend rfl) hs htime
  · exact ⟨⟨first, hhash, .inl rfl⟩, fun _ _ => nofun, fun _ _ _ _ => nofun⟩

/-- Where no reset overwrites a hash other than the one it has read, a link is used at most
once, and not at all once the hash it was issued for has been replaced. -/
theorem reset_link_single_use (hfresh : FreshHashes sha256 tenantId userId email env req first)
    (hinv : (links tenantId userId email req).inv db) (hhash : hashOf userId db = some first)
    {claims : ResetClaims} (htenant : claims.tenantId = tenantId) (hsub : claims.sub = userId)
    {c : Config AuthDb UUID AuthError Unit ι}
    (hr : Config.Reach (links tenantId userId email req).timing
      (Config.start db fun i => (req i).prog (env i)) c) :
    (∀ i j, IsReset req claims i → IsReset req claims j → c.tx i = .committed () →
        c.tx j = .committed () → i = j) ∧
      ∀ issued changed : Config AuthDb UUID AuthError Unit ι,
        Config.Reach (links tenantId userId email req).timing
          (Config.start db fun i => (req i).prog (env i)) issued →
        (hashOf userId issued.db).map (fingerprint sha256) = some claims.pwdFp →
        Config.Reach (links tenantId userId email req).timing issued changed →
        hashOf userId changed.db ≠ hashOf userId issued.db →
        Config.Reach (links tenantId userId email req).timing changed c →
        ∀ i, IsReset req claims i → c.tx i = .committed () → changed.tx i = .committed () := by
  have hresult : ∀ (c : Config AuthDb UUID AuthError Unit ι) i, c.tx i = .committed () →
      c.results i = some () := by
    intro c i hi
    simp [Config.results, hi, TxState.result]
  constructor
  · intro i j hi hj hci hcj
    exact (linkHistory_of_reach hfresh hinv hhash htenant hsub hr).once i j hi hj
      (hresult c i hci) (hresult c j hcj)
  · intro issued changed hissued hfp hchanged hne hlater i hreset hi
    obtain ⟨hash, hhashIssued, hheld⟩ :=
      (linkHistory_of_reach hfresh hinv hhash htenant hsub hissued).known
    rw [hhashIssued, Option.map_some, Option.some.injEq] at hfp
    -- the hash of the issue is one that the user has had, from then on
    have hheld' : Held tenantId userId email env req first changed.results hash := by
      refine results_from (J := fun m _ => Held tenantId userId email env req first m hash)
        endsWithHash_commits ?_ hinv runs_request_hash hissued hheld hchanged
      intro i _ _ _ _ _ m _ _ _ _ _ _ h
      exact h.update i
    obtain ⟨now, hnow, hheldNow⟩ :=
      (linkHistory_of_reach hfresh hinv hhash htenant hsub (hissued.trans hchanged)).known
    have hspent : SpentLink sha256 tenantId userId email env req first claims.pwdFp
        changed.results changed.db := by
      refine ⟨⟨hash, hheld', hfp⟩, ?_⟩
      intro now' hnow' heq
      rw [hnow] at hnow'
      cases hnow'
      apply hne
      rw [hnow, hhashIssued, hheldNow.inj hfresh hheld' (heq.trans hfp.symm)]
    have hkept : SpentLink sha256 tenantId userId email env req first claims.pwdFp c.results c.db ∧
        ∀ i, IsReset req claims i → c.results i = changed.results i := by
      refine results_from (J := fun m s =>
        SpentLink sha256 tenantId userId email env req first claims.pwdFp m s ∧
          ∀ i, IsReset req claims i → m i = changed.results i)
        endsWithHash_commits ?_ hinv runs_request_hash (hissued.trans hchanged)
        ⟨hspent, fun _ _ => rfl⟩ hlater
      rintro j _ o _ w _ m s hend hs _ htime hm ⟨h, hsame⟩
      refine ⟨h.commit hfresh hm (hend rfl) hs, ?_⟩
      intro k hk
      by_cases hkj : k = j
      · subst hkj
        obtain ⟨new, hreq⟩ := hk
        exact (h.unused hfresh hreq hsub (hend rfl) htime).elim
      · rw [Function.update_of_ne hkj]
        exact hsame k hk
    apply Config.tx_of_results
    rw [← hkept.2 i hreset]
    exact hresult c i hi

end Commits

end Links

instance (userId : UUID) (reads : List AuthDb) (db : AuthDb) :
    Decidable (HashAsRead userId reads db) := by
  unfold HashAsRead
  infer_instance

instance (userId : UUID) : (r : AuthRequest) → (o : List AuthDb) → (db : AuthDb) →
    Decidable (r.LinkTimely userId o db)
  | .refresh _, _, _ => inferInstanceAs (Decidable True)
  | .login _, _, _ => inferInstanceAs (Decidable True)
  | .changePassword .., _, _ => inferInstanceAs (Decidable True)
  | .resetPassword none _, _, _ => inferInstanceAs (Decidable True)
  | .resetPassword (some claims) _, o, db =>
    inferInstanceAs (Decidable (claims.sub = userId → HashAsRead userId o db))

instance (tenantId userId : UUID) (email : String) (req : ι → AuthRequest) (i : ι)
    (o : List AuthDb) (db : AuthDb) :
    Decidable ((links tenantId userId email req).timing.commit i o db) :=
  inferInstanceAs (Decidable ((req i).LinkTimely userId o db))

instance (tenantId userId : UUID) (email : String) (req : ι → AuthRequest) (i : ι)
    (o : List AuthDb) (db : AuthDb) :
    Decidable ((links tenantId userId email req).timing.lock i o db) :=
  inferInstanceAs (Decidable True)

/-! One link, opened twice -/

namespace Demo

/-- The claims of a link that was issued for the hash of `signedIn`. -/
def linkClaims : ResetClaims := ⟨1, 5, "h$old"⟩

def resetTwice (i : Bool) : AuthRequest := .resetPassword (some linkClaims) (if i then "b" else "a")

theorem freshHashes_resetTwice : FreshHashes (fun raw => "h" ++ raw) 1 5 "ada@example.org"
    passwordEnv resetTwice "$old" where
  digest _ := rfl
  old i hash _ hnew := by
    cases i <;> cases hnew <;> decide
  new i j hash hash' hij _ _ hnew hnew' := by
    cases i <;> cases j <;> cases hnew <;> cases hnew' <;> first | exact absurd rfl hij | decide

theorem inv_signedIn : (links 1 5 "ada@example.org" resetTwice).inv signedIn := rfl

theorem isReset_resetTwice (i : Bool) : IsReset resetTwice linkClaims i := ⟨_, rfl⟩

def bothReset (c : Config AuthDb UUID AuthError Unit Bool) : Bool × Bool :=
  ((c.results false).isSome, (c.results true).isSome)

/-- The first one to its commit. -/
def linkUsed : List (Event Bool) := List.replicate 9 (.step false)

/-- The second one, which reads the user only then. -/
def linkAgain : List (Event Bool) := List.replicate 2 (.step true)

/-- The second one reads the user before the first one commits. -/
def bothRead : List (Event Bool) :=
  .step true :: (List.replicate 9 (.step false) ++ List.replicate 6 (.step true))

end Demo

/-- The link is used once, and no longer when the first use has changed the hash. -/
theorem reset_link_single_use_demo :
    ∃ changed c, (Config.start Demo.signedIn fun i =>
          (Demo.resetTwice i).prog (Demo.passwordEnv i)).runIn
        (links 1 5 "ada@example.org" Demo.resetTwice).timing Demo.linkUsed = some changed ∧
      changed.runIn (links 1 5 "ada@example.org" Demo.resetTwice).timing Demo.linkAgain = some c ∧
      hashOf 5 changed.db = some "$a" ∧ Demo.bothReset c = (true, false) ∧
      (∀ i j, IsReset Demo.resetTwice Demo.linkClaims i →
        IsReset Demo.resetTwice Demo.linkClaims j →
        c.tx i = .committed () → c.tx j = .committed () → i = j) ∧
      ∀ i, IsReset Demo.resetTwice Demo.linkClaims i → c.tx i = .committed () →
        changed.tx i = .committed () := by
  have hruns : ((Config.start Demo.signedIn fun i =>
      (Demo.resetTwice i).prog (Demo.passwordEnv i)).runIn
        (links 1 5 "ada@example.org" Demo.resetTwice).timing Demo.linkUsed).bind (fun changed =>
      (changed.runIn (links 1 5 "ada@example.org" Demo.resetTwice).timing Demo.linkAgain).map
        fun c => (hashOf 5 changed.db, Demo.bothReset c)) = some (some "$a", (true, false)) := by
    decide
  obtain ⟨changed, hused, hrest⟩ := Option.bind_eq_some_iff.mp hruns
  obtain ⟨c, hagain, hc⟩ := Option.map_eq_some_iff.mp hrest
  obtain ⟨hhash, hresults⟩ := Prod.mk.inj hc
  have hreached := Config.reach_of_runIn hused
  have hlater := Config.reach_of_runIn hagain
  have htenant : Demo.linkClaims.tenantId = 1 := rfl
  have hsub : Demo.linkClaims.sub = 5 := rfl
  have hlink := reset_link_single_use Demo.freshHashes_resetTwice Demo.inv_signedIn rfl
    htenant hsub (hreached.trans hlater)
  refine ⟨changed, c, hused, hagain, hhash, hresults, hlink.1, ?_⟩
  exact hlink.2 _ _ .refl rfl hreached (by rw [hhash]; decide) hlater

/-- Both resets find the old hash, and the link has changed the password twice. -/
theorem reset_link_used_twice :
    FreshHashes (fun raw => "h" ++ raw) 1 5 "ada@example.org" Demo.passwordEnv Demo.resetTwice
        "$old" ∧
      ∃ c : Config AuthDb UUID AuthError Unit Bool,
        Config.Reach .any (Config.start Demo.signedIn fun i =>
          (Demo.resetTwice i).prog (Demo.passwordEnv i)) c ∧
        IsReset Demo.resetTwice Demo.linkClaims false ∧
        IsReset Demo.resetTwice Demo.linkClaims true ∧
        c.tx false = .committed () ∧ c.tx true = .committed () := by
  refine ⟨Demo.freshHashes_resetTwice, ?_⟩
  have hrun : ((Config.start Demo.signedIn fun i =>
      (Demo.resetTwice i).prog (Demo.passwordEnv i)).run Demo.bothRead).map Demo.bothReset
        = some (true, true) := by
    decide
  obtain ⟨c, hrun, hc⟩ := Option.map_eq_some_iff.mp hrun
  obtain ⟨hfalse, htrue⟩ := Prod.mk.inj hc
  exact ⟨c, Config.reach_of_run hrun, Demo.isReset_resetTwice false, Demo.isReset_resetTwice true,
    committed_of_isSome hfalse, committed_of_isSome htrue⟩

end OpenPms
