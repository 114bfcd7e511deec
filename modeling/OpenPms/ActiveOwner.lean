import OpenPms.RefreshTokens

/-!
Changes of a user's role and activity. The owners other than the target are counted and
then only the row of the target is written, so two changes that count each other's target
both pass; a change that loses its target as an owner has to find another one when it commits.
-/
namespace OpenPms

open KeyedTable Transaction Prog Interleaving

/-! The service -/

/-- Each field is absent, null or set. -/
structure UserPatchRequest where
  isActive : Option (Option Bool)
  role : Option (Option String)
  role_length : ∀ r ∈ role.join, 1 ≤ r.length ∧ r.length ≤ 32

def userRoles : List String := ["owner", "manager", "viewer", "housekeeper", "receptionist"]

def normalizedRole (role : String) : String := Text.lower (Text.strip role)

def getUser (tenantId userId : UUID) (db : AuthDb) : Option User :=
  (db.users.find userId).filter fun u => u.tenantId = tenantId

def userNotFound : AuthError := .authService "user not found" 404

def ownerRoleDenied : AuthError := .authService "only an owner can assign the owner role" 403

/-- The owner of the column is compared as it is stored. -/
def IsActiveOwner (tenantId : UUID) (u : User) : Prop :=
  u.tenantId = tenantId ∧ u.role = "owner" ∧ u.isActive = true

instance (tenantId : UUID) : DecidablePred (IsActiveOwner tenantId) :=
  fun _ => inferInstanceAs (Decidable (_ ∧ _))

def otherActiveOwners (tenantId targetUserId : UUID) (db : AuthDb) : ℕ :=
  db.users.rows.countP fun u => u.id ≠ targetUserId ∧ IsActiveOwner tenantId u

namespace UserPatchRequest
variable (body : UserPatchRequest)

/-- A null activity is `bool(None)`. -/
def nextActive (target : User) : Bool := body.isActive.elim target.isActive (·.getD false)

def newRole : Option String := body.role.join.map normalizedRole

def nextRole (target : User) : String := body.newRole.getD (normalizedRole target.role)

/-- The target is an active owner afterwards, as it was loaded. -/
def ContributesOwner (target : User) : Prop :=
  body.nextRole target = "owner" ∧ body.nextActive target = true

instance (target : User) : Decidable (body.ContributesOwner target) :=
  inferInstanceAs (Decidable (_ ∧ _))

/-- The flush writes the columns that have changed since the user was loaded. -/
def columns (loaded u : User) : User :=
  { u with
    role := if body.newRole.getD loaded.role = loaded.role then u.role
      else body.newRole.getD loaded.role
    isActive := if body.nextActive loaded = loaded.isActive then u.isActive
      else body.nextActive loaded }

theorem id_columns (loaded u : User) : (body.columns loaded u).id = u.id := rfl

end UserPatchRequest

/-- UPDATE of a loaded user. -/
def updateUser (loaded : User) (f : User → User) (hf : ∀ u, (f u).id = u.id) : AuthTx Unit := do
  acquire loaded.id
  let present ← select fun db => (db.users.find loaded.id).isSome
  raiseIf (present = false) .staleData
  modify fun db => { db with users := db.users.update loaded.id f hf }

/-- The source asks a second time, after the names of the roles, whether a manager assigns the
owner role; that question never refuses what the first one has let pass. -/
def patchUser (tenantId actorUserId : UUID) (actorRole : String) (targetUserId : UUID)
    (body : UserPatchRequest) : AuthTx User :=
  if body.isActive = none ∧ body.role = none then do
    let target ← select (getUser tenantId targetUserId)
    match target with
    | none => raise userNotFound
    | some target => pure target
  else do
    let actor := normalizedRole actorRole
    raiseIf (actorUserId = targetUserId ∧ body.isActive = some (some false))
      (.authService "cannot deactivate yourself" 400)
    let target ← select (getUser tenantId targetUserId)
    match target with
    | none => raise userNotFound
    | some target => do
      raiseIf (actor = "manager" ∧ normalizedRole target.role = "owner")
        (.authService "managers cannot modify an owner account" 403)
      raiseIf (actor = "manager" ∧ body.newRole = some "owner") ownerRoleDenied
      raiseIf (∃ r ∈ body.newRole, r ∉ userRoles) (.authService
        "role must be one of: housekeeper, manager, owner, receptionist, viewer" 422)
      let others ← select (otherActiveOwners tenantId targetUserId)
      raiseIf ((if body.ContributesOwner target then 1 else 0) + others < 1)
        (.authService "tenant must keep at least one active owner" 409)
      runIf (body.columns target target ≠ target)
        (updateUser target (body.columns target) (body.id_columns target))
      pure (body.columns target target)

/-! Any number of changes at a time -/

variable {ι : Type}

structure UserPatch where
  actorUserId : UUID
  actorRole : String
  targetUserId : UUID
  body : UserPatchRequest

def UserPatch.prog (tenantId : UUID) (p : UserPatch) : AuthTx User :=
  patchUser tenantId p.actorUserId p.actorRole p.targetUserId p.body

def HasActiveOwner (tenantId : UUID) (db : AuthDb) : Prop :=
  ∃ u ∈ db.users.rows, IsActiveOwner tenantId u

/-- The first read is that of the target, and the second one counts the others. -/
def OwnersAsCounted (tenantId : UUID) (p : UserPatch) (reads : List AuthDb) (db : AuthDb) : Prop :=
  match reads.reverse with
  | loaded :: counted :: _ => ∀ target ∈ getUser tenantId p.targetUserId loaded,
      ¬ p.body.ContributesOwner target →
        0 < otherActiveOwners tenantId p.targetUserId counted →
          0 < otherActiveOwners tenantId p.targetUserId db
  | _ => True

/-- The discipline of changes whose commits still find another owner. -/
def ownership (tenantId : UUID) (patches : ι → UserPatch) : Discipline AuthDb UUID ι where
  inv := HasActiveOwner tenantId
  guar _ _ _ := True
  timing := ⟨fun _ _ _ => True, fun i o db => OwnersAsCounted tenantId (patches i) o db⟩

section Ownership
variable {tenantId : UUID} {patches : ι → UserPatch} {i : ι} {db : AuthDb}

theorem stable_ownership (L : Set UUID) :
    Stable (ownership tenantId patches) L fun _ => True :=
  fun _ _ _ _ _ _ _ => trivial

theorem otherActiveOwners_pos {target : UUID} :
    0 < otherActiveOwners tenantId target db ↔
      ∃ u ∈ db.users.rows, u.id ≠ target ∧ IsActiveOwner tenantId u := by
  unfold otherActiveOwners
  rw [List.countP_pos_iff]
  simp only [decide_eq_true_eq]

/-- A change that leaves its target an active owner takes nobody's ownership away. -/
theorem isActiveOwner_columns {body : UserPatchRequest} {loaded u : User}
    (hcontributes : body.ContributesOwner loaded) (hu : IsActiveOwner tenantId u) :
    IsActiveOwner tenantId (body.columns loaded u) := by
  obtain ⟨htenant, hrole, hactive⟩ := hu
  obtain ⟨hnext, hnextActive⟩ := hcontributes
  refine ⟨htenant, ?_, ?_⟩
  · simp only [UserPatchRequest.columns]
    cases hnew : body.newRole with
    | none => simp [hrole]
    | some r =>
      simp only [UserPatchRequest.nextRole, hnew, Option.getD_some] at hnext
      simp only [Option.getD_some, hnext, hrole, ite_self]
  · simp only [UserPatchRequest.columns, hnextActive, hactive, ite_self]

theorem hasActiveOwner_update {body : UserPatchRequest} {loaded : User}
    (hdb : HasActiveOwner tenantId db)
    (hother : ¬ body.ContributesOwner loaded → 0 < otherActiveOwners tenantId loaded.id db) :
    HasActiveOwner tenantId { db with
      users := db.users.update loaded.id (body.columns loaded) (body.id_columns loaded) } := by
  have hrows : ∀ u ∈ db.users.rows, (if u.id = loaded.id then body.columns loaded u else u) ∈
      (db.users.update loaded.id (body.columns loaded) (body.id_columns loaded)).rows :=
    fun u hu => List.mem_map.mpr ⟨u, hu, rfl⟩
  by_cases hcontributes : body.ContributesOwner loaded
  · obtain ⟨u, hu, howner⟩ := hdb
    refine ⟨_, hrows u hu, ?_⟩
    split
    · exact isActiveOwner_columns hcontributes howner
    · exact howner
  · obtain ⟨u, hu, hne, howner⟩ := otherActiveOwners_pos.mp (hother hcontributes)
    refine ⟨_, hrows u hu, ?_⟩
    rw [if_neg hne]
    exact howner

theorem getUser_id {userId : UUID} {u : User} (h : getUser tenantId userId db = some u) :
    u.id = userId := by
  obtain ⟨hfind, -⟩ := Option.filter_eq_some_iff.mp h
  exact (Table.find_eq_some.mp hfind).2

theorem patchUser_disciplined (i : ι) :
    Disciplined (ownership tenantId patches) i ((patches i).prog tenantId) := by
  apply Runs.disciplined
  unfold UserPatch.prog patchUser
  split
  · refine runs_select_bind (stable_ownership _) fun db₀ _ _ => ?_
    split
    · exact runs_raise (commits_error _)
    · exact runs_pure fun _ _ db hdb _ _ => ⟨trivial, hdb⟩
  · refine runs_raiseIf_bind (commits_error _) fun _ => ?_
    refine runs_select_bind (stable_ownership _) fun db₀ _ _ => ?_
    cases htarget : getUser tenantId (patches i).targetUserId db₀ with
    | none =>
      simp only [id, htarget]
      exact runs_raise (commits_error _)
    | some target =>
      simp only [id, htarget]
      refine runs_raiseIf_bind (commits_error _) fun _ => ?_
      refine runs_raiseIf_bind (commits_error _) fun _ => ?_
      refine runs_raiseIf_bind (commits_error _) fun _ => ?_
      refine runs_select_bind (stable_ownership _) fun db₁ _ _ => ?_
      refine runs_raiseIf_bind (commits_error _) fun hcount => ?_
      unfold runIf
      split
      · unfold updateUser
        refine runs_bind (P := Commits (ownership tenantId patches) i) ?_ ?_ ?_
        · refine runs_acquire_bind (stable_ownership _) ?_
          refine runs_select_bind (stable_ownership _) fun db₂ _ _ => ?_
          refine runs_raiseIf_bind (commits_error _) fun _ => ?_
          refine ⟨?_⟩
          intro _ _ db hdb _ htime
          refine ⟨trivial, hasActiveOwner_update hdb fun hlost => ?_⟩
          rw [if_neg hlost] at hcount
          have hid := getUser_id htarget
          have hnow : OwnersAsCounted tenantId (patches i) [db₂, db₁, db₀] db := htime
          rw [hid]
          refine hnow target htarget hlost ?_
          simp only [id] at hcount
          omega
        · intro e _ _ _ _ _
          exact commits_error e
        · intro _ o L w A hcommit
          exact runs_pure fun _ _ => hcommit () rfl
      · exact runs_pure fun _ _ db hdb _ _ => ⟨trivial, hdb⟩

/-- In every interleaving of changes of users, as long as each commit that loses its target as
an owner still finds another active owner where its count has found one, the tenant has an
active owner after every commit. -/
theorem tenant_keeps_owner [DecidableEq ι] (hdb : HasActiveOwner tenantId db)
    {c : Config AuthDb UUID AuthError User ι}
    (hr : Config.Reach (ownership tenantId patches).timing
      (Config.start db fun i => (patches i).prog tenantId) c) : HasActiveOwner tenantId c.db :=
  inv_of_reach (D := ownership tenantId patches) hdb patchUser_disciplined hr

end Ownership

instance (tenantId : UUID) (p : UserPatch) (reads : List AuthDb) (db : AuthDb) :
    Decidable (OwnersAsCounted tenantId p reads db) := by
  unfold OwnersAsCounted
  split <;> infer_instance

instance (tenantId : UUID) (patches : ι → UserPatch) (i : ι) (o : List AuthDb) (db : AuthDb) :
    Decidable ((ownership tenantId patches).timing.commit i o db) :=
  inferInstanceAs (Decidable (OwnersAsCounted tenantId (patches i) o db))

instance (tenantId : UUID) (patches : ι → UserPatch) (i : ι) (o : List AuthDb) (db : AuthDb) :
    Decidable ((ownership tenantId patches).timing.lock i o db) :=
  inferInstanceAs (Decidable True)

/-! Two owners who make managers of each other -/

namespace Demo

def ada : User := ⟨5, 1, "owner", true, "ada@example.org", "$old"⟩

def ben : User := ⟨6, 1, "owner", true, "ben@example.org", "$old"⟩

def eve : User := ⟨7, 1, "owner", true, "eve@example.org", "$old"⟩

def twoOwners : AuthDb := ⟨⟨[ada, ben], by decide⟩, .empty⟩

def threeOwners : AuthDb := ⟨⟨[ada, ben, eve], by decide⟩, .empty⟩

def demote (i : Bool) : UserPatch where
  actorUserId := if i then 6 else 5
  actorRole := "owner"
  targetUserId := if i then 5 else 6
  body := ⟨none, some (some "manager"), by decide⟩

/-- Both count before either commits. -/
def countFirst : List (Event Bool) :=
  [.step false, .step false, .step true, .step true] ++ List.replicate 4 (.step false) ++
    List.replicate 4 (.step true)

end Demo

/-- A third owner remains. -/
theorem tenant_keeps_owner_demo :
    ∃ c, (Config.start Demo.threeOwners fun i => (Demo.demote i).prog 1).runIn
        (ownership 1 Demo.demote).timing Demo.countFirst = some c ∧
      c.db.users.rows.map (·.role) = ["manager", "manager", "owner"] ∧
      HasActiveOwner 1 c.db := by
  have hroles : ((Config.start Demo.threeOwners fun i => (Demo.demote i).prog 1).runIn
      (ownership 1 Demo.demote).timing Demo.countFirst).map
      (fun c => c.db.users.rows.map (·.role)) = some ["manager", "manager", "owner"] := by
    decide
  obtain ⟨c, hrun, hc⟩ := Option.map_eq_some_iff.mp hroles
  have hfirst : HasActiveOwner 1 Demo.threeOwners := ⟨Demo.ada, by decide, by decide⟩
  exact ⟨c, hrun, hc, tenant_keeps_owner hfirst (Config.reach_of_runIn hrun)⟩

theorem tenant_loses_owner :
    HasActiveOwner 1 Demo.twoOwners ∧
    ∃ c : Config AuthDb UUID AuthError User Bool,
      Config.Reach .any (Config.start Demo.twoOwners fun i => (Demo.demote i).prog 1) c ∧
      ¬ HasActiveOwner 1 c.db := by
  have hroles : ((Config.start Demo.twoOwners fun i => (Demo.demote i).prog 1).run
      Demo.countFirst).map (fun c => c.db.users.rows.map (·.role)) =
        some ["manager", "manager"] := by
    decide
  obtain ⟨c, hrun, hc⟩ := Option.map_eq_some_iff.mp hroles
  refine ⟨⟨Demo.ada, by decide, by decide⟩, c, Config.reach_of_run hrun, ?_⟩
  rintro ⟨u, hu, howner⟩
  have hrole : u.role ∈ c.db.users.rows.map (·.role) := List.mem_map_of_mem hu
  rw [hc, howner.2.1] at hrole
  exact absurd hrole (by decide)

end OpenPms
