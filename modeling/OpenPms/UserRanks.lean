import OpenPms.ActiveOwner

/-!
Ranks of the users in a change of one of them. The activity of the body is compared with
False where the actor changes its own account, but it is taken as `bool` of the value when
it is written, so that null gets past the comparison.
-/
namespace OpenPms

open KeyedTable Transaction Prog

def User.IsOwner (u : User) : Prop := normalizedRole u.role = "owner"

instance : DecidablePred User.IsOwner := fun _ => inferInstanceAs (Decidable (_ = _))

/-- The stored roles of the tenant are roles that the service knows. -/
def KnownRoles (tenantId : UUID) (db : AuthDb) : Prop :=
  ∀ id u, getUser tenantId id db = some u → u.role ∈ userRoles

def IsManager (actorRole : String) : Prop := normalizedRole actorRole = "manager"

/-- The actor is still active, a manager has neither touched an owner nor made one, and the
roles are known ones. -/
structure RespectsRank (tenantId actorUserId : UUID) (actorRole : String) (db db' : AuthDb) :
    Prop where
  stillActive : ∃ u, getUser tenantId actorUserId db' = some u ∧ u.isActive = true
  ownersKept : IsManager actorRole → ∀ id u, getUser tenantId id db = some u → u.IsOwner →
    db'.users.find id = some u
  noNewOwner : IsManager actorRole → ∀ id u, getUser tenantId id db' = some u → u.IsOwner →
    ∃ u₀, getUser tenantId id db = some u₀ ∧ u₀.IsOwner
  known : KnownRoles tenantId db'

section Patch
variable {tenantId actorUserId targetUserId id : UUID} {actorRole : String}
  {body : UserPatchRequest} {db db' : AuthDb} {v u : User}

theorem getUser_eq_some : getUser tenantId id db = some u ↔
    db.users.find id = some u ∧ u.tenantId = tenantId := by
  unfold getUser
  rw [Option.filter_eq_some_iff, decide_eq_true_eq]

/-- The checks that a change has passed, and the row that it has written. -/
structure PassesRank (tenantId actorUserId targetUserId : UUID) (actorRole : String)
    (body : UserPatchRequest) (db db' : AuthDb) (target : User) : Prop where
  found : getUser tenantId targetUserId db = some target
  self : ¬ (actorUserId = targetUserId ∧ body.isActive = some (some false))
  owner : IsManager actorRole → ¬ target.IsOwner
  ownerRole : IsManager actorRole → body.newRole ≠ some "owner"
  knownRole : ∀ r ∈ body.newRole, r ∈ userRoles
  written : ∀ id, db'.users.find id =
    if id = targetUserId then some (body.columns target target) else db.users.find id

theorem find_written {target : User} (htarget : getUser tenantId targetUserId db = some target)
    (hdb' : db'.users = db.users ∧ body.columns target target = target ∨
      db'.users = db.users.update target.id (body.columns target) (body.id_columns target)) :
    db'.users.find id =
      if id = targetUserId then some (body.columns target target) else db.users.find id := by
  have hid := getUser_id htarget
  have hfind := (getUser_eq_some.mp htarget).1
  rcases hdb' with ⟨hsame, hcolumns⟩ | hupdate
  · rw [hsame, hcolumns]
    split
    · next heq => rw [heq, hfind]
    · rfl
  · rw [hupdate]
    split
    · next heq =>
      rw [heq, ← hid, Table.find_update_self, hid, hfind]
      rfl
    · next hne => exact Table.find_update_of_ne (by rwa [hid])

/-- A change that returns is empty, or it has passed the checks. -/
theorem exec_patchUser_ok
    (h : (patchUser tenantId actorUserId actorRole targetUserId body).exec db = (.ok v, db')) :
    body.isActive = none ∧ db' = db ∨
      ∃ target, PassesRank tenantId actorUserId targetUserId actorRole body db db' target := by
  unfold patchUser at h
  split at h
  · next hempty =>
    obtain ⟨_, db₁, hselect, h⟩ := exec_bind_ok.mp h
    cases hselect
    split at h
    · cases h
    · cases h
      exact .inl ⟨hempty.1, rfl⟩
  · obtain ⟨_, db₁, hcheck, h⟩ := exec_bind_ok.mp h
    obtain ⟨hself, rfl⟩ := exec_raiseIf_ok.mp hcheck
    obtain ⟨_, db₂, hselect, h⟩ := exec_bind_ok.mp h
    cases hselect
    split at h
    · cases h
    · next target htarget =>
      simp only [exec_bind_ok, exec_raiseIf_ok, exec_select, exec_runIf_ok, exec_pure,
        Prod.mk.injEq, Except.ok.injEq] at h
      obtain ⟨_, _, ⟨howner, rfl⟩, _, _, ⟨hrole, rfl⟩, _, _, ⟨hknown, rfl⟩, _, _, ⟨rfl, rfl⟩, _, _,
        ⟨-, rfl⟩, _, _, hwrite, -, rfl⟩ := h
      refine .inr ⟨target, htarget, hself, fun hm ho => howner ⟨hm, ho⟩, fun hm ho => hrole ⟨hm, ho⟩,
        ?_, fun id => find_written htarget ?_⟩
      · intro r hr
        by_contra hnot
        exact hknown ⟨r, hr, hnot⟩
      · rcases hwrite with ⟨-, hwrite⟩ | ⟨hsame, rfl⟩
        · simp only [updateUser, exec_bind_ok, exec_acquire, exec_select, exec_raiseIf_ok,
            exec_modify, Prod.mk.injEq] at hwrite
          obtain ⟨_, _, ⟨-, rfl⟩, _, _, ⟨-, rfl⟩, _, _, ⟨-, rfl⟩, -, rfl⟩ := hwrite
          exact .inr rfl
        · exact .inl ⟨rfl, not_not.mp hsame⟩

variable {target : User}

theorem role_columns :
    (body.columns target target).role = body.newRole.getD target.role := by
  unfold UserPatchRequest.columns
  simp only
  split
  · next heq => exact heq.symm
  · rfl

theorem isActive_columns :
    (body.columns target target).isActive = body.nextActive target := by
  unfold UserPatchRequest.columns
  simp only
  split
  · next heq => exact heq.symm
  · rfl

theorem normalizedRole_known {role : String} (h : role ∈ userRoles) : normalizedRole role = role := by
  unfold userRoles at h
  simp only [List.mem_cons, List.not_mem_nil, or_false] at h
  rcases h with rfl | rfl | rfl | rfl | rfl <;> decide

namespace PassesRank

theorem find_target
    (h : PassesRank tenantId actorUserId targetUserId actorRole body db db' target) :
    db'.users.find targetUserId = some (body.columns target target) := by
  rw [h.written, if_pos rfl]

theorem getUser_other
    (h : PassesRank tenantId actorUserId targetUserId actorRole body db db' target)
    (hne : id ≠ targetUserId) : getUser tenantId id db' = getUser tenantId id db := by
  unfold getUser
  rw [h.written, if_neg hne]

/-- A manager's change leaves a target that is no owner as none. -/
theorem not_owner (h : PassesRank tenantId actorUserId targetUserId actorRole body db db' target)
    (hm : IsManager actorRole) : ¬ (body.columns target target).IsOwner := by
  unfold User.IsOwner
  rw [role_columns]
  cases hnew : body.newRole with
  | none => exact h.owner hm
  | some r =>
    rw [Option.getD_some, normalizedRole_known (h.knownRole r hnew)]
    intro hr
    rw [hr] at hnew
    exact h.ownerRole hm hnew

theorem owners_kept (h : PassesRank tenantId actorUserId targetUserId actorRole body db db' target)
    (hm : IsManager actorRole) (hu : getUser tenantId id db = some u) (ho : u.IsOwner) :
    db'.users.find id = some u := by
  have hne : id ≠ targetUserId := by
    rintro rfl
    cases h.found.symm.trans hu
    exact h.owner hm ho
  rw [h.written, if_neg hne]
  exact (getUser_eq_some.mp hu).1

theorem no_new_owner (h : PassesRank tenantId actorUserId targetUserId actorRole body db db' target)
    (hm : IsManager actorRole) (hu : getUser tenantId id db' = some u) (ho : u.IsOwner) :
    ∃ u₀, getUser tenantId id db = some u₀ ∧ u₀.IsOwner := by
  by_cases hid : id = targetUserId
  · subst hid
    cases h.find_target.symm.trans (getUser_eq_some.mp hu).1
    exact absurd ho (h.not_owner hm)
  · exact ⟨u, (h.getUser_other hid).symm.trans hu, ho⟩

theorem known (h : PassesRank tenantId actorUserId targetUserId actorRole body db db' target)
    (hknown : KnownRoles tenantId db) : KnownRoles tenantId db' := by
  intro id u hu
  by_cases hid : id = targetUserId
  · subst hid
    cases h.find_target.symm.trans (getUser_eq_some.mp hu).1
    rw [role_columns]
    cases hnew : body.newRole with
    | none => exact hknown id target h.found
    | some r => exact h.knownRole r hnew
  · exact hknown id u ((h.getUser_other hid).symm.trans hu)

/-- Of the activities that the comparison lets through only null takes the actor's own. -/
theorem still_active_iff
    (h : PassesRank tenantId actorUserId targetUserId actorRole body db db' target)
    (hactor : getUser tenantId actorUserId db = some u) (hactive : u.isActive = true) :
    (∃ u', getUser tenantId actorUserId db' = some u' ∧ u'.isActive = true) ↔
      ¬ (actorUserId = targetUserId ∧ body.isActive = some none) := by
  by_cases hself : actorUserId = targetUserId
  · subst hself
    cases h.found.symm.trans hactor
    have htenant : (body.columns u u).tenantId = tenantId := (getUser_eq_some.mp h.found).2
    have hfound := getUser_eq_some.mpr ⟨h.find_target, htenant⟩
    rw [hfound]
    simp only [Option.some.injEq, exists_eq_left', isActive_columns, UserPatchRequest.nextActive,
      true_and]
    cases hbody : body.isActive with
    | none => simp [hactive]
    | some value =>
      cases value with
      | none => simp
      | some active =>
        have hnot := h.self
        rw [hbody] at hnot
        cases active with
        | false => exact absurd ⟨rfl, rfl⟩ hnot
        | true => simp
  · rw [h.getUser_other hself, hactor]
    simp [hself, hactive]

end PassesRank

/-- A change of a user that returns respects the ranks exactly if it does not set the actor's
own activity to null. -/
theorem user_edits_respect_rank_iff (hknown : KnownRoles tenantId db)
    (hactor : getUser tenantId actorUserId db = some u) (hactive : u.isActive = true)
    (h : (patchUser tenantId actorUserId actorRole targetUserId body).exec db = (.ok v, db')) :
    RespectsRank tenantId actorUserId actorRole db db' ↔
      ¬ (actorUserId = targetUserId ∧ body.isActive = some none) := by
  rcases exec_patchUser_ok h with ⟨hempty, rfl⟩ | ⟨target, hpasses⟩
  · refine iff_of_true ⟨⟨u, hactor, hactive⟩, fun _ _ u hu _ => (getUser_eq_some.mp hu).1,
      fun _ _ u hu ho => ⟨u, hu, ho⟩, hknown⟩ fun hnull => ?_
    rw [hempty] at hnull
    exact absurd hnull.2 nofun
  · rw [← hpasses.still_active_iff hactor hactive]
    constructor
    · exact RespectsRank.stillActive
    · exact fun hstill => ⟨hstill, fun hm id u => hpasses.owners_kept hm,
        fun hm id u => hpasses.no_new_owner hm, hpasses.known hknown⟩

end Patch

namespace Demo

/-- Null for the activity, as a client sends a field that it leaves blank. -/
def blankActivity : UserPatchRequest := ⟨some none, none, by decide⟩

end Demo

/-- An owner who makes a manager of the other one stays active. -/
theorem user_edits_respect_rank_demotion :
    ∃ v db', (patchUser 1 5 "owner" 6 (Demo.demote false).body).exec Demo.twoOwners = (.ok v, db') ∧
      RespectsRank 1 5 "owner" Demo.twoOwners db' := by
  have hknown : KnownRoles 1 Demo.twoOwners := by
    intro id u hu
    have hmem := (Table.find_eq_some.mp (getUser_eq_some.mp hu).1).1
    rcases List.mem_pair.mp hmem with rfl | rfl <;> decide
  have hada : getUser 1 5 Demo.twoOwners = some Demo.ada := rfl
  obtain ⟨v, db', h⟩ : ∃ v db',
      (patchUser 1 5 "owner" 6 (Demo.demote false).body).exec Demo.twoOwners = (.ok v, db') :=
    ⟨_, _, rfl⟩
  exact ⟨v, db', h, (user_edits_respect_rank_iff hknown hada rfl h).mpr (by decide)⟩

/-- With null an owner takes the activity of its own account. -/
theorem blank_activity_deactivates_actor :
    ∃ v db', (patchUser 1 5 "owner" 5 Demo.blankActivity).exec Demo.twoOwners = (.ok v, db') ∧
      getUser 1 5 Demo.twoOwners = some Demo.ada ∧ Demo.ada.isActive = true ∧
      ¬ RespectsRank 1 5 "owner" Demo.twoOwners db' := by
  refine ⟨_, _, rfl, rfl, rfl, fun h => ?_⟩
  obtain ⟨u, hu, hactive⟩ := h.stillActive
  cases hu
  cases hactive

end OpenPms
