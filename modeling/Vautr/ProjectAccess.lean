import Vautr.ProjectHandlers
import Vautr.Session

/-!
Who can change who reaches a project: requests by callers without manage rights on a project
leave everybody's effective permission on it as it is.

Every handler that writes for a project checks the caller's rights on the project in the
path. Two kinds of requests reach further. Offboarding revokes all grants of a user, on
every project. And the group routes write to a group that is named by its own id and never
compared with the project in the path, so they reach every project the group has a grant on.
-/

namespace Vautr.ProjectAccess

open Vautr.Atomic Vautr.Sql Vautr.Database Vautr.Api Vautr.Server Vautr.Projects
  Vautr.ProjectHandlers

/-! ### Permissions in one state -/

/-- What `effective_permission` answers when nothing changes while it runs. -/
def permission (db : ProjDb) (project user : Ident) : Option ProjectPermission :=
  if (db.projects.get project).map (·.ownerUserId) = some user then some .canManage
  else (db.viaGroup project user).foldl maxPerm ((db.direct project user).foldl maxPerm none)

/-- What `require_can_manage` asks for. -/
def Manages (db : ProjDb) (p : ProjectRow) (caller : Ident) : Prop :=
  p.ownerUserId = caller ∨ permission db p.id caller = some .canManage ∨
    p.orgId.any fun org => (db.orgRole org caller).any (·.canManageOrg)

instance (db : ProjDb) (p : ProjectRow) (caller : Ident) : Decidable (Manages db p caller) :=
  inferInstanceAs (Decidable (_ ∨ _ ∨ _))

/-- The caller has no manage rights on the project. -/
def Lacks (db : ProjDb) (project caller : Ident) : Prop :=
  ∀ p ∈ db.projects.get project, ¬Manages db p caller

instance (db : ProjDb) (project caller : Ident) : Decidable (Lacks db project caller) :=
  inferInstanceAs (Decidable (∀ p ∈ db.projects.get project, _))

/-- The caller gets past the check of the path. -/
def Manager (db : ProjDb) (project caller : Ident) : Prop :=
  ∃ p ∈ db.projects.get project, Manages db p caller

instance (db : ProjDb) (project caller : Ident) : Decidable (Manager db project caller) :=
  inferInstanceAs (Decidable (∃ p ∈ db.projects.get project, _))

/-- The group has a grant on the project. -/
def Reaches (db : ProjDb) (project group : Ident) : Prop :=
  ∃ r ∈ db.access.rows, r.projectId = project ∧ r.grantee = .inr group

instance (db : ProjDb) (project group : Ident) : Decidable (Reaches db project group) :=
  inferInstanceAs (Decidable (∃ r ∈ db.access.rows, _))

variable (Q : Ident)

/-- What the permissions on the project `Q` depend on is the same in both states: the owner,
the grants on `Q`, and the members of the groups that have one. -/
structure Fixed (db s : ProjDb) : Prop where
  owner : (s.projects.get Q).map (·.ownerUserId) = (db.projects.get Q).map (·.ownerUserId)
  grants : s.access.rows.filter (·.projectId = Q) = db.access.rows.filter (·.projectId = Q)
  members : ∀ g, Reaches db Q g → ∀ u,
    (s.groupMembers.get (g, u)).isSome = (db.groupMembers.get (g, u)).isSome

variable {Q} {db s s' : ProjDb}

lemma fixed_refl (db : ProjDb) : Fixed Q db db := ⟨rfl, rfl, fun _ _ _ => rfl⟩

lemma direct_eq (db : ProjDb) (user : Ident) : db.direct Q user =
    ((db.access.rows.filter (·.projectId = Q)).filter (·.grantee = .inl user)).map
      (·.permission) := by
  rw [List.filter_filter]
  simp only [ProjDb.direct, Bool.and_comm]

lemma viaGroup_eq (db : ProjDb) (user : Ident) : db.viaGroup Q user =
    ((db.access.rows.filter (·.projectId = Q)).filter (db.toGroupOf user)).map
      (·.permission) := by
  rw [ProjDb.viaGroup, ProjDb.groupRows, List.filter_comm]

/-- The permissions on `Q` are the same in both states. -/
lemma Fixed.permission_eq (h : Fixed Q db s) (user : Ident) :
    permission s Q user = permission db Q user := by
  have hgroup : s.viaGroup Q user = db.viaGroup Q user := by
    rw [viaGroup_eq, viaGroup_eq, h.grants]
    congr 1
    refine List.filter_congr fun r hr => ?_
    obtain ⟨hr, hp⟩ := List.mem_filter.mp hr
    unfold ProjDb.toGroupOf
    cases hg : r.grantee with
    | inl _ => rfl
    | inr g => exact h.members g ⟨r, hr, by simpa using hp, hg⟩ user
  unfold permission
  rw [h.owner, direct_eq, direct_eq, h.grants, hgroup]

/-! ### What the statements keep -/

/-- The statement keeps what the permissions on `Q` depend on. -/
def Keep (Q : Ident) (db : ProjDb) (ev : Ev ProjDb Env ProjStmt) : Prop :=
  Fixed Q db ev.pre → Fixed Q db ev.post

/-- Every statement of the program keeps it. -/
abbrev Kept (Q : Ident) (db : ProjDb) {α : Type} (p : Prog ProjDb Env ProjStmt α) : Prop :=
  Guarantees (fun _ => Eq) (Keep Q db) p

variable {α : Type}

lemma kept_statement {l : ProjStmt} {g : Env → ProjDb → ProjDb × Except SqlError α}
    (h : ∀ e s, Fixed Q db s → Fixed Q db (g e s).1) : Kept Q db (statement l g).run :=
  guarantees_statement (fun _ _ h => h) h

lemma kept_select (l : ProjStmt) (g : ProjDb → α) : Kept Q db (select l g : ProjRepo α).run :=
  kept_statement fun _ _ h => h

lemma kept_write {l : ProjStmt} {g : ProjDb → ProjDb} (h : ∀ s, Fixed Q db s → Fixed Q db (g s)) :
    Kept Q db (write l g).run := kept_statement fun _ => h

lemma kept_insertWith {l : ProjStmt} {fk : ProjDb → Bool} {g : Env → ProjDb → Option ProjDb}
    (h : ∀ e s s', Fixed Q db s → g e s = some s' → Fixed Q db s') :
    Kept Q db (insertWith l fk g).run := by
  refine kept_statement fun e s hs => ?_
  cases hg : g e s with
  | none => exact hs
  | some s' =>
    dsimp only
    split
    · exact h e s s' hs hg
    · exact hs

/-- A statement that leaves the projects, the grants and the group members alone. -/
lemma Fixed.frame (h : Fixed Q db s) (hp : s'.projects = s.projects) (ha : s'.access = s.access)
    (hm : s'.groupMembers = s.groupMembers) : Fixed Q db s' :=
  ⟨by rw [hp]; exact h.owner, by rw [ha]; exact h.grants, by rw [hm]; exact h.members⟩

/-- A statement that changes grants on other projects only. -/
lemma Fixed.grantsElsewhere (h : Fixed Q db s) {access : Table AccessRow.id}
    (ha : access.rows.filter (·.projectId = Q) = s.access.rows.filter (·.projectId = Q)) :
    Fixed Q db { s with access } := ⟨h.owner, ha.trans h.grants, h.members⟩

/-- A `DELETE` of grants, none of them on `Q`. -/
lemma filter_delete {t : Table AccessRow.id} {p : AccessRow → Bool}
    (hp : ∀ r ∈ t.rows, r.projectId = Q → p r = false) :
    (t.delete p).rows.filter (·.projectId = Q) = t.rows.filter (·.projectId = Q) := by
  simp only [Table.delete, List.filter_filter]
  refine List.filter_congr fun r hr => ?_
  by_cases hq : r.projectId = Q
  · simp [hp r hr hq]
  · simp [hq]

/-- The grants on `Q` are those of the start. -/
lemma Fixed.mem_grants (h : Fixed Q db s) {r : AccessRow} (hr : r ∈ s.access.rows)
    (hq : r.projectId = Q) : r ∈ db.access.rows := by
  have : r ∈ s.access.rows.filter (·.projectId = Q) := List.mem_filter.mpr ⟨hr, by simp [hq]⟩
  rw [h.grants] at this
  exact (List.mem_filter.mp this).1

/-- A statement on tables that are not modelled. -/
lemma kept_noop {l : ProjStmt} : Kept Q db (write l id).run := kept_write fun _ h => h

lemma kept_newUuid : Kept Q db newUuid.run := guarantees_stmt (fun _ _ h => h) fun _ _ => guarantees_ret _

lemma kept_createOrg (id : Ident) (name : String) : Kept Q db (createOrg id name).run := by
  refine kept_insertWith fun e s s' hs hg => ?_
  obtain ⟨t, -, rfl⟩ := Option.map_eq_some_iff.mp hg
  exact hs.frame rfl rfl rfl

lemma kept_setOrgMember (org user : Ident) (role : OrgRole) (now : ℤ) :
    Kept Q db (setOrgMember org user role now).run := by
  refine kept_insertWith fun e s s' hs hg => ?_
  obtain rfl := Option.some.inj hg
  exact hs.frame rfl rfl rfl

lemma kept_ensureOrgForUser (user : Ident) (now : ℤ) :
    Kept Q db (ensureOrgForUser user now).run := by
  refine guarantees_bind_except (kept_select _ _) ?_
  rintro (_ | org)
  · exact guarantees_bind_except kept_newUuid fun org =>
      guarantees_bind_except (kept_createOrg org _) fun _ =>
      guarantees_bind_except (kept_setOrgMember org user _ now) fun _ => guarantees_pure_except _
  · exact guarantees_pure_except _

/-- A new project does not take the place of `Q`. -/
lemma kept_createProject (hQ : (db.projects.get Q).isSome) (p : ProjectRow) :
    Kept Q db (createProject p).run := by
  refine kept_insertWith fun e s s' hs hg => ?_
  obtain ⟨t, ht, rfl⟩ := Option.map_eq_some_iff.mp hg
  refine ⟨?_, hs.grants, hs.members⟩
  have hne : p.id ≠ Q := by
    rintro rfl
    have hnone := (Table.insert_eq_some ht).1
    have := hs.owner
    rw [hnone] at this
    cases hdb : db.projects.get p.id with
    | none => rw [hdb] at hQ; cases hQ
    | some r => rw [hdb] at this; cases this
  rw [Table.get_insert ht, if_neg hne]
  exact hs.owner

lemma kept_updateProjectMeta (id : Ident) (name : String) (description : Option String) (now : ℤ) :
    Kept Q db (updateProjectMeta id name description now).run := by
  refine kept_write fun s hs => ⟨?_, hs.grants, hs.members⟩
  rw [Table.get_update, ← hs.owner]
  cases s.projects.get Q with
  | none => rfl
  | some r => by_cases h : r.id = id <;> simp [h]

lemma kept_deleteProject {id : Ident} (hid : id ≠ Q) : Kept Q db (deleteProject id).run := by
  refine kept_write fun s hs => ⟨?_, ?_, hs.members⟩
  · rw [Table.get_delete, ← hs.owner]
    cases hr : s.projects.get Q with
    | none => rfl
    | some r =>
      have : r.id ≠ id := fun h => hid (h.symm.trans (Table.get_key hr))
      simp [this]
  · rw [← hs.grants]
    exact filter_delete fun r _ hq => by simp [hq, hid.symm]

lemma kept_grantProjectAccess {l : ProjStmt} {project : Ident} (hid : project ≠ Q)
    (grantee : Ident ⊕ Ident) (permission : ProjectPermission) (hide : Bool) (grantedBy : Ident)
    (now : ℤ) : Kept Q db (grantProjectAccess l project grantee permission hide grantedBy now).run := by
  refine kept_insertWith fun e s s' hs hg => ?_
  obtain ⟨t, ht, rfl⟩ := Option.map_eq_some_iff.mp hg
  refine hs.grantsElsewhere ?_
  rw [(Table.insert_eq_some ht).2, List.filter_append,
    filter_delete fun r _ hq => by simp [hq, hid.symm]]
  simp [hid]

lemma kept_removeUserGrant {project : Ident} (hid : project ≠ Q) (user : Ident) :
    Kept Q db (removeUserGrant project user).run :=
  kept_statement fun _ _ hs => hs.grantsElsewhere
    (filter_delete fun r _ hq => by simp [hq, hid.symm])

lemma kept_effectivePermission (project user : Ident) :
    Kept Q db (effectivePermission project user).run := by
  refine guarantees_bind_except (kept_select _ _) fun owner => ?_
  split
  · exact guarantees_pure_except _
  · exact guarantees_bind_except (kept_select _ _) fun _ =>
      guarantees_bind_except (kept_select _ _) fun _ => guarantees_pure_except _

lemma kept_createUserGroup (g : UserGroupRow) : Kept Q db (createUserGroup g).run := by
  refine kept_insertWith fun e s s' hs hg => ?_
  obtain ⟨t, -, rfl⟩ := Option.map_eq_some_iff.mp hg
  exact hs.frame rfl rfl rfl

lemma kept_updateUserGroup (id : Ident) (name : String) (description : Option String) (now : ℤ) :
    Kept Q db (updateUserGroup id name description now).run :=
  kept_write fun _ hs => hs.frame rfl rfl rfl

/-- The members of groups without a grant on `Q` do not matter. -/
lemma Fixed.membersElsewhere (h : Fixed Q db s) {groupMembers : Table GroupMemberRow.key}
    (hm : ∀ g, Reaches db Q g → ∀ u,
      (groupMembers.get (g, u)).isSome = (s.groupMembers.get (g, u)).isSome) :
    Fixed Q db { s with groupMembers } :=
  ⟨h.owner, h.grants, fun g hg u => (hm g hg u).trans (h.members g hg u)⟩

lemma get_delete_group {t : Table GroupMemberRow.key} {p : GroupMemberRow → Bool} {g u : Ident}
    (hp : ∀ r ∈ t.rows, r.groupId = g → r.userId = u → p r = false) :
    ((t.delete p).get (g, u)).isSome = (t.get (g, u)).isSome := by
  rw [Table.get_delete]
  cases hr : t.get (g, u) with
  | none => rfl
  | some r =>
    have hk := Table.get_key hr
    simp only [GroupMemberRow.key, Prod.mk.injEq] at hk
    simp [hp r (Table.get_mem hr) hk.1 hk.2]

lemma kept_deleteUserGroup {group : Ident} (hg : ¬Reaches db Q group) :
    Kept Q db (deleteUserGroup group).run := by
  refine kept_write fun s hs => ⟨hs.owner, ?_, fun g hr u => ?_⟩
  · rw [← hs.grants]
    refine filter_delete fun r hr hq => ?_
    have : r.grantee ≠ .inr group := fun h => hg ⟨r, hs.mem_grants hr hq, hq, h⟩
    simp [this]
  · rw [← hs.members g hr u]
    refine get_delete_group fun r _ hrg _ => ?_
    have : g ≠ group := fun h => hg (h ▸ hr)
    simp [hrg, this]

lemma kept_addUserGroupMember {group : Ident} (hg : ¬Reaches db Q group) (user : Ident)
    (role : GroupMemberRole) : Kept Q db (addUserGroupMember group user role).run := by
  refine kept_insertWith fun e s s' hs hadd => ?_
  obtain rfl := Option.some.inj hadd
  refine hs.membersElsewhere fun g hr u => ?_
  have : (group, user) ≠ (g, u) := fun h => hg ((Prod.mk.inj h).1 ▸ hr)
  rw [Table.get_upsert, if_neg this]

lemma kept_removeUserGroupMember {group : Ident} (hg : ¬Reaches db Q group) (user : Ident) :
    Kept Q db (removeUserGroupMember group user).run := by
  refine kept_statement fun _ s hs => hs.membersElsewhere fun g hr u => ?_
  refine get_delete_group fun r _ hrg _ => ?_
  have : g ≠ group := fun h => hg (h ▸ hr)
  simp [hrg, this]

/-! ### What the handlers keep -/

variable {trim : String → String}

lemma kept_nowMs : Kept Q db nowMs.run := guarantees_stmt (fun _ _ h => h) fun _ _ => guarantees_ret _

lemma kept_orElse {x : ProjRepo (Option α)} (h : Kept Q db x.run) (err : ApiError) :
    Kept Q db (orElse x err).run := by
  refine guarantees_bind_except (guarantees_orInternal h) ?_
  rintro (_ | a)
  · exact guarantees_throw_except _
  · exact guarantees_pure_except _

lemma kept_validateName (name : String) : Kept Q db (validateName trim name).run := by
  unfold validateName
  split
  · exact guarantees_throw_except _
  · exact guarantees_pure_except _

lemma kept_callerRoleInProject (p : ProjectRow) (caller : Ident) :
    Kept Q db (callerRoleInProject p caller).run := by
  unfold callerRoleInProject
  cases p.orgId with
  | none => exact guarantees_pure_except _
  | some org =>
    exact guarantees_bind_except (guarantees_orInternal (kept_select _ _))
      fun _ => guarantees_pure_except _

lemma kept_effectivePerm (p : ProjectRow) (caller : Ident) :
    Kept Q db (effectivePerm p caller).run :=
  guarantees_orInternal (kept_effectivePermission _ _)

lemma kept_ensureVisible (p : ProjectRow) (caller : Ident) :
    Kept Q db (ensureVisible p caller).run := by
  unfold ensureVisible
  split
  · exact guarantees_pure_except _
  refine guarantees_bind_except (kept_callerRoleInProject p caller) fun role => ?_
  split
  · exact guarantees_pure_except _
  refine guarantees_bind_except (kept_effectivePerm p caller) fun perm => ?_
  split
  · exact guarantees_pure_except _
  · exact guarantees_throw_except _

lemma kept_projectResp (p : ProjectRow) (caller : Ident) : Kept Q db (projectResp p caller).run :=
  guarantees_bind_except (kept_callerRoleInProject p caller) fun _ =>
    guarantees_bind_except (kept_effectivePerm p caller) fun _ => guarantees_pure_except _

lemma kept_memberResp (p : ProjectRow) (user : Ident) (grant : AccessRow) :
    Kept Q db (memberResp p user grant).run :=
  guarantees_bind_except (guarantees_orInternal (kept_select _ _)) fun _ =>
    guarantees_bind_except (kept_callerRoleInProject p user) fun _ => guarantees_pure_except _

lemma kept_groupResp (g : UserGroupRow) : Kept Q db (groupResp g).run :=
  guarantees_bind_except (guarantees_orInternal (kept_select _ _)) fun _ => guarantees_pure_except _

lemma kept_listProjects (caller : Ident) (bound : Option Ident) :
    Kept Q db (listProjects caller bound).run := by
  have hlist : Kept Q db (listProjectsForUser caller).run :=
    guarantees_bind_except (kept_select _ _) fun _ =>
      guarantees_bind_except (kept_select _ _) fun _ =>
      guarantees_bind_except (kept_select _ _) fun _ =>
      guarantees_bind_except (kept_select _ _) fun _ =>
      guarantees_bind_except (guarantees_mapM_except (fun _ => kept_select _ _) _)
        fun _ => guarantees_pure_except _
  exact guarantees_bind_except (guarantees_orInternal hlist) fun _ =>
    guarantees_mapM_except (fun p => kept_projectResp p caller) _

lemma kept_sharedOrg (caller : Ident) (now : ℤ) : Kept Q db (sharedOrg caller now).run := by
  refine guarantees_bind_except (guarantees_orInternal (kept_ensureOrgForUser _ _)) fun org =>
    guarantees_bind_except (guarantees_orInternal (kept_select _ _)) fun role => ?_
  dsimp only
  split
  · exact guarantees_pure_except _
  · exact guarantees_throw_except _

lemma kept_createProjectH (hQ : (db.projects.get Q).isSome) (caller : Ident)
    (req : CreateProjectReq) : Kept Q db (createProjectH trim caller req).run := by
  refine guarantees_bind_except (kept_validateName _) fun _ =>
    guarantees_bind_except kept_nowMs fun now =>
    guarantees_bind_except (guarantees_orInternal kept_newUuid) fun id =>
    guarantees_bind_except ?_ fun org =>
    guarantees_bind_except (guarantees_orInternal (kept_createProject hQ _)) fun _ =>
    guarantees_bind_except ?_ fun _ =>
    guarantees_bind_except (kept_orElse (kept_select _ _) _) fun row =>
    guarantees_bind_except (kept_callerRoleInProject row caller) fun _ => guarantees_pure_except _
  · cases req.projType.getD .personal with
    | personal => exact guarantees_pure_except _
    | shared => exact guarantees_map_except _ (kept_sharedOrg caller now)
  · cases req.description with
    | none => exact guarantees_pure_except _
    | some desc => exact guarantees_orInternal (kept_updateProjectMeta _ _ _ _)

lemma kept_getProjectH (id caller : Ident) : Kept Q db (getProjectH id caller).run :=
  guarantees_bind_except (kept_orElse (kept_select _ _) _) fun p =>
    guarantees_bind_except (kept_ensureVisible p caller) fun _ => kept_projectResp p caller

lemma kept_listGroups (id caller : Ident) : Kept Q db (listGroups id caller).run := by
  refine guarantees_bind_except (kept_orElse (kept_select _ _) _) fun p =>
    guarantees_bind_except (kept_ensureVisible p caller) fun _ =>
    guarantees_bind_except (guarantees_orInternal ?_) fun _ =>
    guarantees_mapM_except (fun g => kept_groupResp g) _
  exact guarantees_bind_except (kept_select _ _) fun _ =>
    guarantees_bind_except (guarantees_mapM_except (fun _ => kept_select _ _) _)
      fun _ => guarantees_pure_except _

lemma kept_projectOrg (p : ProjectRow) (caller : Ident) (now : ℤ) :
    Kept Q db (projectOrg p caller now).run := by
  unfold projectOrg
  cases p.orgId with
  | none => exact guarantees_orInternal (kept_ensureOrgForUser _ _)
  | some org => exact guarantees_pure_except _

lemma kept_assignRole (p : ProjectRow) (caller user : Ident) (now : ℤ) (role : Option OrgRole) :
    Kept Q db (assignRole p caller user now role).run := by
  cases role with
  | none => exact guarantees_pure_except _
  | some role =>
    refine guarantees_bind_except (kept_projectOrg p caller now) fun org =>
      guarantees_bind_except (guarantees_orInternal (kept_select _ _)) fun r =>
      guarantees_bind_except ?_ fun _ => guarantees_orInternal (kept_setOrgMember _ _ _ _)
    unfold enforceRoleRank
    split
    · exact guarantees_throw_except _
    · exact guarantees_pure_except _

/-- The user has no grant on `Q` and is in no group that has one. -/
def NoAccess (db : ProjDb) (Q user : Ident) : Prop :=
  ∀ r ∈ db.access.rows, r.projectId = Q → r.grantee ≠ .inl user ∧ db.toGroupOf user r = false

instance (db : ProjDb) (Q user : Ident) : Decidable (NoAccess db Q user) :=
  inferInstanceAs (Decidable (∀ r ∈ db.access.rows, _))

lemma kept_revokeProjectAccessForUser {user : Ident} (h : NoAccess db Q user) :
    Kept Q db (revokeProjectAccessForUser user).run := by
  refine kept_statement fun _ s hs => hs.grantsElsewhere (filter_delete fun r hr hq => ?_)
  simpa using (h r (hs.mem_grants hr hq) hq).1

lemma kept_revokeGroupMembershipsForUser {user : Ident} (h : NoAccess db Q user) :
    Kept Q db (revokeGroupMembershipsForUser user).run := by
  refine kept_statement fun _ s hs => hs.membersElsewhere fun g hr u => ?_
  by_cases hu : u = user
  · subst hu
    obtain ⟨r, hrm, hq, hg⟩ := hr
    have hnone := (h r hrm hq).2
    simp only [ProjDb.toGroupOf, hg] at hnone
    have hs' := hs.members g ⟨r, hrm, hq, hg⟩ u
    simp only [hnone, Option.isSome_eq_false_iff, Option.isNone_iff_eq_none] at hs'
    rw [Table.get_delete, hs']
    rfl
  · exact get_delete_group fun r _ _ hru => by simp [hru, hu]

lemma kept_offboard {user : Ident} (h : NoAccess db Q user) (caller : Ident)
    (reason : Option String) : Kept Q db (offboard caller user reason).run := by
  refine guarantees_bind_except (kept_orElse (kept_select _ _) _) fun _ =>
    guarantees_bind_except (guarantees_orInternal (kept_select _ _)) fun callerRoles =>
    guarantees_bind_except (guarantees_orInternal (kept_select _ _)) fun targetRoles => ?_
  cases mayOffboard callerRoles targetRoles with
  | some err => exact guarantees_throw_except _
  | none =>
    refine guarantees_bind_except kept_nowMs fun now =>
      guarantees_bind_except (guarantees_orInternal kept_newUuid) fun id =>
      guarantees_bind_except (guarantees_orInternal ?_) fun _ =>
      guarantees_bind_except (guarantees_orInternal (kept_revokeProjectAccessForUser h)) fun _ =>
      guarantees_bind_except (guarantees_orInternal (kept_revokeGroupMembershipsForUser h)) fun _ =>
      guarantees_bind_except (guarantees_orInternal ?_) fun _ =>
      guarantees_bind_except (guarantees_orInternal ?_) fun _ =>
      guarantees_bind_except (guarantees_orInternal kept_noop) fun _ =>
      guarantees_bind_except (guarantees_orInternal kept_noop) fun _ =>
      guarantees_bind_except (guarantees_orInternal kept_noop) fun _ =>
      guarantees_bind_except (guarantees_orInternal ?_) fun _ =>
      guarantees_bind_except (guarantees_orInternal kept_noop) fun _ => guarantees_pure_except _
    · refine kept_insertWith fun e s s' hs hg => ?_
      obtain ⟨t, -, rfl⟩ := Option.map_eq_some_iff.mp hg
      exact hs.frame rfl rfl rfl
    · exact kept_statement fun _ _ hs => hs.frame rfl rfl rfl
    · exact kept_write fun _ hs => hs.frame rfl rfl rfl
    · exact kept_write fun _ hs => hs.frame rfl rfl rfl

/-! ### The check of the path -/

/-- The rules of a request: nothing happens in between, and every statement keeps `Fixed`. -/
abbrev reqRules (Q : Ident) (db : ProjDb) : Rules ProjDb Env ProjStmt :=
  Session.keeps (Fixed Q db) Eq fun _ => True

variable {tr : List (Ev ProjDb Env ProjStmt)}

/-- Every statement so far kept `Fixed`. -/
abbrev Good (Q : Ident) (db : ProjDb) (tr : List (Ev ProjDb Env ProjStmt)) : Prop :=
  Every (fun ev => Fixed Q db ev.post) tr

lemma wp_of_kept {p : Prog ProjDb Env ProjStmt α} (hp : Kept Q db p) (htr : Good Q db tr)
    (hs : Fixed Q db s) : wp (reqRules Q db) p (fun _ tr _ => Good Q db tr) tr s := by
  refine wp_of_guarantees (J := fun tr s => Good Q db tr ∧ Fixed Q db s) hp (fun _ _ _ h => h)
    (fun _ _ h => h.1) ?_ ?_ (fun _ _ _ h => h.1) ⟨htr, hs⟩
  · rintro tr l s s' h rfl
    exact h
  · exact fun tr ev h hev => ⟨every_append h.1 (hev h.2), hev h.2⟩

lemma wp_select {l : ProjStmt} {g : ProjDb → α}
    {P : Except SqlError α → List (Ev ProjDb Env ProjStmt) → ProjDb → Prop} (htr : Good Q db tr)
    (hs : Fixed Q db s) (herr : ∀ tr, Good Q db tr → P (.error .database) tr s)
    (hok : ∀ tr, Good Q db tr → P (.ok (g s)) tr s) :
    wp (reqRules Q db) (select l g : ProjRepo α).run P tr s := by
  refine wp_statement htr ?_ ?_
  · rintro s' e rfl -
    exact herr _ (every_append htr hs)
  · rintro s' e rfl -
    exact hok _ (every_append htr hs)

lemma wp_effectivePermission {project user : Ident}
    {P : Except SqlError (Option ProjectPermission) → List (Ev ProjDb Env ProjStmt) → ProjDb → Prop}
    (htr : Good Q db tr) (hs : Fixed Q db s)
    (herr : ∀ tr, Good Q db tr → P (.error .database) tr s)
    (hok : ∀ tr, Good Q db tr → P (.ok (permission s project user)) tr s) :
    wp (reqRules Q db) (effectivePermission project user).run P tr s := by
  unfold effectivePermission
  rw [wp_bind_except]
  refine wp_select htr hs herr fun tr htr => ?_
  dsimp only
  split
  · next h =>
    rw [permission, if_pos h] at hok
    exact hok tr htr
  · next h =>
    rw [permission, if_neg h] at hok
    rw [wp_bind_except]
    refine wp_select htr hs herr fun tr htr => ?_
    dsimp only
    rw [wp_bind_except]
    exact wp_select htr hs herr fun tr htr => hok tr htr

/-- Past `require_can_manage` the caller manages the project. -/
lemma wp_requireCanManage {p : ProjectRow} {caller : Ident}
    {P : Except ApiError Unit → List (Ev ProjDb Env ProjStmt) → ProjDb → Prop}
    (htr : Good Q db tr) (hs : Fixed Q db s)
    (herr : ∀ e tr, Good Q db tr → P (.error e) tr s)
    (hok : ∀ tr, Manages s p caller → Good Q db tr → P (.ok ()) tr s) :
    wp (reqRules Q db) (requireCanManage p caller).run P tr s := by
  unfold requireCanManage
  split
  · next h => exact hok tr (.inl h) htr
  rw [wp_bind_except, effectivePerm, wp_orInternal]
  refine wp_effectivePermission htr hs (herr _) fun tr htr => ?_
  dsimp only [Except.mapError]
  split
  · next h => exact hok tr (.inr (.inl h)) htr
  rw [wp_bind_except]
  unfold callerRoleInProject
  cases horg : p.orgId with
  | none => exact herr _ tr htr
  | some org =>
    dsimp only
    rw [wp_bind_except, wp_orInternal]
    refine wp_select htr hs (herr _) fun tr htr => ?_
    dsimp only [Except.mapError]
    rw [wp_pure_except]
    dsimp only
    split
    · next h =>
      refine hok tr (.inr (.inr ?_)) htr
      cases hr : s.orgRole org caller with
      | none => rw [hr] at h; cases h
      | some role => simpa [horg, hr] using h
    · exact herr _ tr htr

/-- A part of a request after which the request goes on from the same state. -/
lemma wp_orElse_select {α β : Type} {l : ProjStmt} {g : ProjDb → Option α} {err : ApiError}
    {k : α → ProjHandler β} (htr : Good Q db tr) (hs : Fixed Q db s)
    (hk : ∀ a tr, g s = some a → Good Q db tr →
      wp (reqRules Q db) (k a).run (fun _ tr _ => Good Q db tr) tr s) :
    wp (reqRules Q db) (orElse (select l g) err >>= k).run (fun _ tr _ => Good Q db tr) tr s := by
  rw [wp_bind_except]
  unfold orElse
  rw [wp_bind_except, wp_orInternal]
  refine wp_select htr hs (fun _ htr => htr) fun tr htr => ?_
  dsimp only [Except.mapError]
  cases ha : g s with
  | none => exact htr
  | some a => exact hk a tr ha htr

/-- A caller without manage rights on `Q` gets past the check only for other projects. -/
lemma wp_managed {β : Type} {id caller : Ident} {k : ProjectRow → ProjHandler β}
    (htr : Good Q db tr) (hs : Fixed Q db s) (hl : Lacks s Q caller)
    (hk : ∀ p tr, p.id ≠ Q → Manager s id caller → Good Q db tr →
      wp (reqRules Q db) (k p).run (fun _ tr _ => Good Q db tr) tr s) :
    wp (reqRules Q db) (managedProject id caller >>= k).run (fun _ tr _ => Good Q db tr) tr s := by
  rw [wp_bind_except]
  unfold managedProject orElse
  rw [wp_bind_except, wp_bind_except, wp_orInternal]
  refine wp_select htr hs (fun _ htr => htr) fun tr htr => ?_
  dsimp only [Except.mapError]
  cases hp : s.projects.get id with
  | none => exact htr
  | some p =>
    dsimp only
    rw [wp_pure_except]
    dsimp only
    rw [wp_bind_except]
    refine wp_requireCanManage htr hs (fun _ _ htr => htr) fun tr hm htr => ?_
    have hne : p.id ≠ Q := by
      intro h
      refine hl p ?_ hm
      rw [Option.mem_def, ← h, Table.get_key hp]
      exact hp
    exact hk p tr hne ⟨p, hp, hm⟩ htr

/-- The rest of the request keeps `Fixed` from every state. -/
lemma wp_managed_of_kept {β : Type} {id caller : Ident} {k : ProjectRow → ProjHandler β}
    (htr : Good Q db tr) (hs : Fixed Q db s) (hl : Lacks s Q caller)
    (hk : ∀ p, p.id ≠ Q → Kept Q db (k p).run) :
    wp (reqRules Q db) (managedProject id caller >>= k).run (fun _ tr _ => Good Q db tr) tr s :=
  wp_managed htr hs hl fun p _ hne _ htr => wp_of_kept (hk p hne) htr hs

/-! ### The requests -/

/-- The roles of the user in organizations. -/
def orgRoles (db : ProjDb) (user : Ident) : List (Ident × OrgRole) :=
  (db.orgMembers.rows.filter fun r => r.userId = user).map fun r => (r.orgId, r.role)

/-- The user is in the group. -/
def IsMember (db : ProjDb) (group user : Ident) : Prop :=
  (db.groupMembers.get (group, user)).isSome = true

instance (db : ProjDb) (group user : Ident) : Decidable (IsMember db group user) :=
  inferInstanceAs (Decidable (_ = _))

/-- The offboarding is not refused. -/
def Offboards (db : ProjDb) (caller user : Ident) : Prop :=
  (db.users.get user).isSome = true ∧
    (mayOffboard (orgRoles db caller) (orgRoles db user)).isNone = true

instance (db : ProjDb) (caller user : Ident) : Decidable (Offboards db caller user) :=
  inferInstanceAs (Decidable (_ ∧ _))

/-- The request neither revokes what a user has on `Q` nor gets past the check of another path and
changes a group with a grant on `Q`. -/
def Outside (db : ProjDb) (Q caller : Ident) : ProjReq → Prop
  | .deleteGroup id group => Manager db id caller → ¬Reaches db Q group
  | .addGroupMember id group user _ => Manager db id caller → Reaches db Q group →
    (db.userGroups.get group).isSome = true → (db.users.get user).isSome = true →
      IsMember db group user
  | .removeGroupMember id group user => Manager db id caller → Reaches db Q group →
    ¬IsMember db group user
  | .offboard user _ => Offboards db caller user → NoAccess db Q user
  | _ => True

instance (db : ProjDb) (Q caller : Ident) (req : ProjReq) :
    Decidable (Outside db Q caller req) := by
  unfold Outside
  split <;> infer_instance

lemma Fixed.reaches_iff (h : Fixed Q db s) (g : Ident) : Reaches s Q g ↔ Reaches db Q g := by
  have hmem : ∀ r, (r ∈ s.access.rows ∧ r.projectId = Q) ↔ (r ∈ db.access.rows ∧ r.projectId = Q) := by
    intro r
    have := congrArg (r ∈ ·) h.grants
    simpa using this
  unfold Reaches
  simp only [← and_assoc, hmem]

lemma Fixed.noAccess (h : Fixed Q db s) {user : Ident} (hs : NoAccess s Q user) :
    NoAccess db Q user := by
  intro r hr hq
  have hmem : r ∈ s.access.rows := by
    have : r ∈ db.access.rows.filter (·.projectId = Q) := List.mem_filter.mpr ⟨hr, by simp [hq]⟩
    rw [← h.grants] at this
    exact (List.mem_filter.mp this).1
  refine ⟨(hs r hmem hq).1, ?_⟩
  have hg := (hs r hmem hq).2
  unfold ProjDb.toGroupOf at hg ⊢
  cases hgr : r.grantee with
  | inl _ => rfl
  | inr g =>
    simp only [hgr] at hg ⊢
    rw [← h.members g ⟨r, hr, hq, hgr⟩, hg]

/-- A statement that leaves the members of the groups with a grant. -/
lemma wp_members {l : ProjStmt} {g : Env → ProjDb → ProjDb × Except SqlError α}
    (htr : Good Q db tr) (hs : Fixed Q db s) (h : ∀ e, Fixed Q db (g e s).1) :
    wp (reqRules Q db) (orInternal (statement l g)).run (fun _ tr _ => Good Q db tr) tr s := by
  rw [wp_orInternal]
  refine wp_statement htr ?_ ?_
  · rintro s' e rfl -
    exact every_append htr hs
  · rintro s' e rfl -
    exact every_append htr (h e)

/-- A member who is added is there already. -/
lemma wp_addUserGroupMember {group user : Ident} {role : GroupMemberRole} (htr : Good Q db tr)
    (hs : Fixed Q db s) (h : Reaches s Q group → IsMember s group user) :
    wp (reqRules Q db) (orInternal (addUserGroupMember group user role)).run
      (fun _ tr _ => Good Q db tr) tr s := by
  by_cases hr : Reaches db Q group
  · refine wp_members htr hs fun e => ?_
    dsimp only
    split
    · refine hs.membersElsewhere fun g _ u => ?_
      rw [Table.get_upsert]
      split
      · next heq =>
        obtain ⟨rfl, rfl⟩ := Prod.mk.inj heq
        exact (h ((hs.reaches_iff group).mpr hr)).symm
      · rfl
    · exact hs
  · exact wp_of_kept (guarantees_orInternal (kept_addUserGroupMember hr user role)) htr hs

/-- A member who is removed is not there. -/
lemma wp_removeUserGroupMember {group user : Ident} (htr : Good Q db tr) (hs : Fixed Q db s)
    (h : Reaches s Q group → ¬IsMember s group user) :
    wp (reqRules Q db) (orInternal (removeUserGroupMember group user)).run
      (fun _ tr _ => Good Q db tr) tr s := by
  by_cases hr : Reaches db Q group
  · refine wp_members htr hs fun e => hs.membersElsewhere fun g _ u => ?_
    by_cases heq : g = group ∧ u = user
    · obtain ⟨rfl, rfl⟩ := heq
      have hnone : s.groupMembers.get (g, u) = none := by
        simpa [IsMember] using h ((hs.reaches_iff g).mpr hr)
      rw [Table.get_delete, hnone]
      rfl
    · exact get_delete_group fun r _ hg hu => by simpa [hg, hu] using heq
  · exact wp_of_kept (guarantees_orInternal (kept_removeUserGroupMember hr user)) htr hs

/-- An offboarding is refused, or revokes nothing on `Q`. -/
lemma wp_offboard {caller user : Ident} {reason : Option String} (htr : Good Q db tr)
    (hs : Fixed Q db s) (h : Offboards s caller user → NoAccess s Q user) :
    wp (reqRules Q db) (offboard caller user reason).run (fun _ tr _ => Good Q db tr) tr s := by
  by_cases hno : NoAccess s Q user
  · exact wp_of_kept (kept_offboard (hs.noAccess hno) caller reason) htr hs
  refine wp_orElse_select htr hs fun u tr hu htr => ?_
  rw [wp_bind_except, wp_orInternal]
  refine wp_select htr hs (fun _ htr => htr) fun tr htr => ?_
  dsimp only [Except.mapError]
  rw [wp_bind_except, wp_orInternal]
  refine wp_select htr hs (fun _ htr => htr) fun tr htr => ?_
  dsimp only [Except.mapError]
  cases hmay : mayOffboard (orgRoles s caller) (orgRoles s user) with
  | none => exact absurd (h ⟨by rw [hu]; rfl, by rw [hmay]; rfl⟩) hno
  | some err =>
    rw [orgRoles, orgRoles] at hmay
    rw [hmay]
    exact htr

lemma wp_map {β : Type} {x : ProjHandler α} {f : α → β}
    (h : wp (reqRules Q db) x.run (fun _ tr _ => Good Q db tr) tr s) :
    wp (reqRules Q db) (f <$> x).run (fun _ tr _ => Good Q db tr) tr s := by
  rw [map_eq_pure_bind, wp_bind_except]
  refine wp_mono (fun r tr s htr => ?_) h
  cases r with
  | ok a => exact htr
  | error e => exact htr

/-- One request by a caller without manage rights on `Q`. -/
lemma wp_route (hQ : (db.projects.get Q).isSome) (hs : Fixed Q db s) {caller : Ident}
    (hl : Lacks s Q caller) {req : ProjReq} (hout : Outside s Q caller req) :
    wp (reqRules Q db) (route trim caller req).run (fun _ tr _ => Good Q db tr) [] s := by
  have htr : Good Q db [] := every_nil
  cases req with
  | listProjects bound => exact wp_map (wp_of_kept (kept_listProjects caller bound) htr hs)
  | createProject req => exact wp_map (wp_of_kept (kept_createProjectH hQ caller req) htr hs)
  | getProject id => exact wp_map (wp_of_kept (kept_getProjectH id caller) htr hs)
  | listGroups id => exact wp_map (wp_of_kept (kept_listGroups id caller) htr hs)
  | offboard user reason => exact wp_map (wp_offboard htr hs hout)
  -- past the check the caller manages the project, which is therefore another one
  | updateProject id req =>
    refine wp_map (wp_managed_of_kept htr hs hl fun p hp => ?_)
    exact guarantees_bind_except (kept_validateName _) fun _ =>
      guarantees_bind_except kept_nowMs fun _ =>
      guarantees_bind_except (guarantees_orInternal (kept_updateProjectMeta _ _ _ _)) fun _ =>
      guarantees_bind_except (kept_orElse (kept_select _ _) _) fun p => kept_projectResp p caller
  | deleteProject id =>
    refine wp_map (wp_managed_of_kept htr hs hl fun p hp => ?_)
    exact guarantees_orInternal (kept_deleteProject hp)
  | listMembers id =>
    refine wp_map (wp_managed_of_kept htr hs hl fun p hp => ?_)
    exact guarantees_bind_except (guarantees_orInternal (kept_select _ _)) fun _ =>
      guarantees_mapM_except (fun g => kept_memberResp p _ g) _
  | addMember id user req =>
    refine wp_map (wp_managed_of_kept htr hs hl fun p hp => ?_)
    exact guarantees_bind_except (kept_orElse (kept_select _ _) _) fun _ =>
      guarantees_bind_except kept_nowMs fun now =>
      guarantees_bind_except (kept_assignRole p caller user now req.role) fun _ =>
      guarantees_bind_except (guarantees_orInternal (kept_grantProjectAccess hp _ _ _ _ _)) fun _ =>
      guarantees_bind_except (kept_orElse (kept_select _ _) _) fun g => kept_memberResp p user g
  | updateMember id user req =>
    refine wp_map (wp_managed_of_kept htr hs hl fun p hp => ?_)
    exact guarantees_bind_except (kept_orElse (kept_select _ _) _) fun existing =>
      guarantees_bind_except kept_nowMs fun now =>
      guarantees_bind_except (kept_assignRole p caller user now req.role) fun _ =>
      guarantees_bind_except (guarantees_orInternal (kept_grantProjectAccess hp _ _ _ _ _)) fun _ =>
      guarantees_bind_except (kept_orElse (kept_select _ _) _) fun g => kept_memberResp p user g
  | removeMember id user =>
    refine wp_map (wp_managed_of_kept htr hs hl fun p hp => ?_)
    refine guarantees_bind_except (guarantees_orInternal (kept_removeUserGrant hp user)) fun n => ?_
    split
    · exact guarantees_throw_except _
    · exact guarantees_pure_except _
  | createGroup id name description =>
    refine wp_map ?_
    unfold createGroup
    rw [wp_bind_except]
    unfold validateName
    split
    · exact htr
    rw [wp_pure_except]
    refine wp_managed_of_kept htr hs hl fun p hp => ?_
    exact guarantees_bind_except kept_nowMs fun now =>
      guarantees_bind_except (kept_projectOrg p caller now) fun org =>
      guarantees_bind_except (guarantees_orInternal kept_newUuid) fun gid =>
      guarantees_bind_except (guarantees_orInternal (kept_createUserGroup _)) fun _ =>
      guarantees_bind_except (guarantees_orInternal (kept_grantProjectAccess hp _ _ _ _ _)) fun _ =>
      guarantees_bind_except (kept_orElse (kept_select _ _) _) fun g => kept_groupResp g
  | updateGroup id group req =>
    refine wp_map (wp_managed_of_kept htr hs hl fun p hp => ?_)
    exact guarantees_bind_except (kept_orElse (kept_select _ _) _) fun g =>
      guarantees_bind_except (kept_validateName _) fun _ =>
      guarantees_bind_except kept_nowMs fun _ =>
      guarantees_bind_except (guarantees_orInternal (kept_updateUserGroup _ _ _ _)) fun _ =>
      guarantees_bind_except (kept_orElse (kept_select _ _) _) fun g => kept_groupResp g
  -- a group can have a grant on two projects: here the condition is needed
  | deleteGroup id group =>
    refine wp_map (wp_managed htr hs hl fun p tr _ hm htr => ?_)
    have hr : ¬Reaches db Q group := fun hr => hout hm ((hs.reaches_iff group).mpr hr)
    exact wp_of_kept (guarantees_orInternal (kept_deleteUserGroup hr)) htr hs
  | addGroupMember id group user role =>
    refine wp_map (wp_managed htr hs hl fun p tr _ hm htr => ?_)
    refine wp_orElse_select htr hs fun g tr hg htr => wp_orElse_select htr hs fun u tr hu htr => ?_
    exact wp_addUserGroupMember htr hs fun hr => hout hm hr (by rw [hg]; rfl) (by rw [hu]; rfl)
  | removeGroupMember id group user =>
    refine wp_map (wp_managed htr hs hl fun p tr _ hm htr => ?_)
    rw [wp_bind_except]
    refine wp_mono (fun n tr s htr => ?_) (wp_removeUserGroupMember htr hs (hout hm))
    rcases n with e | n
    · exact htr
    · dsimp only
      split <;> exact htr

/-! ### Sequences of requests -/

abbrev ProjSess := Session.Sess (Ident × ProjReq) ProjDb Env ProjStmt (Except ApiError ProjReply)

abbrev ProjAct := Session.Act (Ident × ProjReq) Env Empty

/-- The code of a request by a caller. -/
def code (trim : String → String) (q : Ident × ProjReq) :
    Prog ProjDb Env ProjStmt (Except ApiError ProjReply) := (route trim q.1 q.2).run

/-- Nothing but requests touches the tables. -/
def nobody : Empty → ProjDb → ProjDb := fun x => x.elim

/-- The caller of the request has no manage rights on `Q`. -/
def ByStranger (Q : Ident) (σ : ProjSess) : ProjAct → Prop
  | .op q => Lacks σ.shared Q q.1
  | _ => True

/-- And the request neither offboards a user who reaches `Q`, nor changes a group that has a grant
on `Q` through the path of another project. -/
def ByOutsider (Q : Ident) (σ : ProjSess) : ProjAct → Prop
  | .op q => Lacks σ.shared Q q.1 ∧ Outside σ.shared Q q.1 q.2
  | _ => True

instance (σ : ProjSess) (a : ProjAct) : Decidable (ByStranger Q σ a) :=
  match a with
  | .op _ => inferInstanceAs (Decidable (Lacks _ _ _))
  | .exec _ => inferInstanceAs (Decidable True)

instance (σ : ProjSess) (a : ProjAct) : Decidable (ByOutsider Q σ a) :=
  match a with
  | .op _ => inferInstanceAs (Decidable (_ ∧ _))
  | .exec _ => inferInstanceAs (Decidable True)

/-- **Strangers do not change who reaches a project**: in any sequence of requests, each of
them complete or cut off anywhere, by callers without manage rights on the project `Q`, except that
users who reach `Q` are offboarded or groups with a grant on `Q` are changed through the path of
another project, nobody's effective permission on `Q` changes. -/
theorem permission_unchanged (trim : String → String) (db : ProjDb) (Q : Ident)
    (hQ : (db.projects.get Q).isSome) (as : List ProjAct)
    (has : Session.Along (code trim) nobody (ByOutsider Q) (Session.init db) as) (user : Ident) :
    permission (Session.run (code trim) nobody (Session.init db) as).shared Q user =
      permission db Q user := by
  have hop : ∀ (σ : ProjSess) q, Fixed Q db σ.shared → ByOutsider Q σ (.op q) →
      wp (Session.keeps (Fixed Q db) Eq fun _ => True) (code trim q)
        (fun _ tr _ => Every (fun ev => Fixed Q db ev.post) tr) [] σ.shared :=
    fun σ q hs hC => wp_route hQ hs hC.1 hC.2
  have hfixed : Fixed Q db (Session.run (code trim) nobody (Session.init db) as).shared :=
    Session.run_keeps (C := ByOutsider Q) hop (fun _ _ _ _ _ _ _ _ _ _ _ => trivial)
      (fun _ x => x.elim) (fun _ => trivial) (fun _ => rfl) (fun _ _ _ h₁ h₂ => h₁.trans h₂)
      (fixed_refl db) has
  exact hfixed.permission_eq user

/-! ### An organization and a project outside it -/

/-- The project 100 is `alice`'s, and `bob` may view it, by himself and as a member of the
group 60. In the organization 10 `carol` is owner and `bob` a member. -/
def oneOrg : ProjDb where
  users := ⟨[(3, "carol"), (1, "alice"), (2, "bob")], by decide⟩
  organizations := .single (10, "acme")
  orgMembers := ⟨[⟨10, 3, .owner, 0⟩, ⟨10, 2, .member, 0⟩], by decide⟩
  projects := ⟨[⟨100, "Q", none, .shared, none, 1, 0, 0⟩, ⟨101, "P", none, .shared, some 10, 3, 0, 0⟩],
    by decide⟩
  userGroups := ⟨[⟨60, "readers", none, none, 0, 0⟩, ⟨61, "staff", none, some 10, 0, 0⟩], by decide⟩
  groupMembers := ⟨[⟨60, 2, .member, 0⟩], by decide⟩
  access := ⟨[⟨200, 100, .inl 2, .canView, false, 1, 0⟩, ⟨201, 100, .inr 60, .canView, false, 1, 0⟩,
    ⟨202, 101, .inr 61, .canEdit, false, 3, 0⟩], by decide⟩
  offboardings := .empty
  sessions := []

/-- `carol` makes the request, and it runs to its end. -/
def byCarol (req : ProjReq) : List ProjAct :=
  .op (3, req) :: List.replicate 20 (.exec ⟨7, 70, false⟩)

/-- `carol` adds `bob` to a group of her own project, and is refused when she deletes a group of
`alice`'s. -/
def staffing : List ProjAct :=
  byCarol (.addGroupMember 101 61 2 none) ++ byCarol (.deleteGroup 100 60)

theorem permission_unchanged_staff :
    Session.Along (code id) nobody (ByOutsider 100) (Session.init oneOrg) staffing ∧
    permission (Session.run (code id) nobody (Session.init oneOrg) staffing).shared 100 2 =
      permission oneOrg 100 2 :=
  ⟨by decide, permission_unchanged id oneOrg 100 (by decide) _ (by decide) 2⟩

/-- Offboarding revokes everything a user has, on projects outside the organization too: an
owner of `bob`'s organization takes `alice`'s project from him. -/
theorem permission_changed_by_offboard : ¬∀ (db : ProjDb) (Q : Ident) (as : List ProjAct),
    (db.projects.get Q).isSome →
    Session.Along (code id) nobody (ByStranger Q) (Session.init db) as →
    ∀ user, permission (Session.run (code id) nobody (Session.init db) as).shared Q user =
      permission db Q user := by
  intro h
  have := h oneOrg 100 (byCarol (.offboard 2 none)) (by decide) (by decide) 2
  revert this
  decide

end Vautr.ProjectAccess
