import Mathlib.Data.List.Sort
import Mathlib.Data.List.ReduceOption
import Mathlib.Data.List.Dedup
import Vautr.Server

/-!
Organizations, projects, grants and user groups: the tables and the repository statements
on them (`repository/projects.rs`, `migrations/0007_projects.sql`).

Roles, permissions and kinds are stored as texts with a `CHECK` that admits exactly the
values of the enumeration, so the columns hold the enumeration here. The foreign keys are
part of the statements: an `INSERT` that names a missing row is refused, and a `DELETE`
cascades.
-/

namespace Vautr.Projects

open Vautr.Atomic Vautr.Sql Vautr.Database Vautr.Server

/-! ### The domain (`vautr-domain`) -/

inductive OrgRole
  | owner
  | admin
  | manager
  | member
  deriving DecidableEq

namespace OrgRole

def rank : OrgRole → ℕ
  | owner => 3
  | admin => 2
  | manager => 1
  | member => 0

def canManageOrg : OrgRole → Bool
  | owner => true
  | admin => true
  | _ => false

def canCreateProjects : OrgRole → Bool
  | member => false
  | _ => true

def canOffboard (r : OrgRole) : Bool := r.canManageOrg

end OrgRole

inductive ProjectPermission
  | canView
  | canEdit
  | canManage
  deriving DecidableEq

/-- The order of the enumeration, as `derive(PartialOrd)` has it. -/
def ProjectPermission.level : ProjectPermission → ℕ
  | canView => 0
  | canEdit => 1
  | canManage => 2

inductive ProjectKind
  | personal
  | shared
  deriving DecidableEq

inductive GroupMemberRole
  | admin
  | member
  deriving DecidableEq

/-- The most privileged of two per-project permissions. -/
def maxPerm (a : Option ProjectPermission) (b : ProjectPermission) : Option ProjectPermission :=
  match a with
  | none => some b
  | some a => if b.level ≤ a.level then some a else some b

/-! ### The tables -/

structure OrgMemberRow where
  orgId : Ident
  userId : Ident
  role : OrgRole
  createdAt : ℤ
  deriving DecidableEq

abbrev OrgMemberRow.key (r : OrgMemberRow) : Ident × Ident := (r.orgId, r.userId)

/-- `projects`, without the column `team_id`, which is always `NULL`. -/
structure ProjectRow where
  id : Ident
  name : String
  description : Option String
  kind : ProjectKind
  orgId : Option Ident
  ownerUserId : Ident
  createdAt : ℤ
  updatedAt : ℤ
  deriving DecidableEq

/-- `project_access`. The `CHECK` that exactly one of the two grantees is set is the type of
`grantee`: a user or a group. -/
structure AccessRow where
  id : Ident
  projectId : Ident
  grantee : Ident ⊕ Ident
  permission : ProjectPermission
  hidePassword : Bool
  grantedBy : Ident
  grantedAt : ℤ
  deriving DecidableEq

structure UserGroupRow where
  id : Ident
  name : String
  description : Option String
  orgId : Option Ident
  createdAt : ℤ
  updatedAt : ℤ
  deriving DecidableEq

structure GroupMemberRow where
  groupId : Ident
  userId : Ident
  role : GroupMemberRole
  createdAt : ℤ
  deriving DecidableEq

abbrev GroupMemberRow.key (r : GroupMemberRow) : Ident × Ident := (r.groupId, r.userId)

structure OffboardingRow where
  id : Ident
  userId : Ident
  requestedBy : Ident
  reason : Option String
  completedAt : Option ℤ
  requestedAt : ℤ
  deriving DecidableEq

/-- The tables. Of `users` the id and the email are read, of `sessions` only whose they
are. -/
structure ProjDb where
  users : Table (Prod.fst : Ident × String → Ident)
  organizations : Table (Prod.fst : Ident × String → Ident)
  orgMembers : Table OrgMemberRow.key
  projects : Table ProjectRow.id
  userGroups : Table UserGroupRow.id
  groupMembers : Table GroupMemberRow.key
  access : Table AccessRow.id
  offboardings : Table OffboardingRow.id
  sessions : List Ident

inductive ProjStmt
  | clock
  | uuid
  | getUserById
  | getUserEmail
  | createOrg
  | setOrgMember (org user : Ident) (role : OrgRole)
  | getOrgRole
  | getUserOrgId
  | getUserOrgRoles
  | createProject
  | getProject
  | updateProjectMeta
  | deleteProject
  | projectOwner
  | listProjects
  | grantUserProjectAccess
  | grantGroupProjectAccess
  | getUserGrant
  | listProjectMembers
  | removeUserGrant
  | directGrants
  | groupGrants
  | createUserGroup
  | getUserGroup
  | updateUserGroup
  | deleteUserGroup
  | listGroupsForProject
  | addUserGroupMember
  | removeUserGroupMember
  | listUserGroupMembers
  | createOffboarding
  | revokeProjectAccess
  | revokeGroupMemberships
  | revokeSessions
  | revokeOrgMemberships
  | revokeOther
  | completeOffboarding
  | auditOrgEvent
  deriving DecidableEq

abbrev ProjRepo := Query ProjDb Env ProjStmt

/-- A write that cannot be refused. -/
def write (l : ProjStmt) (g : ProjDb → ProjDb) : ProjRepo Unit :=
  statement l fun _ db => (g db, .ok ())

/-- An `INSERT` under the foreign key constraints `fk`. -/
def insertWith (l : ProjStmt) (fk : ProjDb → Bool) (g : Env → ProjDb → Option ProjDb) :
    ProjRepo Unit :=
  statement l fun e db =>
    match g e db with
    | none => (db, .error .unique)
    | some db' => if fk db then (db', .ok ()) else (db, .error .foreignKey)

/-! ### Users, organizations and org roles -/

def getUserById (user : Ident) : ProjRepo (Option (Ident × String)) :=
  select .getUserById fun db => db.users.get user

def getUserEmail (user : Ident) : ProjRepo (Option String) :=
  select .getUserEmail fun db => (db.users.get user).map (·.2)

def createOrg (id : Ident) (name : String) : ProjRepo Unit :=
  insertWith .createOrg (fun _ => true) fun _ db =>
    (db.organizations.insert (id, name)).map fun organizations => { db with organizations }

def setOrgMember (org user : Ident) (role : OrgRole) (now : ℤ) : ProjRepo Unit :=
  insertWith (.setOrgMember org user role)
    (fun db => (db.organizations.get org).isSome && (db.users.get user).isSome) fun _ db =>
    some { db with
      orgMembers := db.orgMembers.upsert ⟨org, user, role, now⟩ (fun r => { r with role })
        (by intro r; rfl) }

/-- The role of a user in an organization, in one state. -/
def ProjDb.orgRole (db : ProjDb) (org user : Ident) : Option OrgRole :=
  (db.orgMembers.get (org, user)).map (·.role)

def getOrgRole (org user : Ident) : ProjRepo (Option OrgRole) :=
  select .getOrgRole fun db => db.orgRole org user

/-- `ORDER BY created_at LIMIT 1`. -/
def oldest (rows : List OrgMemberRow) : Option OrgMemberRow :=
  rows.foldl (fun best r => match best with
    | none => some r
    | some b => if r.createdAt < b.createdAt then some r else some b) none

def getUserOrgId (user : Ident) : ProjRepo (Option Ident) :=
  select .getUserOrgId fun db =>
    (oldest (db.orgMembers.rows.filter fun r => r.userId = user)).map (·.orgId)

def getUserOrgRoles (user : Ident) : ProjRepo (List (Ident × OrgRole)) :=
  select .getUserOrgRoles fun db =>
    (db.orgMembers.rows.filter fun r => r.userId = user).map fun r => (r.orgId, r.role)

/-- `Uuid::new_v4()`. -/
def newUuid : ProjRepo Ident := ExceptT.mk (Prog.atom .uuid fun e db => (db, .ok e.uuid))

def ensureOrgForUser (user : Ident) (now : ℤ) : ProjRepo Ident := do
  match ← getUserOrgId user with
  | some org => return org
  | none =>
    let org ← newUuid
    createOrg org "Default Organization"
    setOrgMember org user .owner now
    return org

/-! ### Projects -/

def createProject (p : ProjectRow) : ProjRepo Unit :=
  insertWith .createProject
    (fun db => p.orgId.all (fun org => (db.organizations.get org).isSome) &&
      (db.users.get p.ownerUserId).isSome) fun _ db =>
    (db.projects.insert p).map fun projects => { db with projects }

def getProject (id : Ident) : ProjRepo (Option ProjectRow) :=
  select .getProject fun db => db.projects.get id

def updateProjectMeta (id : Ident) (name : String) (description : Option String) (now : ℤ) :
    ProjRepo Unit :=
  write .updateProjectMeta fun db => { db with
    projects := db.projects.update (fun r => r.id = id)
      (fun r => { r with name, description, updatedAt := now }) (by intro r; rfl) }

/-- `DELETE FROM projects`; the grants on the project cascade, as the comment in the source says.
With the migrations as they are SQLite refuses the statement (foreign key mismatch: `project_items`
refers to `items` by a column that is no key), so that it always faults. -/
def deleteProject (id : Ident) : ProjRepo Unit :=
  write .deleteProject fun db => { db with
    projects := db.projects.delete fun r => r.id = id
    access := db.access.delete fun r => r.projectId = id }

def projectOwner (id : Ident) : ProjRepo (Option Ident) :=
  select .projectOwner fun db => (db.projects.get id).map (·.ownerUserId)

/-- The grant is to a group of the user, in one state. -/
def ProjDb.toGroupOf (db : ProjDb) (user : Ident) (r : AccessRow) : Bool :=
  match r.grantee with
  | .inl _ => false
  | .inr g => (db.groupMembers.get (g, user)).isSome

/-- The grants that reach the user through a group, in one state. -/
def ProjDb.groupRows (db : ProjDb) (user : Ident) : List AccessRow :=
  db.access.rows.filter (db.toGroupOf user)

def listProjectsForUser (user : Ident) : ProjRepo (List ProjectRow) := do
  let owned ← select .listProjects fun db =>
    (db.projects.rows.filter fun p => p.ownerUserId = user).map (·.id)
  let direct ← select .listProjects fun db =>
    (db.access.rows.filter fun r => r.grantee = .inl user).map (·.projectId)
  let group ← select .listProjects fun db => (db.groupRows user).map (·.projectId)
  let org ← select .listProjects fun db =>
    (db.projects.rows.filter fun p => p.orgId.any fun org =>
      (db.orgRole org user).any (·.canManageOrg)).map (·.id)
  let rows ← (owned ++ direct ++ group ++ org).dedup.mapM getProject
  return rows.reduceOption.insertionSort (·.createdAt ≤ ·.createdAt)

/-! ### Grants -/

def grantFk (grantee : Ident ⊕ Ident) (project grantedBy : Ident) (db : ProjDb) : Bool :=
  (db.projects.get project).isSome && (db.users.get grantedBy).isSome &&
    match grantee with
    | .inl user => (db.users.get user).isSome
    | .inr group => (db.userGroups.get group).isSome

/-- The transaction that replaces the grant of one grantee on a project. -/
def grantProjectAccess (l : ProjStmt) (project : Ident) (grantee : Ident ⊕ Ident)
    (permission : ProjectPermission) (hidePassword : Bool) (grantedBy : Ident) (now : ℤ) :
    ProjRepo Unit :=
  insertWith l (grantFk grantee project grantedBy) fun e db =>
    ((db.access.delete fun r => r.projectId = project && r.grantee = grantee).insert
      ⟨e.uuid, project, grantee, permission, hidePassword, grantedBy, now⟩).map
      fun access => { db with access }

def grantUserProjectAccess (project user : Ident) :=
  grantProjectAccess .grantUserProjectAccess project (.inl user)

def grantGroupProjectAccess (project group : Ident) :=
  grantProjectAccess .grantGroupProjectAccess project (.inr group)

def getUserGrant (project user : Ident) : ProjRepo (Option AccessRow) :=
  select .getUserGrant fun db =>
    db.access.rows.find? fun r => r.projectId = project && r.grantee = .inl user

def listProjectMembers (project : Ident) : ProjRepo (List AccessRow) :=
  select .listProjectMembers fun db =>
    (db.access.rows.filter fun r => r.projectId = project && r.grantee.isLeft).insertionSort
      (·.grantedAt ≤ ·.grantedAt)

def removeUserGrant (project user : Ident) : ProjRepo ℕ :=
  statement .removeUserGrant fun _ db =>
    let p (r : AccessRow) : Bool := r.projectId = project && r.grantee = .inl user
    ({ db with access := db.access.delete p }, .ok (db.access.rows.countP p))

/-- The permissions granted to the user directly, in one state. -/
def ProjDb.direct (db : ProjDb) (project user : Ident) : List ProjectPermission :=
  (db.access.rows.filter fun r => r.projectId = project && r.grantee = .inl user).map (·.permission)

/-- The permissions granted to groups of the user, in one state. -/
def ProjDb.viaGroup (db : ProjDb) (project user : Ident) : List ProjectPermission :=
  ((db.groupRows user).filter fun r => r.projectId = project).map (·.permission)

def effectivePermission (project user : Ident) : ProjRepo (Option ProjectPermission) := do
  if (← projectOwner project) = some user then
    return some .canManage
  else
    let direct ← select .directGrants fun db => db.direct project user
    let group ← select .groupGrants fun db => db.viaGroup project user
    return group.foldl maxPerm (direct.foldl maxPerm none)

/-! ### User groups -/

def createUserGroup (g : UserGroupRow) : ProjRepo Unit :=
  insertWith .createUserGroup
    (fun db => g.orgId.all fun org => (db.organizations.get org).isSome) fun _ db =>
    (db.userGroups.insert g).map fun userGroups => { db with userGroups }

def getUserGroup (id : Ident) : ProjRepo (Option UserGroupRow) :=
  select .getUserGroup fun db => db.userGroups.get id

def updateUserGroup (id : Ident) (name : String) (description : Option String) (now : ℤ) :
    ProjRepo Unit :=
  write .updateUserGroup fun db => { db with
    userGroups := db.userGroups.update (fun r => r.id = id)
      (fun r => { r with name, description, updatedAt := now }) (by intro r; rfl) }

/-- `DELETE FROM user_groups`; the members and the grants of the group cascade. -/
def deleteUserGroup (id : Ident) : ProjRepo Unit :=
  write .deleteUserGroup fun db => { db with
    userGroups := db.userGroups.delete fun r => r.id = id
    groupMembers := db.groupMembers.delete fun r => r.groupId = id
    access := db.access.delete fun r => r.grantee = .inr id }

def listGroupsForProject (project : Ident) : ProjRepo (List UserGroupRow) := do
  let ids ← select .listGroupsForProject fun db =>
    (db.userGroups.rows.filter fun g =>
      db.access.rows.any fun r => r.projectId = project && r.grantee = .inr g.id).map (·.id)
  return (← ids.mapM getUserGroup).reduceOption

def addUserGroupMember (group user : Ident) (role : GroupMemberRole) : ProjRepo Unit :=
  insertWith .addUserGroupMember
    (fun db => (db.userGroups.get group).isSome && (db.users.get user).isSome) fun e db =>
    some { db with
      groupMembers := db.groupMembers.upsert ⟨group, user, role, e.now⟩ (fun r => { r with role })
        (by intro r; rfl) }

def removeUserGroupMember (group user : Ident) : ProjRepo ℕ :=
  statement .removeUserGroupMember fun _ db =>
    let p (r : GroupMemberRow) : Bool := r.groupId = group && r.userId = user
    ({ db with groupMembers := db.groupMembers.delete p }, .ok (db.groupMembers.rows.countP p))

def listUserGroupMembers (group : Ident) : ProjRepo (List GroupMemberRow) :=
  select .listUserGroupMembers fun db =>
    (db.groupMembers.rows.filter fun r => r.groupId = group).insertionSort
      (·.createdAt ≤ ·.createdAt)

/-! ### Offboarding -/

def createOffboarding (row : OffboardingRow) : ProjRepo Unit :=
  insertWith .createOffboarding
    (fun db => (db.users.get row.userId).isSome && (db.users.get row.requestedBy).isSome)
    fun _ db => (db.offboardings.insert row).map fun offboardings => { db with offboardings }

def revokeProjectAccessForUser (user : Ident) : ProjRepo ℕ :=
  statement .revokeProjectAccess fun _ db =>
    let p (r : AccessRow) : Bool := r.grantee = .inl user
    ({ db with access := db.access.delete p }, .ok (db.access.rows.countP p))

def revokeGroupMembershipsForUser (user : Ident) : ProjRepo ℕ :=
  statement .revokeGroupMemberships fun _ db =>
    let p (r : GroupMemberRow) : Bool := r.userId = user
    ({ db with groupMembers := db.groupMembers.delete p }, .ok (db.groupMembers.rows.countP p))

def revokeSessionsForUser (user : Ident) : ProjRepo ℕ :=
  statement .revokeSessions fun _ db =>
    ({ db with sessions := db.sessions.filter (· ≠ user) }, .ok (db.sessions.count user))

def revokeOrgMembershipsForUser (user : Ident) : ProjRepo Unit :=
  write .revokeOrgMemberships fun db =>
    { db with orgMembers := db.orgMembers.delete fun r => r.userId = user }

/-- `revoke_sharing_keys_for_user`, `revoke_tokens_for_user` and
`revoke_machine_accounts_for_user`, whose tables and counts nothing here reads. -/
def revokeOther : ProjRepo Unit := write .revokeOther id

def completeOffboarding (id : Ident) (now : ℤ) : ProjRepo Unit :=
  write .completeOffboarding fun db => { db with
    offboardings := db.offboardings.update (fun r => r.id = id)
      (fun r => { r with completedAt := some now }) (by intro r; rfl) }

def auditOrgEvent : ProjRepo Unit := write .auditOrgEvent id

end Vautr.Projects
