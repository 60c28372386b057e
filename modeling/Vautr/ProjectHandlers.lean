import Vautr.Projects

/-!
The HTTP handlers of projects, members, groups and offboarding (`handlers/projects.rs`), for
a caller that `auth_user` has identified.

The texts of roles and permissions on the wire are the enumerations; `str::trim` is the
parameter `trim`.
-/

namespace Vautr.ProjectHandlers

open Vautr.Atomic Vautr.Sql Vautr.Database Vautr.Api Vautr.Server Vautr.Projects

abbrev ProjHandler := Handler ProjDb Env ProjStmt

variable (trim : String → String)

/-! ### Shared helpers -/

def nowMs : ProjHandler ℤ := ExceptT.mk (Prog.atom .clock fun e db => (db, .ok e.now))

def forbidden (msg : String) : ApiError := .new 403 "forbidden" msg

def notFound (msg : String) : ApiError := .new 404 "not_found" msg

/-- `.await.map_err(internal_err)?.ok_or_else(|| err)?`. -/
def orElse {α : Type} (x : ProjRepo (Option α)) (err : ApiError) : ProjHandler α := do
  match ← orInternal x with
  | some a => return a
  | none => throw err

def validateName (name : String) : ProjHandler Unit :=
  if (trim name).isEmpty || 128 < (trim name).utf8ByteSize then
    throw (.new 422 "precondition_failed" "name must be 1-128 characters")
  else pure ()

def callerRoleInProject (p : ProjectRow) (caller : Ident) : ProjHandler OrgRole :=
  match p.orgId with
  | some org => do return (← orInternal (getOrgRole org caller)).getD .member
  | none => pure .member

def effectivePerm (p : ProjectRow) (caller : Ident) : ProjHandler (Option ProjectPermission) :=
  orInternal (effectivePermission p.id caller)

def ensureVisible (p : ProjectRow) (caller : Ident) : ProjHandler Unit := do
  if p.ownerUserId = caller then
    return ()
  else if (← callerRoleInProject p caller).canManageOrg then
    return ()
  else if (← effectivePerm p caller).isSome then
    return ()
  else
    throw (notFound "project not found")

def requireCanManage (p : ProjectRow) (caller : Ident) : ProjHandler Unit := do
  if p.ownerUserId = caller then
    return ()
  else if (← effectivePerm p caller) = some .canManage then
    return ()
  else if (← callerRoleInProject p caller).canManageOrg then
    return ()
  else
    throw (forbidden "you do not have manage permission on this project")

def enforceRoleRank (callerRole targetRole : OrgRole) : ProjHandler Unit :=
  if callerRole.rank ≤ targetRole.rank then
    throw (forbidden "cannot assign an org role at or above your own rank")
  else pure ()

/-- How most handlers begin: the project of the path, and the right to manage it. -/
def managedProject (id caller : Ident) : ProjHandler ProjectRow := do
  let p ← orElse (getProject id) (notFound "project not found")
  requireCanManage p caller
  return p

structure ProjectResp where
  project : ProjectRow
  role : OrgRole
  permission : Option ProjectPermission

structure ProjectMemberResp where
  userUuid : Ident
  displayName : Option String
  role : OrgRole
  permission : ProjectPermission
  addedAt : ℤ
  hidePassword : Bool

structure UserGroupResp where
  group : UserGroupRow
  members : List (Ident × GroupMemberRole)

structure OffboardResp where
  userUuid : Ident
  revokedProjects : ℕ
  revokedMemberships : ℕ
  revokedTokens : ℕ
  revokedAt : ℤ

def projectResp (p : ProjectRow) (caller : Ident) : ProjHandler ProjectResp := do
  let role ← callerRoleInProject p caller
  let perm ← effectivePerm p caller
  return ⟨p, role, perm⟩

def memberResp (p : ProjectRow) (user : Ident) (grant : AccessRow) :
    ProjHandler ProjectMemberResp := do
  let displayName ← orInternal (getUserEmail user)
  let role ← callerRoleInProject p user
  return ⟨user, displayName, role, grant.permission, grant.grantedAt, grant.hidePassword⟩

def groupResp (g : UserGroupRow) : ProjHandler UserGroupResp := do
  let rows ← orInternal (listUserGroupMembers g.id)
  return ⟨g, rows.map fun m => (m.userId, m.role)⟩

/-! ### Projects CRUD -/

/-- `list_projects`; `bound` is the project a machine-account token is bound to. -/
def listProjects (caller : Ident) (bound : Option Ident) : ProjHandler (List ProjectResp) := do
  let rows ← orInternal (listProjectsForUser caller)
  (rows.filter fun p => bound.all (p.id = ·)).mapM fun p => projectResp p caller

structure CreateProjectReq where
  name : String
  description : Option String
  projType : Option ProjectKind

/-- The organization of a new shared project. -/
def sharedOrg (caller : Ident) (now : ℤ) : ProjHandler Ident := do
  let org ← orInternal (ensureOrgForUser caller now)
  let role := (← orInternal (getOrgRole org caller)).getD .member
  if role.canCreateProjects then
    return org
  else
    throw (forbidden "only Owner/Admin/Manager may create shared projects")

/-- The organization of a new project. -/
def projectScope (caller : Ident) (now : ℤ) : ProjectKind → ProjHandler (Option Ident)
  | .personal => pure none
  | .shared => some <$> sharedOrg caller now

/-- The description of a new project is written by a second statement. -/
def describeProject (id : Ident) (name : String) (now : ℤ) : Option String → ProjHandler Unit
  | some desc => orInternal (updateProjectMeta id name (some desc) now)
  | none => pure ()

def createProjectH (caller : Ident) (req : CreateProjectReq) : ProjHandler ProjectResp := do
  validateName trim req.name
  let now ← nowMs
  let id ← orInternal newUuid
  let kind := req.projType.getD .personal
  let org ← projectScope caller now kind
  orInternal (createProject ⟨id, trim req.name, none, kind, org, caller, now, now⟩)
  describeProject id (trim (trim req.name)) now req.description
  let row ← orElse (getProject id) (notFound "project not found")
  let role ← callerRoleInProject row caller
  return ⟨row, role, some .canManage⟩

def getProjectH (id caller : Ident) : ProjHandler ProjectResp := do
  let p ← orElse (getProject id) (notFound "project not found")
  ensureVisible p caller
  projectResp p caller

structure UpdateReq where
  name : Option String
  description : Option String

def updateProject (id caller : Ident) (req : UpdateReq) : ProjHandler ProjectResp := do
  let p ← managedProject id caller
  let name := req.name.getD p.name
  validateName trim name
  orInternal (updateProjectMeta p.id (trim name) (req.description.or p.description) (← nowMs))
  projectResp (← orElse (getProject p.id) (notFound "project not found")) caller

def deleteProjectH (id caller : Ident) : ProjHandler Unit := do
  let p ← managedProject id caller
  orInternal (deleteProject p.id)

/-! ### Per-project membership -/

def listMembers (id caller : Ident) : ProjHandler (List ProjectMemberResp) := do
  let p ← managedProject id caller
  let grants ← orInternal (listProjectMembers p.id)
  grants.mapM fun g => memberResp p (g.grantee.getLeft?.getD 0) g

structure MemberReq where
  role : Option OrgRole
  permission : Option ProjectPermission
  hidePassword : Option Bool

/-- The organization in which a handler of the project assigns roles. -/
def projectOrg (p : ProjectRow) (caller : Ident) (now : ℤ) : ProjHandler Ident :=
  match p.orgId with
  | some org => pure org
  | none => orInternal (ensureOrgForUser caller now)

/-- The optional assignment of an org role, under rank enforcement. -/
def assignRole (p : ProjectRow) (caller user : Ident) (now : ℤ) : Option OrgRole → ProjHandler Unit
  | none => pure ()
  | some role => do
    let org ← projectOrg p caller now
    let callerRole := (← orInternal (getOrgRole org caller)).getD .member
    enforceRoleRank callerRole role
    orInternal (setOrgMember org user role now)

def addMember (id caller user : Ident) (req : MemberReq) : ProjHandler ProjectMemberResp := do
  let p ← managedProject id caller
  let _ ← orElse (getUserById user) (notFound "user not found")
  let now ← nowMs
  assignRole p caller user now req.role
  orInternal (grantUserProjectAccess p.id user (req.permission.getD .canView)
    (req.hidePassword.getD false) caller now)
  let grant ← orElse (getUserGrant p.id user) (.new 500 "internal_server_error" "grant missing")
  memberResp p user grant

def updateMember (id caller user : Ident) (req : MemberReq) : ProjHandler ProjectMemberResp := do
  let p ← managedProject id caller
  let existing ← orElse (getUserGrant p.id user) (notFound "member not found")
  let now ← nowMs
  assignRole p caller user now req.role
  orInternal (grantUserProjectAccess p.id user (req.permission.getD existing.permission)
    (req.hidePassword.getD existing.hidePassword) caller now)
  let grant ← orElse (getUserGrant p.id user) (notFound "member not found")
  memberResp p user grant

def removeMember (id caller user : Ident) : ProjHandler Unit := do
  let p ← managedProject id caller
  if (← orInternal (removeUserGrant p.id user)) = 0 then
    throw (notFound "member not found")
  else
    return ()

/-! ### Per-project user groups -/

def listGroups (id caller : Ident) : ProjHandler (List UserGroupResp) := do
  let p ← orElse (getProject id) (notFound "project not found")
  ensureVisible p caller
  (← orInternal (listGroupsForProject p.id)).mapM groupResp

def createGroup (id caller : Ident) (name : String) (description : Option String) :
    ProjHandler UserGroupResp := do
  validateName trim name
  let p ← managedProject id caller
  let now ← nowMs
  let org ← projectOrg p caller now
  let gid ← orInternal newUuid
  orInternal (createUserGroup ⟨gid, trim name, description, some org, now, now⟩)
  orInternal (grantGroupProjectAccess p.id gid .canView false caller now)
  groupResp (← orElse (getUserGroup gid) (notFound "project not found"))

def updateGroup (id caller group : Ident) (req : UpdateReq) : ProjHandler UserGroupResp := do
  let _ ← managedProject id caller
  let g ← orElse (getUserGroup group) (notFound "group not found")
  let name := req.name.getD g.name
  validateName trim name
  orInternal (updateUserGroup g.id (trim name) (req.description.or g.description) (← nowMs))
  groupResp (← orElse (getUserGroup g.id) (notFound "project not found"))

/-- The group is not compared with the project of the path. -/
def deleteGroup (id caller group : Ident) : ProjHandler Unit := do
  let _ ← managedProject id caller
  orInternal (deleteUserGroup group)

/-- The group is not compared with the project of the path. -/
def addGroupMember (id caller group user : Ident) (role : Option GroupMemberRole) :
    ProjHandler Unit := do
  let _ ← managedProject id caller
  let _ ← orElse (getUserGroup group) (notFound "group not found")
  let _ ← orElse (getUserById user) (notFound "user not found")
  orInternal (addUserGroupMember group user (role.getD .member))

/-- The group is not compared with the project of the path. -/
def removeGroupMember (id caller group user : Ident) : ProjHandler Unit := do
  let _ ← managedProject id caller
  if (← orInternal (removeUserGroupMember group user)) = 0 then
    throw (notFound "group member not found")
  else
    return ()

/-! ### Offboarding -/

/-- Who may offboard a user: the caller must outrank the target in every organization of
the target, or be Owner or Admin anywhere when the target is in none. -/
def mayOffboard (callerRoles targetRoles : List (Ident × OrgRole)) : Option ApiError :=
  if targetRoles.isEmpty then
    if callerRoles.any (·.2.canOffboard) then none
    else some (forbidden "only Owner/Admin may offboard users")
  else if targetRoles.all fun t => (callerRoles.find? fun c => c.1 = t.1).any fun c =>
      c.2.canOffboard && t.2.rank < c.2.rank then none
  else some (forbidden
    "not authorized to offboard this user (role rank too high or out of your org)")

def offboard (caller user : Ident) (reason : Option String) : ProjHandler OffboardResp := do
  let _ ← orElse (getUserById user) (notFound "unknown user")
  let callerRoles ← orInternal (getUserOrgRoles caller)
  let targetRoles ← orInternal (getUserOrgRoles user)
  match mayOffboard callerRoles targetRoles with
  | some err => throw err
  | none =>
    let now ← nowMs
    let id ← orInternal newUuid
    orInternal (createOffboarding ⟨id, user, caller, reason, none, now⟩)
    let revokedProjects ← orInternal (revokeProjectAccessForUser user)
    let revokedMemberships ← orInternal (revokeGroupMembershipsForUser user)
    let revokedTokens ← orInternal (revokeSessionsForUser user)
    orInternal (revokeOrgMembershipsForUser user)
    orInternal revokeOther
    orInternal revokeOther
    orInternal revokeOther
    orInternal (completeOffboarding id now)
    orInternal auditOrgEvent
    return ⟨user, revokedProjects, revokedMemberships, revokedTokens, now⟩

/-! ### The router -/

inductive ProjReq
  | listProjects (bound : Option Ident)
  | createProject (req : CreateProjectReq)
  | getProject (id : Ident)
  | updateProject (id : Ident) (req : UpdateReq)
  | deleteProject (id : Ident)
  | listMembers (id : Ident)
  | addMember (id user : Ident) (req : MemberReq)
  | updateMember (id user : Ident) (req : MemberReq)
  | removeMember (id user : Ident)
  | listGroups (id : Ident)
  | createGroup (id : Ident) (name : String) (description : Option String)
  | updateGroup (id group : Ident) (req : UpdateReq)
  | deleteGroup (id group : Ident)
  | addGroupMember (id group user : Ident) (role : Option GroupMemberRole)
  | removeGroupMember (id group user : Ident)
  | offboard (user : Ident) (reason : Option String)

inductive ProjReply
  | status
  | project (r : ProjectResp)
  | projects (r : List ProjectResp)
  | member (r : ProjectMemberResp)
  | members (r : List ProjectMemberResp)
  | group (r : UserGroupResp)
  | groups (r : List UserGroupResp)
  | offboarded (r : OffboardResp)

/-- `routes`. -/
def route (caller : Ident) : ProjReq → ProjHandler ProjReply
  | .listProjects bound => .projects <$> listProjects caller bound
  | .createProject req => .project <$> createProjectH trim caller req
  | .getProject id => .project <$> getProjectH id caller
  | .updateProject id req => .project <$> updateProject trim id caller req
  | .deleteProject id => (fun _ => .status) <$> deleteProjectH id caller
  | .listMembers id => .members <$> listMembers id caller
  | .addMember id user req => .member <$> addMember id caller user req
  | .updateMember id user req => .member <$> updateMember id caller user req
  | .removeMember id user => (fun _ => .status) <$> removeMember id caller user
  | .listGroups id => .groups <$> listGroups id caller
  | .createGroup id name description => .group <$> createGroup trim id caller name description
  | .updateGroup id group req => .group <$> updateGroup trim id caller group req
  | .deleteGroup id group => (fun _ => .status) <$> deleteGroup id caller group
  | .addGroupMember id group user role =>
    (fun _ => .status) <$> addGroupMember id caller group user role
  | .removeGroupMember id group user =>
    (fun _ => .status) <$> removeGroupMember id caller group user
  | .offboard user reason => .offboarded <$> offboard caller user reason

end Vautr.ProjectHandlers
