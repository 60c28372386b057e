import Vautr.ProjectHandlers
import Vautr.Zoom

/-!
Secrets of projects: the tables `secrets` and `secret_reveal_grants`, the repository and the
HTTP handlers on them (`repository/secrets.rs`, `handlers/secrets.rs`,
`migrations/0009_secrets.sql`), for a caller that `auth_user` has identified.

The name of an `UPDATE` carries the values it binds. `str::is_empty` and `chars().count()` are
those of Lean.
-/

namespace Vautr.Secrets

open Vautr.Atomic Vautr.Sql Vautr.Database Vautr.Api Vautr.Server Vautr.Zoom Vautr.Projects
open Vautr.ProjectHandlers

variable {B α : Type}

/-! ### The tables -/

/-- Row mirror of `secrets`. -/
structure SecretRow (B : Type) where
  uuid : Ident
  projectId : Ident
  key : String
  valueCiphertext : B
  version : ℤ
  createdBy : Ident
  lastAccessedAt : Option ℤ
  createdAt : ℤ
  updatedAt : ℤ
  deriving DecidableEq

structure RevealGrant where
  projectId : Ident
  userId : Ident
  grantedBy : Ident
  createdAt : ℤ
  deriving DecidableEq

abbrev RevealGrant.key (r : RevealGrant) : Ident × Ident := (r.projectId, r.userId)

/-- The tables of the projects, and those of the secrets. -/
structure SecretsDb (B : Type) where
  proj : ProjDb
  secrets : Table (SecretRow.uuid : SecretRow B → Ident)
  revealGrants : Table RevealGrant.key

inductive SecStmt (B : Type)
  | proj (l : ProjStmt)
  | projectExists
  | projectOwned
  | projectPermissions
  | createSecret
  | getSecret (uuid : Ident)
  | listSecrets
  | updateSecret (uuid : Ident) (key : String) (value : B)
  | deleteSecret (uuid : Ident)
  | touchSecret (uuid : Ident)
  | grantSecretReveal (project user : Ident)
  | revealGrants (project user : Ident)
  | auditLog
  deriving DecidableEq

abbrev SecRepo (B : Type) := Query (SecretsDb B) Env (SecStmt B)

abbrev SecHandler (B : Type) := Handler (SecretsDb B) Env (SecStmt B)

/-- The tables of the projects. -/
def projects : View ProjDb (SecretsDb B) Env Env ProjStmt (SecStmt B) where
  get db := db.proj
  put s db := { db with proj := s }
  inp e := e
  name := .proj
  get_put _ _ := rfl

/-! ### Permissions -/

inductive ProjectAccessLevel
  | view
  | edit
  | manage
  deriving DecidableEq

namespace ProjectAccessLevel

/-- The order of the enumeration, as `derive(PartialOrd)` has it. -/
def level : ProjectAccessLevel → ℕ
  | view => 0
  | edit => 1
  | manage => 2

def canEdit (l : ProjectAccessLevel) : Bool := edit.level ≤ l.level

/-- How a stored permission is read. -/
def ofPermission : ProjectPermission → ProjectAccessLevel
  | .canManage => manage
  | .canEdit => edit
  | .canView => view

end ProjectAccessLevel

/-- One round of the loop that keeps the strongest permission. -/
def stronger (best : Option ProjectAccessLevel) (p : ProjectPermission) :
    Option ProjectAccessLevel :=
  let lvl := ProjectAccessLevel.ofPermission p
  if best.all fun b => b.level < lvl.level then some lvl else best

/-- The grants on the project that reach the user, directly or through a group, in one
state. -/
def granted (db : ProjDb) (project user : Ident) : List ProjectPermission :=
  (db.access.rows.filter fun r => r.projectId = project &&
    (r.grantee = .inl user || db.toGroupOf user r)).map (·.permission)

def projectExists (project : Ident) : SecRepo B Bool :=
  select .projectExists fun db => (db.proj.projects.get project).isSome

/-- Whether the user owns the project, in one state. -/
def owns (db : ProjDb) (project user : Ident) : Bool :=
  (db.projects.get project).any fun p => p.ownerUserId = user

def userProjectPermission (project user : Ident) : SecRepo B (Option ProjectAccessLevel) := do
  if ← select .projectOwned fun db => owns db.proj project user then
    return some .manage
  else
    let perms ← select .projectPermissions fun db => granted db.proj project user
    return perms.foldl stronger none

def canReveal (project user : Ident) : SecRepo B Bool := do
  if ← select .projectOwned fun db => owns db.proj project user then
    return true
  else
    let grants ← select (.revealGrants project user) fun db =>
      db.revealGrants.rows.countP fun r => r.userId = user && r.projectId = project
    return 0 < grants

/-- `grant_secret_reveal`, `ON CONFLICT DO NOTHING`. -/
def grantSecretReveal (project user grantedBy : Ident) (now : ℤ) : SecRepo B Unit :=
  statement (.grantSecretReveal project user) fun _ db =>
    match db.revealGrants.insert ⟨project, user, grantedBy, now⟩ with
    | none => (db, .ok ())
    | some revealGrants =>
      if (db.proj.projects.get project).isSome && (db.proj.users.get user).isSome &&
          (db.proj.users.get grantedBy).isSome then
        ({ db with revealGrants }, .ok ())
      else (db, .error .foreignKey)

/-! ### Secrets -/

def createSecret (uuid project : Ident) (key : String) (value : B) (createdBy : Ident) (now : ℤ) :
    SecRepo B Unit :=
  statement .createSecret fun _ db =>
    match db.secrets.insert ⟨uuid, project, key, value, 1, createdBy, none, now, now⟩ with
    | none => (db, .error .unique)
    | some secrets =>
      if (db.proj.projects.get project).isSome && (db.proj.users.get createdBy).isSome then
        ({ db with secrets }, .ok ())
      else (db, .error .foreignKey)

def getSecret (uuid : Ident) : SecRepo B (Option (SecretRow B)) :=
  select (.getSecret uuid) fun db => db.secrets.get uuid

def listSecrets (project : Ident) : SecRepo B (List (SecretRow B)) :=
  select .listSecrets fun db =>
    (db.secrets.rows.filter fun r => r.projectId = project).insertionSort (·.key ≤ ·.key)

/-- The row after an `update_secret`. -/
def SecretRow.updated (key : String) (value : B) (now : ℤ) (r : SecretRow B) : SecretRow B :=
  { r with key, valueCiphertext := value, version := r.version + 1, updatedAt := now }

lemma SecretRow.uuid_updated (key : String) (value : B) (now : ℤ) (r : SecretRow B) :
    (r.updated key value now).uuid = r.uuid :=
  rfl

/-- `update_secret`; whether a row was hit. -/
def updateSecret (uuid : Ident) (key : String) (value : B) (now : ℤ) : SecRepo B Bool :=
  statement (.updateSecret uuid key value) fun _ db =>
    ({ db with
        secrets := db.secrets.update (fun r => r.uuid = uuid) (.updated key value now)
          (by intro r; rfl) },
      .ok ((db.secrets.rows.countP fun r => r.uuid = uuid) = 1))

def deleteSecret (uuid : Ident) : SecRepo B Bool :=
  statement (.deleteSecret uuid) fun _ db =>
    ({ db with secrets := db.secrets.delete fun r => r.uuid = uuid },
      .ok ((db.secrets.rows.countP fun r => r.uuid = uuid) = 1))

def touchSecret (uuid : Ident) (now : ℤ) : SecRepo B Unit :=
  statement (.touchSecret uuid) fun _ db =>
    ({ db with
        secrets := db.secrets.update (fun r => r.uuid = uuid)
          (fun r => { r with lastAccessedAt := some now }) (by intro r; rfl) }, .ok ())

/-- `audit_log`. The log is not read by anything here. -/
def auditLog : SecRepo B Unit := statement .auditLog fun _ db => (db, .ok ())

/-! ### The handlers -/

def nowMs : SecHandler B ℤ := zoomE projects ProjectHandlers.nowMs

def newUuid : SecHandler B Ident := orInternal (zoomE projects Projects.newUuid)

/-- `.await.map_err(internal)?.ok_or_else(|| err)?`. -/
def orElse (x : SecRepo B (Option α)) (err : ApiError) : SecHandler B α := do
  match ← orInternal x with
  | some a => return a
  | none => throw err

def validateKey (key : String) : SecHandler B Unit :=
  if key.isEmpty then
    throw (.new 422 "precondition_failed" "secret key must not be empty")
  else if 256 < key.length then
    throw (.new 422 "precondition_failed" "secret key exceeds 256 characters")
  else pure ()

def requireProjectAccess (project user : Ident) (needEdit : Bool) :
    SecHandler B ProjectAccessLevel := do
  if !(← orInternal (projectExists project)) then
    throw (notFound "project not found")
  else
    let lvl ← orElse (userProjectPermission project user)
      (forbidden "you do not have access to this project")
    if needEdit && !lvl.canEdit then
      throw (forbidden "edit permission required on this project")
    else
      return lvl

def loadSecretForUser (uuid user : Ident) (needEdit : Bool) : SecHandler B (SecretRow B) := do
  let row ← orElse (getSecret uuid) (notFound "secret not found")
  let _ ← requireProjectAccess row.projectId user needEdit
  return row

structure SecretCreateRequest (B : Type) where
  projectUuid : Ident
  key : String
  valueCiphertext : Option B

structure SecretUpdateRequest (B : Type) where
  key : Option String
  valueCiphertext : Option (Option B)

/-- The metadata of a secret. -/
structure Secret where
  uuid : Ident
  projectUuid : Ident
  key : String
  version : ℤ
  createdBy : Ident
  lastAccessedAt : Option ℤ
  createdAt : ℤ
  updatedAt : ℤ
  deriving DecidableEq

def toSecret (r : SecretRow B) : Secret :=
  ⟨r.uuid, r.projectId, r.key, r.version, r.createdBy, r.lastAccessedAt, r.createdAt, r.updatedAt⟩

def listSecretsH (user project : Ident) : SecHandler B (List Secret) := do
  let _ ← requireProjectAccess project user false
  return (← orInternal (listSecrets project)).map toSecret

def createSecretH (user : Ident) (req : SecretCreateRequest B) : SecHandler B Secret := do
  let _ ← requireProjectAccess req.projectUuid user true
  validateKey req.key
  let value ← decodeB64 req.valueCiphertext
  let uuid ← newUuid
  let now ← nowMs
  orInternal (createSecret uuid req.projectUuid req.key value user now)
  orInternal auditLog
  return toSecret (← orElse (getSecret uuid) (notFound "secret not found"))

def getSecretH (user uuid : Ident) : SecHandler B Secret := do
  return toSecret (← loadSecretForUser uuid user false)

/-- The key that an update writes: that of the row it has read, if the request has none. -/
def newKey (row : SecretRow B) : Option String → SecHandler B String
  | some key => do
    validateKey key
    return key
  | none => pure row.key

/-- The value that an update writes: that of the row it has read, if the request has none. -/
def newValue (row : SecretRow B) : Option (Option B) → SecHandler B B
  | some value => decodeB64 value
  | none => pure row.valueCiphertext

/-- `PATCH /secrets/{uuid}`. -/
def updateSecretH (user uuid : Ident) (req : SecretUpdateRequest B) : SecHandler B Secret := do
  let row ← loadSecretForUser uuid user true
  let key ← newKey row req.key
  let value ← newValue row req.valueCiphertext
  let now ← nowMs
  let _ ← orInternal (updateSecret uuid key value now)
  orInternal auditLog
  return toSecret (← orElse (getSecret uuid) (notFound "secret not found"))

def deleteSecretH (user uuid : Ident) : SecHandler B Unit := do
  let _ ← loadSecretForUser uuid user true
  let _ ← orInternal (deleteSecret uuid)
  let _ ← nowMs
  orInternal auditLog

structure SecretValue (B : Type) where
  uuid : Ident
  key : String
  valueCiphertext : B

def getSecretValue (user uuid : Ident) : SecHandler B (SecretValue B) := do
  let row ← loadSecretForUser uuid user false
  if !(← orInternal (canReveal row.projectId user)) then
    throw (.new 403 "secrets_reveal_required"
      "the `secrets:reveal` scope is required to read secret values")
  else
    let now ← nowMs
    orInternal (touchSecret uuid now)
    orInternal auditLog
    return ⟨row.uuid, row.key, row.valueCiphertext⟩

end Vautr.Secrets
