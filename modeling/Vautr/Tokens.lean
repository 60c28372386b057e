import Vautr.Credentials

/-!
Bearer tokens (`handlers/mod.rs`), access tokens (`handlers/tokens.rs`) and machine accounts
(`handlers/machine_accounts.rs`).

Scopes are stored as a JSON array of texts, which is the list of the texts.
-/

namespace Vautr.Tokens

open Vautr.Atomic Vautr.Sql Vautr.Database Vautr.Api Vautr.Server Vautr.Auth Vautr.Credentials

variable {B : Type} (X : CredExt B)

/-! ### Who asks -/

def authUser (token : String) : CredHandler B Ident := do
  let session ← orElse (getSession X token) unauthorized
  let now ← nowMs
  if session.expiresAt < now then
    throw unauthorized
  else if ← orInternal (userIsSuspended session.userId now) then
    throw (.new 403 "account_suspended" "account is suspended pending reclaim")
  else
    return session.userId

structure VerifiedToken where
  tokenId : Ident
  machineAccountUuid : Option Ident
  projectUuid : Option Ident
  scopes : List String
  expiresAt : Option ℤ
  deriving DecidableEq

/-- `if let Some(exp) = .. { if exp <= now { .. } }`. -/
def expiredAt (expiresAt : Option ℤ) (now : ℤ) : Bool := expiresAt.any (· ≤ now)

/-- The state of the machine account that a token is bound to. -/
def requireMachineAccount (row : AccessTokenRow) (now : ℤ) : CredHandler B Unit :=
  match row.machineAccountUuid with
  | none => pure ()
  | some uuid => do
    let ma ← orElse (getMachineAccount uuid row.ownerUserId) unauthorized
    if ma.status ≠ .active then throw unauthorized
    else if expiredAt ma.expiresAt now then throw unauthorized
    else return ()

/-- The mark of use of the machine account that a token is bound to. -/
def touchAccountOf (row : AccessTokenRow) (now : ℤ) : CredHandler B Unit :=
  match row.machineAccountUuid with
  | some ma => ignored (touchMachineAccount ma now)
  | none => pure ()

def verifyAccessToken (token : String) : CredHandler B VerifiedToken := do
  let now ← nowMs
  let row ← orElse (getTokenByHash (X.tokenHash token)) unauthorized
  if row.revokedAt.isSome then throw unauthorized
  else if expiredAt row.expiresAt now then throw unauthorized
  else
    requireMachineAccount row now
    ignored (touchAccessToken row.uuid now)
    touchAccountOf row now
    return ⟨row.uuid, row.machineAccountUuid, row.projectUuid, row.scopes, row.expiresAt⟩

structure AuthContext where
  userId : Ident
  token : Option VerifiedToken
  deriving DecidableEq

/-- `token.starts_with("vtr-ak-")`. -/
def isAccessToken (token : String) : Bool := "vtr-ak-".toList.isPrefixOf token.toList

def authAny (token : String) : CredHandler B AuthContext := do
  if isAccessToken token then
    let verified ← verifyAccessToken X token
    let owner ← orElse (getAccessTokenOwner verified.tokenId) unauthorized
    return ⟨owner, some verified⟩
  else
    return ⟨← authUser X token, none⟩

def logout (bearer : String) : CredHandler B Unit := do
  let _ ← authUser X bearer
  orInternal (deleteSession X bearer)

/-! ### Access tokens -/

def validScopes : List String :=
  ["secrets:read", "secrets:write", "secrets:reveal", "projects:read", "projects:write",
    "tokens:manage", "machine_accounts:manage"]

def validateScopes (scopes : List String) : Bool := scopes.all (· ∈ validScopes)

/-- `generate_token`, of the random bytes: the secret, its hash and the first characters. -/
def generateToken (bytes : B) : String × String × String :=
  let secret := X.b64url bytes
  (secret, X.tokenHash secret, String.ofList (secret.toList.take 8))

structure TokenCreateReq where
  name : String
  machineAccountUuid : Option Ident
  projectUuid : Option Ident
  scopes : List String
  expiresAt : Option ℤ

structure TokenCreateResp where
  token : String
  tokenId : Ident
  expiresAt : Option ℤ
  deriving DecidableEq

/-- The checks of scopes that creating a token and creating or updating a machine account
share. -/
def requireScopes (scopes : List String) : CredHandler B Unit :=
  if scopes.isEmpty then
    throw (.new 422 "invalid_scopes" "at least one scope is required")
  else if !validateScopes scopes then
    throw (.new 422 "invalid_scopes" "request contains an unknown access scope")
  else pure ()

/-- `if let Some(exp) = .. { if exp <= now_ms() { .. } }`: the clock is read only if there is
an expiry. -/
def requireFuture (expiresAt : Option ℤ) (err : ApiError) : CredHandler B Unit :=
  match expiresAt with
  | none => pure ()
  | some exp => do
    if exp ≤ (← nowMs) then throw err else return ()

def invalidExpiry : ApiError := .badRequest "invalid_expiry" "expires_at must be in the future"

def validateCreate (req : TokenCreateReq) : CredHandler B Unit := do
  if (X.trim req.name).isEmpty then
    throw (.badRequest "invalid_name" "name must not be empty")
  else if 128 < req.name.utf8ByteSize then
    throw (.badRequest "invalid_name" "name must be <= 128 chars")
  else
    requireScopes req.scopes
    requireFuture req.expiresAt invalidExpiry

/-- The machine account that a token is asked for exists, is active, has not expired and
allows the scopes. -/
def requireAllowed (user : Ident) (req : TokenCreateReq) : CredHandler B Unit :=
  match req.machineAccountUuid with
  | none => pure ()
  | some uuid => do
    let ma ← orElse (getMachineAccount uuid user)
      (.new 404 "not_found" "machine account not found")
    if ma.status ≠ .active then
      throw (.new 403 "machine_account_not_active" "machine account is not active")
    else
      requireFuture ma.expiresAt
        (.new 403 "machine_account_expired" "machine account has expired")
      if !req.scopes.all (· ∈ ma.scopes) then
        throw (.new 403 "scope_not_allowed"
          "requested scopes exceed the machine account's allowed scopes")
      else return ()

/-- The project of the token is that of its machine account. -/
def requireProject (user : Ident) (req : TokenCreateReq) : CredHandler B Unit :=
  match req.machineAccountUuid with
  | none => pure ()
  | some uuid => do
    match (← orInternal (getMachineAccount uuid user)).bind (·.projectUuid), req.projectUuid with
    | some mp, some rp =>
      if mp ≠ rp then
        throw (.new 422 "project_mismatch" "project_uuid must match the machine account's project")
      else return ()
    | some _, none =>
      throw (.new 422 "project_required"
        "project_uuid is required when the machine account is project-scoped")
    | none, _ => return ()

def effectiveExpiry (expiresAt : Option ℤ) (now : ℤ) : Option ℤ :=
  match expiresAt with
  | some t => some t
  | none =>
    if X.allowNonExpiring then none
    else some (now + X.maxTokenLifetimeDays.getD 90 * 86400000)

def createToken (bearer : String) (req : TokenCreateReq) : CredHandler B TokenCreateResp := do
  let user ← authUser X bearer
  validateCreate X req
  requireAllowed user req
  requireProject user req
  let uuid ← newUuid
  let now ← nowMs
  let expiry := effectiveExpiry X req.expiresAt now
  let (secret, hash, displayPrefix) := generateToken X (← random)
  orInternal (createAccessToken ⟨uuid, X.trim req.name, user, req.machineAccountUuid,
    req.projectUuid, req.scopes, hash, displayPrefix, expiry, none, none, now,
    req.machineAccountUuid⟩)
  orInternal auditOrgEvent
  return ⟨secret, uuid, expiry⟩

/-- `not_found` of the two handlers. -/
def notFound (what : String) (uuid : Ident) : ApiError :=
  .new 404 "not_found" s!"{what} {uuid} not found"

def revokeToken (bearer : String) (uuid : Ident) : CredHandler B Unit := do
  let user ← authUser X bearer
  let now ← nowMs
  if !(← orInternal (revokeAccessToken uuid user now)) then
    throw (notFound "access token" uuid)
  else
    orInternal auditOrgEvent

/-! ### Machine accounts -/

structure MaCreateReq where
  name : String
  description : Option String
  projectUuid : Option Ident
  scopes : List String
  expiresAt : Option ℤ

def createMachineAccountH (bearer : String) (req : MaCreateReq) :
    CredHandler B MachineAccountRow := do
  let user ← authUser X bearer
  let name := X.trim req.name
  if name.isEmpty then
    throw (.badRequest "invalid_name" "name must not be empty")
  else if 128 < name.utf8ByteSize then
    throw (.badRequest "invalid_name" "name must be <= 128 chars")
  else
    requireScopes req.scopes
    requireFuture req.expiresAt invalidExpiry
    let uuid ← newUuid
    let now ← nowMs
    orInternal (createMachineAccount ⟨uuid, name, req.description, user, req.projectUuid, .active,
      req.scopes, req.expiresAt, none, now⟩)
    orInternal auditOrgEvent
    orElse (getMachineAccount uuid user) (.internalText "machine account was not persisted")

structure MaUpdateReq where
  name : Option String
  description : Option String
  status : Option String
  scopes : Option (List String)
  expiresAt : Option ℤ

def MaStatus.parse : String → Option MaStatus
  | "active" => some .active
  | "disabled" => some .disabled
  | "revoked" => some .revoked
  | _ => none

/-- The status that an update asks for. -/
def newStatus (req : MaUpdateReq) (current : MachineAccountRow) : CredHandler B MaStatus :=
  match req.status with
  | none => pure current.status
  | some text =>
    match MaStatus.parse text with
    | some status => pure status
    | none => throw (.new 422 "invalid_status" "status must be active, disabled, or revoked")

/-- The scopes that an update asks for. -/
def newScopes (req : MaUpdateReq) (current : MachineAccountRow) : CredHandler B (List String) :=
  match req.scopes with
  | none => pure current.scopes
  | some scopes => do
    requireScopes scopes
    return scopes

def updateMachineAccountH (bearer : String) (uuid : Ident) (req : MaUpdateReq) :
    CredHandler B MachineAccountRow := do
  let user ← authUser X bearer
  let current ← orElse (getMachineAccount uuid user) (notFound "machine account" uuid)
  let name := req.name.getD current.name
  if (X.trim name).isEmpty then
    throw (.badRequest "invalid_name" "name must not be empty")
  else
    let description := req.description.or current.description
    let status ← newStatus req current
    let scopes ← newScopes req current
    let expiresAt := req.expiresAt.or current.expiresAt
    requireFuture expiresAt invalidExpiry
    if !(← orInternal
        (updateMachineAccount uuid user name description status scopes expiresAt)) then
      throw (notFound "machine account" uuid)
    else
      orInternal auditOrgEvent
      orElse (getMachineAccount uuid user) (notFound "machine account" uuid)

def deleteMachineAccountH (bearer : String) (uuid : Ident) : CredHandler B Unit := do
  let user ← authUser X bearer
  if !(← orInternal (deleteMachineAccount uuid user)) then
    throw (notFound "machine account" uuid)
  else
    orInternal auditOrgEvent

end Vautr.Tokens
