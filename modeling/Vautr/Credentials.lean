import Vautr.Auth
import Vautr.Zoom

/-!
The tables that hold credentials, next to those of the login itself: access tokens and
machine accounts, second factors, recovery challenges and recovery tokens
(`repository/machine_accounts.rs`, `repository/mfa.rs`, `repository/recovery.rs`,
`repository/sessions.rs`).

The columns that later migrations add to `users` are a table of their own, which has no row
for a user whose columns are all at their defaults. A transaction is one statement.
-/

namespace Vautr.Credentials

open Vautr.Atomic Vautr.Sql Vautr.Database Vautr.Api Vautr.Server Vautr.Auth Vautr.Zoom

/-- The columns of `users` for recovery and for failed codes. -/
structure UserCols (B : Type) where
  user : Ident
  rkPublicKey : Option B
  reclaimToken : Option String
  suspendedUntil : Option ℤ
  totpFailCount : ℤ
  totpLockUntil : ℤ

def UserCols.default {B : Type} (user : Ident) : UserCols B := ⟨user, none, none, none, 0, 0⟩

/-- The column `status` of `machine_accounts`. -/
inductive MaStatus
  | active
  | disabled
  | revoked
  deriving DecidableEq

structure MachineAccountRow where
  uuid : Ident
  name : String
  description : Option String
  ownerUserId : Ident
  projectUuid : Option Ident
  status : MaStatus
  scopes : List String
  expiresAt : Option ℤ
  lastUsedAt : Option ℤ
  createdAt : ℤ
  deriving DecidableEq

/-- Row mirror of `access_tokens`. `mintedFor` is not in the source: it records the machine
account of the `create_token` that made the row, and no code reads it. -/
structure AccessTokenRow where
  uuid : Ident
  name : String
  ownerUserId : Ident
  machineAccountUuid : Option Ident
  projectUuid : Option Ident
  scopes : List String
  tokenHash : String
  displayPrefix : String
  expiresAt : Option ℤ
  revokedAt : Option ℤ
  lastUsedAt : Option ℤ
  createdAt : ℤ
  mintedFor : Option Ident
  deriving DecidableEq

/-- Row mirror of `recovery_challenges`. `serial` is not in the source: it counts the
challenges that were stored, and no code reads it. -/
structure ChallengeRow (B : Type) where
  user : Ident
  nonce : B
  expiresAt : ℤ
  createdAt : ℤ
  serial : ℕ

structure RecoverySessionRow where
  tokenHash : String
  userId : Ident
  expiresAt : ℤ
  createdAt : ℤ
  deriving DecidableEq

/-- A row of `totp_used_steps`. -/
structure UsedStep where
  user : Ident
  step : ℤ
  usedAt : ℤ
  deriving DecidableEq

def UsedStep.key (r : UsedStep) : Ident × ℤ := (r.user, r.step)

/-- A row of `mfa_recovery_codes`. -/
structure RecoveryCodeRow where
  user : Ident
  codeHash : String
  used : Bool
  deriving DecidableEq

def RecoveryCodeRow.key (r : RecoveryCodeRow) : Ident × String := (r.user, r.codeHash)

structure CredDb (B : Type) where
  auth : AuthDb B
  cols : Table (UserCols.user : UserCols B → Ident)
  machineAccounts : Table MachineAccountRow.uuid
  accessTokens : Table₂ AccessTokenRow.uuid AccessTokenRow.tokenHash
  challenges : Table (ChallengeRow.user : ChallengeRow B → Ident)
  /-- How many challenges were stored so far. -/
  stored : ℕ
  recoverySessions : Table RecoverySessionRow.tokenHash
  totpSecrets : Table (Prod.fst : Ident × B → Ident)
  usedSteps : Table UsedStep.key
  recoveryCodes : Table RecoveryCodeRow.key

inductive CredStmt
  | auth (l : AuthStmt)
  | getSession (tokenHash : String)
  | deleteSession (tokenHash : String)
  | userIsSuspended (user : Ident)
  | getTokenByHash (tokenHash : String)
  | getTokenOwner (uuid : Ident)
  | touch
  | getMachineAccount (uuid owner : Ident)
  | insertMachineAccount (owner : Ident)
  | updateMachineAccount (uuid owner : Ident) (scopes : List String)
  | deleteMachineAccount (uuid owner : Ident)
  | insertToken (owner : Ident) (machineAccount : Option Ident) (scopes : List String)
  | revokeToken (uuid owner : Ident)
  | getRkPublicKey (user : Ident)
  | storeChallenge (user : Ident)
  | getChallenge (user : Ident)
  | deleteChallenge (user : Ident)
  | createRecoverySession (user : Ident)
  | consumeRecoverySession (tokenHash : String)
  | peekRecoverySession (tokenHash : String)
  | getUserById (user : Ident)
  | completeRecovery (user : Ident)
  | revokeUserSessions (user : Ident)
  | storeReclaim (user : Ident)
  | getUserByReclaimToken
  | clearReclaim (user : Ident)
  | getPending (tokenHash : String)
  | bumpPending (tokenHash : String)
  | deletePending (tokenHash : String)
  | getTotpSecret (user : Ident)
  | totpLockState (user : Ident)
  | totpStepUsed (user : Ident) (step : ℤ)
  | markTotpStep (user : Ident) (step : ℤ)
  | pruneTotpSteps
  | registerTotpFailure (user : Ident)
  | clearTotpFailures (user : Ident)
  | redeemRecoveryCode (user : Ident) (codeHash : String)
  deriving DecidableEq

/-- Functions of other crates and of the standard library, and the environment variables
`VAUTR_ALLOW_NON_EXPIRING_TOKENS` (whether it is "1") and `VAUTR_MAX_TOKEN_LIFETIME_DAYS`
(if it is a number). -/
structure CredExt (B : Type) extends Opaque B where
  b64 : B → String
  b64url : B → String
  hashToken : String → String
  tokenHash : String → String
  recoveryCodeHash : String → String
  hyphenated : Ident → String
  trim : String → String
  verifyingKey : B → Bool
  verifyStrict : B → B → B → Bool
  totpVerifier : B → Except String Unit
  totpGenerate : B → ℤ → String
  allowNonExpiring : Bool
  maxTokenLifetimeDays : Option ℤ

variable {B α : Type} (X : CredExt B)

/-- What the login uses of other crates: its session token is hashed as text. -/
def CredExt.loginExt : Opaque B :=
  { X.toOpaque with hashSessionToken := fun key => X.hashToken (X.b64 key) }

abbrev CredEv (B : Type) := Ev (CredDb B) (AuthEnv B) CredStmt

abbrev CredRepo (B : Type) := Query (CredDb B) (AuthEnv B) CredStmt

abbrev CredHandler (B : Type) := Handler (CredDb B) (AuthEnv B) CredStmt

/-- The tables of the login. -/
def login : View (AuthDb B) (CredDb B) (AuthEnv B) (AuthEnv B) AuthStmt CredStmt where
  get db := db.auth
  put s db := { db with auth := s }
  inp e := e
  name := .auth
  get_put _ _ := rfl

/-- A repository call on the tables of the login. -/
def onLogin (x : AuthRepo B α) : CredRepo B α := zoomE login x

def unauthorized : ApiError := .new 401 "unauthorized" "missing or expired session"

/-- `.await.map_err(..)?.ok_or_else(|| err)?`. -/
def orElse (x : CredRepo B (Option α)) (err : ApiError) : CredHandler B α := do
  match ← orInternal x with
  | some a => return a
  | none => throw err

def nowMs : CredHandler B ℤ := zoomE login Auth.nowMs

def random : CredHandler B B := zoomE login Auth.random

def newUuid : CredHandler B Ident := zoomE login Auth.newUuid

def auditOrgEvent : CredRepo B Unit := onLogin Auth.auditOrgEvent

/-! ### `users` -/

def CredDb.colsOf (db : CredDb B) (user : Ident) : UserCols B :=
  (db.cols.get user).getD (.default user)

/-- `SELECT .. FROM users WHERE id = ?`. -/
def selectCols (l : CredStmt) (user : Ident) (g : UserCols B → α) : CredRepo B (Option α) :=
  select l fun db => (db.auth.users.get user).map fun _ => g (db.colsOf user)

/-- The columns after `UPDATE users SET .. WHERE id = ?`. -/
def CredDb.setCols (db : CredDb B) (user : Ident) (f : UserCols B → UserCols B)
    (hf : ∀ r, (f r).user = r.user) : CredDb B :=
  if (db.auth.users.get user).isSome then
    { db with cols := db.cols.upsert (f (.default user)) f hf }
  else db

/-- Nothing but these columns changes. -/
lemma CredDb.setCols_eq (db : CredDb B) (user : Ident) (f : UserCols B → UserCols B)
    (hf : ∀ r, (f r).user = r.user) :
    db.setCols user f hf = { db with cols := (db.setCols user f hf).cols } := by
  unfold CredDb.setCols
  split
  · rfl
  · rfl

def updateCols (l : CredStmt) (user : Ident) (f : UserCols B → UserCols B)
    (hf : ∀ r, (f r).user = r.user) : CredRepo B Unit :=
  statement l fun _ db => (db.setCols user f hf, .ok ())

def getUserByEmail (email : String) : CredRepo B (Option (UserRow B)) :=
  onLogin (Auth.getUserByEmail email)

def getUserById (user : Ident) : CredRepo B (Option (UserRow B)) :=
  select (.getUserById user) fun db => db.auth.users.get user

/-! ### `repository/sessions.rs` -/

/-- `store_session`, of a token that is a text. -/
def storeSession (token : String) (user : Ident) (expiresAt : ℤ) : CredRepo B Unit :=
  statement (.auth (.storeSession user)) fun e db =>
    if (db.auth.users.get user).isSome then
      ({ db with auth := { db.auth with
          sessions := db.auth.sessions.upsert ⟨X.hashToken token, user, expiresAt, e.now⟩
            (fun r => { r with userId := user, expiresAt })
            (SessionRow.tokenHash_renew user expiresAt) } }, .ok ())
    else (db, .error .foreignKey)

def getSession (token : String) : CredRepo B (Option SessionRow) :=
  select (.getSession (X.hashToken token)) fun db => db.auth.sessions.get (X.hashToken token)

def deleteSession (token : String) : CredRepo B Unit :=
  statement (.deleteSession (X.hashToken token)) fun _ db =>
    ({ db with auth := { db.auth with
        sessions := db.auth.sessions.delete fun r => r.tokenHash = X.hashToken token } }, .ok ())

/-! ### `repository/machine_accounts.rs` -/

def createMachineAccount (row : MachineAccountRow) : CredRepo B Unit :=
  statement (.insertMachineAccount row.ownerUserId) fun _ db =>
    match db.machineAccounts.insert row with
    | none => (db, .error .unique)
    | some machineAccounts =>
      if (db.auth.users.get row.ownerUserId).isSome then ({ db with machineAccounts }, .ok ())
      else (db, .error .foreignKey)

def getMachineAccount (uuid owner : Ident) : CredRepo B (Option MachineAccountRow) :=
  select (.getMachineAccount uuid owner) fun db =>
    (db.machineAccounts.get uuid).filter fun r => r.ownerUserId = owner

/-- `update_machine_account`; whether a row was hit. -/
def updateMachineAccount (uuid owner : Ident) (name : String) (description : Option String)
    (status : MaStatus) (scopes : List String) (expiresAt : Option ℤ) : CredRepo B Bool :=
  statement (.updateMachineAccount uuid owner scopes) fun _ db =>
    let hits (r : MachineAccountRow) : Bool := r.uuid = uuid && r.ownerUserId = owner
    ({ db with
        machineAccounts := db.machineAccounts.update hits
          (fun r => { r with name, description, status, scopes, expiresAt }) (by intro r; rfl) },
      .ok (0 < db.machineAccounts.rows.countP hits))

lemma AccessTokenRow.uuid_detach (t : AccessTokenRow) :
    ({ t with machineAccountUuid := none } : AccessTokenRow).uuid = t.uuid := rfl

lemma AccessTokenRow.tokenHash_detach (t : AccessTokenRow) :
    ({ t with machineAccountUuid := none } : AccessTokenRow).tokenHash = t.tokenHash := rfl

/-- `delete_machine_account`; whether a row was hit. The foreign key of `access_tokens` is
`ON DELETE SET NULL`. -/
def deleteMachineAccount (uuid owner : Ident) : CredRepo B Bool :=
  statement (.deleteMachineAccount uuid owner) fun _ db =>
    let hits (r : MachineAccountRow) : Bool := r.uuid = uuid && r.ownerUserId = owner
    if 0 < db.machineAccounts.rows.countP hits then
      ({ db with
          machineAccounts := db.machineAccounts.delete hits
          accessTokens := db.accessTokens.update (fun t => t.machineAccountUuid = some uuid)
            (fun t => { t with machineAccountUuid := none }) AccessTokenRow.uuid_detach
            AccessTokenRow.tokenHash_detach }, .ok true)
    else (db, .ok false)

def touchMachineAccount (uuid : Ident) (now : ℤ) : CredRepo B Unit :=
  statement .touch fun _ db =>
    ({ db with
        machineAccounts := db.machineAccounts.update (fun r => r.uuid = uuid)
          (fun r => { r with lastUsedAt := some now }) (by intro r; rfl) }, .ok ())

def createAccessToken (row : AccessTokenRow) : CredRepo B Unit :=
  statement (.insertToken row.ownerUserId row.mintedFor row.scopes) fun _ db =>
    match db.accessTokens.insert row with
    | none => (db, .error .unique)
    | some accessTokens =>
      if (db.auth.users.get row.ownerUserId).isSome &&
          row.machineAccountUuid.all fun ma => (db.machineAccounts.get ma).isSome then
        ({ db with accessTokens }, .ok ())
      else (db, .error .foreignKey)

def getTokenByHash (hash : String) : CredRepo B (Option AccessTokenRow) :=
  select (.getTokenByHash hash) fun db => db.accessTokens.by'.get hash

def getAccessTokenOwner (uuid : Ident) : CredRepo B (Option Ident) :=
  select (.getTokenOwner uuid) fun db => (db.accessTokens.get uuid).map (·.ownerUserId)

/-- `UPDATE access_tokens SET ..`, of columns outside its keys. -/
def updateToken (l : CredStmt) (hits : AccessTokenRow → Bool) (f : AccessTokenRow → AccessTokenRow)
    (hf : ∀ r, (f r).uuid = r.uuid) (hf' : ∀ r, (f r).tokenHash = r.tokenHash) : CredRepo B Bool :=
  statement l fun _ db =>
    ({ db with accessTokens := db.accessTokens.update hits f hf hf' },
      .ok (0 < db.accessTokens.rows.countP hits))

def revokeAccessToken (uuid owner : Ident) (now : ℤ) : CredRepo B Bool :=
  updateToken (.revokeToken uuid owner) (fun r => r.uuid = uuid && r.ownerUserId = owner)
    (fun r => { r with revokedAt := some now }) (by intro r; rfl) (by intro r; rfl)

def touchAccessToken (uuid : Ident) (now : ℤ) : CredRepo B Bool :=
  updateToken .touch (fun r => r.uuid = uuid) (fun r => { r with lastUsedAt := some now })
    (by intro r; rfl) (by intro r; rfl)

/-! ### `repository/recovery.rs` -/

def getRkPublicKey (user : Ident) : CredRepo B (Option B) := do
  return (← selectCols (.getRkPublicKey user) user (·.rkPublicKey)).join

def completeRecovery (user : Ident) (opaqueRecord kdfSalt svk svkRk rkPublicKey : B) (now : ℤ) :
    CredRepo B Unit :=
  statement (.completeRecovery user) fun _ db =>
    let db' := db.setCols user (fun r => { r with rkPublicKey := some rkPublicKey })
      (by intro r; rfl)
    ({ db' with auth := { db.auth with
        users := db.auth.users.update (fun r => r.id = user)
          (fun r => { r with
            opaqueRecord, kdfSalt, svkCiphertextBlob := svk, svkCiphertextBlobRk := svkRk
            updatedAt := now }) (by intro r; rfl) } }, .ok ())

def revokeUserSessions (user : Ident) : CredRepo B Unit :=
  statement (.revokeUserSessions user) fun _ db =>
    ({ db with auth := { db.auth with
        sessions := db.auth.sessions.delete fun r => r.userId = user } }, .ok ())

def createRecoverySession (token : String) (user : Ident) (expiresAt now : ℤ) : CredRepo B Unit :=
  statement (.createRecoverySession user) fun _ db =>
    match db.recoverySessions.insert ⟨X.hashToken token, user, expiresAt, now⟩ with
    | none => (db, .error .unique)
    | some recoverySessions =>
      if (db.auth.users.get user).isSome then ({ db with recoverySessions }, .ok ())
      else (db, .error .foreignKey)

/-- `consume_recovery_session`: the row is read and deleted in one transaction. -/
def consumeRecoverySession (token : String) : CredRepo B (Option (Ident × ℤ)) :=
  statement (.consumeRecoverySession (X.hashToken token)) fun _ db =>
    ({ db with recoverySessions := db.recoverySessions.delete fun r =>
        r.tokenHash = X.hashToken token },
      .ok ((db.recoverySessions.get (X.hashToken token)).map fun r => (r.userId, r.expiresAt)))

/-- `peek_recovery_session`; every row has the default `one_time_use = 1`. -/
def peekRecoverySession (token : String) : CredRepo B (Option (Ident × ℤ)) :=
  statement (.peekRecoverySession (X.hashToken token)) fun e db =>
    (db, .ok (((db.recoverySessions.get (X.hashToken token)).filter fun r =>
      e.now < r.expiresAt).map fun r => (r.userId, r.expiresAt)))

def storeReclaim (user : Ident) (token : String) (suspendedUntil : ℤ) : CredRepo B Unit :=
  updateCols (.storeReclaim user) user (fun r => { r with
    reclaimToken := some (X.hashToken token), suspendedUntil := some suspendedUntil })
    (by intro r; rfl)

def getUserByReclaimToken (token : String) : CredRepo B (Option Ident) :=
  select .getUserByReclaimToken fun db => (db.auth.users.rows.find? fun r =>
    (db.colsOf r.id).reclaimToken = some (X.hashToken token)).map (·.id)

def clearReclaim (user : Ident) : CredRepo B Unit :=
  updateCols (.clearReclaim user) user (fun r => { r with
    reclaimToken := none, suspendedUntil := none }) (by intro r; rfl)

def storeRecoveryChallenge (user : Ident) (nonce : B) (expiresAt now : ℤ) : CredRepo B Unit :=
  statement (.storeChallenge user) fun _ db =>
    if (db.auth.users.get user).isSome then
      ({ db with
          challenges := db.challenges.upsert ⟨user, nonce, expiresAt, now, db.stored⟩
            (fun r => { r with nonce, expiresAt, createdAt := now, serial := db.stored })
            (by intro r; rfl)
          stored := db.stored + 1 }, .ok ())
    else (db, .error .foreignKey)

def getRecoveryChallenge (user : Ident) : CredRepo B (Option (B × ℤ)) :=
  select (.getChallenge user) fun db => (db.challenges.get user).map fun r => (r.nonce, r.expiresAt)

def deleteRecoveryChallenge (user : Ident) : CredRepo B Unit :=
  statement (.deleteChallenge user) fun _ db =>
    ({ db with challenges := db.challenges.delete fun r => r.user = user }, .ok ())

/-- Whether the account is suspended at the time `now`. -/
def CredDb.isSuspended (db : CredDb B) (user : Ident) (now : ℤ) : Bool :=
  ((db.auth.users.get user).bind fun _ => (db.colsOf user).suspendedUntil).any (now < ·)

def userIsSuspended (user : Ident) (now : ℤ) : CredRepo B Bool :=
  select (.userIsSuspended user) fun db => db.isSuspended user now

/-! ### `repository/mfa.rs` -/

def getPendingMfa (hash : String) : CredRepo B (Option PendingMfaRow) :=
  select (.getPending hash) fun db => db.auth.pendingMfa.get hash

def bumpPendingMfaAttempts (hash : String) : CredRepo B Unit :=
  statement (.bumpPending hash) fun _ db =>
    ({ db with auth := { db.auth with
        pendingMfa := db.auth.pendingMfa.update (fun r => r.tokenHash = hash)
          (fun r => { r with attempts := r.attempts + 1 }) (by intro r; rfl) } }, .ok ())

def deletePendingMfa (hash : String) : CredRepo B Unit :=
  statement (.deletePending hash) fun _ db =>
    ({ db with auth := { db.auth with
        pendingMfa := db.auth.pendingMfa.delete fun r => r.tokenHash = hash } }, .ok ())

def getTotpSecret (user : Ident) : CredRepo B (Option B) :=
  select (.getTotpSecret user) fun db => (db.totpSecrets.get user).map (·.2)

/-- `totp_lock_state`; `(0, 0)` for an unknown user. -/
def totpLockState (user : Ident) : CredRepo B (ℤ × ℤ) := do
  return (← selectCols (.totpLockState user) user fun r =>
    (r.totpFailCount, r.totpLockUntil)).getD (0, 0)

def totpStepUsed (user : Ident) (step : ℤ) : CredRepo B Bool :=
  select (.totpStepUsed user step) fun db => (db.usedSteps.get (user, step)).isSome

/-- `mark_totp_step_used`: `INSERT OR IGNORE`, then the steps of more than a day ago are
pruned, whether or not that succeeds. `OR IGNORE` does not cover the foreign key. -/
def markTotpStepUsed (user : Ident) (step now : ℤ) : CredRepo B Unit := do
  statement (.markTotpStep user step) fun _ db =>
    if (db.auth.users.get user).isSome then
      ({ db with usedSteps := (db.usedSteps.insert ⟨user, step, now⟩).getD db.usedSteps }, .ok ())
    else (db, .error .foreignKey)
  let _ ← attempt (statement .pruneTotpSteps fun _ db =>
    ({ db with usedSteps := db.usedSteps.delete fun r => r.usedAt < now - 86400000 }, .ok ()))
  return ()

def registerTotpFailure (user : Ident) (now : ℤ) : CredRepo B Unit :=
  updateCols (.registerTotpFailure user) user (fun r => { r with
    totpFailCount := r.totpFailCount + 1
    totpLockUntil := if 5 ≤ r.totpFailCount + 1 then now + 15 * 60000 else r.totpLockUntil })
    (by intro r; rfl)

def clearTotpFailures (user : Ident) : CredRepo B Unit :=
  updateCols (.clearTotpFailures user) user (fun r => { r with
    totpFailCount := 0, totpLockUntil := 0 }) (by intro r; rfl)

/-- `redeem_recovery_code`: whether an unused code was there; it is used now. -/
def redeemRecoveryCode (user : Ident) (code : String) : CredRepo B Bool :=
  statement (.redeemRecoveryCode user (X.recoveryCodeHash code)) fun _ db =>
    let hits (r : RecoveryCodeRow) : Bool :=
      r.user = user && r.codeHash = X.recoveryCodeHash code && !r.used
    ({ db with
        recoveryCodes := db.recoveryCodes.update hits (fun r => { r with used := true })
          (by intro r; rfl) },
      .ok (0 < db.recoveryCodes.rows.countP hits))

end Vautr.Credentials
