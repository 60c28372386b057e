import Vautr.Server

/-!
Registration and login (`handlers/auth.rs`): the OPAQUE message handlers, the process-wide
map `LOGIN_STATE`, and the repository statements they run.

The OPAQUE functions of `vautr_crypto::opaque` are wrappers of the crate `opaque-ke` and
stay parameters, as do the hash functions and the environment variables of the process.
-/

namespace Vautr.Auth

open Vautr.Atomic Vautr.Sql Vautr.Database Vautr.Api Vautr.Server

structure SessionRow where
  tokenHash : String
  userId : Ident
  expiresAt : ℤ
  createdAt : ℤ
  deriving DecidableEq

structure PendingMfaRow where
  tokenHash : String
  userId : Ident
  createdAt : ℤ
  expiresAt : ℤ
  attempts : ℤ
  deriving DecidableEq

/-- An entry of `LOGIN_STATE`. `startedBy` is not in the source: it records the username of
the `login_start` that made the entry, and no code reads it. -/
structure LoginEntry (B : Type) where
  key : String
  state : B
  created : ℤ
  startedBy : String

lemma LoginEntry.key_restart {B : Type} (username : String) (sstate : B) (now : ℤ)
    (r : LoginEntry B) :
    ({ r with state := sstate, created := now, startedBy := username } : LoginEntry B).key =
      r.key := rfl

/-- The tables the handlers use, and `LOGIN_STATE`. Of `mfa_policy` only `required` is
read, and of the tables of second factors only who has one. -/
structure AuthDb (B : Type) where
  users : Table (UserRow.id : UserRow B → Ident)
  config : Table (Prod.fst : String × B → String)
  sessions : Table SessionRow.tokenHash
  pendingMfa : Table PendingMfaRow.tokenHash
  mfaRequired : Option Bool
  totpUsers : List Ident
  webauthnUsers : List Ident
  loginState : Table (LoginEntry.key : LoginEntry B → String)

structure AuthEnv (B : Type) where
  now : ℤ
  uuid : Ident
  random : B
  fault : Bool

instance {B : Type} : Faulty (AuthEnv B) := ⟨AuthEnv.fault⟩

inductive AuthStmt
  | getConfig (key : String)
  | setConfig (key : String)
  | getUserByEmail (email : String)
  | createUser (email : String)
  | auditOrgEvent
  | random
  | clock
  | storeLogin (username : String)
  | takeLogin (key : String)
  | mfaGetPolicy
  | mfaHasTotp (user : Ident)
  | webauthnHasCredentials (user : Ident)
  | purgePendingMfa
  | storePendingMfa (user : Ident)
  | storeSession (user : Ident)
  | purgeSessions
  deriving DecidableEq

/-- Functions of other crates, and the environment variables `VAUTR_OPAQUE_SETUP_FILE` (what
the file holds, `none` if it cannot be read), `VAUTR_ENV` and `VAUTR_ALLOW_DB_OPRF`. -/
structure Opaque (B : Type) where
  setupFromBytes : B → Bool
  generateServerSetup : B → Except String B
  serverRegisterStart : B → B → String → Except String B
  serverRegisterFinish : B → Except String B
  serverLoginStart : B → B → Option B → B → String → Except String (B × B)
  serverLoginFinish : B → B → Except String B
  len : B → ℕ
  allZero : B → Bool
  simple : Ident → String
  sha256Hex : String → String
  hashSessionToken : B → String
  setupFile : Option (Option B)
  prod : Bool
  allowDb : Bool

variable {B : Type} (X : Opaque B)

abbrev AuthRepo (B : Type) := Query (AuthDb B) (AuthEnv B) AuthStmt

abbrev AuthHandler (B : Type) := Handler (AuthDb B) (AuthEnv B) AuthStmt

/-! ### The repository -/

def getConfig (key : String) : AuthRepo B (Option B) :=
  select (.getConfig key) fun db => (db.config.get key).map (·.2)

def setConfig (key : String) (value : B) : AuthRepo B Unit :=
  statement (.setConfig key) fun _ db =>
    ({ db with config := db.config.upsert (key, value) (fun r => (r.1, value)) (by intro r; rfl) },
      .ok ())

def getUserByEmail (email : String) : AuthRepo B (Option (UserRow B)) :=
  select (.getUserByEmail email) fun db => db.users.rows.find? fun r => r.email = email

/-- `create_user`; the column `email` is `UNIQUE`. -/
def createUser (row : UserRow B) : AuthRepo B Unit :=
  statement (.createUser row.email) fun _ db =>
    if db.users.rows.any fun r => r.email = row.email then (db, .error .unique)
    else match db.users.insert row with
      | none => (db, .error .unique)
      | some users => ({ db with users }, .ok ())

def auditOrgEvent : AuthRepo B Unit := statement .auditOrgEvent fun _ db => (db, .ok ())

def mfaGetPolicy : AuthRepo B Bool := select .mfaGetPolicy fun db => db.mfaRequired.getD false

def mfaHasTotp (user : Ident) : AuthRepo B Bool :=
  select (.mfaHasTotp user) fun db => user ∈ db.totpUsers

def webauthnHasCredentials (user : Ident) : AuthRepo B Bool :=
  select (.webauthnHasCredentials user) fun db => user ∈ db.webauthnUsers

lemma SessionRow.tokenHash_renew (user : Ident) (expiresAt : ℤ) (r : SessionRow) :
    ({ r with userId := user, expiresAt } : SessionRow).tokenHash = r.tokenHash := rfl

def storeSession (token : B) (user : Ident) (expiresAt : ℤ) : AuthRepo B Unit :=
  statement (.storeSession user) fun e db =>
    if (db.users.get user).isSome then
      ({ db with
          sessions := db.sessions.upsert ⟨X.hashSessionToken token, user, expiresAt, e.now⟩
            (fun r => { r with userId := user, expiresAt }) (by intro r; rfl) }, .ok ())
    else (db, .error .foreignKey)

def purgeExpiredSessions : AuthRepo B Unit :=
  statement .purgeSessions fun e db =>
    ({ db with sessions := db.sessions.delete fun r => r.expiresAt < e.now }, .ok ())

def storePendingMfa (tokenHash : String) (user : Ident) (expiresAt : ℤ) : AuthRepo B Unit :=
  statement (.storePendingMfa user) fun e db =>
    match db.pendingMfa.insert ⟨tokenHash, user, e.now, expiresAt, 0⟩ with
    | none => (db, .error .unique)
    | some pendingMfa =>
      if (db.users.get user).isSome then ({ db with pendingMfa }, .ok ())
      else (db, .error .foreignKey)

def purgeExpiredPendingMfa : AuthRepo B Unit :=
  statement .purgePendingMfa fun e db =>
    ({ db with pendingMfa := db.pendingMfa.delete fun r => r.expiresAt < e.now }, .ok ())

/-! ### `LOGIN_STATE` -/

def loginStateTtlMs : ℤ := 10 * 60 * 1000

/-- The critical section of `login_start`: old entries are swept, and the state is stored
under a fresh handle and under the username. Returns the handle. -/
def storeLogin (username : String) (sstate : B) : AuthHandler B String :=
  ExceptT.mk (Prog.atom (.storeLogin username) fun e db =>
    let handle := "vtr-lh-" ++ X.simple e.uuid
    let fresh := db.loginState.delete fun r => r.created < e.now - loginStateTtlMs
    let put (t : Table LoginEntry.key) (key : String) : Table LoginEntry.key :=
      t.upsert ⟨key, sstate, e.now, username⟩
        (fun r => { r with state := sstate, created := e.now, startedBy := username })
        (by intro r; rfl)
    ({ db with loginState := put (put fresh handle) username }, .ok handle))

/-- The critical section of `login_finish`: the entry is removed and its state returned. -/
def takeLogin (key : String) : AuthHandler B (Option B) :=
  ExceptT.mk (Prog.atom (.takeLogin key) fun _ db =>
    ({ db with loginState := db.loginState.delete fun r => r.key = key },
      .ok ((db.loginState.get key).map (·.state))))

/-! ### The handlers -/

def nowMs : AuthHandler B ℤ := ExceptT.mk (Prog.atom .clock fun e db => (db, .ok e.now))

/-- `OsRng`. -/
def random : AuthHandler B B := ExceptT.mk (Prog.atom .random fun e db => (db, .ok e.random))

/-- `Uuid::new_v4()`. -/
def newUuid : AuthHandler B Ident := ExceptT.mk (Prog.atom .random fun e db => (db, .ok e.uuid))

/-- `.map_err(|e| ApiError::internal(&e.to_string()))?` of a crypto function. -/
def orCryptoError {α : Type} : Except String α → AuthHandler B α
  | .ok a => pure a
  | .error msg => throw (.internalText msg)

def serverSetup : AuthHandler B B :=
  match X.setupFile with
  | some none => throw (.internalText "VAUTR_OPAQUE_SETUP_FILE read failed")
  | some (some bytes) =>
    if X.setupFromBytes bytes then pure bytes
    else throw (.internalText "VAUTR_OPAQUE_SETUP_FILE: corrupt OPAQUE setup")
  | none => do
    match ← orInternal (getConfig "opaque_server_setup") with
    | some bytes =>
      if X.setupFromBytes bytes then pure bytes
      else throw (.internalText "stored OPAQUE setup is corrupt")
    | none =>
      if X.prod && !X.allowDb then
        throw (.internalText "no OPAQUE server setup available")
      else
        let fresh ← orCryptoError (X.generateServerSetup (← random))
        orInternal (setConfig "opaque_server_setup" fresh)
        match ← orInternal (getConfig "opaque_server_setup") with
        | some stored => pure stored
        | none => throw (.internalText "OPAQUE setup disappeared after write")

def serverPublicKey : AuthHandler B B := do
  match (← orInternal (getConfig "server_public_key")).filter fun pk => X.len pk = 32 with
  | some pk => return pk
  | none =>
    orInternal (setConfig "server_public_key" (← random))
    match (← orInternal (getConfig "server_public_key")).filter fun pk => X.len pk = 32 with
    | some pk => return pk
    | none => throw (.internalText "server_public_key disappeared after write")

structure RegisterStartReq (B : Type) where
  username : String
  registrationStart : Option B

structure RegisterStartResp (B : Type) where
  registrationResponse : B
  serverPublicKey : B

def registerStart (req : RegisterStartReq B) : AuthHandler B (RegisterStartResp B) := do
  let setup ← serverSetup X
  let creq ← decodeB64 req.registrationStart
  let sresp ← orCryptoError (X.serverRegisterStart setup creq req.username)
  let serverPk ← serverPublicKey X
  return ⟨sresp, serverPk⟩

structure RegisterFinishReq (B : Type) where
  username : String
  registrationFinish : Option B
  serverPublicKey : Option B
  kdfSalt : Option B
  svkCiphertextBlob : Option B
  svkCiphertextBlobRk : Option B

structure RegisterFinishResp where
  status : String
  userId : Ident

def emailTaken : ApiError := .new 409 "email_taken" "an account with this email already exists"

/-- `create_user` with a duplicate email mapped to 409. -/
def createUserOrTaken (row : UserRow B) : AuthHandler B Unit :=
  ExceptT.mk ((createUser row).run >>= fun r => .ret (r.mapError fun e =>
    if e = .unique then emailTaken else .internal e))

/-- The audit of a registration; its failures are ignored. -/
def auditRegistration (username : String) : AuthHandler B Unit :=
  ignored do
    match ← getUserByEmail username with
    | some _ => auditOrgEvent
    | none => return ()

def registerFinish [DecidableEq B] (req : RegisterFinishReq B) :
    AuthHandler B RegisterFinishResp := do
  let _ ← serverSetup X
  let pk ← decodeB64 req.serverPublicKey
  if X.allZero pk then
    throw (.badRequest "invalid_server_key"
      "server_public_key must not be the all-zero placeholder")
  else if X.len pk < 32 then
    throw (.badRequest "invalid_server_key"
      "server_public_key is too short to be a valid OPRF public key")
  else if pk ≠ (← serverPublicKey X) then
    throw (.badRequest "invalid_server_key" "server_public_key does not match this server")
  else
    let cupload ← decodeB64 req.registrationFinish
    let record ← orCryptoError (X.serverRegisterFinish cupload)
    let kdfSalt ← decodeB64 req.kdfSalt
    let svk ← decodeB64 req.svkCiphertextBlob
    let svkRk ← decodeB64 req.svkCiphertextBlobRk
    let userId ← newUuid
    let now ← nowMs
    if (← orInternal (getUserByEmail req.username)).isSome then
      throw emailTaken
    else
      createUserOrTaken ⟨userId, req.username, kdfSalt, record, svk, svkRk, 1, now, now⟩
      auditRegistration req.username
      return ⟨"success", userId⟩

structure LoginStartReq (B : Type) where
  username : String
  loginStart : Option B

structure LoginStartResp (B : Type) where
  loginResponse : B
  loginHandle : String

def loginStart (req : LoginStartReq B) : AuthHandler B (LoginStartResp B) := do
  let setup ← serverSetup X
  match ← orInternal (getUserByEmail req.username) with
  | none => throw (.badRequest "not_found" "unknown user")
  | some user =>
    let lreq ← decodeB64 req.loginStart
    let r ← random
    let (sresp, sstate) ←
      orCryptoError (X.serverLoginStart r setup (some user.opaqueRecord) lreq req.username)
    let handle ← storeLogin X req.username sstate
    return ⟨sresp, handle⟩

structure LoginFinishReq (B : Type) where
  username : String
  loginFinish : Option B
  loginHandle : Option String

structure MfaChallenge where
  pendingToken : String
  methods : List String
  expiresAt : ℤ

structure LoginFinishResp (B : Type) where
  sessionToken : Option B
  expiresAt : Option ℤ
  mfaRequired : Option MfaChallenge

def configuredMethods (user : Ident) : AuthHandler B (List String) := do
  let totp ← orInternal (mfaHasTotp user)
  let webauthn ← orInternal (webauthnHasCredentials user)
  return (if totp then ["totp"] else []) ++ if webauthn then ["webauthn"] else []

def enforceMfaRequired (user : Ident) : AuthHandler B Unit := do
  if !(← orInternal mfaGetPolicy) then
    return ()
  else if (← configuredMethods user).isEmpty then
    throw (.new 403 "mfa_required"
      "MFA is mandatory for this organization and is not configured for this account")
  else
    return ()

/-- The end of `login_finish` for a user with a TOTP secret: a pending token. -/
def mintPending (user : Ident) : AuthHandler B (LoginFinishResp B) := do
  ignored purgeExpiredPendingMfa
  let raw := "vtr-mfa-" ++ X.simple (← newUuid)
  let expiresAt := (← nowMs) + 5 * 60 * 1000
  orInternal (storePendingMfa (X.sha256Hex raw) user expiresAt)
  return ⟨none, none, some ⟨raw, ["totp"], expiresAt⟩⟩

/-- The end of `login_finish` for any other user: a session. -/
def mintSession (user : Ident) (token : B) : AuthHandler B (LoginFinishResp B) := do
  let expiresAt := (← nowMs) + 86400000
  orInternal (storeSession X token user expiresAt)
  ignored purgeExpiredSessions
  ignored auditOrgEvent
  return ⟨some token, some expiresAt, none⟩

/-- The key `login_finish` looks up in `LOGIN_STATE`. -/
def LoginFinishReq.key (req : LoginFinishReq B) : String := req.loginHandle.getD req.username

def loginFinish (req : LoginFinishReq B) : AuthHandler B (LoginFinishResp B) := do
  match ← orInternal (getUserByEmail req.username) with
  | none => do
    ignored auditOrgEvent
    throw (.badRequest "not_found" "unknown user")
  | some user =>
    let lupload ← decodeB64 req.loginFinish
    match ← takeLogin req.key with
    | none => throw (.badRequest "invalid_login" "no login in progress")
    | some sstate =>
      let sfin ← orCryptoError (X.serverLoginFinish sstate lupload)
      enforceMfaRequired user.id
      if ← orInternal (mfaHasTotp user.id) then mintPending X user.id
      else mintSession X user.id sfin

end Vautr.Auth
