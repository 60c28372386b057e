import Mathlib.Data.List.Sort
import Vautr.CredEffects

/-!
Security keys as a second factor (`handlers/webauthn.rs`, `repository/webauthn.rs`), and the
request they gate, `account_status` (`handlers/account.rs`).

The values of the crate `webauthn-rs` and the JSON of a request are of the type of the other
opaque messages, and its functions stay parameters. The service's three maps are locked for
one access at a time, so each access is one statement.
-/

namespace Vautr.Webauthn

open Vautr.Atomic Vautr.Sql Vautr.Database Vautr.Api Vautr.Server Vautr.Auth Vautr.Zoom
open Vautr.Credentials Vautr.Tokens Vautr.CredEffects

structure WebauthnCredentialRow (B : Type) where
  userId : Ident
  credId : String
  label : String
  serialized : B
  counter : ℤ
  createdAt : ℤ
  updatedAt : ℤ

def WebauthnCredentialRow.key {B : Type} (r : WebauthnCredentialRow B) : Ident × String :=
  (r.userId, r.credId)

/-- An entry of `regs`. -/
structure Registration (B : Type) where
  requestId : String
  userId : Ident
  label : String
  state : B

/-- An entry of `auths`. -/
structure Assertion (B : Type) where
  requestId : String
  userId : Ident
  state : B

/-- The tables of all credentials, and the maps of the `WebauthnService`. -/
structure WebauthnDb (B : Type) where
  cred : CredDb B
  credentials : Table (WebauthnCredentialRow.key : WebauthnCredentialRow B → Ident × String)
  regs : Table (Registration.requestId : Registration B → String)
  auths : Table (Assertion.requestId : Assertion B → String)
  verified : List String

inductive WebauthnStmt
  | cred (l : CredStmt)
  | listCredentials (user : Ident)
  | hasCredentials (user : Ident)
  | addCredential (user : Ident) (credId : String)
  /-- `counter` is the sign count that the request compares with what it reads. -/
  | getCredential (user : Ident) (credId : String) (counter : ℤ)
  | updateCounter (user : Ident) (credId : String)
  | removeCredential (user : Ident) (credId : String)
  | putRegistration
  | takeRegistration (requestId : String)
  | putAssertion
  | takeAssertion (requestId : String)
  | markSatisfied (token : String)
  | isSatisfied (token : String)
  deriving DecidableEq

/-- What `finish_securitykey_authentication` returns. -/
structure AuthenticationResult (B : Type) where
  credId : B
  counter : ℕ
  rest : B

structure WebauthnExt (B : Type) extends CredExt B where
  fromSlice : B → Except String B
  toVec : B → Except String B
  toValue : B → Except String B
  keyCredId : B → B
  updateCredential : B → AuthenticationResult B → B
  startRegistration : B → Ident → Option (List B) → Except String (B × B)
  parseRegistration : B → Except String B
  finishRegistration : B → B → Except String B
  startAuthentication : B → List B → Except String (B × B)
  parseCredential : B → Except String B
  finishAuthentication : B → B → Except String (AuthenticationResult B)

variable {B α : Type} (X : WebauthnExt B)

abbrev WebauthnEv (B : Type) := Ev (WebauthnDb B) (AuthEnv B) WebauthnStmt

abbrev WebauthnRepo (B : Type) := Query (WebauthnDb B) (AuthEnv B) WebauthnStmt

abbrev WebauthnHandler (B : Type) := Handler (WebauthnDb B) (AuthEnv B) WebauthnStmt

/-- The tables of the other credentials. -/
def creds : View (CredDb B) (WebauthnDb B) (AuthEnv B) (AuthEnv B) CredStmt WebauthnStmt where
  get db := db.cred
  put c db := { db with cred := c }
  inp e := e
  name := .cred
  get_put _ _ := rfl

/-- A handler on the tables of the other credentials. -/
def onCred (x : CredHandler B α) : WebauthnHandler B α := zoomE creds x

/-- `.map_err(internal)?`, of a function that runs no statement. -/
def orInternalError (r : Except String α) : WebauthnHandler B α :=
  match r with
  | .ok a => pure a
  | .error msg => throw (.internalText msg)

/-! ### `repository/webauthn.rs` -/

/-- The state with other rows in `webauthn_credentials`, which the login reads too. -/
def WebauthnDb.setCredentials (db : WebauthnDb B)
    (credentials : Table (WebauthnCredentialRow.key : WebauthnCredentialRow B → Ident × String)) :
    WebauthnDb B :=
  { db with
    credentials
    cred := { db.cred with auth := { db.cred.auth with
      webauthnUsers := credentials.rows.map (·.userId) } } }

def addWebauthnCredential (row : WebauthnCredentialRow B) : WebauthnRepo B Unit :=
  statement (.addCredential row.userId row.credId) fun _ db =>
    match db.credentials.insert row with
    | none => (db, .error .unique)
    | some credentials =>
      if (db.cred.auth.users.get row.userId).isSome then (db.setCredentials credentials, .ok ())
      else (db, .error .foreignKey)

/-- `list_webauthn_credentials`, in the order of `created_at`. -/
def listWebauthnCredentials (user : Ident) : WebauthnRepo B (List (WebauthnCredentialRow B)) :=
  select (.listCredentials user) fun db =>
    (db.credentials.rows.filter fun r => r.userId = user).insertionSort
      fun r r' => r.createdAt ≤ r'.createdAt

def webauthnHasCredentials (user : Ident) : WebauthnRepo B Bool :=
  select (.hasCredentials user) fun db => db.credentials.rows.any fun r => r.userId = user

def getWebauthnCredential (user : Ident) (credId : String) (counter : ℤ) :
    WebauthnRepo B (Option (B × ℤ)) :=
  select (.getCredential user credId counter) fun db =>
    (db.credentials.get (user, credId)).map fun r => (r.serialized, r.counter)

def updateWebauthnCounter (user : Ident) (credId : String) (counter : ℤ) (serialized : B)
    (now : ℤ) : WebauthnRepo B Unit :=
  statement (.updateCounter user credId) fun _ db =>
    (db.setCredentials (db.credentials.update (fun r => r.userId = user && r.credId = credId)
      (fun r => { r with counter, serialized, updatedAt := now }) (by intro r; rfl)), .ok ())

/-- `remove_webauthn_credential`; whether a row was hit. -/
def removeWebauthnCredential (user : Ident) (credId : String) : WebauthnRepo B Bool :=
  statement (.removeCredential user credId) fun _ db =>
    let hits (r : WebauthnCredentialRow B) : Bool := r.userId = user && r.credId = credId
    (db.setCredentials (db.credentials.delete hits), .ok (0 < db.credentials.rows.countP hits))

/-! ### The `WebauthnService` -/

def putRegistration (row : Registration B) : WebauthnHandler B Unit :=
  ExceptT.mk (Prog.atom .putRegistration fun _ db =>
    ({ db with
        regs := db.regs.upsert row (fun r => { row with requestId := r.requestId })
          (by intro r; rfl) }, .ok ()))

def takeRegistration (requestId : String) : WebauthnHandler B (Option (Registration B)) :=
  ExceptT.mk (Prog.atom (.takeRegistration requestId) fun _ db =>
    ({ db with regs := db.regs.delete fun r => r.requestId = requestId },
      .ok (db.regs.get requestId)))

def putAssertion (row : Assertion B) : WebauthnHandler B Unit :=
  ExceptT.mk (Prog.atom .putAssertion fun _ db =>
    ({ db with
        auths := db.auths.upsert row (fun r => { row with requestId := r.requestId })
          (by intro r; rfl) }, .ok ()))

def takeAssertion (requestId : String) : WebauthnHandler B (Option (Assertion B)) :=
  ExceptT.mk (Prog.atom (.takeAssertion requestId) fun _ db =>
    ({ db with auths := db.auths.delete fun r => r.requestId = requestId },
      .ok (db.auths.get requestId)))

def markSecondFactorSatisfied (token : String) : WebauthnHandler B Unit :=
  ExceptT.mk (Prog.atom (.markSatisfied token) fun _ db =>
    ({ db with verified := db.verified.insert token }, .ok ()))

def isSecondFactorSatisfied (token : String) : WebauthnHandler B Bool :=
  ExceptT.mk (Prog.atom (.isSatisfied token) fun _ db => (db, .ok (token ∈ db.verified)))

/-! ### Registration -/

structure ChallengeResp (B : Type) where
  requestId : String
  challenge : B

/-- `.filter_map(from_slice)`, of the rows of a user. -/
def excluded (rows : List (WebauthnCredentialRow B)) : Option (List B) :=
  if rows.isEmpty then none
  else some (rows.filterMap fun r => (X.fromSlice r.serialized).toOption.map X.keyCredId)

def registerStart (bearer label : String) : WebauthnHandler B (ChallengeResp B) := do
  let user ← onCred (authUser X.toCredExt bearer)
  let existing ← orInternal (listWebauthnCredentials user)
  let r ← onCred random
  let (ccr, state) ← orInternalError (X.startRegistration r user (excluded X existing))
  let requestId := X.hyphenated (← onCred newUuid)
  putRegistration ⟨requestId, user, label, state⟩
  return ⟨requestId, ← orInternalError (X.toValue ccr)⟩

structure CeremonyReq (B : Type) where
  requestId : String
  credential : B

def registerVerify (bearer : String) (req : CeremonyReq B) : WebauthnHandler B Unit := do
  let user ← onCred (authUser X.toCredExt bearer)
  match ← takeRegistration req.requestId with
  | none => throw (.badRequest "no_active_registration" "unknown or expired registration")
  | some reg =>
    if reg.userId ≠ user then
      throw unauthorized
    else match X.parseRegistration req.credential with
      | .error msg => throw (.badRequest "invalid_credential" msg)
      | .ok pkc =>
        match X.finishRegistration pkc reg.state with
        | .error msg => throw (.badRequest "registration_failed" msg)
        | .ok sk =>
          let serialized ← orInternalError (X.toVec sk)
          let now ← onCred nowMs
          orInternal (addWebauthnCredential
            ⟨user, X.b64url (X.keyCredId sk), reg.label, serialized, 0, now, now⟩)

/-! ### Assertion -/

def assertStart (bearer : String) : WebauthnHandler B (ChallengeResp B) := do
  let user ← onCred (authUser X.toCredExt bearer)
  let rows ← orInternal (listWebauthnCredentials user)
  if rows.isEmpty then
    throw (.badRequest "no_second_factor" "no registered security key for this account")
  else
    let keys ← orInternalError (rows.mapM fun r => X.fromSlice r.serialized)
    let r ← onCred random
    let (rcr, state) ← orInternalError (X.startAuthentication r keys)
    let requestId := X.hyphenated (← onCred newUuid)
    putAssertion ⟨requestId, user, state⟩
    return ⟨requestId, ← orInternalError (X.toValue rcr)⟩

/-- The end of `assert_verify`: the sign count is compared and stored. -/
def persistCounter (user : Ident) (res : AuthenticationResult B) : WebauthnHandler B Ident := do
  let credId := X.b64url res.credId
  let now ← onCred nowMs
  match ← orInternal (getWebauthnCredential user credId res.counter) with
  | none => return user
  | some (serialized, oldCounter) =>
    if 0 < oldCounter ∧ (res.counter : ℤ) ≤ oldCounter then
      onCred (ignored auditOrgEvent)
      throw (.new 401 "webauthn_cloned_suspect"
        "authenticator sign count regressed; credential may be cloned")
    else match X.fromSlice serialized with
      | .error _ => return user
      | .ok sk =>
        let newSerialized ← orInternalError (X.toVec (X.updateCredential sk res))
        orInternal (updateWebauthnCounter user credId res.counter newSerialized now)
        return user

def assertVerify (bearer : String) (req : CeremonyReq B) : WebauthnHandler B Ident := do
  let user ← onCred (authUser X.toCredExt bearer)
  match ← takeAssertion req.requestId with
  | none => throw (.badRequest "no_active_assertion" "unknown or expired assertion")
  | some assertion =>
    if assertion.userId ≠ user then
      throw unauthorized
    else match X.parseCredential req.credential with
      | .error msg => throw (.badRequest "invalid_credential" msg)
      | .ok pkc =>
        match X.finishAuthentication pkc assertion.state with
        | .error msg => throw (.new 401 "second_factor_failed" msg)
        | .ok res =>
          markSecondFactorSatisfied bearer
          persistCounter X user res

/-! ### Status and removal -/

/-- `CredentialSummary`: the credential id and the label. -/
def summary (r : WebauthnCredentialRow B) : String × String := (r.credId, r.label)

def listCredentials (bearer : String) : WebauthnHandler B (List (String × String)) := do
  let user ← onCred (authUser X.toCredExt bearer)
  return (← orInternal (listWebauthnCredentials user)).map summary

structure StatusResp2fa where
  secondFactorRequired : Bool
  credentials : List (String × String)

def webauthnStatus (bearer : String) : WebauthnHandler B StatusResp2fa := do
  let user ← onCred (authUser X.toCredExt bearer)
  let rows ← orInternal (listWebauthnCredentials user)
  return ⟨!rows.isEmpty, rows.map summary⟩

def removeCredential (bearer credId : String) : WebauthnHandler B Unit := do
  let user ← onCred (authUser X.toCredExt bearer)
  if !(← orInternal (removeWebauthnCredential user credId)) then
    throw (.badRequest "not_found" "credential not found")

/-! ### `handlers/account.rs` -/

structure AccountStatusResp where
  minEncKeyGen : ℤ
  svkCiphertextBlob : String
  secondFactorRequired : Bool
  secondFactorMethod : Option String
  userId : Ident
  deriving DecidableEq

/-- Whether the wrapped key is withheld: `has_creds && !is_second_factor_satisfied(..)`. -/
def withheld (bearer : String) (user : Ident) : WebauthnHandler B Bool := do
  if ← orInternal (webauthnHasCredentials user) then
    return !(← isSecondFactorSatisfied bearer)
  else
    return false

/-- The method that the policy asks for. -/
def secondFactorMethod (user : Ident) : WebauthnHandler B (Option String) := do
  if ← onCred (orInternal (onLogin mfaGetPolicy)) then
    if ← onCred (orInternal (onLogin (mfaHasTotp user))) then
      return some "totp"
    else
      return none
  else
    return none

def accountStatus (bearer : String) : WebauthnHandler B AccountStatusResp := do
  let user ← onCred (authUser X.toCredExt bearer)
  match ← onCred (orInternal (getUserById user)) with
  | none => throw (.badRequest "not_found" "unknown user")
  | some row =>
    if ← withheld bearer user then
      return ⟨row.minEncKeyGen, "", true, some "webauthn", user⟩
    else
      let method ← secondFactorMethod user
      return ⟨row.minEncKeyGen, X.b64 row.svkCiphertextBlob, method.isSome, method, user⟩

/-! ### The requests -/

inductive WebauthnReq (B : Type)
  | cred (q : CredReq B)
  | registerStart (bearer label : String)
  | registerVerify (bearer : String) (req : CeremonyReq B)
  | assertStart (bearer : String)
  | assertVerify (bearer : String) (req : CeremonyReq B)
  | webauthnStatus (bearer : String)
  | listCredentials (bearer : String)
  | removeCredential (bearer credId : String)
  | accountStatus (bearer : String)

inductive WebauthnReply (B : Type)
  | cred (r : CredReply B)
  | challenge (r : Except ApiError (ChallengeResp B))
  | done (r : Except ApiError Unit)
  | asserted (r : Except ApiError Ident)
  | status (r : Except ApiError StatusResp2fa)
  | credentials (r : Except ApiError (List (String × String)))
  | account (r : Except ApiError AccountStatusResp)

def serve [DecidableEq B] :
    WebauthnReq B → Prog (WebauthnDb B) (AuthEnv B) WebauthnStmt (WebauthnReply B)
  | .cred q => zoom creds (code X.toCredExt q) >>= fun r => .ret (.cred r)
  | .registerStart bearer label =>
    (registerStart X bearer label).run >>= fun r => .ret (.challenge r)
  | .registerVerify bearer req => (registerVerify X bearer req).run >>= fun r => .ret (.done r)
  | .assertStart bearer => (assertStart X bearer).run >>= fun r => .ret (.challenge r)
  | .assertVerify bearer req => (assertVerify X bearer req).run >>= fun r => .ret (.asserted r)
  | .webauthnStatus bearer => (webauthnStatus X bearer).run >>= fun r => .ret (.status r)
  | .listCredentials bearer => (listCredentials X bearer).run >>= fun r => .ret (.credentials r)
  | .removeCredential bearer credId =>
    (removeCredential X bearer credId).run >>= fun r => .ret (.done r)
  | .accountStatus bearer => (accountStatus X bearer).run >>= fun r => .ret (.account r)

abbrev WebauthnSys (B : Type) :=
  Interleave.Sys (WebauthnReq B) (WebauthnDb B) (AuthEnv B) WebauthnStmt (WebauthnReply B)

abbrev WebauthnAct (B : Type) := Interleave.Act (WebauthnReq B) (AuthEnv B)

abbrev WebauthnCall (B : Type) :=
  Interleave.Call (WebauthnReq B) (WebauthnDb B) (AuthEnv B) WebauthnStmt (WebauthnReply B)

end Vautr.Webauthn
