import Vautr.LoginBinding
import Vautr.Mfa
import Vautr.Recovery
import Vautr.Tokens

/-!
Everything the server does with credentials, and what each of its statements can do to the
tables.

A statement fails or reads and changes nothing, or it is one of the writes below. What a
run keeps is proved from this list, and only what one handler does with what it has read
needs a look at its code.
-/

namespace Vautr.CredEffects

open Vautr.Atomic Vautr.Interleave Vautr.Sql Vautr.Database Vautr.Api Vautr.Server Vautr.Auth
open Vautr.Zoom Vautr.Credentials Vautr.Tokens Vautr.Mfa Vautr.Recovery

variable {B : Type}

/-! ### The requests -/

inductive CredReq (B : Type)
  | login (q : LoginBinding.AuthReq B)
  | authUser (bearer : String)
  | authAny (bearer : String)
  | verify (secret : String)
  | logout (bearer : String)
  | createToken (bearer : String) (req : TokenCreateReq)
  | revokeToken (bearer : String) (uuid : Ident)
  | createMachineAccount (bearer : String) (req : MaCreateReq)
  | updateMachineAccount (bearer : String) (uuid : Ident) (req : MaUpdateReq)
  | deleteMachineAccount (bearer : String) (uuid : Ident)
  | verifyLoginTotp (req : TotpVerifyLoginReq)
  | verifyLoginRecovery (req : RecoveryVerifyLoginReq)
  | recoverChallenge (email : String)
  | recoverVerify (req : VerifyReq B)
  | recoverInfo (token : String)
  | recoverComplete (req : CompleteReq B)
  | reclaim (req : ReclaimReq B)
  | reclaimConfirm (token : String)

inductive CredReply (B : Type)
  | login (r : LoginBinding.AuthReply B)
  | authUser (r : Except ApiError Ident)
  | authAny (r : Except ApiError AuthContext)
  | verify (r : Except ApiError VerifiedToken)
  | done (r : Except ApiError Unit)
  | createToken (r : Except ApiError TokenCreateResp)
  | machineAccount (r : Except ApiError MachineAccountRow)
  | session (r : Except ApiError (LoginFinishResp String))
  | nonce (r : Except ApiError B)
  | recoverVerify (r : Except ApiError VerifyResp)
  | recoverInfo (r : Except ApiError (RecoverInfoResp B))
  | recoverComplete (r : Except ApiError Ident)
  | reclaim (r : Except ApiError (Option String))

variable (X : CredExt B)

def code [DecidableEq B] : CredReq B → Prog (CredDb B) (AuthEnv B) CredStmt (CredReply B)
  | .login q => zoom login (LoginBinding.serve X.loginExt q) >>= fun r => .ret (.login r)
  | .authUser bearer => (authUser X bearer).run >>= fun r => .ret (.authUser r)
  | .authAny bearer => (authAny X bearer).run >>= fun r => .ret (.authAny r)
  | .verify secret => (verifyAccessToken X secret).run >>= fun r => .ret (.verify r)
  | .logout bearer => (logout X bearer).run >>= fun r => .ret (.done r)
  | .createToken bearer req => (createToken X bearer req).run >>= fun r => .ret (.createToken r)
  | .revokeToken bearer uuid => (revokeToken X bearer uuid).run >>= fun r => .ret (.done r)
  | .createMachineAccount bearer req =>
    (createMachineAccountH X bearer req).run >>= fun r => .ret (.machineAccount r)
  | .updateMachineAccount bearer uuid req =>
    (updateMachineAccountH X bearer uuid req).run >>= fun r => .ret (.machineAccount r)
  | .deleteMachineAccount bearer uuid =>
    (deleteMachineAccountH X bearer uuid).run >>= fun r => .ret (.done r)
  | .verifyLoginTotp req => (verifyLoginTotp X req).run >>= fun r => .ret (.session r)
  | .verifyLoginRecovery req => (verifyLoginRecovery X req).run >>= fun r => .ret (.session r)
  | .recoverChallenge email => (recoverChallenge email).run >>= fun r => .ret (.nonce r)
  | .recoverVerify req => (recoverVerify X req).run >>= fun r => .ret (.recoverVerify r)
  | .recoverInfo token => (recoverInfo X token).run >>= fun r => .ret (.recoverInfo r)
  | .recoverComplete req => (recoverComplete X req).run >>= fun r => .ret (.recoverComplete r)
  | .reclaim req => (reclaim X req).run >>= fun r => .ret (.reclaim r)
  | .reclaimConfirm token => (reclaimConfirm X token).run >>= fun r => .ret (.done r)

abbrev CredSys (B : Type) := Sys (CredReq B) (CredDb B) (AuthEnv B) CredStmt (CredReply B)

abbrev CredAct (B : Type) := Act (CredReq B) (AuthEnv B)

/-! ### What a statement of a login can do -/

/-- `LOGIN_STATE` after the critical section of a `login_start`. -/
def loginStored (X : Opaque B) (username : String) (sstate : B) (e : AuthEnv B) (s : AuthDb B) :
    AuthDb B :=
  let fresh := s.loginState.delete fun r => r.created < e.now - loginStateTtlMs
  let put (t : Table LoginEntry.key) (key : String) : Table LoginEntry.key :=
    t.upsert ⟨key, sstate, e.now, username⟩
      (fun r => { r with state := sstate, created := e.now, startedBy := username })
      (LoginEntry.key_restart username sstate e.now)
  { s with loginState := put (put fresh ("vtr-lh-" ++ X.simple e.uuid)) username }

/-- The session that a statement stores. -/
def sessionStored (hash : String) (user : Ident) (expiresAt now : ℤ) (s : AuthDb B) : AuthDb B :=
  { s with
    sessions := s.sessions.upsert ⟨hash, user, expiresAt, now⟩
      (fun r => { r with userId := user, expiresAt }) (SessionRow.tokenHash_renew user expiresAt) }

inductive AuthStep (X : Opaque B) : AuthStmt → AuthEnv B → AuthDb B → AuthDb B → Prop
  | same (l : AuthStmt) (e : AuthEnv B) (s : AuthDb B) : AuthStep X l e s s
  | setConfig (key : String) (e : AuthEnv B) (s : AuthDb B)
      (config : Table (Prod.fst : String × B → String))
      (h : ∀ k, k ≠ key → config.get k = s.config.get k) :
      AuthStep X (.setConfig key) e s { s with config }
  | createUser (row : UserRow B) (e : AuthEnv B) (s : AuthDb B) (users : Table UserRow.id)
      (hemail : ∀ r ∈ s.users.rows, r.email ≠ row.email) (h : s.users.insert row = some users) :
      AuthStep X (.createUser row.email) e s { s with users }
  | storeLogin (username : String) (sstate : B) (e : AuthEnv B) (s : AuthDb B) :
      AuthStep X (.storeLogin username) e s (loginStored X username sstate e s)
  | takeLogin (key : String) (e : AuthEnv B) (s : AuthDb B) :
      AuthStep X (.takeLogin key) e s
        { s with loginState := s.loginState.delete fun r => r.key = key }
  | purgePending (e : AuthEnv B) (s : AuthDb B) :
      AuthStep X .purgePendingMfa e s
        { s with pendingMfa := s.pendingMfa.delete fun r => r.expiresAt < e.now }
  | storePending (row : PendingMfaRow) (e : AuthEnv B) (s : AuthDb B)
      (pendingMfa : Table PendingMfaRow.tokenHash) (h : s.pendingMfa.insert row = some pendingMfa) :
      AuthStep X (.storePendingMfa row.userId) e s { s with pendingMfa }
  | storeSession (hash : String) (user : Ident) (expiresAt : ℤ) (e : AuthEnv B) (s : AuthDb B) :
      AuthStep X (.storeSession user) e s (sessionStored hash user expiresAt e.now s)
  | purgeSessions (e : AuthEnv B) (s : AuthDb B) :
      AuthStep X .purgeSessions e s
        { s with sessions := s.sessions.delete fun r => r.expiresAt < e.now }

def AuthDoes (X : Opaque B) (ev : LoginBinding.AuthEv B) : Prop :=
  AuthStep X ev.name ev.inp ev.pre ev.post

section Login

variable {X : Opaque B} {α : Type} {rely : AuthStmt → AuthDb B → AuthDb B → Prop}

lemma auth_select (l : AuthStmt) (g : AuthDb B → α) :
    Guarantees rely (AuthDoes X) (select l g : AuthRepo B α).run :=
  guarantees_statement (fun _ _ => .same _ _ _) fun _ _ => .same _ _ _

/-- A draw or a look at the clock. -/
lemma auth_read {l : AuthStmt} {g : AuthEnv B → α} : Guarantees rely (AuthDoes X)
    (ExceptT.mk (Prog.atom l fun e db => (db, .ok (g e))) : AuthHandler B α).run :=
  guarantees_stmt (fun _ _ => .same _ _ _) fun _ _ => guarantees_ret _

lemma auth_orCryptoError (r : Except String α) :
    Guarantees rely (AuthDoes X) (orCryptoError r : AuthHandler B α).run := by
  cases r with
  | ok a => exact guarantees_pure_except a
  | error msg => exact guarantees_throw_except _

lemma auth_setConfig (key : String) (value : B) :
    Guarantees rely (AuthDoes X) (setConfig key value).run := by
  refine guarantees_statement (fun _ _ => .same _ _ _) fun e s => .setConfig key e s _ ?_
  intro k hk
  rw [Table.get_upsert, if_neg hk.symm]

/-- A row that is new, or an error and nothing. -/
lemma auth_createUser (row : UserRow B) :
    Guarantees rely (AuthDoes X) (createUser row).run := by
  refine guarantees_statement (fun _ _ => .same _ _ _) fun e s => ?_
  split
  · exact .same _ _ _
  · next hany =>
    have hemail : ∀ r ∈ s.users.rows, r.email ≠ row.email := by simpa using hany
    cases h : s.users.insert row with
    | none => exact .same _ _ _
    | some users => exact .createUser row e s users hemail h

lemma auth_auditOrgEvent :
    Guarantees rely (AuthDoes X) (Auth.auditOrgEvent : AuthRepo B Unit).run :=
  guarantees_statement (fun _ _ => .same _ _ _) fun _ _ => .same _ _ _

/-- A setup that is made is stored, and read back. -/
lemma auth_serverSetup : Guarantees rely (AuthDoes X) (serverSetup X).run := by
  unfold serverSetup
  rcases X.setupFile with _ | (_ | bytes)
  · refine guarantees_bind_except (guarantees_orInternal (auth_select _ _)) ?_
    rintro (_ | bytes)
    · dsimp only
      split
      · exact guarantees_throw_except _
      refine guarantees_bind_except auth_read fun r =>
        guarantees_bind_except (auth_orCryptoError _) fun fresh =>
        guarantees_bind_except (guarantees_orInternal (auth_setConfig _ _)) fun _ =>
        guarantees_bind_except (guarantees_orInternal (auth_select _ _)) ?_
      rintro (_ | stored)
      · exact guarantees_throw_except _
      · exact guarantees_pure_except _
    · dsimp only
      split
      · exact guarantees_pure_except _
      · exact guarantees_throw_except _
  · exact guarantees_throw_except _
  · dsimp only
    split
    · exact guarantees_pure_except _
    · exact guarantees_throw_except _

lemma auth_serverPublicKey : Guarantees rely (AuthDoes X) (serverPublicKey X).run := by
  refine guarantees_bind_except (guarantees_orInternal (auth_select _ _)) fun pk => ?_
  split
  · exact guarantees_pure_except _
  refine guarantees_bind_except auth_read fun r =>
    guarantees_bind_except (guarantees_orInternal (auth_setConfig _ _)) fun _ =>
    guarantees_bind_except (guarantees_orInternal (auth_select _ _)) fun pk => ?_
  split
  · exact guarantees_pure_except _
  · exact guarantees_throw_except _

lemma auth_registerFinish [DecidableEq B] (req : RegisterFinishReq B) :
    Guarantees rely (AuthDoes X) (registerFinish X req).run := by
  refine guarantees_bind_except auth_serverSetup fun _ =>
    guarantees_bind_except (guarantees_decodeB64 _) fun pk => ?_
  split
  · exact guarantees_throw_except _
  split
  · exact guarantees_throw_except _
  refine guarantees_bind_except auth_serverPublicKey fun stored => ?_
  split
  · exact guarantees_throw_except _
  refine guarantees_bind_except (guarantees_decodeB64 _) fun _ =>
    guarantees_bind_except (auth_orCryptoError _) fun _ =>
    guarantees_bind_except (guarantees_decodeB64 _) fun _ =>
    guarantees_bind_except (guarantees_decodeB64 _) fun _ =>
    guarantees_bind_except (guarantees_decodeB64 _) fun _ =>
    guarantees_bind_except auth_read fun _ =>
    guarantees_bind_except auth_read fun _ =>
    guarantees_bind_except (guarantees_orInternal (auth_select _ _)) fun found => ?_
  split
  · exact guarantees_throw_except _
  refine guarantees_bind_except (guarantees_bind (auth_createUser _) fun _ => guarantees_ret _)
    fun _ => guarantees_bind_except (guarantees_ignored ?_) fun _ => guarantees_pure_except _
  refine guarantees_bind_except (auth_select _ _) ?_
  rintro (_ | _)
  · exact guarantees_pure_except _
  · exact auth_auditOrgEvent

lemma auth_storeLogin (username : String) (sstate : B) :
    Guarantees rely (AuthDoes X) (storeLogin X username sstate).run :=
  guarantees_stmt (fun _ _ => .storeLogin _ _ _ _) fun _ _ => guarantees_ret _

/-- The state is stored, and the setup of the server if it is new. -/
lemma auth_loginStart (req : LoginStartReq B) :
    Guarantees rely (AuthDoes X) (loginStart X req).run := by
  refine guarantees_bind_except auth_serverSetup fun _ =>
    guarantees_bind_except (guarantees_orInternal (auth_select _ _)) ?_
  rintro (_ | user)
  · exact guarantees_throw_except _
  · exact guarantees_bind_except (guarantees_decodeB64 _) fun _ =>
      guarantees_bind_except auth_read fun _ =>
      guarantees_bind_except (auth_orCryptoError _) fun _ =>
      guarantees_bind_except (auth_storeLogin _ _) fun _ => guarantees_pure_except _

lemma auth_enforceMfaRequired (user : Ident) :
    Guarantees rely (AuthDoes X) (enforceMfaRequired user : AuthHandler B Unit).run := by
  refine guarantees_bind_except (guarantees_orInternal (auth_select _ _)) fun required => ?_
  split
  · exact guarantees_pure_except _
  refine guarantees_bind_except (guarantees_bind_except (guarantees_orInternal (auth_select _ _))
    fun _ => guarantees_bind_except (guarantees_orInternal (auth_select _ _))
      fun _ => guarantees_pure_except _) fun methods => ?_
  split
  · exact guarantees_throw_except _
  · exact guarantees_pure_except _

lemma auth_storePendingMfa (hash : String) (user : Ident) (expiresAt : ℤ) :
    Guarantees rely (AuthDoes X) (storePendingMfa hash user expiresAt : AuthRepo B Unit).run := by
  refine guarantees_statement (fun _ _ => .same _ _ _) fun e s => ?_
  cases h : s.pendingMfa.insert ⟨hash, user, e.now, expiresAt, 0⟩ with
  | none => exact .same _ _ _
  | some pendingMfa =>
    dsimp only
    split
    · exact .storePending ⟨hash, user, e.now, expiresAt, 0⟩ e s pendingMfa h
    · exact .same _ _ _

/-- Expired tokens are purged before one is stored. -/
lemma auth_mintPending (user : Ident) :
    Guarantees rely (AuthDoes X) (mintPending X user).run :=
  guarantees_bind_except (guarantees_ignored (guarantees_statement (fun _ _ => .same _ _ _)
      fun _ _ => .purgePending _ _)) fun _ =>
    guarantees_bind_except auth_read fun _ =>
    guarantees_bind_except auth_read fun _ =>
    guarantees_bind_except (guarantees_orInternal (auth_storePendingMfa _ _ _)) fun _ =>
      guarantees_pure_except _

lemma auth_storeSession (token : B) (user : Ident) (expiresAt : ℤ) :
    Guarantees rely (AuthDoes X) (Auth.storeSession X token user expiresAt).run := by
  refine guarantees_statement (fun _ _ => .same _ _ _) fun e s => ?_
  split
  · exact .storeSession _ _ _ _ _
  · exact .same _ _ _

lemma auth_mintSession (user : Ident) (token : B) :
    Guarantees rely (AuthDoes X) (mintSession X user token).run :=
  guarantees_bind_except auth_read fun _ =>
    guarantees_bind_except (guarantees_orInternal (auth_storeSession _ _ _)) fun _ =>
    guarantees_bind_except (guarantees_ignored (guarantees_statement (fun _ _ => .same _ _ _)
      fun _ _ => .purgeSessions _ _)) fun _ =>
    guarantees_bind_except (guarantees_ignored auth_auditOrgEvent) fun _ =>
      guarantees_pure_except _

/-- The state is taken before it is looked at, so that no other request can take it again. -/
lemma auth_loginFinish (req : LoginFinishReq B) :
    Guarantees rely (AuthDoes X) (loginFinish X req).run := by
  refine guarantees_bind_except (guarantees_orInternal (auth_select _ _)) ?_
  rintro (_ | user)
  · exact guarantees_bind_except (guarantees_ignored auth_auditOrgEvent) fun _ =>
      guarantees_throw_except _
  · refine guarantees_bind_except (guarantees_decodeB64 _) fun lupload =>
      guarantees_bind_except (guarantees_stmt (fun _ _ => .takeLogin _ _ _) fun _ _ =>
        guarantees_ret _) ?_
    rintro (_ | sstate)
    · exact guarantees_throw_except _
    · refine guarantees_bind_except (auth_orCryptoError _) fun sfin =>
        guarantees_bind_except (auth_enforceMfaRequired _) fun _ =>
        guarantees_bind_except (guarantees_orInternal (auth_select _ _)) fun totp => ?_
      split
      · exact auth_mintPending _
      · exact auth_mintSession _ _

/-- Every request of a login. -/
lemma auth_serve [DecidableEq B] (q : LoginBinding.AuthReq B) :
    Guarantees rely (AuthDoes X) (LoginBinding.serve X q) := by
  cases q with
  | registerStart req =>
    refine guarantees_bind ?_ fun _ => guarantees_ret _
    exact guarantees_bind_except auth_serverSetup fun _ =>
      guarantees_bind_except (guarantees_decodeB64 _) fun _ =>
      guarantees_bind_except (auth_orCryptoError _) fun _ =>
      guarantees_bind_except auth_serverPublicKey fun _ => guarantees_pure_except _
  | registerFinish req => exact guarantees_bind (auth_registerFinish req) fun _ => guarantees_ret _
  | loginStart req => exact guarantees_bind (auth_loginStart req) fun _ => guarantees_ret _
  | loginFinish req => exact guarantees_bind (auth_loginFinish req) fun _ => guarantees_ret _

end Login

/-! ### What a statement can do -/

/-- The machine accounts and tokens after a machine account was deleted. -/
def accountDeleted (uuid owner : Ident) (db : CredDb B) : CredDb B :=
  { db with
    machineAccounts := db.machineAccounts.delete fun r => r.uuid = uuid && r.ownerUserId = owner
    accessTokens := db.accessTokens.update (fun t => t.machineAccountUuid = some uuid)
      (fun t => { t with machineAccountUuid := none }) AccessTokenRow.uuid_detach
      AccessTokenRow.tokenHash_detach }

/-- An update leaves the key of its row. -/
lemma MachineAccountRow.uuid_edit (name : String) (description : Option String)
    (status : MaStatus) (scopes : List String) (expiresAt : Option ℤ) (r : MachineAccountRow) :
    ({ r with name, description, status, scopes, expiresAt } : MachineAccountRow).uuid = r.uuid :=
  rfl

/-- The machine accounts after an update. -/
def accountUpdated (uuid owner : Ident) (name : String) (description : Option String)
    (status : MaStatus) (scopes : List String) (expiresAt : Option ℤ) (db : CredDb B) : CredDb B :=
  { db with
    machineAccounts := db.machineAccounts.update (fun r => r.uuid = uuid && r.ownerUserId = owner)
      (fun r => { r with name, description, status, scopes, expiresAt })
      (MachineAccountRow.uuid_edit name description status scopes expiresAt) }

/-- The pending tokens after a statement. -/
def onPending (f : Table PendingMfaRow.tokenHash → Table PendingMfaRow.tokenHash) (db : CredDb B) :
    CredDb B :=
  { db with auth := { db.auth with pendingMfa := f db.auth.pendingMfa } }

/-- The sessions after a statement. -/
def onSessions (f : Table SessionRow.tokenHash → Table SessionRow.tokenHash) (db : CredDb B) :
    CredDb B :=
  { db with auth := { db.auth with sessions := f db.auth.sessions } }

lemma UserCols.user_publish (rkPublicKey : B) (r : UserCols B) :
    ({ r with rkPublicKey := some rkPublicKey } : UserCols B).user = r.user := rfl

lemma id_recover (opaqueRecord kdfSalt svk svkRk : B) (now : ℤ) (r : UserRow B) :
    ({ r with
      opaqueRecord, kdfSalt, svkCiphertextBlob := svk, svkCiphertextBlobRk := svkRk
      updatedAt := now } : UserRow B).id = r.id := rfl

/-- The account after a recovery. -/
def recovered (user : Ident) (opaqueRecord kdfSalt svk svkRk rkPublicKey : B) (now : ℤ)
    (db : CredDb B) : CredDb B :=
  let db' := db.setCols user (fun r => { r with rkPublicKey := some rkPublicKey })
    (UserCols.user_publish rkPublicKey)
  { db' with auth := { db.auth with
      users := db.auth.users.update (fun r => r.id = user)
        (fun r => { r with
          opaqueRecord, kdfSalt, svkCiphertextBlob := svk, svkCiphertextBlobRk := svkRk
          updatedAt := now }) (id_recover opaqueRecord kdfSalt svk svkRk now) } }

inductive CredStep (X : CredExt B) : CredStmt → AuthEnv B → CredDb B → CredDb B → Prop
  | same (l : CredStmt) (e : AuthEnv B) (db : CredDb B) : CredStep X l e db db
  | login (l : AuthStmt) (e : AuthEnv B) (db : CredDb B) (s : AuthDb B)
      (h : AuthStep X.loginExt l e db.auth s) : CredStep X (.auth l) e db { db with auth := s }
  | deleteSession (hash : String) (e : AuthEnv B) (db : CredDb B) :
      CredStep X (.deleteSession hash) e db (onSessions (·.delete fun r => r.tokenHash = hash) db)
  | revokeUserSessions (user : Ident) (e : AuthEnv B) (db : CredDb B) :
      CredStep X (.revokeUserSessions user) e db (onSessions (·.delete fun r => r.userId = user) db)
  | insertMachineAccount (row : MachineAccountRow) (e : AuthEnv B) (db : CredDb B)
      (machineAccounts : Table MachineAccountRow.uuid)
      (h : db.machineAccounts.insert row = some machineAccounts) :
      CredStep X (.insertMachineAccount row.ownerUserId) e db { db with machineAccounts }
  | updateMachineAccount (uuid owner : Ident) (name : String) (description : Option String)
      (status : MaStatus) (scopes : List String) (expiresAt : Option ℤ) (e : AuthEnv B)
      (db : CredDb B) :
      CredStep X (.updateMachineAccount uuid owner scopes) e db
        (accountUpdated uuid owner name description status scopes expiresAt db)
  | deleteMachineAccount (uuid owner : Ident) (e : AuthEnv B) (db : CredDb B)
      (hit : ∃ ma ∈ db.machineAccounts.get uuid, ma.ownerUserId = owner) :
      CredStep X (.deleteMachineAccount uuid owner) e db (accountDeleted uuid owner db)
  | touchMachineAccount (uuid : Ident) (now : ℤ) (e : AuthEnv B) (db : CredDb B) :
      CredStep X .touch e db { db with
        machineAccounts := db.machineAccounts.update (fun r => r.uuid = uuid)
          (fun r => { r with lastUsedAt := some now }) (by intro r; rfl) }
  | touchToken (uuid : Ident) (now : ℤ) (e : AuthEnv B) (db : CredDb B) :
      CredStep X .touch e db { db with
        accessTokens := db.accessTokens.update (fun r => r.uuid = uuid)
          (fun r => { r with lastUsedAt := some now }) (by intro r; rfl) (by intro r; rfl) }
  | insertToken (row : AccessTokenRow) (e : AuthEnv B) (db : CredDb B)
      (accessTokens : Table₂ AccessTokenRow.uuid AccessTokenRow.tokenHash)
      (h : db.accessTokens.insert row = some accessTokens)
      (hma : ∀ ma ∈ row.machineAccountUuid, (db.machineAccounts.get ma).isSome)
      (hlink : row.mintedFor = row.machineAccountUuid) (hnew : row.revokedAt = none) :
      CredStep X (.insertToken row.ownerUserId row.mintedFor row.scopes) e db { db with accessTokens }
  | revokeToken (uuid owner : Ident) (now : ℤ) (e : AuthEnv B) (db : CredDb B) :
      CredStep X (.revokeToken uuid owner) e db { db with
        accessTokens := db.accessTokens.update (fun r => r.uuid = uuid && r.ownerUserId = owner)
          (fun r => { r with revokedAt := some now }) (by intro r; rfl) (by intro r; rfl) }
  | storeChallenge (user : Ident) (nonce : B) (expiresAt now : ℤ) (e : AuthEnv B) (db : CredDb B) :
      CredStep X (.storeChallenge user) e db { db with
        challenges := db.challenges.upsert ⟨user, nonce, expiresAt, now, db.stored⟩
          (fun r => { r with nonce, expiresAt, createdAt := now, serial := db.stored })
          (by intro r; rfl)
        stored := db.stored + 1 }
  | deleteChallenge (user : Ident) (e : AuthEnv B) (db : CredDb B) :
      CredStep X (.deleteChallenge user) e db
        { db with challenges := db.challenges.delete fun r => r.user = user }
  | createRecoverySession (row : RecoverySessionRow) (e : AuthEnv B) (db : CredDb B)
      (recoverySessions : Table RecoverySessionRow.tokenHash)
      (h : db.recoverySessions.insert row = some recoverySessions) :
      CredStep X (.createRecoverySession row.userId) e db { db with recoverySessions }
  | consumeRecoverySession (hash : String) (e : AuthEnv B) (db : CredDb B) :
      CredStep X (.consumeRecoverySession hash) e db
        { db with recoverySessions := db.recoverySessions.delete fun r => r.tokenHash = hash }
  | completeRecovery (user : Ident) (opaqueRecord kdfSalt svk svkRk rkPublicKey : B) (now : ℤ)
      (e : AuthEnv B) (db : CredDb B) :
      CredStep X (.completeRecovery user) e db
        (recovered user opaqueRecord kdfSalt svk svkRk rkPublicKey now db)
  | storeReclaim (user : Ident) (token : String) (suspendedUntil : ℤ) (e : AuthEnv B)
      (db : CredDb B) :
      CredStep X (.storeReclaim user) e db (db.setCols user (fun r => { r with
        reclaimToken := some token, suspendedUntil := some suspendedUntil }) (by intro r; rfl))
  | clearReclaim (user : Ident) (e : AuthEnv B) (db : CredDb B) :
      CredStep X (.clearReclaim user) e db (db.setCols user (fun r => { r with
        reclaimToken := none, suspendedUntil := none }) (by intro r; rfl))
  | registerTotpFailure (user : Ident) (now : ℤ) (e : AuthEnv B) (db : CredDb B) :
      CredStep X (.registerTotpFailure user) e db (db.setCols user (fun r => { r with
        totpFailCount := r.totpFailCount + 1
        totpLockUntil := if 5 ≤ r.totpFailCount + 1 then now + 15 * 60000 else r.totpLockUntil })
        (by intro r; rfl))
  | clearTotpFailures (user : Ident) (e : AuthEnv B) (db : CredDb B) :
      CredStep X (.clearTotpFailures user) e db (db.setCols user (fun r => { r with
        totpFailCount := 0, totpLockUntil := 0 }) (by intro r; rfl))
  | bumpPending (hash : String) (e : AuthEnv B) (db : CredDb B) :
      CredStep X (.bumpPending hash) e db (onPending (·.update (fun r => r.tokenHash = hash)
        (fun r => { r with attempts := r.attempts + 1 }) (by intro r; rfl)) db)
  | deletePending (hash : String) (e : AuthEnv B) (db : CredDb B) :
      CredStep X (.deletePending hash) e db (onPending (·.delete fun r => r.tokenHash = hash) db)
  | markTotpStep (user : Ident) (step now : ℤ) (e : AuthEnv B) (db : CredDb B) :
      CredStep X (.markTotpStep user step) e db
        { db with usedSteps := (db.usedSteps.insert ⟨user, step, now⟩).getD db.usedSteps }
  | pruneTotpSteps (now : ℤ) (e : AuthEnv B) (db : CredDb B) :
      CredStep X .pruneTotpSteps e db
        { db with usedSteps := db.usedSteps.delete fun r => r.usedAt < now - 86400000 }
  | redeemRecoveryCode (user : Ident) (hash : String) (e : AuthEnv B) (db : CredDb B) :
      CredStep X (.redeemRecoveryCode user hash) e db { db with
        recoveryCodes := db.recoveryCodes.update
          (fun r => r.user = user && r.codeHash = hash && !r.used)
          (fun r => { r with used := true }) (by intro r; rfl) }

/-- The statement is one of the above. -/
def Does (X : CredExt B) (ev : CredEv B) : Prop := CredStep X ev.name ev.inp ev.pre ev.post

section Handlers

variable {X} {α : Type} {rely : CredStmt → CredDb B → CredDb B → Prop}

lemma does_select (l : CredStmt) (g : CredDb B → α) :
    Guarantees rely (Does X) (select l g : CredRepo B α).run :=
  guarantees_statement (fun _ _ => .same _ _ _) fun _ _ => .same _ _ _

/-- A statement that is one of the list whenever it runs. -/
lemma does_statement {l : CredStmt} {g : AuthEnv B → CredDb B → CredDb B × Except SqlError α}
    (h : ∀ e db, CredStep X l e db (g e db).1) : Guarantees rely (Does X) (statement l g).run :=
  guarantees_statement (fun _ _ => .same _ _ _) h

lemma does_orElse {x : CredRepo B (Option α)} (h : Guarantees rely (Does X) x.run)
    (err : ApiError) : Guarantees rely (Does X) (orElse x err).run := by
  refine guarantees_bind_except (guarantees_orInternal h) ?_
  rintro (_ | a)
  · exact guarantees_throw_except _
  · exact guarantees_pure_except _

/-- What a login promises on its tables. -/
lemma does_login {p : Prog (AuthDb B) (AuthEnv B) AuthStmt α}
    (h : Guarantees (fun _ _ _ => True) (AuthDoes X.loginExt) p) :
    Guarantees rely (Does X) (zoom login p) :=
  guarantees_zoom h (fun _ _ _ _ => trivial) fun l e db s hs => .login l e db s hs

lemma does_nowMs : Guarantees rely (Does X) (Credentials.nowMs : CredHandler B ℤ).run :=
  does_login auth_read

lemma does_random : Guarantees rely (Does X) (Credentials.random : CredHandler B B).run :=
  does_login auth_read

lemma does_newUuid : Guarantees rely (Does X) (Credentials.newUuid : CredHandler B Ident).run :=
  does_login auth_read

lemma does_audit : Guarantees rely (Does X) (Credentials.auditOrgEvent : CredRepo B Unit).run :=
  does_login auth_auditOrgEvent

lemma does_getUserByEmail (email : String) :
    Guarantees rely (Does X) (Credentials.getUserByEmail email : CredRepo B _).run :=
  does_login (auth_select _ _)

/-- A session for a user that is there. -/
lemma does_storeSession (token : String) (user : Ident) (expiresAt : ℤ) :
    Guarantees rely (Does X) (Credentials.storeSession X token user expiresAt).run := by
  refine does_statement fun e db => ?_
  split
  · exact .login _ e db _ (.storeSession (X.hashToken token) user expiresAt e db.auth)
  · exact .same _ _ _

/-! ### Tokens and machine accounts -/

lemma does_authUser (token : String) : Guarantees rely (Does X) (authUser X token).run := by
  refine guarantees_bind_except (does_orElse (does_select _ _) _) fun session =>
    guarantees_bind_except does_nowMs fun now => ?_
  split
  · exact guarantees_throw_except _
  refine guarantees_bind_except (guarantees_orInternal (does_select _ _)) fun suspended => ?_
  split
  · exact guarantees_throw_except _
  · exact guarantees_pure_except _

lemma does_getMachineAccount (uuid owner : Ident) :
    Guarantees rely (Does X) (getMachineAccount uuid owner : CredRepo B _).run := does_select _ _

/-- A token without a machine account needs none. -/
lemma does_requireMachineAccount (row : AccessTokenRow) (now : ℤ) :
    Guarantees rely (Does X) (requireMachineAccount row now : CredHandler B Unit).run := by
  unfold requireMachineAccount
  cases row.machineAccountUuid with
  | none => exact guarantees_pure_except _
  | some uuid =>
    refine guarantees_bind_except (does_orElse (does_getMachineAccount _ _) _) fun ma => ?_
    split
    · exact guarantees_throw_except _
    split
    · exact guarantees_throw_except _
    · exact guarantees_pure_except _

lemma does_touchAccountOf (row : AccessTokenRow) (now : ℤ) :
    Guarantees rely (Does X) (touchAccountOf row now : CredHandler B Unit).run := by
  unfold touchAccountOf
  cases row.machineAccountUuid with
  | none => exact guarantees_pure_except _
  | some ma => exact guarantees_ignored (does_statement fun e db => .touchMachineAccount _ _ e db)

/-- Only the times of the last use are set. -/
lemma does_verifyAccessToken (token : String) :
    Guarantees rely (Does X) (verifyAccessToken X token).run := by
  refine guarantees_bind_except does_nowMs fun now =>
    guarantees_bind_except (does_orElse (does_select _ _) _) fun row => ?_
  split
  · exact guarantees_throw_except _
  split
  · exact guarantees_throw_except _
  exact guarantees_bind_except (does_requireMachineAccount row now) fun _ =>
    guarantees_bind_except (guarantees_ignored (does_statement fun e db => .touchToken _ _ e db))
      fun _ => guarantees_bind_except (does_touchAccountOf row now) fun _ =>
        guarantees_pure_except _

lemma does_authAny (token : String) : Guarantees rely (Does X) (authAny X token).run := by
  unfold authAny
  split
  · exact guarantees_bind_except (does_verifyAccessToken _) fun _ =>
      guarantees_bind_except (does_orElse (does_select _ _) _) fun _ => guarantees_pure_except _
  · exact guarantees_bind_except (does_authUser _) fun _ => guarantees_pure_except _

lemma does_logout (bearer : String) : Guarantees rely (Does X) (logout X bearer).run :=
  guarantees_bind_except (does_authUser _) fun _ =>
    guarantees_orInternal (does_statement fun e db => .deleteSession _ e db)

lemma does_requireScopes (scopes : List String) :
    Guarantees rely (Does X) (requireScopes scopes : CredHandler B Unit).run := by
  unfold requireScopes
  split
  · exact guarantees_throw_except _
  split
  · exact guarantees_throw_except _
  · exact guarantees_pure_except _

lemma does_requireFuture (expiresAt : Option ℤ) (err : ApiError) :
    Guarantees rely (Does X) (requireFuture expiresAt err : CredHandler B Unit).run := by
  unfold requireFuture
  cases expiresAt with
  | none => exact guarantees_pure_except _
  | some exp =>
    refine guarantees_bind_except does_nowMs fun now => ?_
    split
    · exact guarantees_throw_except _
    · exact guarantees_pure_except _

lemma does_validateCreate (req : TokenCreateReq) :
    Guarantees rely (Does X) (validateCreate X req).run := by
  unfold validateCreate
  split
  · exact guarantees_throw_except _
  split
  · exact guarantees_throw_except _
  · exact guarantees_bind_except (does_requireScopes _) fun _ => does_requireFuture _ _

lemma does_requireAllowed (user : Ident) (req : TokenCreateReq) :
    Guarantees rely (Does X) (requireAllowed user req : CredHandler B Unit).run := by
  unfold requireAllowed
  cases req.machineAccountUuid with
  | none => exact guarantees_pure_except _
  | some uuid =>
    refine guarantees_bind_except (does_orElse (does_getMachineAccount _ _) _) fun ma => ?_
    split
    · exact guarantees_throw_except _
    refine guarantees_bind_except (does_requireFuture _ _) fun _ => ?_
    split
    · exact guarantees_throw_except _
    · exact guarantees_pure_except _

lemma does_requireProject (user : Ident) (req : TokenCreateReq) :
    Guarantees rely (Does X) (requireProject user req : CredHandler B Unit).run := by
  unfold requireProject
  cases req.machineAccountUuid with
  | none => exact guarantees_pure_except _
  | some uuid =>
    refine guarantees_bind_except (guarantees_orInternal (does_getMachineAccount _ _)) fun ma => ?_
    split
    · split
      · exact guarantees_throw_except _
      · exact guarantees_pure_except _
    · exact guarantees_throw_except _
    · exact guarantees_pure_except _

/-- A new token is not revoked, and it is linked to the account it was made for. -/
lemma does_createAccessToken {row : AccessTokenRow} (hlink : row.mintedFor = row.machineAccountUuid)
    (hnew : row.revokedAt = none) :
    Guarantees rely (Does X) (createAccessToken row : CredRepo B Unit).run := by
  refine does_statement fun e db => ?_
  cases h : db.accessTokens.insert row with
  | none => exact .same _ _ _
  | some accessTokens =>
    dsimp only
    split
    · next hfk =>
      rw [Bool.and_eq_true] at hfk
      refine .insertToken row e db accessTokens h (fun ma hma => ?_) hlink hnew
      have hall := hfk.2
      rw [Option.mem_def.mp hma] at hall
      exact hall
    · exact .same _ _ _

lemma does_createToken (bearer : String) (req : TokenCreateReq) :
    Guarantees rely (Does X) (createToken X bearer req).run :=
  guarantees_bind_except (does_authUser _) fun _ =>
    guarantees_bind_except (does_validateCreate _) fun _ =>
    guarantees_bind_except (does_requireAllowed _ _) fun _ =>
    guarantees_bind_except (does_requireProject _ _) fun _ =>
    guarantees_bind_except does_newUuid fun _ =>
    guarantees_bind_except does_nowMs fun _ =>
    guarantees_bind_except does_random fun _ =>
    guarantees_bind_except (guarantees_orInternal (does_createAccessToken rfl rfl)) fun _ =>
    guarantees_bind_except (guarantees_orInternal does_audit) fun _ => guarantees_pure_except _

lemma does_revokeToken (bearer : String) (uuid : Ident) :
    Guarantees rely (Does X) (revokeToken X bearer uuid).run := by
  refine guarantees_bind_except (does_authUser _) fun user =>
    guarantees_bind_except does_nowMs fun now =>
    guarantees_bind_except (guarantees_orInternal (does_statement
      fun e db => .revokeToken _ _ _ e db)) fun hit => ?_
  split
  · exact guarantees_throw_except _
  · exact guarantees_orInternal does_audit

lemma does_createMachineAccount (row : MachineAccountRow) :
    Guarantees rely (Does X) (createMachineAccount row : CredRepo B Unit).run := by
  refine does_statement fun e db => ?_
  cases h : db.machineAccounts.insert row with
  | none => exact .same _ _ _
  | some machineAccounts =>
    dsimp only
    split
    · exact .insertMachineAccount row e db machineAccounts h
    · exact .same _ _ _

lemma does_createMachineAccountH (bearer : String) (req : MaCreateReq) :
    Guarantees rely (Does X) (createMachineAccountH X bearer req).run := by
  refine guarantees_bind_except (does_authUser _) fun user => ?_
  dsimp only
  split
  · exact guarantees_throw_except _
  split
  · exact guarantees_throw_except _
  · exact guarantees_bind_except (does_requireScopes _) fun _ =>
      guarantees_bind_except (does_requireFuture _ _) fun _ =>
      guarantees_bind_except does_newUuid fun _ =>
      guarantees_bind_except does_nowMs fun _ =>
      guarantees_bind_except (guarantees_orInternal (does_createMachineAccount _)) fun _ =>
      guarantees_bind_except (guarantees_orInternal does_audit) fun _ =>
        does_orElse (does_getMachineAccount _ _) _

lemma does_newStatus (req : MaUpdateReq) (current : MachineAccountRow) :
    Guarantees rely (Does X) (newStatus req current : CredHandler B MaStatus).run := by
  unfold newStatus
  split
  · exact guarantees_pure_except _
  split
  · exact guarantees_pure_except _
  · exact guarantees_throw_except _

lemma does_newScopes (req : MaUpdateReq) (current : MachineAccountRow) :
    Guarantees rely (Does X) (newScopes req current : CredHandler B (List String)).run := by
  unfold newScopes
  split
  · exact guarantees_pure_except _
  · exact guarantees_bind_except (does_requireScopes _) fun _ => guarantees_pure_except _

lemma does_updateMachineAccountH (bearer : String) (uuid : Ident) (req : MaUpdateReq) :
    Guarantees rely (Does X) (updateMachineAccountH X bearer uuid req).run := by
  refine guarantees_bind_except (does_authUser _) fun user =>
    guarantees_bind_except (does_orElse (does_getMachineAccount _ _) _) fun current => ?_
  dsimp only
  split
  · exact guarantees_throw_except _
  refine guarantees_bind_except (does_newStatus _ _) fun status =>
    guarantees_bind_except (does_newScopes _ _) fun scopes =>
    guarantees_bind_except (does_requireFuture _ _) fun _ =>
    guarantees_bind_except (guarantees_orInternal (does_statement
      fun e db => .updateMachineAccount _ _ _ _ _ _ _ e db)) fun hit => ?_
  split
  · exact guarantees_throw_except _
  · exact guarantees_bind_except (guarantees_orInternal does_audit) fun _ =>
      does_orElse (does_getMachineAccount _ _) _

/-- Its tokens lose the link to it. -/
lemma does_deleteMachineAccount (uuid owner : Ident) :
    Guarantees rely (Does X) (deleteMachineAccount uuid owner : CredRepo B Bool).run := by
  refine does_statement fun e db => ?_
  dsimp only
  split
  · next hpos =>
    refine .deleteMachineAccount uuid owner e db ?_
    obtain ⟨ma, hma, hits⟩ := List.countP_pos_iff.mp hpos
    rw [Bool.and_eq_true, decide_eq_true_eq, decide_eq_true_eq] at hits
    exact ⟨ma, hits.1 ▸ Table.get_of_mem hma, hits.2⟩
  · exact .same _ _ _

lemma does_deleteMachineAccountH (bearer : String) (uuid : Ident) :
    Guarantees rely (Does X) (deleteMachineAccountH X bearer uuid).run := by
  refine guarantees_bind_except (does_authUser _) fun user =>
    guarantees_bind_except (guarantees_orInternal (does_deleteMachineAccount _ _)) fun hit => ?_
  split
  · exact guarantees_throw_except _
  · exact guarantees_orInternal does_audit

/-! ### The second step of a login -/

/-- An expired pending token is deleted when it is presented. -/
lemma does_requirePending (hash : String) :
    Guarantees rely (Does X) (requirePending hash : CredHandler B Ident).run := by
  refine guarantees_bind_except (does_orElse (does_select _ _) _) fun row =>
    guarantees_bind_except does_nowMs fun now => ?_
  split
  · exact guarantees_bind_except (guarantees_ignored (does_statement
      fun e db => .deletePending _ e db)) fun _ => guarantees_throw_except _
  · exact guarantees_pure_except _

lemma does_completeLogin (hash : String) (user : Ident) :
    Guarantees rely (Does X) (completeLogin X hash user).run :=
  guarantees_bind_except (guarantees_orInternal (does_statement
      fun e db => .deletePending _ e db)) fun _ =>
    guarantees_bind_except does_newUuid fun _ =>
    guarantees_bind_except does_nowMs fun _ =>
    guarantees_bind_except (guarantees_orInternal (does_storeSession _ _ _)) fun _ =>
    guarantees_bind_except (guarantees_ignored does_audit) fun _ => guarantees_pure_except _

lemma does_verifyTotpWithStep (secret : B) (code : String) :
    Guarantees rely (Does X) (verifyTotpWithStep X secret code).run := by
  unfold verifyTotpWithStep
  split
  · exact guarantees_throw_except _
  · exact guarantees_bind_except does_nowMs fun _ => guarantees_pure_except _

/-- The step is marked, and then the old ones are pruned. -/
lemma does_markTotpStepUsed (user : Ident) (step now : ℤ) :
    Guarantees rely (Does X) (markTotpStepUsed user step now : CredRepo B Unit).run := by
  refine guarantees_bind_except (does_statement fun e db => ?_) fun _ =>
    guarantees_bind_except (guarantees_attempt (does_statement fun e db => ?_)) fun _ =>
      guarantees_pure_except _
  · split
    · exact .markTotpStep user step now e db
    · exact .same _ _ _
  · exact .pruneTotpSteps now e db

lemma does_acceptStep (hash : String) (user : Ident) (now step : ℤ) :
    Guarantees rely (Does X) (acceptStep X hash user now step).run := by
  refine guarantees_bind_except (guarantees_orInternal (does_select _ _)) fun used => ?_
  split
  · exact guarantees_throw_except _
  · exact guarantees_bind_except (guarantees_orInternal (does_markTotpStepUsed _ _ _)) fun _ =>
      guarantees_bind_except (guarantees_orInternal (does_statement
        fun e db => .clearTotpFailures _ e db)) fun _ => does_completeLogin _ _

/-- A wrong code counts against the pending token and against the user. -/
lemma does_verifyLoginTotp (req : TotpVerifyLoginReq) :
    Guarantees rely (Does X) (verifyLoginTotp X req).run := by
  refine guarantees_bind_except (does_requirePending _) fun user =>
    guarantees_bind_except (does_orElse (does_select _ _) _) fun secret =>
    guarantees_bind_except does_nowMs fun now =>
    guarantees_bind_except (guarantees_orInternal
      (guarantees_bind_except (does_select _ _) fun _ => guarantees_pure_except _)) fun lock => ?_
  split
  · exact guarantees_throw_except _
  refine guarantees_bind_except (does_verifyTotpWithStep _ _) ?_
  rintro (_ | step)
  · exact guarantees_bind_except (guarantees_orInternal (does_statement
        fun e db => .bumpPending _ e db)) fun _ =>
      guarantees_bind_except (guarantees_orInternal (does_statement
        fun e db => .registerTotpFailure _ _ e db)) fun _ => guarantees_throw_except _
  · exact does_acceptStep _ _ _ _

lemma does_verifyLoginRecovery (req : RecoveryVerifyLoginReq) :
    Guarantees rely (Does X) (verifyLoginRecovery X req).run := by
  refine guarantees_bind_except (does_requirePending _) fun user =>
    guarantees_bind_except (guarantees_orInternal (does_statement
      fun e db => .redeemRecoveryCode _ _ e db)) fun ok => ?_
  split
  · exact guarantees_bind_except (guarantees_orInternal (does_statement
      fun e db => .bumpPending _ e db)) fun _ => guarantees_throw_except _
  · exact does_completeLogin _ _

/-! ### Recovery -/

lemma does_storeRecoveryChallenge (user : Ident) (nonce : B) (expiresAt now : ℤ) :
    Guarantees rely (Does X) (storeRecoveryChallenge user nonce expiresAt now).run := by
  refine does_statement fun e db => ?_
  split
  · exact .storeChallenge user nonce expiresAt now e db
  · exact .same _ _ _

lemma does_recoverChallenge (email : String) :
    Guarantees rely (Does X) (recoverChallenge email : CredHandler B B).run := by
  refine guarantees_bind_except does_random fun nonce =>
    guarantees_bind_except (guarantees_orInternal (does_getUserByEmail _)) ?_
  rintro (_ | user)
  · exact guarantees_pure_except _
  · exact guarantees_bind_except does_nowMs fun _ => guarantees_bind_except does_nowMs fun _ =>
      guarantees_bind_except (guarantees_orInternal (does_storeRecoveryChallenge _ _ _ _)) fun _ =>
        guarantees_pure_except _

lemma does_deleteRecoveryChallenge (user : Ident) :
    Guarantees rely (Does X) (deleteRecoveryChallenge user : CredRepo B Unit).run :=
  does_statement fun e db => .deleteChallenge _ e db

lemma does_createRecoverySession (token : String) (user : Ident) (expiresAt now : ℤ) :
    Guarantees rely (Does X) (createRecoverySession X token user expiresAt now).run := by
  refine does_statement fun e db => ?_
  cases h : db.recoverySessions.insert ⟨X.hashToken token, user, expiresAt, now⟩ with
  | none => exact .same _ _ _
  | some recoverySessions =>
    dsimp only
    split
    · exact .createRecoverySession ⟨X.hashToken token, user, expiresAt, now⟩ e db _ h
    · exact .same _ _ _

lemma does_getRkPublicKey (user : Ident) :
    Guarantees rely (Does X) (getRkPublicKey user : CredRepo B (Option B)).run :=
  guarantees_bind_except (does_select _ _) fun _ => guarantees_pure_except _

lemma does_requireEcho [DecidableEq B] (nonce : Option (Option B)) (stored : B) :
    Guarantees rely (Does X) (requireEcho nonce stored).run := by
  unfold requireEcho
  cases nonce with
  | none => exact guarantees_pure_except _
  | some echo =>
    refine guarantees_bind_except (guarantees_decodeB64 _) fun n => ?_
    split
    · exact guarantees_throw_except _
    · exact guarantees_pure_except _

/-- The challenge is deleted before the recovery session is made. -/
lemma does_mintRecovery (user : Ident) : Guarantees rely (Does X) (mintRecovery X user).run :=
  guarantees_bind_except (guarantees_orInternal (does_deleteRecoveryChallenge _)) fun _ =>
    guarantees_bind_except does_newUuid fun _ =>
    guarantees_bind_except does_nowMs fun _ =>
    guarantees_bind_except (guarantees_orInternal (does_createRecoverySession _ _ _ _)) fun _ =>
      guarantees_pure_except _

lemma does_verifyChallenge [DecidableEq B] (req : VerifyReq B) (user : Ident) (key : B) :
    Guarantees rely (Does X) (verifyChallenge X req user key).run := by
  refine guarantees_bind_except (does_orElse (does_select _ _) _) fun challenge =>
    guarantees_bind_except does_nowMs fun now => ?_
  split
  · exact guarantees_bind_except (guarantees_ignored (does_deleteRecoveryChallenge _)) fun _ =>
      guarantees_throw_except _
  refine guarantees_bind_except (does_requireEcho _ _) fun _ =>
    guarantees_bind_except (guarantees_decodeB64 _) fun sig => ?_
  split
  · exact guarantees_throw_except _
  · exact does_mintRecovery _

lemma does_recoverVerify [DecidableEq B] (req : VerifyReq B) :
    Guarantees rely (Does X) (recoverVerify X req).run := by
  refine guarantees_bind_except (does_orElse (does_getUserByEmail _) _) fun user =>
    guarantees_bind_except (does_orElse (does_getRkPublicKey _) _) fun key => ?_
  split
  · exact guarantees_throw_except _
  · exact does_verifyChallenge _ _ _

lemma does_recoverInfo (token : String) : Guarantees rely (Does X) (recoverInfo X token).run :=
  guarantees_bind_except (does_orElse (does_statement fun e db => .same _ e db) _) fun _ =>
    guarantees_bind_except (does_orElse (does_select _ _) _) fun _ => guarantees_pure_except _

/-- The session is consumed first; a request that is well formed replaces the keys and revokes the
sessions of the user. -/
lemma does_recoverComplete (req : CompleteReq B) :
    Guarantees rely (Does X) (recoverComplete X req).run := by
  refine guarantees_bind_except (does_orElse (does_statement
      fun e db => .consumeRecoverySession _ e db) _) fun found =>
    guarantees_bind_except does_nowMs fun now => ?_
  split
  · exact guarantees_throw_except _
  refine guarantees_bind_except (guarantees_decodeB64 _) fun _ =>
    guarantees_bind_except (guarantees_decodeB64 _) fun _ =>
    guarantees_bind_except (guarantees_decodeB64 _) fun _ =>
    guarantees_bind_except (guarantees_decodeB64 _) fun _ =>
    guarantees_bind_except (guarantees_decodeB64 _) fun rkPk => ?_
  split
  · exact guarantees_throw_except _
  · exact guarantees_bind_except does_nowMs fun _ =>
      guarantees_bind_except (guarantees_orInternal (does_statement
        fun e db => .completeRecovery _ _ _ _ _ _ _ e db)) fun _ =>
      guarantees_bind_except (guarantees_orInternal (does_statement
        fun e db => .revokeUserSessions _ e db)) fun _ => guarantees_pure_except _

lemma does_reclaimProof (req : ReclaimReq B) (user : Ident) :
    Guarantees rely (Does X) (reclaimProof X req user).run := by
  refine guarantees_bind_except (guarantees_orInternal (does_getRkPublicKey _)) ?_
  rintro (_ | key)
  · exact guarantees_pure_except _
  dsimp only
  split
  · exact guarantees_pure_except _
  refine guarantees_bind_except (guarantees_orInternal (does_select _ _)) ?_
  rintro (_ | ⟨nonce, expiresAt⟩)
  · exact guarantees_pure_except _
  refine guarantees_bind_except does_nowMs fun now => ?_
  split
  · exact guarantees_bind_except (guarantees_ignored (does_deleteRecoveryChallenge _)) fun _ =>
      guarantees_pure_except _
  · exact guarantees_bind_except (guarantees_decodeB64 _) fun _ => guarantees_pure_except _

lemma does_reclaim (req : ReclaimReq B) : Guarantees rely (Does X) (reclaim X req).run := by
  refine guarantees_bind_except (guarantees_orInternal (does_getUserByEmail _)) ?_
  rintro (_ | user)
  · exact guarantees_pure_except _
  refine guarantees_bind_except (does_reclaimProof _ _) fun ok => ?_
  split
  · exact guarantees_pure_except _
  · exact guarantees_bind_except (guarantees_ignored (does_deleteRecoveryChallenge _)) fun _ =>
      guarantees_bind_except does_newUuid fun _ =>
      guarantees_bind_except does_nowMs fun _ =>
      guarantees_bind_except (guarantees_orInternal (does_statement
        fun e db => .storeReclaim _ _ _ e db)) fun _ => guarantees_pure_except _

lemma does_reclaimConfirm (token : String) :
    Guarantees rely (Does X) (reclaimConfirm X token).run :=
  guarantees_bind_except (does_orElse (does_select _ _) _) fun _ =>
    guarantees_orInternal (does_statement fun e db => .clearReclaim _ e db)

/-- **Every statement of every request** is one of the list. -/
theorem does_code [DecidableEq B] (q : CredReq B) : Guarantees rely (Does X) (code X q) := by
  cases q with
  | login q => exact guarantees_bind (does_login (auth_serve q)) fun _ => guarantees_ret _
  | authUser bearer => exact guarantees_bind (does_authUser _) fun _ => guarantees_ret _
  | authAny bearer => exact guarantees_bind (does_authAny _) fun _ => guarantees_ret _
  | verify secret => exact guarantees_bind (does_verifyAccessToken _) fun _ => guarantees_ret _
  | logout bearer => exact guarantees_bind (does_logout _) fun _ => guarantees_ret _
  | createToken bearer req =>
    exact guarantees_bind (does_createToken _ _) fun _ => guarantees_ret _
  | revokeToken bearer uuid =>
    exact guarantees_bind (does_revokeToken _ _) fun _ => guarantees_ret _
  | createMachineAccount bearer req =>
    exact guarantees_bind (does_createMachineAccountH _ _) fun _ => guarantees_ret _
  | updateMachineAccount bearer uuid req =>
    exact guarantees_bind (does_updateMachineAccountH _ _ _) fun _ => guarantees_ret _
  | deleteMachineAccount bearer uuid =>
    exact guarantees_bind (does_deleteMachineAccountH _ _) fun _ => guarantees_ret _
  | verifyLoginTotp req => exact guarantees_bind (does_verifyLoginTotp _) fun _ => guarantees_ret _
  | verifyLoginRecovery req =>
    exact guarantees_bind (does_verifyLoginRecovery _) fun _ => guarantees_ret _
  | recoverChallenge email =>
    exact guarantees_bind (does_recoverChallenge _) fun _ => guarantees_ret _
  | recoverVerify req => exact guarantees_bind (does_recoverVerify _) fun _ => guarantees_ret _
  | recoverInfo token => exact guarantees_bind (does_recoverInfo _) fun _ => guarantees_ret _
  | recoverComplete req =>
    exact guarantees_bind (does_recoverComplete _) fun _ => guarantees_ret _
  | reclaim req => exact guarantees_bind (does_reclaim _) fun _ => guarantees_ret _
  | reclaimConfirm token =>
    exact guarantees_bind (does_reclaimConfirm _) fun _ => guarantees_ret _

end Handlers

end Vautr.CredEffects
